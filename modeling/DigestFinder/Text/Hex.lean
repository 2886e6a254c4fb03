import DigestFinder.Bytes
import DigestFinder.Text.Quoted

/-!
Hexadecimal byte strings, two digits a byte. Reading works on the bytes of a text and takes both
cases; the first defect is named.
-/

namespace DigestFinder.Text.Hex

/-- Why a text is no hexadecimal byte string. -/
inductive Defect
  | oddLength
  | digit (byte : UInt8) (index : Nat)
  deriving Repr, DecidableEq

def Defect.message : Defect → String
  | oddLength => "Odd number of digits"
  | digit byte index =>
    s!"Invalid character {quoteChar (Char.ofNat byte.toNat)} at position {index}"

/-- The digit of a value below sixteen. -/
def digit (upper : Bool) (v : UInt8) : Char :=
  if v < 10 then Char.ofNat (48 + v.toNat)
  else if upper then Char.ofNat (55 + v.toNat)
  else Char.ofNat (87 + v.toNat)

def encode (upper : Bool) (bs : Bytes) : List Char :=
  bs.flatMap fun (b : UInt8) => [digit upper (b >>> 4), digit upper (b &&& 15)]

/-- Small letters. -/
def text (bs : Bytes) : String := String.ofList (encode false bs)

def value? (c : UInt8) : Option UInt8 :=
  if 48 ≤ c && c ≤ 57 then some (c - 48)
  else if 65 ≤ c && c ≤ 70 then some (c - 55)
  else if 97 ≤ c && c ≤ 102 then some (c - 87)
  else none

def readDigit (index : Nat) (c : UInt8) : Except Defect UInt8 :=
  match value? c with
  | some v => .ok v
  | none => .error (.digit c index)

def readPairs (index : Nat) : Bytes → Except Defect Bytes
  | high :: low :: rest => do
    let h ← readDigit index high
    let l ← readDigit (index + 1) low
    let bs ← readPairs (index + 2) rest
    return ((h <<< 4) ||| l) :: bs
  | _ => .ok []

def decode (cs : Bytes) : Except Defect Bytes :=
  if cs.length % 2 = 0 then readPairs 0 cs else .error .oddLength

end DigestFinder.Text.Hex
