import DigestFinder.Text.Base64
import DigestFinder.Text.Blank
import DigestFinder.Text.Field
import DigestFinder.Text.Hex
import DigestFinder.Text.Quoted

/-!
A message given in one line, as a format and a value with a colon between them. A text without a
known format stands for itself.
-/

namespace DigestFinder.Sequence

/-- Why a list of bytes or a string of bits cannot be read. -/
inductive Defect
  | item (text : String) (defect : Text.NumeralDefect)
  | bitCount (n : Nat)
  | bit (byte : UInt8)
  deriving Repr, DecidableEq

inductive Error
  | malformed (input : String) (defect : Defect)
  | hex (defect : Text.Hex.Defect)
  | base64 (defect : Text.Base64.Defect)
  deriving Repr, DecidableEq

def Defect.message : Defect → String
  | item text defect => s!"byte {Text.quote text}: {defect.message}"
  | bitCount n => s!"{n} bits is not a whole number of bytes"
  | bit byte => s!"unexpected character {Text.quoteChar (Char.ofNat byte.toNat)}"

/-- What stands behind the general wording, if there is a cause of its own. -/
def Error.cause? : Error → Option String
  | malformed _ _ => none
  | hex defect => defect.message
  | base64 defect => defect.message

def Error.message : Error → String
  | malformed input defect => s!"invalid sequence {Text.quote input}: {defect.message}"
  | hex defect => s!"hex error: {defect.message}"
  | base64 defect => s!"base64 error: {defect.message}"

/-- Bytes as numerals with commas between them; a blank value has none. -/
def readItems (radix : Nat) (value : List Char) : Except Defect Bytes :=
  if Text.trim value = [] then .ok []
  else (Text.splitAt ',' value).mapM fun field =>
    match Text.readNumeral radix UInt8.size (Text.trim field) with
    | .ok n => .ok n.toUInt8
    | .error defect => .error (.item (String.ofList (Text.trim field)) defect)

/-- Add a bit at the low end. -/
def pushBit (b : UInt8) : UInt8 → Except Defect UInt8
  | 48 => .ok (b <<< 1)
  | 49 => .ok ((b <<< 1) ||| 1)
  | c => .error (.bit c)

/-- Bytes from groups of eight bits; `b` holds the `n` bits of the group that is being read. -/
def readBits (b : UInt8) (n : Nat) : Bytes → Except Defect Bytes
  | [] => .ok []
  | c :: cs => do
    let b ← pushBit b c
    if n = 7 then return b :: (← readBits 0 0 cs) else readBits b (n + 1) cs

/-- The value of a binary sequence; white space does not count. -/
def readBinary (value : List Char) : Except Defect Bytes :=
  let cs := Bytes.ofText (String.ofList (Text.strip value))
  if cs.length % 8 = 0 then readBits 0 0 cs else .error (.bitCount cs.length)

/-- The bytes that a text stands for. -/
def read (spec : String) : Except Error Bytes :=
  match Text.splitOnce ':' spec.toList with
  | none => .ok (Bytes.ofText spec)
  | some (format, value) =>
    let bytesOf (cs : List Char) := Bytes.ofText (String.ofList cs)
    match String.ofList (format.map Char.toLower) with
    | "txt" | "text" => .ok (bytesOf value)
    | "hex" => (Text.Hex.decode (bytesOf (Text.strip value))).mapError .hex
    | "dec" => (readItems 10 value).mapError (.malformed spec)
    | "oct" => (readItems 8 value).mapError (.malformed spec)
    | "bin" => (readBinary value).mapError (.malformed spec)
    | "base64" | "b64" => (Text.Base64.decode (bytesOf (Text.trim value))).mapError .base64
    | _ => .ok (Bytes.ofText spec)

/-- The form in which bytes are shown. -/
def display (bs : Bytes) : String := "hex:" ++ Text.Hex.text bs

end DigestFinder.Sequence
