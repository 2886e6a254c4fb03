import DigestFinder.Bytes

/-!
Base64: three bytes as four symbols of six bits. Writing takes an alphabet and may pad; reading
takes the standard alphabet with canonical padding and names the first defect.
-/

namespace DigestFinder.Text.Base64

/-- An alphabet is fixed by its last two symbols; the others are letters and digits. -/
structure Alphabet where
  symbol62 : Char
  symbol63 : Char

def Alphabet.standard : Alphabet := ⟨'+', '/'⟩

def Alphabet.urlSafe : Alphabet := ⟨'-', '_'⟩

/-- The symbol of a value below 64. -/
def Alphabet.symbol (a : Alphabet) (v : UInt8) : Char :=
  if v < 26 then Char.ofNat (65 + v.toNat)
  else if v < 52 then Char.ofNat (71 + v.toNat)
  else if v < 62 then Char.ofNat (v.toNat - 4)
  else if v = 62 then a.symbol62
  else a.symbol63

def encode (a : Alphabet) (padded : Bool) : Bytes → List Char
  | x :: y :: z :: rest =>
    a.symbol (x >>> 2) :: a.symbol (((x &&& 3) <<< 4) ||| (y >>> 4)) ::
      a.symbol (((y &&& 15) <<< 2) ||| (z >>> 6)) :: a.symbol (z &&& 63) :: encode a padded rest
  | [x, y] =>
    a.symbol (x >>> 2) :: a.symbol (((x &&& 3) <<< 4) ||| (y >>> 4)) ::
      a.symbol ((y &&& 15) <<< 2) :: if padded then ['='] else []
  | [x] =>
    a.symbol (x >>> 2) :: a.symbol ((x &&& 3) <<< 4) :: if padded then ['=', '='] else []
  | [] => []

/-- Why a text is no canonical Base64; places count bytes from zero. -/
inductive Defect
  | symbol (index : Nat) (byte : UInt8)
  | length (count : Nat)
  | lastSymbol (index : Nat) (byte : UInt8)
  | padding
  deriving Repr, DecidableEq

namespace Defect

def message : Defect → String
  | symbol index byte => s!"Invalid symbol {byte.toNat}, offset {index}."
  | length count => s!"Invalid input length: {count}"
  | lastSymbol index byte => s!"Invalid last symbol {byte.toNat}, offset {index}."
  | padding => "Invalid padding"

end Defect

/-- The padding sign. -/
def pad : UInt8 := 61

/-- The value of a symbol of the standard alphabet. -/
def value? (c : UInt8) : Option UInt8 :=
  if 65 ≤ c && c ≤ 90 then some (c - 65)
  else if 97 ≤ c && c ≤ 122 then some (c - 71)
  else if 48 ≤ c && c ≤ 57 then some (c + 4)
  else if c = 43 then some 62
  else if c = 47 then some 63
  else none

def readSymbol (index : Nat) (c : UInt8) : Except Defect UInt8 :=
  match value? c with
  | some v => .ok v
  | none => .error (.symbol index c)

/-- The whole bytes in up to four values, and the bits left over. -/
def join : List UInt8 → Bytes × UInt8
  | [s, t] => ([(s <<< 2) ||| (t >>> 4)], t &&& 15)
  | [s, t, u] => ([(s <<< 2) ||| (t >>> 4), (t <<< 4) ||| (u >>> 2)], u &&& 3)
  | [s, t, u, v] =>
    ([(s <<< 2) ||| (t >>> 4), (t <<< 4) ||| (u >>> 2), (u <<< 6) ||| v], 0)
  | _ => ([], 0)

/-- The last group, read up to some place: the values, the last symbol and the padding. -/
structure Tail where
  values : List UInt8 := []
  lastSymbol : UInt8 := 0
  pads : Nat := 0

/-- Read the last group, which starts at `start`. Padding may begin after two symbols, and no
symbol may follow it: then the first padding sign is at fault. -/
def readTail (start : Nat) (t : Tail) : Bytes → Except Defect Tail
  | [] => .ok t
  | c :: cs =>
    let place := start + t.values.length + t.pads
    if c = pad then
      if t.values.length + t.pads < 2 then .error (.symbol place c)
      else readTail start { t with pads := t.pads + 1 } cs
    else if 0 < t.pads then .error (.symbol (start + t.values.length) pad)
    else do
      let v ← readSymbol place c
      readTail start { t with values := t.values ++ [v], lastSymbol := c } cs

/-- The bytes of the last group. -/
def finish (start : Nat) (t : Tail) : Except Defect Bytes :=
  if t.values.length = 1 then .error (.length (start + 1))
  else if (t.pads + t.values.length) % 4 ≠ 0 then .error .padding
  else
    let (bs, left) := join t.values
    if left = 0 then .ok bs
    else .error (.lastSymbol (start + t.values.length - 1) t.lastSymbol)

/-- Read groups of four from `start`; only the last may hold padding. -/
def readGroups (start : Nat) : Bytes → Except Defect Bytes
  | a :: b :: c :: d :: e :: rest => do
    let s ← readSymbol start a
    let t ← readSymbol (start + 1) b
    let u ← readSymbol (start + 2) c
    let v ← readSymbol (start + 3) d
    let bs ← readGroups (start + 4) (e :: rest)
    return (join [s, t, u, v]).1 ++ bs
  | group => do finish start (← readTail start {} group)

/-- Read a text. A single byte behind whole groups is looked at first: if it is neither a symbol
nor padding, it is the defect that is named. -/
def decode (cs : Bytes) : Except Defect Bytes :=
  match cs.getLast? with
  | some c =>
    if cs.length % 4 = 1 ∧ c ≠ pad ∧ value? c = none then .error (.symbol (cs.length - 1) c)
    else readGroups 0 cs
  | none => .ok []

end DigestFinder.Text.Base64
