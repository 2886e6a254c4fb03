import DigestFinder.Text.Json

/-!
What the numerals of a JSON text stand for: an integer where one is written and it fits in 64 bits,
a floating-point number elsewhere.
-/

namespace DigestFinder.Text.Json

/-- A numeral as it is written. -/
structure Numeral where
  negative : Bool
  whole : List Char
  /-- The digits behind the point, if there is one. -/
  fraction : Option (List Char)
  exponent : Option Int
  deriving Repr, DecidableEq

namespace Numeral

def readExponent? : List Char → Option Int
  | [] => none
  | '+' :: cs => (readDigits 10 UInt32.size 0 cs).toOption.map Int.ofNat
  | '-' :: cs => (readDigits 10 UInt32.size 0 cs).toOption.map fun n => -(n : Int)
  | cs => (readDigits 10 UInt32.size 0 cs).toOption.map Int.ofNat

def read? (cs : List Char) : Option Numeral := do
  let (negative, cs) := match cs with
    | '-' :: cs => (true, cs)
    | cs => (false, cs)
  let (whole, cs) := cs.span Char.isDigit
  let (fraction, cs) := match cs with
    | '.' :: cs => (some (cs.takeWhile Char.isDigit), cs.dropWhile Char.isDigit)
    | cs => (none, cs)
  match cs with
  | [] => return ⟨negative, whole, fraction, none⟩
  | e :: cs =>
    if e = 'e' ∨ e = 'E' then return ⟨negative, whole, fraction, some (← readExponent? cs)⟩
    else none

/-- Append digits to a value while it stays below 2 ^ 64. The other digits are left over. -/
def takeDigits (value : Nat) : List Char → Nat × List Char
  | [] => (value, [])
  | c :: cs =>
    let longer := 10 * value + (c.toNat - '0'.toNat)
    if longer < UInt64.size then takeDigits longer cs else (value, c :: cs)

/-- The exponent of the largest power of ten that is a finite number. -/
def maxPower : Nat := 308

def power (n : Nat) : Float := Float.ofScientific 1 false n

/-- Divide by a power of ten, as far as needed in several steps. -/
def divide (x : Float) (n : Nat) : Float :=
  if n ≤ maxPower then x / power n else divide (x / power maxPower) (n - maxPower)
termination_by n
decreasing_by
  simp only [maxPower] at *
  omega

/-- The number `value * 10 ^ exponent`, rounded before it is scaled and after. -/
def scale (value : Nat) (exponent : Int) : Float :=
  let x := value.toUInt64.toFloat
  if value = 0 then x
  else match exponent with
    | .ofNat n => x * power n
    | .negSucc n => divide x (n + 1)

/-- The number that a numeral stands for, if it is finite. Digits beyond 64 bits only count by their
places, and zero with a minus sign is no integer. -/
def number? (n : Numeral) : Option Json :=
  let (whole, left) := takeDigits 0 n.whole
  let isWhole := n.fraction.isNone && n.exponent.isNone && left.isEmpty
  if isWhole && !n.negative then some (.integer whole)
  else if isWhole && 0 < whole && whole ≤ UInt64.size / 2 then some (.integer (-(whole : Int)))
  else
    let fraction := n.fraction.getD []
    let (value, unused) := takeDigits whole fraction
    let places : Int := left.length - (fraction.length - unused.length : Nat)
    let size := scale value (n.exponent.getD 0 + places)
    if size.isFinite then some (.real (if n.negative then -size else size).toBits) else none

end Numeral

/-- Read the number in a JSON text. -/
def readNumber? (cs : List Char) : Option Json := do (← Numeral.read? cs).number?

end DigestFinder.Text.Json
