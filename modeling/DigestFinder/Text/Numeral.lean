/-!
Unsigned numerals in a radix up to 36: reading below a limit, with the reason why a text is no
numeral, and writing.
-/

namespace DigestFinder.Text

/-- Why a text is no numeral below a limit. -/
inductive NumeralDefect
  | empty
  | invalidDigit
  | tooLarge
  deriving Repr, DecidableEq

namespace NumeralDefect

def message : NumeralDefect → String
  | empty => "cannot parse integer from empty string"
  | invalidDigit => "invalid digit found in string"
  | tooLarge => "number too large to fit in target type"

end NumeralDefect

/-- The value of a digit; letters of both cases count from ten. -/
def digit? (radix : Nat) (c : Char) : Option Nat :=
  let value? :=
    if '0' ≤ c ∧ c ≤ '9' then some (c.toNat - '0'.toNat)
    else if 'a' ≤ c ∧ c ≤ 'z' then some (c.toNat - 'a'.toNat + 10)
    else if 'A' ≤ c ∧ c ≤ 'Z' then some (c.toNat - 'A'.toNat + 10)
    else none
  value?.filter (· < radix)

/-- Read digits after those worth `value`. -/
def readDigits (radix limit value : Nat) : List Char → Except NumeralDefect Nat
  | [] => .ok value
  | c :: cs =>
    match digit? radix c with
    | none => .error .invalidDigit
    | some d =>
      if value * radix + d < limit then readDigits radix limit (value * radix + d) cs
      else .error .tooLarge

/-- Read a numeral below `limit`: digits, after at most one plus sign. -/
def readNumeral (radix limit : Nat) : List Char → Except NumeralDefect Nat
  | [] => .error .empty
  | ['+'] => .error .invalidDigit
  | '+' :: cs => readDigits radix limit 0 cs
  | cs => readDigits radix limit 0 cs

/-- The shortest numeral, with small letters for the digits from ten. -/
def numeral (radix n : Nat) : String := String.ofList (Nat.toDigits radix n)

end DigestFinder.Text
