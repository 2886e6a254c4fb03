/-!
The shortest decimal that reads back as a given binary floating-point number, found in exact
arithmetic on the interval of reals that round to the number.
-/

namespace DigestFinder.Text

/-- A positive number `mantissa * 2 ^ exponent`, and whether the next number below is only half as
far away as the next one above. -/
structure Binary where
  mantissa : Nat
  exponent : Int
  narrowBelow : Bool
  deriving Repr, DecidableEq

/-- The positive number that the bits stand for, without their sign. -/
def Binary.ofBits (bits : UInt64) : Binary :=
  let fraction := (bits &&& 0xfffffffffffff).toNat
  let biased := ((bits >>> 52) &&& 0x7ff).toNat
  if biased = 0 then ⟨fraction, -1074, false⟩
  else ⟨(1 <<< 52) + fraction, (biased : Int) - 1075, fraction = 0 ∧ 1 < biased⟩

/-- The number and the ends of its interval as fractions with a common denominator. -/
structure Interval where
  low : Nat
  value : Nat
  high : Nat
  denominator : Nat
  /-- Whether the ends round to the number too. -/
  closed : Bool
  deriving Repr, DecidableEq

def Binary.interval (b : Binary) : Interval :=
  let up := (b.exponent - 2).toNat
  let down := (2 - b.exponent).toNat
  { low := (4 * b.mantissa - if b.narrowBelow then 1 else 2) <<< up
    value := (4 * b.mantissa) <<< up
    high := (4 * b.mantissa + 2) <<< up
    denominator := 1 <<< down
    closed := b.mantissa % 2 = 0 }

/-- A decimal `digits * 10 ^ exponent`. -/
structure Decimal where
  digits : Nat
  exponent : Int
  deriving Repr, DecidableEq

namespace Interval

/-- Twice the distance of a decimal from the number, if it is in the interval; all numbers are
scaled by the same factor. -/
def offset? (i : Interval) (d : Decimal) : Option Nat :=
  let up := Nat.pow 10 d.exponent.toNat
  let down := Nat.pow 10 (-d.exponent).toNat
  let x := d.digits * up * i.denominator
  let inside :=
    if i.closed then i.low * down ≤ x ∧ x ≤ i.high * down
    else i.low * down < x ∧ x < i.high * down
  if inside then some (2 * (max x (i.value * down) - min x (i.value * down))) else none

/-- The exponent of the power of ten above the number. -/
def magnitude (i : Interval) : Int :=
  if i.denominator ≤ i.value then ((Nat.toDigits 10 (i.value / i.denominator)).length : Int)
  else
    let zeros := (List.range 400).find? fun z => i.denominator ≤ i.value * Nat.pow 10 z
    1 - (zeros.getD 0 : Int)

/-- The nearer of the two decimals with `n` digits around the number that lie in the interval; of
two at the same distance the even one. -/
def withDigits? (i : Interval) (n : Nat) : Option Decimal :=
  let exponent := i.magnitude - n
  let below := i.value * Nat.pow 10 (-exponent).toNat / (i.denominator * Nat.pow 10 exponent.toNat)
  let floor : Decimal := ⟨below, exponent⟩
  let ceiling : Decimal := ⟨below + 1, exponent⟩
  match i.offset? floor, i.offset? ceiling with
  | some x, some y =>
    some (if x < y ∨ x = y ∧ below % 2 = 0 then floor else ceiling)
  | some _, none => some floor
  | none, some _ => some ceiling
  | none, none => none

/-- Seventeen digits are always enough. -/
def shortest (i : Interval) : Decimal :=
  ((List.range 17).findSome? fun n => i.withDigits? (n + 1)).getD ⟨0, 0⟩

end Interval

/-- Where positional notation ends, and how the exponent looks. -/
structure DecimalFormat where
  /-- The most digits in front of the point. -/
  maxWhole : Int
  /-- The most zeros behind the point before the first digit. -/
  maxZeros : Int
  mark : String
  /-- What stands in front of an exponent that is not negative. -/
  plus : String

def zeros (n : Int) : String := String.ofList (List.replicate n.toNat '0')

/-- Digits without zeros at the end, which the upper neighbour on a grid may have. -/
def significant (digits : List Char) : List Char := (digits.reverse.dropWhile (· = '0')).reverse

/-- Write digits with the point behind `point` of them. -/
def DecimalFormat.write (f : DecimalFormat) (digits : List Char) (point : Int) : String :=
  let text := String.ofList digits
  if 0 < point ∧ point ≤ f.maxWhole then
    if digits.length ≤ point then text ++ zeros (point - digits.length) ++ ".0"
    else String.ofList (digits.take point.toNat) ++ "." ++ String.ofList (digits.drop point.toNat)
  else if point ≤ 0 ∧ -point ≤ f.maxZeros then "0." ++ zeros (-point) ++ text
  else
    let fraction := if digits.length = 1 then "" else "." ++ String.ofList (digits.drop 1)
    let sign := if 0 < point then f.plus else ""
    String.ofList (digits.take 1) ++ fraction ++ f.mark ++ sign ++ toString (point - 1)

/-- The shortest text of a finite number. -/
def DecimalFormat.writeBits (f : DecimalFormat) (bits : UInt64) : String :=
  let sign := if bits >>> 63 = 0 then "" else "-"
  if bits <<< 1 = 0 then sign ++ "0.0"
  else
    let d := (Binary.ofBits bits).interval.shortest
    let digits := Nat.toDigits 10 d.digits
    sign ++ f.write (significant digits) (digits.length + d.exponent)

end DigestFinder.Text
