/-!
The digits of a number in a radix. Their count is halved until single digits are left, which keeps
long numbers cheap. Main statement: the digits are those of `Nat.toDigits`.
-/

namespace DigestFinder.Text

/-- The lowest `2 ^ level` digits of a number, zeros included, in front of `tail`. -/
def halvedDigits (radix : Nat) : Nat → Nat → List Char → List Char
  | 0, n, tail => Nat.digitChar (n % radix) :: tail
  | level + 1, n, tail =>
    let half := Nat.pow radix (1 <<< level)
    halvedDigits radix level (n / half) (halvedDigits radix level (n % half) tail)

/-- A level at which no digit of a number is cut off. -/
def levelOf (n : Nat) : Nat := (n.log2 + 1).log2 + 1

def digits (radix n : Nat) : List Char :=
  if n = 0 then ['0'] else (halvedDigits radix (levelOf n) n []).dropWhile (· == '0')

/-- The lowest `count` digits of a number, found one by one. -/
def lowDigits (radix n : Nat) : Nat → List Char
  | 0 => []
  | count + 1 => lowDigits radix (n / radix) count ++ [Nat.digitChar (n % radix)]

theorem lowDigits_add (radix n a b : Nat) :
    lowDigits radix n (a + b) =
      lowDigits radix (n / Nat.pow radix b) a ++ lowDigits radix (n % Nat.pow radix b) b := by
  induction b generalizing n with
  | zero => simp [lowDigits]
  | succ b ih =>
    have more : Nat.pow radix (b + 1) = radix * Nat.pow radix b := Nat.mul_comm ..
    have high : n / Nat.pow radix (b + 1) = n / radix / Nat.pow radix b := by
      rw [more, Nat.div_div_eq_div_mul]
    have low : n % Nat.pow radix (b + 1) / radix = n / radix % Nat.pow radix b := by
      rw [more, Nat.mod_mul_right_div_self]
    have last : n % Nat.pow radix (b + 1) % radix = n % radix := Nat.mod_mul_left_mod ..
    rw [← Nat.add_assoc, lowDigits, ih, lowDigits, high, low, last, List.append_assoc]

theorem halvedDigits_eq (radix level n : Nat) (tail : List Char) :
    halvedDigits radix level n tail = lowDigits radix n (1 <<< level) ++ tail := by
  induction level generalizing n tail with
  | zero => rfl
  | succ level ih =>
    rw [halvedDigits, ih, ih, Nat.shiftLeft_succ, Nat.two_mul, lowDigits_add, List.append_assoc]

theorem lowDigits_zero (radix count : Nat) : lowDigits radix 0 count = List.replicate count '0' := by
  induction count with
  | zero => rfl
  | succ count ih => simp [lowDigits, ih, List.replicate_succ']

theorem dropWhile_lowDigits {radix n count : Nat} (two_le : 1 < radix) (pos : 0 < n)
    (fits : n < Nat.pow radix count) :
    (lowDigits radix n count).dropWhile (· == '0') = Nat.toDigits radix n := by
  induction count generalizing n with
  | zero => exact absurd fits (by simp; omega)
  | succ count ih =>
    rw [lowDigits, Nat.toDigits_eq_if two_le, List.dropWhile_append]
    by_cases small : n < radix
    · simp [small, Nat.div_eq_of_lt, Nat.mod_eq_of_lt, lowDigits_zero, Nat.ne_of_gt pos]
    · have bound : n / radix < Nat.pow radix count :=
        Nat.div_lt_of_lt_mul (Nat.mul_comm _ radix ▸ fits)
      rw [ih (Nat.div_pos (Nat.not_lt.mp small) (by omega)) bound]
      simp [small]

theorem lt_pow_levelOf {radix : Nat} (two_le : 1 < radix) (n : Nat) :
    n < Nat.pow radix (1 <<< levelOf n) := by
  have count : n.log2 + 1 < 1 <<< levelOf n := by
    rw [Nat.one_shiftLeft]
    exact Nat.lt_log2_self
  calc
    n < Nat.pow 2 (n.log2 + 1) := Nat.lt_log2_self
    _ ≤ Nat.pow radix (n.log2 + 1) := Nat.pow_le_pow_left two_le _
    _ ≤ Nat.pow radix (1 <<< levelOf n) :=
      Nat.pow_le_pow_right (by omega) (Nat.le_of_lt count)

theorem digits_eq_toDigits {radix : Nat} (two_le : 1 < radix) (n : Nat) :
    digits radix n = Nat.toDigits radix n := by
  unfold digits
  split
  · subst n
    simp
  · rw [halvedDigits_eq, List.append_nil]
    exact dropWhile_lowDigits two_le (by omega) (lt_pow_levelOf two_le n)

end DigestFinder.Text
