import Mathlib.Data.Nat.Digits.Defs
import DigestFinder.Proofs.Text.Reading

/-!
What a numeral is: digits in a radix, the first counting most, maybe behind a sign. Main statement:
reading below a limit accepts just the numerals that stand for a number below it.
-/

namespace DigestFinder.Text

/-- The digits from nought on. -/
def digitOrder : List Char := "0123456789abcdefghijklmnopqrstuvwxyz".toList

/-- A character in either case that stands for `d`. -/
def IsDigit (radix : Nat) (c : Char) (d : Nat) : Prop :=
  d < radix ∧ digitOrder[d]? = some c.toLower

def Numeral (radix : Nat) (cs : List Char) (n : Nat) : Prop :=
  cs ≠ [] ∧ ∃ ds, List.Forall₂ (IsDigit radix) cs ds ∧ Nat.ofDigits radix ds.reverse = n

/-- A numeral behind one of the signs. -/
def Signed (signs : List String) (radix : Nat) (cs : List Char) (n : Nat) : Prop :=
  ∃ sign ∈ signs, ∃ digits, cs = sign.toList ++ digits ∧ Numeral radix digits n

theorem getElem?_digitOrder {c : Char} {d : Nat} : digitOrder[d]? = some c ↔
    d < 10 ∧ c.toNat = 48 + d ∨ 10 ≤ d ∧ d < 36 ∧ c.toNat = 87 + d := by
  have all : ∀ d < 36, digitOrder[d]?.map Char.toNat = some (if d < 10 then 48 + d else 87 + d) := by
    decide
  have injective : Function.Injective Char.toNat := fun _ _ => Char.toNat_inj.mp
  by_cases h : d < 36
  · rw [← (Option.map_injective injective).eq_iff, all d h, Option.map_some, Option.some.injEq]
    split <;> omega
  · have size : digitOrder.length = 36 := by decide
    rw [List.getElem?_eq_none (by omega)]
    simp
    omega

theorem isDigit_iff {radix : Nat} {c : Char} {d : Nat} :
    IsDigit radix c d ↔ digit? radix c = some d := by
  rw [IsDigit, getElem?_digitOrder, toNat_toLower, digit?_eq, Option.filter_eq_some_iff,
    decide_eq_true_iff, and_comm]
  apply and_congr_left'
  split_ifs <;> simp only [Option.some.injEq, iff_false] <;> omega

theorem map_digit?_iff {radix : Nat} {cs : List Char} {ds : List Nat} :
    cs.map (digit? radix) = ds.map some ↔ List.Forall₂ (IsDigit radix) cs ds := by
  have same : IsDigit radix = fun c d => digit? radix c = some d :=
    funext₂ fun _ _ => propext isDigit_iff
  rw [same, ← List.forall₂_eq_eq_eq, List.forall₂_map_left_iff, List.forall₂_map_right_iff]

theorem digitsValue_eq_ofDigits (radix : Nat) (ds : List Nat) :
    digitsValue radix 0 ds = Nat.ofDigits radix ds.reverse := by
  rw [Nat.ofDigits_eq_foldr, List.foldr_reverse]
  unfold digitsValue
  congr 1
  funext n d
  rw [Nat.mul_comm, Nat.add_comm]
  rfl

theorem readDigits_eq_ok_iff {radix limit value n : Nat} (hr : 0 < radix) (hv : value < limit)
    {cs : List Char} : readDigits radix limit value cs = .ok n ↔
      ∃ ds, cs.map (digit? radix) = ds.map some ∧ digitsValue radix value ds = n ∧ n < limit := by
  constructor
  · intro h
    induction cs generalizing value with
    | nil =>
      obtain rfl : value = n := Except.ok.inj h
      exact ⟨[], rfl, rfl, hv⟩
    | cons c cs ih =>
      rw [readDigits] at h
      cases hc : digit? radix c with
      | none => simp [hc] at h
      | some d =>
        simp only [hc] at h
        split at h
        · next below =>
          obtain ⟨ds, hd, hn, hl⟩ := ih below h
          exact ⟨d :: ds, by simp [hc, hd], hn, hl⟩
        · cases h
  · rintro ⟨ds, hd, rfl, hl⟩
    exact readDigits_of_digits hr hd hl

theorem numeral_iff {radix : Nat} {cs : List Char} {n : Nat} : Numeral radix cs n ↔
    cs ≠ [] ∧ ∃ ds, cs.map (digit? radix) = ds.map some ∧ digitsValue radix 0 ds = n := by
  simp only [Numeral, map_digit?_iff, digitsValue_eq_ofDigits]

theorem Numeral.exists_digit {radix : Nat} {cs : List Char} {n : Nat} (h : Numeral radix cs n)
    {c : Char} (hc : c ∈ cs) : ∃ d, digit? radix c = some d := by
  obtain ⟨-, ds, map, -⟩ := numeral_iff.mp h
  have hm : digit? radix c ∈ ds.map some := map ▸ List.mem_map_of_mem hc
  obtain ⟨d, -, hd⟩ := List.mem_map.mp hm
  exact ⟨d, hd.symm⟩

theorem Signed.mono {signs more : List String} {radix : Nat} {cs : List Char} {n : Nat}
    (h : Signed signs radix cs n) (sub : signs ⊆ more) : Signed more radix cs n := by
  obtain ⟨sign, hs, number⟩ := h
  exact ⟨sign, sub hs, number⟩

theorem signed_bare_iff {radix : Nat} {cs : List Char} {n : Nat} :
    Signed [""] radix cs n ↔ Numeral radix cs n := by
  simp [Signed]

theorem signed_iff {radix : Nat} {cs : List Char} {n : Nat} : Signed ["", "+"] radix cs n ↔
    Numeral radix cs n ∨ ∃ digits, cs = '+' :: digits ∧ Numeral radix digits n := by
  simp [Signed]

namespace Signed

variable {radix n : Nat} {cs : List Char} (h : Signed ["", "+"] radix cs n) {c : Char}

include h

/-- A number has no other characters than digits and a plus sign. -/
theorem eq_plus_or_digit (hc : c ∈ cs) : c = '+' ∨ ∃ d, digit? radix c = some d := by
  rcases signed_iff.mp h with number | ⟨digits, rfl, number⟩
  · exact .inr (number.exists_digit hc)
  · exact (List.mem_cons.mp hc).imp_right number.exists_digit

theorem not_mem (hd : digit? radix c = none) (hp : c ≠ '+') : c ∉ cs := by
  intro hc
  rcases h.eq_plus_or_digit hc with hc | ⟨d, hc⟩
  · exact hp hc
  · rw [hd] at hc
    cases hc

theorem visible (hc : c ∈ cs) : Visible c := by
  rcases h.eq_plus_or_digit hc with rfl | ⟨d, hd⟩
  · decide
  · exact visible_of_isAlphanum (isAlphanum_of_digit? hd)

end Signed

/-- Reading accepts the numerals below the limit, which may have a plus sign. -/
theorem readNumeral_eq_ok_iff {radix limit n : Nat} (hr : 0 < radix) (hl : 0 < limit)
    {cs : List Char} :
    readNumeral radix limit cs = .ok n ↔ Signed ["", "+"] radix cs n ∧ n < limit := by
  have whole {ds : List Char} (hne : ds ≠ []) :
      readDigits radix limit 0 ds = .ok n ↔ Numeral radix ds n ∧ n < limit := by
    rw [readDigits_eq_ok_iff hr hl, numeral_iff]
    constructor
    · rintro ⟨ds, hd, hn, below⟩
      exact ⟨⟨hne, ds, hd, hn⟩, below⟩
    · rintro ⟨⟨-, ds, hd, hn⟩, below⟩
      exact ⟨ds, hd, hn, below⟩
  have noSign {ds : List Char} : ¬ Numeral radix ('+' :: ds) n := by
    intro h
    obtain ⟨d, hd⟩ := h.exists_digit List.mem_cons_self
    cases hd
  rw [signed_iff]
  unfold readNumeral
  split
  · simp [Numeral]
  · simp [noSign]
    simp [Numeral]
  · next ds hne =>
    rw [whole (by simpa using hne)]
    simp [noSign]
  · next hne hs hp =>
    rw [whole hne]
    have bare : ¬ ∃ ds, cs = '+' :: ds ∧ Numeral radix ds n := by
      rintro ⟨ds, h, -⟩
      exact hp ds h
    simp [bare]

theorem isDigit_digitChar {radix d : Nat} (small : radix ≤ 16) (h : d < radix) :
    IsDigit radix (Nat.digitChar d) d := by
  have all : ∀ d < 16, digitOrder[d]? = some (Nat.digitChar d).toLower := by decide
  exact ⟨h, all d (by omega)⟩

/-- What is written for a number stands for it. -/
theorem numeral_toDigits {radix : Nat} (two_le : 1 < radix) (small : radix ≤ 16) (n : Nat) :
    Numeral radix (Nat.toDigits radix n) n := by
  induction n using Nat.strongRecOn with
  | ind n ih =>
    have last : IsDigit radix (Nat.digitChar (n % radix)) (n % radix) :=
      isDigit_digitChar small (Nat.mod_lt _ (by omega))
    rw [Nat.toDigits_eq_if two_le]
    split
    · next single =>
      rw [Nat.mod_eq_of_lt single] at last
      exact ⟨by simp, [n], .cons last .nil, by simp⟩
    · obtain ⟨-, ds, digits, value⟩ := ih (n / radix) (Nat.div_lt_self (by omega) two_le)
      refine ⟨by simp, ds ++ [n % radix], List.rel_append digits (.cons last .nil), ?_⟩
      rw [List.reverse_append, List.reverse_singleton, List.singleton_append,
        Nat.ofDigits_cons, value]
      exact Nat.mod_add_div n radix

theorem readNumeral_toDigits {radix limit n : Nat} (two_le : 1 < radix) (small : radix ≤ 16)
    (h : n < limit) : readNumeral radix limit (Nat.toDigits radix n) = .ok n :=
  (readNumeral_eq_ok_iff (by omega) (by omega)).mpr
    ⟨signed_iff.mpr (.inl (numeral_toDigits two_le small n)), h⟩

/-- A hexadecimal number that is read is the value of a word. -/
theorem readNumeral_word_iff {cs : List Char} {n : Nat} :
    readNumeral 16 UInt64.size cs = .ok n ↔
      ∃ v : UInt64, v.toNat = n ∧ Signed ["", "+"] 16 cs n := by
  rw [readNumeral_eq_ok_iff (by decide) (by decide)]
  constructor
  · rintro ⟨number, below⟩
    exact ⟨n.toUInt64, UInt64.toNat_ofNat_of_lt below, number⟩
  · rintro ⟨v, rfl, number⟩
    exact ⟨number, v.toNat_lt⟩

end DigestFinder.Text
