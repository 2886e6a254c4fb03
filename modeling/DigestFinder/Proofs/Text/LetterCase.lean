import Mathlib.Data.List.Forall2
import DigestFinder.Text.Field
import DigestFinder.Text.Numeral

/-!
The case of ASCII letters. Characters with one lower case are the two forms of a letter, or the
same; a digit counts the same in both forms.
-/

namespace DigestFinder.Text

theorem toNat_ofNat_of_lt {n : Nat} (h : n < 256) : (Char.ofNat n).toNat = n := by
  have valid : n.isValidChar := .inl (by omega)
  unfold Char.ofNat
  rw [dif_pos valid]
  rfl

/-- Only the letters from A to Z have another lower case. -/
theorem toLower_of_toNat {c : Char} (h : c.toNat < 65 ∨ 90 < c.toNat) : c.toLower = c := by
  unfold Char.toLower
  rw [dif_neg]
  rintro ⟨hA, hZ⟩
  have hA' : 65 ≤ c.toNat := UInt32.le_iff_toNat_le.mp hA
  have hZ' : c.toNat ≤ 90 := UInt32.le_iff_toNat_le.mp hZ
  omega

theorem toNat_toLower (c : Char) :
    c.toLower.toNat = if 65 ≤ c.toNat ∧ c.toNat ≤ 90 then c.toNat + 32 else c.toNat := by
  by_cases h : c.toNat < 65 ∨ 90 < c.toNat
  · rw [toLower_of_toNat h, if_neg (by omega)]
  · have all : ∀ n ≤ 90, 65 ≤ n → (Char.ofNat n).toLower.toNat = n + 32 := by decide
    have hc := all c.toNat (by omega) (by omega)
    rw [Char.ofNat_toNat] at hc
    rw [hc, if_pos (by omega)]

theorem toLower_of_isDigit {c : Char} (h : c.isDigit) : c.toLower = c := by
  have h9 : c.toNat ≤ 57 := (Char.isDigit_iff_toNat.mp h).2
  exact toLower_of_toNat (.inl (by omega))

theorem toNat_toUpper (c : Char) :
    c.toUpper.toNat = if 97 ≤ c.toNat ∧ c.toNat ≤ 122 then c.toNat - 32 else c.toNat := by
  by_cases h : 97 ≤ c.toNat ∧ c.toNat ≤ 122
  · have all : ∀ n ≤ 122, 97 ≤ n → (Char.ofNat n).toUpper.toNat = n - 32 := by decide
    have hc := all c.toNat h.2 h.1
    rw [Char.ofNat_toNat] at hc
    rw [hc, if_pos h]
  · rw [if_neg h]
    unfold Char.toUpper
    rw [dif_neg]
    rintro ⟨ha, hz⟩
    exact h ⟨UInt32.le_iff_toNat_le.mp ha, UInt32.le_iff_toNat_le.mp hz⟩

/-- Characters with one lower case are equal, or a letter in its two cases. -/
theorem toLower_eq_iff {c d : Char} :
    c.toLower = d.toLower ↔ c = d ∨ c = d.toUpper ∨ c = d.toLower := by
  have key (a b : Char) : a = b ↔ a.toNat = b.toNat := Char.toNat_inj.symm
  rw [key, key, key, key, toNat_toLower, toNat_toLower, toNat_toUpper]
  split_ifs <;> omega

theorem isUpper_iff {c : Char} : c.isUpper ↔ 65 ≤ c.toNat ∧ c.toNat ≤ 90 :=
  decide_eq_true_iff

theorem isLower_iff {c : Char} : c.isLower ↔ 97 ≤ c.toNat ∧ c.toNat ≤ 122 :=
  (Bool.and_eq_true_iff).trans (and_congr decide_eq_true_iff decide_eq_true_iff)

theorem isAlphanum_iff {c : Char} : c.isAlphanum ↔ (48 ≤ c.toNat ∧ c.toNat ≤ 57) ∨
    (65 ≤ c.toNat ∧ c.toNat ≤ 90) ∨ (97 ≤ c.toNat ∧ c.toNat ≤ 122) := by
  change ((c.isUpper || c.isLower) || c.isDigit) = true ↔ _
  rw [Bool.or_eq_true, Bool.or_eq_true, isUpper_iff, isLower_iff, Char.isDigit_iff_toNat]
  change _ ∨ (48 ≤ c.toNat ∧ c.toNat ≤ 57) ↔ _
  omega

theorem isAlphanum_toLower {c : Char} : c.toLower.isAlphanum ↔ c.isAlphanum := by
  rw [isAlphanum_iff, isAlphanum_iff, toNat_toLower]
  split_ifs <;> omega

/-- The value of a digit by its place among the characters. -/
theorem digit?_eq (radix : Nat) (c : Char) : digit? radix c =
    (if 48 ≤ c.toNat ∧ c.toNat ≤ 57 then some (c.toNat - 48)
    else if 97 ≤ c.toNat ∧ c.toNat ≤ 122 then some (c.toNat - 97 + 10)
    else if 65 ≤ c.toNat ∧ c.toNat ≤ 90 then some (c.toNat - 65 + 10)
    else none).filter (· < radix) := by
  have key (a : Char) : a ≤ c ↔ a.toNat ≤ c.toNat := UInt32.le_iff_toNat_le
  have key' (a : Char) : c ≤ a ↔ c.toNat ≤ a.toNat := UInt32.le_iff_toNat_le
  unfold digit?
  simp only [key, key']
  rfl

/-- A digit counts the same in both cases. -/
theorem digit?_toLower (radix : Nat) (c : Char) : digit? radix c.toLower = digit? radix c := by
  by_cases h : c.toNat < 65 ∨ 90 < c.toNat
  · rw [toLower_of_toNat h]
  · have lower : c.toLower.toNat = c.toNat + 32 := by
      rw [toNat_toLower, if_pos (by omega)]
    have value : c.toNat + 32 - 97 = c.toNat - 65 := by omega
    rw [digit?_eq, digit?_eq, lower, if_neg (by omega), if_pos (by omega), if_neg (by omega),
      if_neg (by omega), if_pos (by omega), value]

theorem isAlphanum_of_digit? {radix d : Nat} {c : Char} (h : digit? radix c = some d) :
    c.isAlphanum := by
  rw [digit?_eq] at h
  rw [isAlphanum_iff]
  split_ifs at h with digit small capital
  · exact .inl digit
  · exact .inr (.inr small)
  · exact .inr (.inl capital)
  · cases h

/-- A text with the case of ASCII letters changed, at any places. -/
def Recased (text original : String) : Prop :=
  List.Forall₂ (fun c d => c = d ∨ c = d.toUpper ∨ c = d.toLower) text.toList original.toList

theorem Recased.refl (text : String) : Recased text text :=
  List.forall₂_same.mpr fun _ _ => .inl rfl

theorem recased_iff {text original : String} :
    Recased text original ↔
      text.toList.map Char.toLower = original.toList.map Char.toLower := by
  rw [← List.forall₂_eq_eq_eq, List.forall₂_map_left_iff, List.forall₂_map_right_iff]
  simp only [toLower_eq_iff]
  rfl

theorem sameLetters_iff {a b : String} : sameLetters a b ↔ Recased a b :=
  beq_iff_eq.trans recased_iff.symm

theorem toUpper_eq_iff {c d : Char} : c.toUpper = d.toUpper ↔ c.toLower = d.toLower := by
  rw [← Char.toNat_inj, ← Char.toNat_inj, toNat_toUpper, toNat_toUpper, toNat_toLower,
    toNat_toLower]
  split_ifs <;> omega

/-- Capitals tell texts apart just as small letters do. -/
theorem capitals_eq_iff {a b : String} : capitals a = capitals b ↔ Recased a b := by
  rw [capitals, capitals, String.ofList_inj, recased_iff, ← List.forall₂_eq_eq_eq,
    List.forall₂_map_left_iff, List.forall₂_map_right_iff, List.forall₂_map_left_iff,
    List.forall₂_map_right_iff]
  simp only [toUpper_eq_iff]

variable {text original : String}

theorem Recased.symm (h : Recased text original) : Recased original text :=
  recased_iff.mpr (recased_iff.mp h).symm

theorem Recased.trans {later : String} (h : Recased later text) (h' : Recased text original) :
    Recased later original :=
  recased_iff.mpr ((recased_iff.mp h).trans (recased_iff.mp h'))

theorem Recased.map_digit? (h : Recased text original) (radix : Nat) :
    text.toList.map (digit? radix) = original.toList.map (digit? radix) := by
  have lower (cs : List Char) : cs.map (digit? radix) =
      (cs.map Char.toLower).map (digit? radix) := by
    simp [digit?_toLower]
  rw [lower, lower original.toList, recased_iff.mp h]

theorem Recased.isAlphanum (h : Recased text original)
    (plain : ∀ c ∈ original.toList, c.isAlphanum) : ∀ c ∈ text.toList, c.isAlphanum := by
  intro c hc
  have hm : c.toLower ∈ original.toList.map Char.toLower :=
    recased_iff.mp h ▸ List.mem_map_of_mem hc
  obtain ⟨d, hd, he⟩ := List.mem_map.mp hm
  rw [← isAlphanum_toLower, ← he, isAlphanum_toLower]
  exact plain d hd

end DigestFinder.Text
