import Mathlib.Tactic.ByContra
import Mathlib.Tactic.SplitIfs
import DigestFinder.Bytes

/-!
The order of texts is the order of their bytes in UTF-8.
-/

namespace DigestFinder.Bytes

/-- The first of two characters has bytes that come first, whatever follows them. -/
theorem utf8EncodeChar_append_lt {c d : Char} (h : c < d) (x y : Bytes) :
    String.utf8EncodeChar c ++ x < String.utf8EncodeChar d ++ y := by
  have hlt : c.val.toNat < d.val.toNat := UInt32.lt_iff_toNat_lt.mp h
  have bound (c : Char) : c.val.toNat < 0x110000 := by
    rcases c.valid with hv | hv <;> omega
  have hc := bound c
  have hd := bound d
  unfold String.utf8EncodeChar
  dsimp only
  generalize c.val.toNat = n at *
  generalize d.val.toNat = m at *
  -- One case for each pair of lengths; the first byte in which they differ decides.
  split_ifs <;>
    simp (disch := omega) only [List.cons_append, List.nil_append, List.cons_lt_cons_iff,
      UInt8.lt_iff_toNat_lt, ← UInt8.toNat_inj, UInt8.toNat_ofNat', Nat.mod_eq_of_lt] <;>
    omega

theorem ofText_lt_ofText {a b : String} (h : a < b) : ofText a < ofText b := by
  have hl : a.toList < b.toList := h
  unfold ofText
  generalize a.toList = cs at hl
  generalize b.toList = ds at hl
  induction hl with
  | @nil d ds =>
    rw [List.flatMap_cons]
    cases he : String.utf8EncodeChar d with
    | nil => exact absurd he String.utf8EncodeChar_ne_nil
    | cons => exact .nil
  | @cons c cs ds _ ih =>
    rw [List.flatMap_cons, List.flatMap_cons]
    exact List.append_left_lt ih
  | @rel c cs d ds h =>
    rw [List.flatMap_cons, List.flatMap_cons]
    exact utf8EncodeChar_append_lt h _ _

theorem ofText_lt_iff {a b : String} : ofText a < ofText b ↔ a < b := by
  refine ⟨fun h => ?_, ofText_lt_ofText⟩
  by_contra hn
  rcases Std.le_iff_lt_or_eq.mp (String.not_lt.mp hn) with hlt | rfl
  · exact List.lt_asymm h (ofText_lt_ofText hlt)
  · exact List.lt_irrefl _ h

theorem ofText_le_iff {a b : String} : ofText a ≤ ofText b ↔ a ≤ b :=
  not_congr ofText_lt_iff

end DigestFinder.Bytes
