import Mathlib.Data.List.Forall2
import DigestFinder.Proofs.Text.Decoding

/-!
The order of texts made of fields. Where no field goes on behind the end of the one in its place,
the first fields that differ decide: neither separators nor what follows can disturb them.
Hexadecimal digits keep the order of byte strings.
-/

namespace DigestFinder.Text

/-- Neither of two fields goes on behind the end of the other. -/
def Apart (a b : List Char) : Prop := a <+: b ∨ b <+: a → a = b

theorem apart_of_length_eq {a b : List Char} (h : a.length = b.length) : Apart a b := by
  rintro (begins | begins)
  · exact begins.eq_of_length h
  · exact (begins.eq_of_length h.symm).symm

theorem Apart.of_cons {c : Char} {a b : List Char} (h : Apart (c :: a) (c :: b)) : Apart a b := by
  intro begins
  have longer : c :: a <+: c :: b ∨ c :: b <+: c :: a := by
    simpa only [List.prefix_cons_inj] using begins
  exact (List.cons.inj (h longer)).2

/-- What follows two fields does not change their order. -/
theorem Apart.append_lt {a b : List Char} (apart : Apart a b) (h : a < b) (x y : List Char) :
    a ++ x < b ++ y := by
  induction h with
  | nil => cases apart (.inl List.nil_prefix)
  | cons _ ih => exact .cons (ih apart.of_cons)
  | rel h => exact .rel h

/-- Texts are ordered as their lists of fields. -/
theorem intercalate_lt {sep : Char} {fields others : List (List Char)}
    (apart : List.Forall₂ Apart fields others) (h : fields < others) :
    [sep].intercalate fields < [sep].intercalate others := by
  induction apart with
  | nil => exact absurd h (List.not_lt_nil _)
  | @cons a b fields others here rest ih =>
    rw [List.cons_lt_cons_iff] at h
    cases rest with
    | nil =>
      rcases h with h | ⟨-, h⟩
      · simpa using h
      · cases h
    | cons =>
      rw [List.intercalate_cons_cons, List.intercalate_cons_cons, List.append_assoc,
        List.append_assoc]
      rcases h with h | ⟨rfl, h⟩
      · exact here.append_lt h _ _
      · exact List.append_left_lt (List.append_left_lt (ih h))

namespace Hex

theorem digit_lt_digit (upper : Bool) {v u : UInt8} (hu : u.toNat < 16) (h : v.toNat < u.toNat) :
    digit upper v < digit upper u := by
  have all : ∀ upper, ∀ n < 16, ∀ m < n,
      digit upper (UInt8.ofNat m) < digit upper (UInt8.ofNat n) := by
    decide
  simpa using all upper u.toNat hu v.toNat h

/-- The text of a byte string that comes first comes first. -/
theorem encode_lt_encode (upper : Bool) {bs cs : Bytes} (h : bs < cs) :
    encode upper bs < encode upper cs := by
  have pair (b : UInt8) (bs : Bytes) : encode upper (b :: bs) =
      digit upper (b >>> 4) :: digit upper (b &&& 15) :: encode upper bs := rfl
  induction h with
  | @nil c cs =>
    rw [pair]
    exact List.nil_lt_cons _ _
  | cons _ ih =>
    rw [pair, pair]
    exact .cons (.cons ih)
  | @rel b bs c cs less =>
    rw [UInt8.lt_iff_toNat_lt] at less
    have hb := b.toNat_lt
    have hc := c.toNat_lt
    have halves : b.toNat / 16 < c.toNat / 16 ∨
        b.toNat / 16 = c.toNat / 16 ∧ b.toNat % 16 < c.toNat % 16 := by
      omega
    rw [pair, pair]
    rcases halves with high | ⟨high, low⟩
    · refine .rel (digit_lt_digit upper ?_ ?_)
      · rw [toNat_high]
        omega
      · rwa [toNat_high, toNat_high]
    · have same : b >>> 4 = c >>> 4 := by
        rw [← UInt8.toNat_inj, toNat_high, toNat_high, high]
      rw [same]
      refine .cons (.rel (digit_lt_digit upper ?_ ?_))
      · rw [toNat_low]
        omega
      · rwa [toNat_low, toNat_low]

end Hex

end DigestFinder.Text
