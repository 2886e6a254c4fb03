import Mathlib.Data.Nat.Digits.Lemmas
import Mathlib.Order.Bounds.Basic
import DigestFinder.Crc.Model

/-!
The bytes that stand for a message length. They are as few as the length and the mask allow, and
the length can be read off them again, so that two lengths never have the same bytes.
-/

namespace DigestFinder

namespace Bytes

/-- The value of bytes in one of the two orders. -/
def valueIn (msFirst : Bool) (bs : Bytes) : Nat :=
  Nat.ofDigits 256 ((if msFirst then bs.reverse else bs).map UInt8.toNat)

/-- The bytes are the digits to the base 256. -/
theorem map_toNat_littleEndian (n : Nat) :
    (littleEndian n).map UInt8.toNat = Nat.digits 256 n := by
  fun_induction littleEndian n with
  | case1 => rfl
  | case2 n hn ih =>
    have low : n.toUInt8.toNat = n % 256 := UInt8.toNat_ofNat'
    rw [List.map_cons, ih, low, Nat.digits_def' (by decide) (Nat.pos_of_ne_zero hn)]

theorem length_littleEndian_le_iff (n k : Nat) : (littleEndian n).length ≤ k ↔ n < 256 ^ k := by
  have digits := congrArg List.length (map_toNat_littleEndian n)
  rw [List.length_map] at digits
  rw [digits, Nat.digits_length_le_iff (by decide)]

/-- Zeros behind the bytes do not change the value. -/
theorem ofDigits_rightpad_littleEndian (n size : Nat) :
    Nat.ofDigits 256 (((littleEndian n).rightpad size 0).map UInt8.toNat) = n := by
  rw [List.rightpad, List.map_append, List.map_replicate, map_toNat_littleEndian]
  exact (Nat.ofDigits_append_replicate_zero _).trans (Nat.ofDigits_digits 256 n)

theorem xorLeading_eq (bs xs : Bytes) :
    xorLeading bs xs = List.zipWith (· ^^^ ·) bs xs ++ bs.drop xs.length := by
  fun_induction xorLeading bs xs with
  | case1 b bs x xs ih => rw [ih, List.zipWith_cons_cons, List.cons_append]; rfl
  | case2 bs xs none =>
    cases bs with
    | nil => simp
    | cons b bs =>
      cases xs with
      | nil => simp
      | cons x xs => exact absurd rfl (none b bs x xs rfl)

/-- A mask that is put on twice is taken off. -/
theorem xorLeading_xorLeading (bs xs : Bytes) : xorLeading (xorLeading bs xs) xs = bs := by
  fun_induction xorLeading bs xs with
  | case1 b bs x xs ih => rw [xorLeading, ih, UInt8.xor_assoc, UInt8.xor_self, UInt8.xor_zero]
  | case2 bs xs none => rw [xorLeading]; exact none

end Bytes

namespace Crc.LengthInclusion

variable (l : LengthInclusion)

/-- The bytes with the mask put on the first of them once more. -/
def unmask (bs : Bytes) : Bytes :=
  List.zipWith (· ^^^ ·) bs l.xor ++ bs.drop l.xor.length

theorem unmask_encode (len : UInt64) :
    l.unmask (l.encode len) =
      let bytes := (Bytes.littleEndian len.toNat).rightpad l.xor.length 0
      if l.msFirst then bytes.reverse else bytes := by
  rw [unmask, ← Bytes.xorLeading_eq, encode]
  exact Bytes.xorLeading_xorLeading _ _

theorem length_encode (len : UInt64) :
    (l.encode len).length = max l.xor.length (Bytes.littleEndian len.toNat).length := by
  rw [encode, Bytes.length_xorLeading, apply_ite List.length, List.length_reverse, ite_self,
    List.length_rightpad]

theorem valueIn_unmask_encode (len : UInt64) :
    (l.unmask (l.encode len)).valueIn l.msFirst = len.toNat := by
  rw [unmask_encode, Bytes.valueIn]
  cases l.msFirst with
  | false => exact Bytes.ofDigits_rightpad_littleEndian _ _
  | true =>
    simp only [if_true, List.reverse_reverse]
    exact Bytes.ofDigits_rightpad_littleEndian _ _

/-- A length has as many bytes as the longer of the mask and its fewest bytes, the value of the
bytes without the mask is the length, and no other length has the same bytes. -/
theorem encode_invertible :
    (∀ len, ∃ fewest, IsLeast {k | len.toNat < 256 ^ k} fewest ∧
      (l.encode len).length = max l.xor.length fewest) ∧
    (∀ len, (l.unmask (l.encode len)).valueIn l.msFirst = len.toNat) ∧
    Function.Injective l.encode := by
  refine ⟨fun len => ⟨_, ?_, l.length_encode len⟩, l.valueIn_unmask_encode, ?_⟩
  · exact ⟨(Bytes.length_littleEndian_le_iff _ _).mp le_rfl,
      fun k hk => (Bytes.length_littleEndian_le_iff _ k).mpr hk⟩
  · intro a b h
    apply UInt64.toNat_inj.mp
    rw [← l.valueIn_unmask_encode a, h, l.valueIn_unmask_encode b]

/-- A length of two bytes under a mask of three, which is on the leading zero too. -/
example : encode ⟨true, [0xff, 0xff, 0xff]⟩ 0x1234 = [0xff, 0xed, 0xcb] := by cbv

end Crc.LengthInclusion

end DigestFinder
