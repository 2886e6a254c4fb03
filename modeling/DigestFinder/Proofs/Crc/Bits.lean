import Mathlib.Data.Nat.Bitwise
import DigestFinder.Crc.Model

/-!
The bits of a word, and what the operations on words do to them. A register is read off its bits:
two words with the same 64 bits are equal, and the words that fit a width have no bit beyond it.
-/

namespace DigestFinder.Crc

/-- Bit `i` of a word. -/
def bit (v : UInt64) (i : Nat) : Bool := v.toBitVec.getLsbD i

theorem word_ext {v u : UInt64} (h : ∀ i < 64, bit v i = bit u i) : v = u :=
  UInt64.toBitVec_inj.mp (BitVec.eq_of_getLsbD_eq fun i hi => h i hi)

theorem bit_of_ge (v : UInt64) {i : Nat} (h : 64 ≤ i) : bit v i = false :=
  BitVec.getLsbD_of_ge _ _ h

@[simp] theorem bit_zero (i : Nat) : bit 0 i = false := by simp [bit]

@[simp] theorem bit_xor (v u : UInt64) (i : Nat) : bit (v ^^^ u) i = (bit v i ^^ bit u i) := by
  simp [bit]

@[simp] theorem bit_and (v u : UInt64) (i : Nat) : bit (v &&& u) i = (bit v i && bit u i) := by
  simp [bit]

@[simp] theorem bit_or (v u : UInt64) (i : Nat) : bit (v ||| u) i = (bit v i || bit u i) := by
  simp [bit]

@[simp] theorem bit_shiftLeft (v n : UInt64) (i : Nat) :
    bit (v <<< n) i =
      (decide (i < 64) && !decide (i < n.toNat % 64) && bit v (i - n.toNat % 64)) := by
  simp [bit, BitVec.shiftLeft_eq', BitVec.toNat_umod]

@[simp] theorem bit_shiftRight (v n : UInt64) (i : Nat) :
    bit (v >>> n) i = bit v (n.toNat % 64 + i) := by
  simp [bit, BitVec.ushiftRight_eq', BitVec.toNat_umod]

@[simp] theorem bit_byte (b : UInt8) (i : Nat) : bit b.toUInt64 i = b.toBitVec.getLsbD i := by
  simp [bit]
  intro h
  exact Nat.lt_of_lt_of_le (BitVec.lt_of_getLsbD h) (by decide)

@[simp] theorem bit_one (i : Nat) : bit 1 i = decide (i = 0) := by
  simp [bit]

/-- A shift distance below the size of a word is what it says. -/
@[simp] theorem toNat_distance {n : Nat} (h : n < 64) : n.toUInt64.toNat % 64 = n := by
  rw [Nat.toUInt64, UInt64.toNat_ofNat']
  omega

theorem bit_neg_one (i : Nat) : bit (-1) i = decide (i < 64) :=
  BitVec.getLsbD_allOnes

theorem bit_eq_testBit (v : UInt64) (i : Nat) : bit v i = v.toNat.testBit i := rfl

theorem shiftLeft_xor (v u n : UInt64) : (v ^^^ u) <<< n = (v <<< n) ^^^ (u <<< n) := by
  apply word_ext
  intro i _
  simp [Bool.and_xor_distrib_left]

theorem shiftRight_xor (v u n : UInt64) : (v ^^^ u) >>> n = (v >>> n) ^^^ (u >>> n) := by
  apply word_ext
  intro i _
  simp

theorem bitOf_eq (b : UInt8) (i : UInt8) : bitOf b i = b.toBitVec.getLsbD (i.toNat % 8) := by
  rw [Bool.eq_iff_iff]
  simp only [bitOf, beq_iff_eq, ← UInt8.toBitVec_inj, UInt8.toBitVec_and, UInt8.toBitVec_shiftRight,
    BitVec.ushiftRight_eq', BitVec.toNat_umod]
  rw [show (1 : UInt8).toBitVec = 1#8 from rfl, BitVec.and_one_eq_setWidth_ofBool_getLsbD]
  simp
  cases b.toBitVec.getLsbD (i.toNat % 8) <;> decide

theorem bit_mask {width : Nat} (h : ValidWidth width) (i : Nat) :
    bit (mask width) i = decide (i < width) := by
  simp only [ValidWidth, minWidth, maxWidth] at h
  rw [mask, bit_shiftRight, toNat_distance (by omega), bit_neg_one]
  simp
  omega

theorem bit_topBit {width : Nat} (h : ValidWidth width) (i : Nat) :
    bit (topBit width) i = decide (i = width - 1) := by
  simp only [ValidWidth, minWidth, maxWidth] at h
  rw [topBit, bit_shiftLeft, toNat_distance (by omega), bit_one]
  rw [Bool.eq_iff_iff]
  simp
  omega

theorem bit_reverseOnto (n : Nat) (v acc : UInt64) {i : Nat} (h : i < 64) :
    bit (reverseOnto n v acc) i = if i < n then bit v (n - 1 - i) else bit acc (i - n) := by
  induction n generalizing v acc with
  | zero => simp [reverseOnto]
  | succ n ih =>
    rw [reverseOnto, ih]
    rcases lt_trichotomy i n with hi | rfl | hi
    · have hn : i < n + 1 := by omega
      simp only [hi, hn, if_true, bit_shiftRight]
      congr 1
      simp
      omega
    · simp
    · have hn : ¬ i < n + 1 := by omega
      have hs : i - n - 1 = i - (n + 1) := by omega
      have hp : i - n ≠ 0 := by omega
      have hl : i - n < 64 := by omega
      simp [hn, not_lt_of_gt hi, hs, hp, hl]

theorem bit_reflect {width : Nat} (h : ValidWidth width) (v : UInt64) (i : Nat) :
    bit (reflect v width) i = (decide (i < width) && bit v (width - 1 - i)) := by
  have hw : width ≤ 64 := h.2
  by_cases hi : i < 64
  · rw [reflect, bit_reverseOnto width v 0 hi]
    split_ifs with hw <;> simp [hw]
  · rw [bit_of_ge _ (by omega)]
    simp
    omega

theorem toNat_mask {width : Nat} (h : ValidWidth width) : (mask width).toNat = 2 ^ width - 1 := by
  apply Nat.eq_of_testBit_eq
  intro i
  rw [← bit_eq_testBit, bit_mask h, Nat.testBit_two_pow_sub_one]

theorem le_mask_iff_lt {width : Nat} (h : ValidWidth width) (v : UInt64) :
    v ≤ mask width ↔ v.toNat < 2 ^ width := by
  have hp : 0 < 2 ^ width := Nat.two_pow_pos width
  rw [UInt64.le_iff_toNat_le, toNat_mask h]
  omega

theorem two_pow_le_byteLength (width : Nat) : 2 ^ width ≤ 256 ^ byteLength width := by
  have h : (256 : Nat) = 2 ^ 8 := by decide
  rw [h, ← Nat.pow_mul]
  apply Nat.pow_le_pow_right (by decide)
  unfold byteLength
  omega

theorem byteLength_le {width : Nat} (h : ValidWidth width) : byteLength width ≤ 8 := by
  have hw := h.2
  simp only [maxWidth] at hw
  unfold byteLength
  omega

/-- The words that fit a register have no bit from its width on. -/
theorem le_mask_iff {width : Nat} (h : ValidWidth width) (v : UInt64) :
    v ≤ mask width ↔ ∀ i, width ≤ i → bit v i = false := by
  rw [le_mask_iff_lt h]
  constructor
  · intro hv i hi
    rw [bit_eq_testBit]
    exact Nat.testBit_lt_two_pow (hv.trans_le (Nat.pow_le_pow_right (by decide) hi))
  · intro hv
    exact Nat.lt_pow_two_of_testBit _ hv

theorem and_mask_of_le {width : Nat} (h : ValidWidth width) {v : UInt64} (hv : v ≤ mask width) :
    v &&& mask width = v := by
  have hb := (le_mask_iff h v).mp hv
  apply word_ext
  intro i _
  rw [bit_and, bit_mask h]
  by_cases hi : i < width
  · simp [hi]
  · simp [hi, hb i (not_lt.mp hi)]

theorem xor_le_mask {width : Nat} (h : ValidWidth width) {v u : UInt64} (hv : v ≤ mask width)
    (hu : u ≤ mask width) : v ^^^ u ≤ mask width := by
  apply (le_mask_iff h _).mpr
  intro i hi
  rw [bit_xor, (le_mask_iff h v).mp hv i hi, (le_mask_iff h u).mp hu i hi, Bool.xor_self]

theorem reflect_le_mask {width : Nat} (h : ValidWidth width) (v : UInt64) :
    reflect v width ≤ mask width := by
  apply (le_mask_iff h _).mpr
  intro i hi
  simp [bit_reflect h, hi]

end DigestFinder.Crc
