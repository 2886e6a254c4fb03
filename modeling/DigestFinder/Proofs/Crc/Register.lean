import DigestFinder.Crc.Bitwise
import DigestFinder.Proofs.Crc.Bits

/-!
The register of the reference computation, bit by bit, and its containment: no step sets a bit
beyond the width.
-/

namespace DigestFinder.Crc

/-- A word with at most one bit set is nonzero where that bit is set. -/
theorem bne_zero_of_bit {v : UInt64} {k : Nat} {b : Bool}
    (h : ∀ i, bit v i = (decide (i = k) && b)) : (v != 0) = b := by
  cases b with
  | false =>
    have hv : v = 0 := word_ext fun i _ => by simp [h i]
    simp [hv]
  | true =>
    rw [bne_iff_ne]
    rintro rfl
    simpa using h k

namespace Model

variable (m : Model)

/-- Whether the polynomial is taken: the bit that leaves differs from the one that enters. -/
def takes (register : UInt64) (b : Bool) : Bool := bit register (m.width - 1) ^^ b

theorem width_pos : 1 ≤ m.width := m.validWidth.1

theorem width_le : m.width ≤ 64 := m.validWidth.2

theorem bit_poly_of_ge {i : Nat} (h : m.width ≤ i) : bit m.poly i = false :=
  (le_mask_iff m.validWidth m.poly).mp m.poly_le i h

theorem and_topBit (register : UInt64) :
    (register &&& topBit m.width != 0) = bit register (m.width - 1) := by
  have hw := m.width_pos
  have hl := m.width_le
  apply bne_zero_of_bit (k := m.width - 1)
  intro i
  rw [bit_and, bit_topBit m.validWidth, Bool.and_comm]
  by_cases hi : i = m.width - 1
  · simp [hi]
  · simp [hi]

theorem bit_step (register : UInt64) (b : Bool) (i : Nat) :
    bit (m.step register b) i = (decide (i < m.width) &&
      ((decide (0 < i) && bit register (i - 1)) ^^ (m.takes register b && bit m.poly i))) := by
  have hl := m.width_le
  have hs : bit ((register <<< 1) &&& m.mask) i =
      (decide (i < m.width) && (decide (0 < i) && bit register (i - 1))) := by
    rw [bit_and, Model.mask, bit_mask m.validWidth, bit_shiftLeft]
    by_cases hi : i < m.width
    · have h64 : i < 64 := by omega
      cases i <;> simp [hi, h64]
    · simp [hi]
  have ht : ((register &&& topBit m.width != 0) != b) = m.takes register b := by
    rw [m.and_topBit, takes, Bool.bne_eq_xor]
  unfold step
  simp only [ht]
  split
  · rename_i h
    rw [bit_xor, hs, h]
    by_cases hi : i < m.width
    · simp [hi]
    · simp [hi, m.bit_poly_of_ge (not_lt.mp hi)]
  · rename_i h
    rw [hs]
    simp [h]

theorem step_le (register : UInt64) (b : Bool) : m.step register b ≤ m.mask := by
  apply (le_mask_iff m.validWidth _).mpr
  intro i hi
  rw [bit_step]
  simp [hi]

theorem absorb_eq_foldl_step (register : UInt64) (data : Bytes) :
    m.absorb register data = (data.flatMap (byteBits m.refIn)).foldl m.step register := by
  rw [absorb, List.foldl_flatMap]
  congr 1
  funext v b
  exact m.absorbByte_eq_foldl v b

theorem length_flatMap_byteBits (low : Bool) (data : Bytes) :
    (data.flatMap (byteBits low)).length = 8 * data.length := by
  rw [List.length_flatMap, List.map_congr_left (g := fun _ => 8)]
  · rw [List.map_const', List.sum_replicate_nat, Nat.mul_comm]
  · intro b _
    cases low <;> rfl

theorem foldl_step_le (bits : List Bool) {register : UInt64} (h : register ≤ m.mask) :
    bits.foldl m.step register ≤ m.mask := by
  induction bits generalizing register with
  | nil => exact h
  | cons b bits ih => exact ih (m.step_le register b)

theorem absorbByte_le (b : UInt8) {register : UInt64} (h : register ≤ m.mask) :
    m.absorbByte register b ≤ m.mask := by
  rw [absorbByte_eq_foldl]
  exact m.foldl_step_le _ h

theorem absorb_le (data : Bytes) {register : UInt64} (h : register ≤ m.mask) :
    m.absorb register data ≤ m.mask := by
  induction data generalizing register with
  | nil => exact h
  | cons b data ih => exact ih (m.absorbByte_le b h)

theorem crc_le (data : Bytes) : m.crc data ≤ m.mask := and_mask_le _ _

end Model

end DigestFinder.Crc
