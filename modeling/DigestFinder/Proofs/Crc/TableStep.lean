import DigestFinder.Crc.Engine
import DigestFinder.Proofs.Crc.Orientation
import DigestFinder.Proofs.Crc.Register

/-!
The step of the table computation. One entry of the table stands for eight steps of a byte, so that
a turned register takes a byte as the reference register takes its eight bits.
-/

namespace DigestFinder.Crc

namespace Model

variable (m : Model)

theorem toNat_gap : m.gap.toNat % 64 = 64 - m.width := by
  have hp := m.width_pos
  exact toNat_distance (by omega)

theorem bit_orient (register : UInt64) (i : Nat) :
    bit (m.orient register) i =
      if m.refIn then decide (i < m.width) && bit register (m.width - 1 - i)
      else decide (i < 64) && !decide (i < 64 - m.width) && bit register (i - (64 - m.width)) := by
  unfold orient
  split
  · rw [bit_reflect m.validWidth]
  · rw [bit_shiftLeft, m.toNat_gap]

theorem bit_unorient (v : UInt64) (i : Nat) :
    bit (m.unorient v) i =
      if m.refIn then decide (i < m.width) && bit v (m.width - 1 - i)
      else bit v (64 - m.width + i) := by
  unfold unorient
  split
  · rw [bit_reflect m.validWidth]
  · rw [bit_shiftRight, m.toNat_gap]

theorem lead_orient (register : UInt64) :
    lead m.refIn (m.orient register) = bit register (m.width - 1) := by
  have hp := m.width_pos
  have hl := m.width_le
  rw [lead, m.bit_orient]
  cases m.refIn
  · have h1 : ¬ 63 < 64 - m.width := by omega
    have h2 : 63 - (64 - m.width) = m.width - 1 := by omega
    simp [h1, h2]
  · simp
    omega

theorem bit_advance_orient (register : UInt64) {i : Nat} (hi : i < 64) :
    bit (advance m.refIn (m.orient register)) i =
      if m.refIn then decide (i < m.width) && (decide (0 < m.width - 1 - i) &&
        bit register (m.width - 1 - i - 1))
      else !decide (i < 64 - m.width) && (decide (0 < i - (64 - m.width)) &&
        bit register (i - (64 - m.width) - 1)) := by
  have hl := m.width_le
  unfold advance
  split
  · rename_i hr
    simp only [bit_shiftRight, bit_orient, hr, if_true]
    have he : m.width - 1 - (1 + i) = m.width - 1 - i - 1 := by omega
    by_cases hw : 1 + i < m.width
    · have h1 : i < m.width := by omega
      have h2 : 0 < m.width - 1 - i := by omega
      simp [hw, h1, h2, he]
    · have h2 : ¬ 0 < m.width - 1 - i := by omega
      simp only [Nat.not_lt] at hw
      simp [h2]
      omega
  · rename_i hr
    simp only [bit_shiftLeft, bit_orient, hr]
    have he : i - 1 - (64 - m.width) = i - (64 - m.width) - 1 := by omega
    by_cases hg : 0 < i - (64 - m.width)
    · have h1 : ¬ i < 64 - m.width := by omega
      have h2 : ¬ i - 1 < 64 - m.width := by omega
      have h3 : i - 1 < 64 := by omega
      have h4 : i ≠ 0 := by omega
      simp [hi, hg, h1, h2, h3, h4, he]
    · have h2 : i - 1 < 64 - m.width ∨ i = 0 := by omega
      rcases h2 with h2 | h2
      · simp [hg, h2]
      · simp [h2]

/-- A step of the reference register is a step of the turned one. -/
theorem orient_step (register : UInt64) (b : Bool) :
    m.orient (m.step register b) = enter m.refIn (m.orient m.poly) (m.orient register) b := by
  have hl := m.width_le
  apply word_ext
  intro i hi
  rw [bit_enter, lead_orient, m.bit_advance_orient register hi]
  change _ = (_ ^^ (m.takes register b && _))
  simp only [bit_orient, bit_step]
  cases m.refIn
  · by_cases hg : i < 64 - m.width
    · simp [hg]
    · have hw : i - (64 - m.width) < m.width := by omega
      simp [hi, hg, hw]
  · by_cases hw : i < m.width
    · have h1 : m.width - 1 - i < m.width := by omega
      simp [hw, h1]
    · simp [hw]

theorem orient_foldl_step (bits : List Bool) (register : UInt64) :
    m.orient (bits.foldl m.step register) =
      bits.foldl (enter m.refIn (m.orient m.poly)) (m.orient register) := by
  induction bits generalizing register with
  | nil => rfl
  | cons b bits ih => rw [List.foldl_cons, List.foldl_cons, ih, orient_step]

theorem and_one_bne (v : UInt64) : (v &&& 1 != 0) = bit v 0 := by
  apply bne_zero_of_bit (k := 0)
  intro i
  rw [bit_and, bit_one, Bool.and_comm]
  by_cases hi : i = 0 <;> simp [hi]

theorem stepRight_eq_feed (poly v : UInt64) : stepRight poly v = feed true poly v := by
  simp [stepRight, feed, lead, advance, and_one_bne]

theorem stepLeft_eq_feed (poly v : UInt64) : stepLeft poly v = feed false poly v := by
  have h : (v >>> 63 != 0) = bit v 63 := by
    apply bne_zero_of_bit (k := 0)
    intro i
    by_cases hi : i = 0
    · simp [hi]
    · simp [hi, bit_of_ge v (show 64 ≤ 63 + i by omega)]
  simp [stepLeft, feed, lead, advance, h]

/-- The entry for a byte is what eight steps make of it. -/
theorem tableEntry_eq (b : UInt8) :
    m.tableEntry b = (feed m.refIn (m.orient m.poly))^[8] (place m.refIn b) := by
  unfold tableEntry orient place
  dsimp only
  split
  · rename_i h
    rw [h, funext (stepRight_eq_feed _)]
    rfl
  · rename_i h
    rw [Bool.not_eq_true] at h
    rw [h, funext (stepLeft_eq_feed _)]
    rfl

theorem table_get (b : UInt8) : m.table.get b.toFin = m.tableEntry b := by
  have hb : b.toNat < 256 := b.toNat_lt
  have h : m.table[b.toNat] = m.tableEntry (UInt8.ofFin ⟨b.toNat, hb⟩) := Vector.getElem_ofFn hb
  exact h

end Model

/-- A byte enters a register by the table: the others move up, and the leading byte is replaced by
the entry for it. -/
def tabled (m : Model) (v : UInt64) (b : UInt8) : UInt64 :=
  (advance m.refIn)^[8] v ^^^ m.tableEntry (head m.refIn v ^^^ b)

theorem Table.absorb_eq (m : Model) (register : UInt64) (data : Bytes) :
    m.table.absorb m.refIn register data = data.foldl (tabled m) register := by
  unfold Table.absorb
  split
  · rename_i h
    have hs : m.table.stepRight = tabled m := by
      funext v b
      rw [Table.stepRight, m.table_get, tabled, advance_eight, head, h]
      rfl
    rw [hs]
  · rename_i h
    have hs : m.table.stepLeft = tabled m := by
      funext v b
      rw [Table.stepLeft, m.table_get, tabled, advance_eight, head, if_neg h, if_neg h]
    rw [hs]

/-- By the table a byte does what its eight bits do, whatever the register holds. -/
theorem tabled_eq_foldl_enter (m : Model) (v : UInt64) (b : UInt8) :
    tabled m v b = (byteBits m.refIn b).foldl (enter m.refIn (m.orient m.poly)) v := by
  rw [foldl_enter, tabled, m.tableEntry_eq, UInt64.xor_comm]

theorem Table.absorb_eq_foldl_enter (m : Model) (register : UInt64) (data : Bytes) :
    m.table.absorb m.refIn register data =
      (data.flatMap (byteBits m.refIn)).foldl (enter m.refIn (m.orient m.poly)) register := by
  rw [Table.absorb_eq, List.foldl_flatMap]
  congr 1
  funext v b
  exact tabled_eq_foldl_enter m v b

theorem tabled_orient (m : Model) (register : UInt64) (b : UInt8) :
    tabled m (m.orient register) b = m.orient (m.absorbByte register b) := by
  rw [Model.absorbByte_eq_foldl, m.orient_foldl_step, tabled_eq_foldl_enter]

/-- The entry for a byte is the register after that byte alone. -/
theorem Model.tableEntry_eq_orient (m : Model) (b : UInt8) :
    m.tableEntry b = m.orient (m.absorbByte 0 b) := by
  have zero : m.orient 0 = 0 := word_ext fun i _ => by simp [bit_orient]
  have step := tabled_orient m 0 b
  rw [zero, tabled] at step
  rw [← step]
  cases m.refIn <;> simp [advance_eight, head]

theorem absorb_orient (m : Model) (register : UInt64) (data : Bytes) :
    m.table.absorb m.refIn (m.orient register) data = m.orient (m.absorb register data) := by
  rw [Table.absorb_eq]
  induction data generalizing register with
  | nil => rfl
  | cons b data ih => rw [List.foldl_cons, tabled_orient, ih, Model.absorb_cons]

end DigestFinder.Crc
