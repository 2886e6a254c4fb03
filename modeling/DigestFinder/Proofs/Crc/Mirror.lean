import DigestFinder.Proofs.Crc.Simulation

/-!
Reflection as a symmetry. A model that takes and shows its bits the other way round gives, for
mirrored bytes, the mirrored CRC. The registers of the reference computation are even equal; those of
the table computations turn the other way and are mirror images as words.
-/

namespace DigestFinder.Crc

/-- A byte with its bits in reverse order. -/
def reverseByte (b : UInt8) : UInt8 := ⟨b.toBitVec.reverse⟩

theorem bitOf_reverseByte (b : UInt8) {i : UInt8} (h : i < 8) :
    bitOf (reverseByte b) i = bitOf b (7 - i) := by
  have hi : i.toNat < 8 := UInt8.lt_iff_toNat_lt.mp h
  have back : (7 - i).toNat = 7 - i.toNat :=
    UInt8.toNat_sub_of_le _ _ (UInt8.le_iff_toNat_le.mpr (by simp; omega))
  rw [bitOf_eq, bitOf_eq, back, Nat.mod_eq_of_lt hi, Nat.mod_eq_of_lt (by omega), reverseByte,
    BitVec.getLsbD_reverse, BitVec.getMsbD]
  simp [hi]

/-- Mirrored bytes enter in the same order from the other end. -/
theorem byteBits_reverseByte (low : Bool) (b : UInt8) :
    byteBits (!low) (reverseByte b) = byteBits low b := by
  cases low <;> simp [byteBits, bitOf_reverseByte]

theorem reflect_xor {width : Nat} (h : ValidWidth width) (v u : UInt64) :
    reflect (v ^^^ u) width = reflect v width ^^^ reflect u width := by
  apply word_ext
  intro i _
  simp [bit_reflect h, Bool.and_xor_distrib_left]

theorem reflect_and_mask {width : Nat} (h : ValidWidth width) (v : UInt64) :
    reflect (v &&& mask width) width = reflect v width := by
  apply word_ext
  intro i _
  rw [bit_reflect h, bit_reflect h, bit_and, bit_mask h]
  by_cases hi : i < width
  · have inside : width - 1 - i < width := by omega
    simp [inside]
  · simp [hi]

theorem reflect_reflect {width : Nat} (h : ValidWidth width) (v : UInt64) :
    reflect (reflect v width) width = v &&& mask width := by
  apply word_ext
  intro i _
  rw [bit_reflect h, bit_reflect h, bit_and, bit_mask h]
  by_cases hi : i < width
  · have inside : width - 1 - i < width := by omega
    have back : width - 1 - (width - 1 - i) = i := by omega
    simp [hi, inside, back]
  · simp [hi]

namespace Model

variable (m : Model)

/-- The model with both reflections the other way. -/
def mirrored : Model :=
  { m with
    refIn := !m.refIn
    refOut := !m.refOut
    xorOut := reflect m.xorOut m.width
    xorOut_le := reflect_le_mask m.validWidth _ }

theorem mirrored_masked {width : Nat} (valid : ValidWidth width) (poly init xorOut : UInt64)
    (refIn refOut : Bool) :
    masked width valid poly init (!refIn) (!refOut) (reflect xorOut width) =
      (masked width valid poly init refIn refOut xorOut).mirrored := by
  have final : reflect xorOut width &&& Crc.mask width =
      reflect (xorOut &&& Crc.mask width) width := by
    rw [reflect_and_mask valid, and_mask_of_le valid (reflect_le_mask valid _)]
  simp only [masked, mirrored, final]

theorem absorbByte_mirrored (register : UInt64) (b : UInt8) :
    m.mirrored.absorbByte register (reverseByte b) = m.absorbByte register b := by
  rw [absorbByte_eq_foldl, absorbByte_eq_foldl]
  change ((byteBits (!m.refIn) (reverseByte b)).foldl m.step register) = _
  rw [byteBits_reverseByte]

theorem absorb_mirrored (register : UInt64) (data : Bytes) :
    m.mirrored.absorb register (data.map reverseByte) = m.absorb register data := by
  induction data generalizing register with
  | nil => rfl
  | cons b data ih => rw [List.map_cons, absorb_cons, absorb_cons, absorbByte_mirrored, ih]

/-- The end of the computation is mirrored with it. -/
theorem finish_mirrored {register : UInt64} (h : register ≤ m.mask) :
    reflect (m.mirrored.finish register) m.width = m.finish register := by
  have valid := m.validWidth
  have whole {v : UInt64} (hv : v ≤ Crc.mask m.width) :
      reflect (reflect v m.width) m.width = v := by
    rw [reflect_reflect valid, and_mask_of_le valid hv]
  change reflect (((if !m.refOut then reflect register m.width else register) ^^^
    reflect m.xorOut m.width) &&& Crc.mask m.width) m.width = _
  rw [reflect_and_mask valid, reflect_xor valid, whole m.xorOut_le, finish]
  cases m.refOut with
  | false =>
    change reflect (reflect register m.width) m.width ^^^ m.xorOut = _
    rw [whole h]
    exact (and_mask_of_le valid (xor_le_mask valid h m.xorOut_le)).symm
  | true =>
    exact (and_mask_of_le valid
      (xor_le_mask valid (reflect_le_mask valid register) m.xorOut_le)).symm

/-- A register aligned to one end of the word is the mirror image of one aligned to the other. -/
theorem orient_eq_reflect (register : UInt64) :
    m.orient register = reflect (m.mirrored.orient register) 64 := by
  have hl := m.width_le
  apply word_ext
  intro i hi
  rw [bit_reflect (by decide), m.bit_orient, m.mirrored.bit_orient]
  cases hr : m.refIn
  · by_cases hw : i < 64 - m.width
    · have outside : ¬ 64 - 1 - i < m.width := by omega
      simp [mirrored, hr, hi, hw, outside]
    · have inside : 64 - 1 - i < m.width := by omega
      have place : m.width - 1 - (64 - 1 - i) = i - (64 - m.width) := by omega
      simp [mirrored, hr, hi, hw, inside, place]
  · by_cases hw : i < m.width
    · have inside : ¬ 64 - 1 - i < 64 - m.width := by omega
      have place : 64 - 1 - i - (64 - m.width) = m.width - 1 - i := by omega
      have word : 64 - 1 - i < 64 := by omega
      simp [mirrored, hr, hi, hw, inside, place, word]
    · have outside : 64 - 1 - i < 64 - m.width := by omega
      simp [mirrored, hr, hi, hw, outside]

/-- The CRC of mirrored bytes under the mirrored model is the mirrored CRC. -/
theorem crc_eq_reflect (plain : m.length = none) (data : Bytes) :
    m.crc data = reflect (m.mirrored.crc (data.map reverseByte)) m.width := by
  have none (k : Model) (h : k.length = none) (data : Bytes) :
      k.crc data = k.finish (k.absorb k.init data) := by
    rw [crc, trailer, h, absorb_nil]
  rw [none m plain, none m.mirrored plain, absorb_mirrored,
    ← m.finish_mirrored (m.absorb_le data m.init_le)]
  rfl

end Model

/-- What two table computations have in common that run in mirror image. -/
structure Mirrors {m n : Model} (e : Engine m) (f : Engine n) : Prop where
  table : ∀ b, e.table.get b.toFin = reflect (f.table.get (reverseByte b).toFin) 64
  register : e.register = reflect f.register 64
  value : e.value = reflect f.value m.width
  checksum : ∀ data, e.checksum data = reflect (f.checksum (data.map reverseByte)) m.width

namespace Engine

variable {m : Model}

/-- A new table computation, fed in pieces. -/
def feed (m : Model) (pieces : List Bytes) : Engine m := pieces.foldl update (start m)

theorem holds_feed (m : Model) (pieces : List Bytes) : (feed m pieces).Holds pieces.flatten := by
  have further {e : Engine m} {fed : Bytes} (h : e.Holds fed) (more : List Bytes) :
      (more.foldl update e).Holds (fed ++ more.flatten) := by
    induction more generalizing e fed with
    | nil => simpa using h
    | cons piece more ih =>
      rw [List.foldl_cons, List.flatten_cons, ← List.append_assoc]
      exact ih (h.update piece)
  exact further holds_start pieces

/-- Computations that have been fed mirrored bytes are mirror images. -/
theorem Holds.mirrors (plain : m.length = none) {e : Engine m} {f : Engine m.mirrored} {fed : Bytes}
    (he : e.Holds fed) (hf : f.Holds (fed.map reverseByte)) : Mirrors e f where
  table b := by
    rw [e.table_eq, f.table_eq, Model.table_get, Model.table_get, Model.tableEntry_eq_orient,
      Model.tableEntry_eq_orient, Model.absorbByte_mirrored, Model.orient_eq_reflect]
  register := by
    rw [he.1, hf.1, ← m.orient_eq_reflect]
    exact congrArg m.orient (m.absorb_mirrored m.init fed).symm
  value := by
    rw [he.value, hf.value]
    exact m.crc_eq_reflect plain fed
  checksum data := by
    rw [checksum_eq, checksum_eq]
    exact m.crc_eq_reflect plain data

end Engine

/-- Turning both reflections of a model round, with the final mask, mirrors its CRC of mirrored
bytes. The table computations of the two run in mirror image, whatever pieces they are fed. -/
theorem crc_reflection_symmetry (width : Nat) (valid : ValidWidth width) (poly init : UInt64)
    (refIn refOut : Bool) (xorOut : UInt64) :
    let m := Model.masked width valid poly init refIn refOut xorOut
    let n := Model.masked width valid poly init (!refIn) (!refOut) (reflect xorOut width)
    (∀ data, m.crc data = reflect (n.crc (data.map reverseByte)) width) ∧
      ∀ pieces, Mirrors (Engine.feed m pieces)
        (Engine.feed n (pieces.map (List.map reverseByte))) := by
  rw [Model.mirrored_masked valid]
  intro m n
  have plain : m.length = none := rfl
  refine ⟨m.crc_eq_reflect plain, fun pieces => ?_⟩
  have fed := Engine.holds_feed m.mirrored (pieces.map (List.map reverseByte))
  rw [← List.map_flatten] at fed
  exact (Engine.holds_feed m pieces).mirrors plain fed

/-- The five bits of CRC-5/USB and of its mirror image, for the digits from one to nine. -/
theorem crc_reflection_symmetry_of_usb :
    let digits : Bytes := [0x31, 0x32, 0x33, 0x34, 0x35, 0x36, 0x37, 0x38, 0x39]
    ValidWidth 5 ∧
      (Model.masked 5 (by decide) 0x05 0x1f true true 0x1f).crc digits = 0x19 ∧
      reflect ((Model.masked 5 (by decide) 0x05 0x1f false false 0x1f).crc
        (digits.map reverseByte)) 5 = 0x19 := by
  intro digits
  have symmetry := (crc_reflection_symmetry 5 (by decide) 0x05 0x1f true true 0x1f).1 digits
  have value : (Model.masked 5 (by decide) 0x05 0x1f true true 0x1f).crc digits = 0x19 := by
    cbv
  exact ⟨by decide, value, symmetry.symm.trans value⟩

end DigestFinder.Crc
