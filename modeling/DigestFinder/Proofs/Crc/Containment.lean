import DigestFinder.Proofs.Crc.ModelText
import DigestFinder.Proofs.Crc.Simulation

/-!
Registers keep to their place. The reference computation never sets a bit beyond the width, and no
table computation one beside the place of its register in the word, although it masks nothing.
-/

namespace DigestFinder.Crc

namespace Model

variable (m : Model)

/-- The registers after each bit, in order. -/
def passed : UInt64 → List Bool → List UInt64
  | _, [] => []
  | register, b :: bits => m.step register b :: passed (m.step register b) bits

/-- The registers through which the reference computation passes, one for each bit of the data. -/
def registers (register : UInt64) (data : Bytes) : List UInt64 :=
  m.passed register (data.flatMap (byteBits m.refIn))

theorem length_passed (bits : List Bool) (register : UInt64) :
    (m.passed register bits).length = bits.length := by
  induction bits generalizing register with
  | nil => rfl
  | cons b bits ih => rw [passed, List.length_cons, ih, List.length_cons]

theorem getLastD_passed (bits : List Bool) (register : UInt64) :
    (m.passed register bits).getLastD register = bits.foldl m.step register := by
  induction bits generalizing register with
  | nil => rfl
  | cons b bits ih => rw [passed, List.getLastD_cons, ih, List.foldl_cons]

theorem passed_le (bits : List Bool) (register : UInt64) :
    ∀ v ∈ m.passed register bits, v ≤ m.mask := by
  induction bits generalizing register with
  | nil => simp [passed]
  | cons b bits ih =>
    intro v hv
    rcases List.mem_cons.mp hv with rfl | later
    · exact m.step_le register b
    · exact ih _ v later

/-- No bit stands beside the place of a register in the word, which is the low end where the
register is turned and the top elsewhere. -/
def Contained (v : UInt64) : Prop :=
  ∀ i < 64, bit v i = true → if m.refIn then i < m.width else 64 - m.width ≤ i

theorem contained_orient (register : UInt64) : m.Contained (m.orient register) := by
  intro i hi set
  rw [bit_orient] at set
  cases hr : m.refIn
  · simp only [hr, Bool.false_eq_true, if_false] at set ⊢
    by_contra below
    simp [not_le.mp below] at set
  · simp only [hr, if_true, Bool.and_eq_true, decide_eq_true_eq] at set ⊢
    exact set.1

variable {m}

/-- What is in its place can be turned back without loss. -/
theorem Contained.orient_unorient {v : UInt64} (h : m.Contained v) :
    m.orient (m.unorient v) = v := by
  have hl := m.width_le
  have hp := m.width_pos
  apply word_ext
  intro i hi
  have place := h i hi
  rw [bit_orient, bit_unorient, bit_unorient]
  cases hr : m.refIn
  · simp only [hr, Bool.false_eq_true, if_false] at place ⊢
    by_cases hg : 64 - m.width ≤ i
    · have back : 64 - m.width + (i - (64 - m.width)) = i := by omega
      simp [hi, not_lt.mpr hg, back]
    · have clear : bit v i = false := by simpa using mt place hg
      simp [clear, not_le.mp hg]
  · simp only [hr, if_true] at place ⊢
    by_cases hw : i < m.width
    · have inside : m.width - 1 - i < m.width := by omega
      have back : m.width - 1 - (m.width - 1 - i) = i := by omega
      simp [hw, inside, back]
    · have clear : bit v i = false := by simpa using mt place hw
      simp [clear, hw]

/-- Bytes leave a register in its place. -/
theorem Contained.absorb {v : UInt64} (h : m.Contained v) (data : Bytes) :
    m.Contained (m.table.absorb m.refIn v data) := by
  rw [← h.orient_unorient, absorb_orient]
  exact m.contained_orient _

theorem contained_table_get (b : UInt8) : m.Contained (m.table.get b.toFin) := by
  rw [m.table_get, m.tableEntry_eq_orient]
  exact m.contained_orient _

end Model

/-- A value that a register holds, and its bytes: as many as the width calls for, the most
significant first. -/
structure Model.Fits (m : Model) (v : UInt64) (bytes : Bytes) : Prop where
  le : v ≤ m.mask
  length : bytes.length = (m.width + 7) / 8
  value : bytes.toNat = v.toNat

theorem Model.fits_toBytes (m : Model) {v : UInt64} (h : v ≤ m.mask) :
    m.Fits v (toBytes v m.width) where
  le := h
  length := length_toBytes v m.width
  value := toNat_toBytes m.validWidth h

theorem Engine.value_le {m : Model} (e : Engine m) : e.value ≤ m.mask := and_mask_le _ _

/-- Everything that a table computation holds is in its place. -/
structure Engine.InPlace {m : Model} (e : Engine m) : Prop where
  entries : ∀ b : UInt8, m.Contained (e.table.get b.toFin)
  register : m.Contained e.register
  /-- Also when the length has entered. -/
  ended : m.Contained (e.table.absorb m.refIn e.register (m.trailer e.length))
  result : m.Fits e.value e.digest

theorem Engine.inPlace_of_register {m : Model} {e : Engine m} (h : m.Contained e.register) :
    e.InPlace where
  entries b := by rw [e.table_eq]; exact Model.contained_table_get b
  register := h
  ended := by rw [e.table_eq]; exact h.absorb _
  result := m.fits_toBytes e.value_le

theorem Engine.Holds.inPlace {m : Model} {e : Engine m} {fed : Bytes} (h : e.Holds fed) :
    e.InPlace := by
  apply Engine.inPlace_of_register
  rw [h.1]
  exact m.contained_orient _

/-- Whatever is done with table computations of a model, each stays in its place. -/
theorem inPlace_of_mem_run (m : Model) (commands : List (Nat × Operation)) :
    ∀ e ∈ ((engineMachine m).run [.start m] commands).1, Engine.InPlace e := by
  have start : List.Forall₂ (engineSimulation m).Rel [.start m] [[]] :=
    .cons Engine.holds_start .nil
  obtain ⟨states, -⟩ := (engineSimulation m).run start commands
  have both := states.imp fun e fed (h : Engine.Holds e fed) => And.intro h.inPlace h
  exact ((List.forall₂_and_left _ _).mp both).1

/-- The reference computation passes only through registers within the width, from whatever
register it starts; the table, the registers of the table computations in all their states and the
register that their values are taken from are in their place; and both compute values within the
width, which their digests write in full. -/
theorem registers_contained (m : Model) :
    (∀ register data, (m.registers register data).length = 8 * data.length ∧
      (m.registers register data).getLastD register = m.absorb register data ∧
      ∀ v ∈ m.registers register data, v ≤ m.mask) ∧
    (∀ commands, ∀ e ∈ ((engineMachine m).run [.start m] commands).1, Engine.InPlace e) ∧
    ∀ data, m.Fits (m.crc data) (m.digest data) := by
  refine ⟨fun register data => ⟨?_, ?_, ?_⟩, inPlace_of_mem_run m, fun data => ?_⟩
  · rw [Model.registers, Model.length_passed, Model.length_flatMap_byteBits]
  · rw [Model.registers, Model.getLastD_passed, Model.absorb_eq_foldl_step]
  · exact m.passed_le _ register
  · exact m.fits_toBytes (m.crc_le data)

/-- The three bits of CRC-3/GSM: the registers for a single byte, and for the digits from one to
nine the register of a table computation that took them in two pieces and the value, which fills a
part of its byte. -/
theorem registers_contained_of_gsm :
    let m := Model.masked 3 (by decide) 0x3 0x0 false false 0x7
    let e := ((Engine.start m).update [0x31, 0x32, 0x33, 0x34]).update
      [0x35, 0x36, 0x37, 0x38, 0x39]
    m.registers 0 [0x80] = [3, 6, 7, 5, 1, 2, 4, 3] ∧ (∀ v ∈ m.registers 0 [0x80], v ≤ 7) ∧
      e.register = 0x6000000000000000 ∧ m.Contained e.register ∧
      m.Fits 4 [0x04] := by
  intro m e
  obtain ⟨passes, states, values⟩ := registers_contained m
  have reached : e ∈ ((engineMachine m).run [.start m]
      [(0, .update [0x31, 0x32, 0x33, 0x34]), (0, .update [0x35, 0x36, 0x37, 0x38, 0x39])]).1 :=
    List.mem_singleton_self e
  have fed := (Engine.holds_start.update [0x31, 0x32, 0x33, 0x34]).update
    (m := m) [0x35, 0x36, 0x37, 0x38, 0x39]
  have register : e.register = 0x6000000000000000 := by
    rw [fed.1]
    cbv
  have value : m.crc [0x31, 0x32, 0x33, 0x34, 0x35, 0x36, 0x37, 0x38, 0x39] = 4 := by
    cbv
  have bytes : toBytes 4 m.width = [0x04] := by
    decide
  refine ⟨by decide, (passes 0 [0x80]).2.2, register, (states _ e reached).register, ?_⟩
  have fits := values [0x31, 0x32, 0x33, 0x34, 0x35, 0x36, 0x37, 0x38, 0x39]
  rwa [Model.digest, value, bytes] at fits

end DigestFinder.Crc
