import DigestFinder.Proofs.Crc.TableStep
import DigestFinder.Proofs.Lists

/-!
Everything that can be done with table computations of one model, in any order, and with copies
taken on the way: the answers are those of the reference computation on the bytes fed since the
last reset.
-/

namespace DigestFinder.Crc

inductive Operation
  | update (data : Bytes)
  | reset
  | clone
  | value
  | digest
  | checksum (data : Bytes)
  deriving DecidableEq

inductive Answer
  | word (v : UInt64)
  | bytes (bs : Bytes)
  deriving DecidableEq

/-- A way to compute digests in pieces. -/
structure Machine where
  State : Type
  start : State
  update : State → Bytes → State
  reset : State → State
  value : State → UInt64
  digest : State → Bytes
  checksum : State → Bytes → UInt64

namespace Machine

variable (k : Machine)

/-- Perform an operation on computation `i` of a pool. A copy joins the pool at its end. -/
def perform (pool : List k.State) (i : Nat) : Operation → List k.State × Option Answer
  | .update data => (pool.modify i (k.update · data), none)
  | .reset => (pool.modify i k.reset, none)
  | .clone => (pool ++ pool[i]?.toList, none)
  | .value => (pool, pool[i]?.map fun s => .word (k.value s))
  | .digest => (pool, pool[i]?.map fun s => .bytes (k.digest s))
  | .checksum data => (pool, pool[i]?.map fun s => .word (k.checksum s data))

def run (pool : List k.State) : List (Nat × Operation) → List k.State × List (Option Answer)
  | [] => (pool, [])
  | (i, op) :: rest =>
    let next := k.perform pool i op
    let final := run next.1 rest
    (final.1, next.2 :: final.2)

end Machine

/-- A relation between the states of two machines that no operation tells apart. -/
structure Simulation (k l : Machine) where
  Rel : k.State → l.State → Prop
  start : Rel k.start l.start
  update : ∀ {s t}, Rel s t → ∀ data, Rel (k.update s data) (l.update t data)
  reset : ∀ {s t}, Rel s t → Rel (k.reset s) (l.reset t)
  value : ∀ {s t}, Rel s t → k.value s = l.value t
  digest : ∀ {s t}, Rel s t → k.digest s = l.digest t
  checksum : ∀ {s t}, Rel s t → ∀ data, k.checksum s data = l.checksum t data

namespace Simulation

variable {k l : Machine} (S : Simulation k l)

theorem perform {pool : List k.State} {mirror : List l.State}
    (h : List.Forall₂ S.Rel pool mirror) (i : Nat) (op : Operation) :
    List.Forall₂ S.Rel (k.perform pool i op).1 (l.perform mirror i op).1 ∧
      (k.perform pool i op).2 = (l.perform mirror i op).2 := by
  have hi := h.getElem? i
  cases op with
  | update data => exact ⟨h.modify (fun h => S.update h data) i, rfl⟩
  | reset => exact ⟨h.modify S.reset i, rfl⟩
  | clone => exact ⟨List.rel_append h (hi.forall₂_toList), rfl⟩
  | value => exact ⟨h, hi.map_eq_map fun h => congrArg Answer.word (S.value h)⟩
  | digest => exact ⟨h, hi.map_eq_map fun h => congrArg Answer.bytes (S.digest h)⟩
  | checksum data =>
    exact ⟨h, hi.map_eq_map fun h => congrArg Answer.word (S.checksum h data)⟩

theorem run {pool : List k.State} {mirror : List l.State} (h : List.Forall₂ S.Rel pool mirror)
    (commands : List (Nat × Operation)) :
    List.Forall₂ S.Rel (k.run pool commands).1 (l.run mirror commands).1 ∧
      (k.run pool commands).2 = (l.run mirror commands).2 := by
  induction commands generalizing pool mirror with
  | nil => exact ⟨h, rfl⟩
  | cons c rest ih =>
    obtain ⟨hs, ha⟩ := S.perform h c.1 c.2
    obtain ⟨hf, has⟩ := ih hs
    exact ⟨hf, by simp only [Machine.run, ha, has]⟩

end Simulation

/-- Table computations of a model. -/
def engineMachine (m : Model) : Machine where
  State := Engine m
  start := .start m
  update := Engine.update
  reset := Engine.reset
  value := Engine.value
  digest := Engine.digest
  checksum := Engine.checksum

/-- The reference computation, which keeps the bytes fed since the last reset. -/
def referenceMachine (m : Model) : Machine where
  State := Bytes
  start := []
  update fed data := fed ++ data
  reset _ := []
  value := m.crc
  digest := m.digest
  checksum _ := m.crc

theorem Model.unorient_orient (m : Model) {register : UInt64} (h : register ≤ m.mask) :
    m.unorient (m.orient register) = register := by
  have hl := m.width_le
  have hb := (le_mask_iff m.validWidth register).mp h
  apply word_ext
  intro i hi
  rw [bit_unorient, bit_orient, bit_orient]
  cases m.refIn
  · by_cases hw : i < m.width
    · have h1 : 64 - m.width + i < 64 := by omega
      simp [h1]
    · have h1 : ¬ 64 - m.width + i < 64 := by omega
      simp [h1, hb i (not_lt.mp hw)]
  · by_cases hw : i < m.width
    · have h1 : m.width - 1 - i < m.width := by omega
      have h2 : m.width - 1 - (m.width - 1 - i) = i := by omega
      simp [hw, h1, h2]
    · simp [hw, hb i (not_lt.mp hw)]

namespace Engine

variable {m : Model}

/-- The state of a table computation that has been fed `fed` since the last reset. -/
def Holds (e : Engine m) (fed : Bytes) : Prop :=
  e.register = m.orient (m.absorb m.init fed) ∧ e.length = fed.length.toUInt64

theorem holds_start : (start m).Holds [] := ⟨rfl, rfl⟩

theorem holds_reset (e : Engine m) : e.reset.Holds [] := ⟨rfl, rfl⟩

theorem Holds.update {e : Engine m} {fed : Bytes} (h : e.Holds fed) (data : Bytes) :
    (e.update data).Holds (fed ++ data) := by
  obtain ⟨hr, hl⟩ := h
  constructor
  · change e.table.absorb m.refIn e.register data = _
    rw [e.table_eq, hr, absorb_orient, Model.absorb_append]
  · change e.length + data.length.toUInt64 = _
    rw [hl, List.length_append]
    exact (UInt64.ofNat_add _ _).symm

theorem Holds.unorient {e : Engine m} {fed : Bytes} (h : e.Holds fed) :
    m.unorient e.register = m.absorb m.init fed := by
  rw [h.1, m.unorient_orient (m.absorb_le fed m.init_le)]

theorem Holds.value {e : Engine m} {fed : Bytes} (h : e.Holds fed) : e.value = m.crc fed := by
  have hb := m.absorb_le (m.trailer fed.length.toUInt64) (m.absorb_le fed m.init_le)
  unfold Engine.value Model.crc
  rw [e.table_eq, h.1, h.2, absorb_orient, m.unorient_orient hb]

theorem Holds.digest {e : Engine m} {fed : Bytes} (h : e.Holds fed) :
    e.digest = m.digest fed := by
  rw [Engine.digest, h.value, Model.digest]

theorem checksum_eq (e : Engine m) (data : Bytes) : e.checksum data = m.crc data :=
  (e.holds_reset.update data).value

end Engine

def engineSimulation (m : Model) : Simulation (engineMachine m) (referenceMachine m) where
  Rel := Engine.Holds
  start := Engine.holds_start
  update h data := h.update data
  reset {e _} _ := e.holds_reset
  value h := h.value
  digest h := h.digest
  checksum {e _} _ data := e.checksum_eq data

/-- What can be seen of a table computation that has been fed `fed` since the last reset. -/
structure Shows {m : Model} (e : Engine m) (fed : Bytes) : Prop where
  register : m.unorient e.register = m.absorb m.init fed
  length : e.length.toNat = fed.length % 2 ^ 64
  value : e.value = m.crc fed
  digest : e.digest = m.digest fed
  checksum : ∀ data, e.checksum data = m.crc data

theorem Engine.Holds.shows {m : Model} {e : Engine m} {fed : Bytes} (h : e.Holds fed) :
    Shows e fed where
  register := h.unorient
  length := by rw [h.2]; exact UInt64.toNat_ofNat'
  value := h.value
  digest := h.digest
  checksum := e.checksum_eq

/-- Whatever is done with table computations of a model, they answer as the reference computation
does, each shows the bytes fed to it since its last reset, and operations that only look leave all
of them as they are. -/
theorem engine_run_follows_reference (m : Model) (commands : List (Nat × Operation)) :
    ((engineMachine m).run [.start m] commands).2 = ((referenceMachine m).run [[]] commands).2 ∧
      List.Forall₂ Shows ((engineMachine m).run [.start m] commands).1
        ((referenceMachine m).run [[]] commands).1 ∧
      ∀ (pool : List (Engine m)) (i : Nat) (data : Bytes),
        ((engineMachine m).perform pool i .value).1 = pool ∧
        ((engineMachine m).perform pool i .digest).1 = pool ∧
        ((engineMachine m).perform pool i (.checksum data)).1 = pool := by
  have hstart : List.Forall₂ (engineSimulation m).Rel [.start m] [[]] :=
    .cons Engine.holds_start .nil
  obtain ⟨hs, ha⟩ := (engineSimulation m).run hstart commands
  exact ⟨ha, hs.imp fun _ _ h => h.shows, fun _ _ _ => ⟨rfl, rfl, rfl⟩⟩

end DigestFinder.Crc
