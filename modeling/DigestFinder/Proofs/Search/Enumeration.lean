import DigestFinder.Proofs.Search.History
import DigestFinder.Search.Report

/-!
Brute force in ascending order performs just its tasks, so that its result is that of enumerating
all parameter sets one by one.
-/

namespace DigestFinder.Search

namespace Setting

variable (c : Setting)

theorem performBoth_eq (b : Board) (a : Action) :
    c.performBoth b a = c.performed b (a :: (c.perform b a).2.toList) := by
  unfold performBoth performed
  rw [List.foldl_cons]
  split
  · rename_i h
    rw [h]
    rfl
  · rename_i h
    rw [h]
    rfl

/-- Actions with those that they call for on the way. -/
def unrolled (b : Board) : List Action → List Action
  | [] => []
  | a :: rest => a :: (c.perform b a).2.toList ++ unrolled (c.performBoth b a) rest

theorem performAll_unrolled (b : Board) (actions : List Action) :
    c.performAll b actions = c.performed b (c.unrolled b actions) := by
  induction actions generalizing b with
  | nil => rfl
  | cons a actions ih =>
    rw [unrolled, performed_append, ← performBoth_eq]
    exact ih _

theorem filter_planned_unrolled (b : Board) (actions : List Action) :
    (c.unrolled b actions).filter Action.planned = actions.filter Action.planned := by
  induction actions generalizing b with
  | nil => rfl
  | cons a actions ih =>
    rw [unrolled, List.filter_append, ih, List.filter_cons, c.perform_planned, List.filter_cons]
    split <;> simp

/-- Performing a task, with what it calls for on the way. -/
theorem performAll_eq (b : Board) (actions : List Action) :
    ∃ all, all.filter Action.planned = actions.filter Action.planned ∧
      c.performAll b actions = c.performed b all :=
  ⟨_, c.filter_planned_unrolled b actions, c.performAll_unrolled b actions⟩

theorem map_range_succ (n : Nat) (poly : UInt64) :
    (List.range (n + 1)).map (fun k => poly + k.toUInt64) =
      poly :: (List.range n).map fun k => poly + 1 + k.toUInt64 := by
  have h0 : poly + Nat.toUInt64 0 = poly := UInt64.add_zero poly
  have hs (k : Nat) : poly + 1 + k.toUInt64 = poly + k.succ.toUInt64 := by
    rw [Nat.succ_eq_one_add, UInt64.add_assoc]
    exact congrArg (poly + ·) (UInt64.ofNat_add 1 k).symm
  rw [List.range_succ_eq_map, List.map_cons, List.map_map, h0]
  simp only [hs, Function.comp_def]

theorem runFrom_calm {b : Board} (h : b.session.Calm) (n : Nat) (poly : UInt64) :
    ∃ all, all.filter Action.planned =
        ((List.range n).map fun k => poly + k.toUInt64).flatMap c.task ∧
      c.runFrom b n poly = (.ok (c.performed b all), (c.performed b all).session) := by
  induction n generalizing b poly with
  | zero => exact ⟨[], rfl, rfl⟩
  | succ n ih =>
    obtain ⟨first, hf, hp⟩ := c.performAll_eq b (c.task poly)
    obtain ⟨rest, hr, hrun⟩ := ih (c.calm_performed h first) (poly + 1)
    refine ⟨first ++ rest, ?_, ?_⟩
    · rw [List.filter_append, hf, hr, filter_planned_task, map_range_succ, List.flatMap_cons]
    · rw [runFrom, h.cancelled, hp, hrun, performed_append]
      rfl

/-- An ascending run that nobody stops performs just the tasks. -/
theorem run_calm {s : Session} (h : s.Calm) (limit : Nat) :
    ∃ all, c.Complete all ∧ (c.run limit s).1 =
      .ok (c.resultOf (c.performed (.fresh limit s) all)) := by
  obtain ⟨all, hf, hr⟩ := c.runFrom_calm (b := .fresh limit s) h (1 <<< c.width) 0
  refine ⟨all, ?_, ?_⟩
  · rw [Complete, hf, tasks, polynomials]
    simp
  · unfold Board.fresh at hr
    rw [run, hr]
    rfl

end Setting

/-- The widths that brute force serves. -/
abbrev Searchable (width : Nat) : Prop := 8 ≤ width ∧ width ≤ 63

theorem Searchable.valid {width : Nat} (h : Searchable width) : Crc.ValidWidth width :=
  @validWidth .bruteForce width h

theorem find_bruteForce (sources : Sources) (limit : Nat) {r : Request} (h : Searchable r.width)
    (s : Session) :
    find sources limit r s .bruteForce = (Setting.ofRequest r h.valid).run limit s :=
  dif_pos (c := Strategy.bruteForce.minWidth ≤ r.width ∧ r.width ≤ Strategy.bruteForce.maxWidth) h

/-- The result of a request as enumeration gives it: every trial is counted, the solutions are
counted in 64 bits, and the lowest of them are kept under their texts. -/
structure Enumerates (r : Request) (valid : Crc.ValidWidth r.width) (limit : Nat)
    (result : Result) : Prop where
  searched : result.searched = 2 ^ (r.width + 4)
  found : result.found.toNat = (solutions r valid).card % 2 ^ 64
  kept : result.kept =
    ((solutions r valid).sort.take limit).map fun p => .parameters (p.model r.width valid)
  ids : result.kept.map Match.id =
    ((solutions r valid).sort.take limit).map fun p => "crc:" ++ (p.model r.width valid).text

theorem enumerates_enumerated (r : Request) (valid : Crc.ValidWidth r.width) (limit : Nat) :
    Enumerates r valid limit (enumerated r valid limit) where
  searched := rfl
  found := UInt64.toNat_ofNat'
  kept := rfl
  ids := by
    rw [enumerated, List.map_map]
    rfl

/-- Brute force that nobody stops finds what enumeration finds. -/
theorem bruteForce_enumerates (sources : Sources) (r : Request) (h : Searchable r.width)
    (limit : Nat) (s : Session) (hs : s.Calm) :
    ∃ result, (find sources limit r s .bruteForce).1 = .ok result ∧
      Enumerates r h.valid limit result := by
  obtain ⟨all, hc, hr⟩ := (Setting.ofRequest r h.valid).run_calm hs limit
  refine ⟨enumerated r h.valid limit, ?_, enumerates_enumerated r h.valid limit⟩
  rw [find_bruteForce sources limit h, hr, hc.resultOf_eq h.2]

/-- A search for the check value of an 8-bit checksum, which has a solution. -/
theorem bruteForce_check_value :
    let r : Request := ⟨8, "123456789".toUTF8.toList, .bytes [0xf4]⟩
    ∃ result, (find .builtin 10 r (.start false true .never) .bruteForce).1 = .ok result ∧
      result.searched = 2 ^ 12 ∧ ⟨7, 0, false, false, 0⟩ ∈ solutions r ⟨by decide, by decide⟩ := by
  intro r
  have h : Searchable r.width := by decide
  obtain ⟨result, hf, he⟩ :=
    bruteForce_enumerates .builtin r h 10 (.start false true .never) ⟨rfl, rfl⟩
  refine ⟨result, hf, he.searched, ?_⟩
  rw [mem_solutions]
  decide +kernel

end DigestFinder.Search
