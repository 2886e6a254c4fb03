import Mathlib.Data.Finset.Sort
import DigestFinder.Proofs.Search.Solutions

/-!
A board as the outcome of the actions performed on it. What a search reports depends only on which
actions of its tasks were performed, not on their order.
-/

namespace DigestFinder

namespace Search

/-- Nobody has asked to stop, and nobody will. -/
structure Session.Calm (s : Session) : Prop where
  cancelled : s.cancelled = false
  pending : s.pending = none

theorem Session.Calm.emit {s : Session} (h : s.Calm) (e : Event) : (s.emit e).Calm := by
  obtain ⟨hc, hp⟩ := h
  constructor
  · simp [Session.emit, hc, hp]
  · simp [Session.emit, hp]

theorem Session.trace_emit (s : Session) (e : Event) :
    (s.emit e).trace.toList = s.trace.toList ++ [e] := by
  unfold emit
  dsimp only
  split
  · split <;> simp
  · simp

namespace Action

/-- Whether an action belongs to a task from the start. Announcements are called for on the way. -/
def planned : Action → Bool
  | announce _ => false
  | _ => true

def kept? : Action → Option Params
  | keep p => some p
  | _ => none

def reported? : Action → Option Params
  | report p => some p
  | _ => none

end Action

/-- The board of a search that begins. -/
def Board.fresh (limit : Nat) (s : Session) : Board := ⟨s, 0, 0, .ofLimit limit⟩

namespace Setting

variable (c : Setting)

/-- The event that an action sends. -/
def sent? : Action → Option Event
  | .report p => some (c.event p)
  | .announce done => some (.progress done c.total)
  | _ => none

/-- Perform actions in order. -/
def performed (b : Board) (actions : List Action) : Board :=
  actions.foldl (fun b a => (c.perform b a).1) b

theorem performed_append (b : Board) (first second : List Action) :
    c.performed b (first ++ second) = c.performed (c.performed b first) second :=
  List.foldl_append

theorem perform_planned (b : Board) (a : Action) :
    (c.perform b a).2.toList.filter Action.planned = [] := by
  cases a with
  | finish =>
    simp only [perform]
    split <;> rfl
  | _ => rfl

/-- A counter that one kind of action steps counts the actions of that kind. -/
theorem counter_performed (counter : Board → UInt64) {counted : Action}
    (h : ∀ b a, counter (c.perform b a).1 = counter b + if a == counted then 1 else 0)
    (b : Board) (actions : List Action) :
    counter (c.performed b actions) = counter b + (actions.count counted).toUInt64 := by
  induction actions generalizing b with
  | nil => exact (UInt64.add_zero _).symm
  | cons a actions ih =>
    refine (ih (c.perform b a).1).trans ?_
    have hs : (List.count counted (a :: actions)).toUInt64 =
        (if a == counted then 1 else 0) + (actions.count counted).toUInt64 := by
      rw [List.count_cons, Nat.add_comm]
      exact (UInt64.ofNat_add _ _).trans (by split <;> rfl)
    rw [h, hs, UInt64.add_assoc]

theorem found_performed (b : Board) (actions : List Action) :
    (c.performed b actions).found = b.found + (actions.count .count).toUInt64 := by
  refine c.counter_performed Board.found ?_ b actions
  intro b a
  cases a <;> simp [perform]

theorem finished_performed (b : Board) (actions : List Action) :
    (c.performed b actions).finished = b.finished + (actions.count .finish).toUInt64 := by
  refine c.counter_performed Board.finished ?_ b actions
  intro b a
  cases a <;> simp [perform]

theorem kept_performed (b : Board) (actions : List Action) :
    (c.performed b actions).kept = (actions.filterMap Action.kept?).foldl Kept.push b.kept := by
  induction actions generalizing b with
  | nil => rfl
  | cons a actions ih =>
    refine (ih (c.perform b a).1).trans ?_
    cases a <;> rfl

theorem trace_performed (b : Board) (actions : List Action) :
    (c.performed b actions).session.trace.toList =
      b.session.trace.toList ++ actions.filterMap c.sent? := by
  induction actions generalizing b with
  | nil => simp [performed]
  | cons a actions ih =>
    refine (ih (c.perform b a).1).trans ?_
    cases a <;> simp [perform, List.filterMap_cons, sent?, Session.trace_emit]

theorem calm_performed {b : Board} (h : b.session.Calm) (actions : List Action) :
    (c.performed b actions).session.Calm := by
  induction actions generalizing b with
  | nil => exact h
  | cons a actions ih =>
    apply ih (b := (c.perform b a).1)
    cases a with
    | report p => exact h.emit _
    | announce done => exact h.emit _
    | _ => exact h

/-- The actions of all tasks, in the order of the polynomials. -/
def tasks : List Action := c.polynomials.flatMap c.task

/-- Whether just the tasks have been performed, in some order, with announcements among them. -/
def Complete (actions : List Action) : Prop := (actions.filter Action.planned).Perm c.tasks

/-- All parameter sets that match, in the order of the polynomials. -/
def allHits : List Params := c.polynomials.flatMap c.hits

theorem filter_planned_task (poly : UInt64) :
    (c.task poly).filter Action.planned = c.task poly := by
  apply List.filter_eq_self.mpr
  intro a ha
  rcases List.mem_append.mp ha with ha | ha
  · obtain ⟨p, -, hp⟩ := List.mem_flatMap.mp ha
    simp only [List.mem_cons, List.not_mem_nil, or_false] at hp
    rcases hp with rfl | rfl | rfl <;> rfl
  · rw [List.mem_singleton.mp ha]
    rfl

theorem kept_tasks : c.tasks.filterMap Action.kept? = c.allHits := by
  have ht (poly : UInt64) : (c.task poly).filterMap Action.kept? = c.hits poly := by
    simp [task, List.filterMap_flatMap, List.filterMap_cons, Action.kept?]
  simp only [tasks, List.filterMap_flatMap, ht]
  rfl

theorem reported_tasks : c.tasks.filterMap Action.reported? = c.allHits := by
  have ht (poly : UInt64) : (c.task poly).filterMap Action.reported? = c.hits poly := by
    simp [task, List.filterMap_flatMap, List.filterMap_cons, Action.reported?]
  simp only [tasks, List.filterMap_flatMap, ht]
  rfl

theorem count_tasks_count : c.tasks.count .count = c.allHits.length := by
  have ht (poly : UInt64) : (c.task poly).count .count = (c.hits poly).length := by
    simp [task, List.count_flatMap, Function.comp_def]
  simp only [tasks, allHits, List.count_flatMap, List.length_flatMap, Function.comp_def, ht]

theorem count_task_finish (poly : UInt64) : (c.task poly).count .finish = 1 := by
  simp [task, List.count_flatMap, Function.comp_def]

theorem count_tasks_finish : c.tasks.count .finish = 2 ^ c.width := by
  simp [tasks, List.count_flatMap, Function.comp_def, count_task_finish, polynomials,
    Nat.one_shiftLeft]

variable {c}

theorem Complete.count {actions : List Action} (h : c.Complete actions) {a : Action}
    (ha : a.planned) : actions.count a = c.tasks.count a := by
  rw [← List.count_filter ha, h.count_eq]

theorem Complete.filterMap {α : Type} {actions : List Action} (h : c.Complete actions)
    {f : Action → Option α} (hf : ∀ done, f (.announce done) = none) :
    (actions.filterMap f).Perm (c.tasks.filterMap f) := by
  have hs : (actions.filter Action.planned).filterMap f = actions.filterMap f := by
    rw [List.filterMap_filter]
    congr 1
    funext a
    cases a <;> simp [Action.planned, hf]
  rw [← hs]
  exact List.Perm.filterMap f h

end Setting

/-- The result of a request by enumeration, with the lowest solutions up to a limit. -/
def enumerated (r : Request) (valid : Crc.ValidWidth r.width) (limit : Nat) : Result where
  found := (solutions r valid).card.toUInt64
  searched := 2 ^ (r.width + 4)
  kept := ((solutions r valid).sort.take limit).map fun p => .parameters (p.model r.width valid)
  truncated := (min limit (solutions r valid).card).toUInt64 < (solutions r valid).card.toUInt64

namespace Setting

variable {r : Request} {valid : Crc.ValidWidth r.width}

theorem allHits_eq : ((ofRequest r valid).allHits : Multiset Params) = (solutions r valid).val :=
  coe_flatMap_hits r valid

theorem length_allHits : (ofRequest r valid).allHits.length = (solutions r valid).card := by
  rw [← Multiset.coe_card, allHits_eq, Finset.card_val]

theorem Complete.found {actions : List Action} (h : (ofRequest r valid).Complete actions)
    (limit : Nat) (s : Session) :
    ((ofRequest r valid).performed (.fresh limit s) actions).found =
      (solutions r valid).card.toUInt64 := by
  rw [found_performed, h.count rfl, count_tasks_count, length_allHits]
  exact UInt64.zero_add _

theorem Complete.finished {c : Setting} {actions : List Action} (h : c.Complete actions)
    (hw : c.width ≤ 63) (limit : Nat) (s : Session) :
    (c.performed (.fresh limit s) actions).finished.toNat = 2 ^ c.width := by
  have hp : 2 ^ c.width < 2 ^ 64 := Nat.pow_lt_pow_right (by decide) (by omega)
  rw [finished_performed, h.count rfl, count_tasks_finish]
  exact (congrArg UInt64.toNat (UInt64.zero_add _)).trans (UInt64.toNat_ofNat_of_lt' hp)

theorem Complete.kept {actions : List Action} (h : (ofRequest r valid).Complete actions)
    (limit : Nat) (s : Session) :
    ((ofRequest r valid).performed (.fresh limit s) actions).kept.items.reverse =
      (solutions r valid).sort.take limit := by
  have hp : ((actions.filterMap Action.kept? : List Params) : Multiset Params) =
      (solutions r valid).val := by
    rw [Multiset.coe_eq_coe.mpr (h.filterMap fun _ => rfl), kept_tasks, allHits_eq]
  have hk := ((Kept.holds_ofLimit limit).foldl_push (actions.filterMap Action.kept?)).lowest
  rw [add_zero, hp] at hk
  rw [kept_performed]
  exact hk

/-- However the tasks are interleaved, the result is that of enumeration. -/
theorem Complete.resultOf_eq {actions : List Action} (h : (ofRequest r valid).Complete actions)
    (hw : r.width ≤ 63) (limit : Nat) (s : Session) :
    (ofRequest r valid).resultOf ((ofRequest r valid).performed (.fresh limit s) actions) =
      enumerated r valid limit := by
  have hk := h.kept limit s
  have hl := congrArg List.length hk
  rw [List.length_reverse, List.length_take, Finset.length_sort] at hl
  have hs : 2 ^ (r.width + 4) = 2 ^ r.width * trialsPerPoly := pow_add 2 _ 4
  unfold resultOf enumerated
  rw [h.found, h.finished hw, hk, hl, hs]
  rfl

/-- However the tasks are interleaved, each solution is reported once. -/
theorem Complete.reported {actions : List Action} (h : (ofRequest r valid).Complete actions) :
    ((actions.filterMap Action.reported? : List Params) : Multiset Params) =
      (solutions r valid).val := by
  rw [Multiset.coe_eq_coe.mpr (h.filterMap fun _ => rfl), reported_tasks, allHits_eq]

end Setting

end Search

end DigestFinder
