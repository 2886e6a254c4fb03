import Mathlib.Logic.Relation
import DigestFinder.Proofs.Search.Enumeration

/-!
Brute force on several workers. Each of them takes a polynomial that nobody has started, looks
whether it has been asked to stop, and performs the actions of the task one at a time; between any
two of its steps the others may do any of theirs. Every run comes to an end, and unless a worker
was stopped, what it leaves on the board is the result of the ascending run.
-/

namespace DigestFinder.Search

/-- Brute force under way. -/
structure Pool where
  board : Board
  /-- The polynomials that no worker has started. -/
  waiting : List UInt64
  /-- What each worker has still to do. -/
  workers : List (List Action)
  /-- Whether a worker has found the request to stop. -/
  refused : Bool

namespace Setting

variable (c : Setting)

/-- Workers that have not begun. -/
def pool (limit : Nat) (s : Session) (workers : Nat) : Pool :=
  ⟨.fresh limit s, c.polynomials, List.replicate workers [], false⟩

/-- One step of one worker. -/
inductive Step : Pool → Pool → Prop
  | start {p : Pool} {i : Nat} {poly : UInt64} (idle : p.workers[i]? = some [])
      (waits : poly ∈ p.waiting) (go : p.board.session.cancelled = false) :
      Step p { p with waiting := p.waiting.erase poly, workers := p.workers.set i (c.task poly) }
  | refuse {p : Pool} {i : Nat} {poly : UInt64} (idle : p.workers[i]? = some [])
      (waits : poly ∈ p.waiting) (stop : p.board.session.cancelled = true) :
      Step p { p with waiting := p.waiting.erase poly, refused := true }
  /-- Once a worker has refused, a polynomial may be given up without another look. -/
  | drop {p : Pool} {poly : UInt64} (waits : poly ∈ p.waiting) (refused : p.refused = true) :
      Step p { p with waiting := p.waiting.erase poly }
  | act {p : Pool} {i : Nat} {a : Action} {rest : List Action}
      (busy : p.workers[i]? = some (a :: rest)) :
      Step p { p with
        board := (c.perform p.board a).1
        workers := p.workers.set i ((c.perform p.board a).2.toList ++ rest) }

/-- Any number of steps, by any workers in any order. -/
abbrev Steps : Pool → Pool → Prop := Relation.ReflTransGen c.Step

/-- Nothing is left to do. -/
def Ended (p : Pool) : Prop := ∀ q, ¬ c.Step p q

end Setting

namespace Setting

variable {c : Setting} {limit : Nat} {s : Session} {workers : Nat} {p q : Pool}

/-- What actions cost. Finishing a polynomial may call for an announcement. -/
def cost (actions : List Action) : Nat :=
  (actions.map fun
    | .announce _ => 1
    | _ => 2).sum

def left (c : Setting) (p : Pool) : Nat :=
  cost p.workers.flatten + (p.waiting.map fun poly => 1 + cost (c.task poly)).sum

theorem cost_append (first second : List Action) :
    cost (first ++ second) = cost first + cost second := by
  rw [cost, List.map_append, List.sum_append]
  rfl

theorem cost_perform (b : Board) (a : Action) :
    cost (c.perform b a).2.toList < cost [a] := by
  cases a with
  | finish =>
    simp only [perform]
    split <;> simp [cost]
  | _ => simp [perform, cost]

theorem cost_set {ws : List (List Action)} {i : Nat} {w : List Action} (h : ws[i]? = some w)
    (w' : List Action) :
    cost w + cost (ws.set i w').flatten = cost w' + cost ws.flatten := by
  rw [← cost_append, ← cost_append]
  exact ((List.flatten_set_perm h w').map _).sum_eq

/-- A step uses up part of what is left to do, so that every run ends. -/
theorem left_lt (step : c.Step p q) : c.left q < c.left p := by
  have given {poly : UInt64} (waits : poly ∈ p.waiting) :
      (p.waiting.map fun poly => 1 + cost (c.task poly)).sum = 1 + cost (c.task poly) +
        ((p.waiting.erase poly).map fun poly => 1 + cost (c.task poly)).sum :=
    ((List.perm_cons_erase waits).map _).sum_eq
  unfold left
  cases step with
  | @start i poly idle waits go =>
    have hw := cost_set idle (c.task poly)
    rw [show cost [] = 0 from rfl, zero_add] at hw
    dsimp only
    rw [given waits, hw]
    omega
  | refuse idle waits stop =>
    dsimp only
    rw [given waits]
    omega
  | drop waits refused =>
    dsimp only
    rw [given waits]
    omega
  | @act i a rest busy =>
    have hw := cost_set busy ((c.perform p.board a).2.toList ++ rest)
    have ha := cost_perform (c := c) p.board a
    rw [← List.singleton_append, cost_append, cost_append] at hw
    dsimp only
    omega

theorem wellFounded_step (c : Setting) : WellFounded fun q p => c.Step p q :=
  Subrelation.wf left_lt (InvImage.wf c.left Nat.lt_wfRel.wf)

theorem exists_ended (c : Setting) (p : Pool) : ∃ q, c.Steps p q ∧ c.Ended q := by
  induction p using c.wellFounded_step.induction with
  | h p ih =>
    by_cases h : c.Ended p
    · exact ⟨p, .refl, h⟩
    · obtain ⟨q, step⟩ : ∃ q, c.Step p q := by simpa [Ended] using h
      obtain ⟨e, steps, ended⟩ := ih q step
      exact ⟨e, .head step steps, ended⟩

theorem length_workers (h : c.Steps (c.pool limit s workers) p) :
    p.workers.length = workers := by
  induction h with
  | refl => simp [pool]
  | tail _ step ih => cases step <;> simpa using ih

theorem Ended.idle (h : c.Ended p) : p.workers.flatten = [] := by
  rw [List.flatten_eq_nil_iff]
  intro w hw
  obtain ⟨i, hi⟩ := List.mem_iff_getElem?.mp hw
  cases w with
  | nil => rfl
  | cons a rest => exact absurd (.act hi) (h _)

theorem Ended.waiting (h : c.Ended p) (hw : 0 < p.workers.length) : p.waiting = [] := by
  have h0 : p.workers[0]? = some [] := by
    rw [List.getElem?_eq_getElem hw, List.flatten_eq_nil_iff.mp h.idle _ (List.getElem_mem hw)]
  rw [List.eq_nil_iff_forall_not_mem]
  intro poly hm
  cases hc : p.board.session.cancelled with
  | false => exact h _ (.start h0 hm hc)
  | true => exact h _ (.refuse h0 hm hc)

/-- The board is the outcome of what was done. Unless a worker was stopped, that, what the workers
have still to do and what nobody has started are together the tasks. -/
structure Accounted (c : Setting) (limit : Nat) (s : Session) (p : Pool) (done : List Action) :
    Prop where
  board : p.board = c.performed (.fresh limit s) done
  tasks : p.refused = false →
    ((done ++ p.workers.flatten).filter Action.planned ++ p.waiting.flatMap c.task).Perm c.tasks

theorem accounted_pool (c : Setting) (limit : Nat) (s : Session) (workers : Nat) :
    Accounted c limit s (c.pool limit s workers) [] where
  board := rfl
  tasks _ := by simp [pool, Setting.tasks]

theorem Accounted.step {done : List Action} (h : Accounted c limit s p done)
    (step : c.Step p q) : ∃ done', Accounted c limit s q done' := by
  cases step with
  | @start i poly idle waits go =>
    -- The task goes from the waiting polynomials to the worker.
    refine ⟨done, h.board, fun hr => ?_⟩
    have hf := (List.flatten_set_perm idle (c.task poly)).filter Action.planned
    have hw := (List.perm_cons_erase waits).flatMap_right c.task
    have ht := h.tasks hr
    simp only [List.nil_append, List.filter_append, filter_planned_task, List.flatMap_cons,
      List.perm_iff_count, List.count_append] at hf hw ht ⊢
    intro a
    rw [← ht a, hf a, hw a]
    omega
  | refuse => exact ⟨done, h.board, nofun⟩
  | drop waits refused => exact ⟨done, h.board, fun hr => by simp [refused] at hr⟩
  | @act i a rest busy =>
    -- The action goes from the worker to what was done; an announcement that it calls for is no
    -- part of a task.
    refine ⟨done ++ [a], ?_, fun hr => ?_⟩
    · rw [performed_append, ← h.board]
      rfl
    · have hf := (List.flatten_set_perm busy ((c.perform p.board a).2.toList ++ rest)).filter
        Action.planned
      have ht := h.tasks hr
      rw [← List.singleton_append] at hf
      simp only [List.filter_append, perform_planned, List.nil_append, List.perm_iff_count,
        List.count_append] at hf ht ⊢
      intro b
      have hfb := hf b
      rw [← ht b]
      omega

theorem accounted_of_steps (h : c.Steps (c.pool limit s workers) p) :
    ∃ done, Accounted c limit s p done := by
  induction h with
  | refl => exact ⟨[], accounted_pool c limit s workers⟩
  | tail _ step ih =>
    obtain ⟨done, hd⟩ := ih
    exact hd.step step

/-- A session that nobody stops never has a worker refuse. -/
theorem not_refused (hs : s.Calm) (h : c.Steps (c.pool limit s workers) p) :
    p.refused = false := by
  induction h with
  | refl => rfl
  | @tail p q steps step ih =>
    cases step with
    | start => exact ih
    | act => exact ih
    | drop waits refused => exact ih
    | refuse idle waits stop =>
      obtain ⟨done, hd⟩ := accounted_of_steps steps
      have hc := (c.calm_performed (b := .fresh limit s) hs done).cancelled
      rw [← hd.board, stop] at hc
      cases hc

/-- A run that ends without a refusal has performed just the tasks. -/
theorem complete_of_ended (hw : 0 < workers) (h : c.Steps (c.pool limit s workers) p)
    (ended : c.Ended p) (hr : p.refused = false) :
    ∃ done, c.Complete done ∧ p.board = c.performed (.fresh limit s) done := by
  obtain ⟨done, hd⟩ := accounted_of_steps h
  have hl : 0 < p.workers.length := by rwa [length_workers h]
  refine ⟨done, ?_, hd.board⟩
  have ht := hd.tasks hr
  rwa [ended.idle, ended.waiting hl, List.append_nil, List.flatMap_nil, List.append_nil] at ht

theorem matched_sent (c : Setting) (actions : List Action) :
    (actions.filterMap c.sent?).filter (fun e => e.kind = .matched) =
      (actions.filterMap Action.reported?).map c.event := by
  rw [List.filter_filterMap, List.map_filterMap]
  congr 1
  funext a
  cases a <;> simp [sent?, Action.reported?, event, Event.kind]

end Setting

/-- Brute force does not depend on the schedule: however many workers there are and however their
steps interleave, they come to an end. Unless one of them was stopped, the result is then that of
the ascending run, and each solution has been reported once. -/
theorem bruteForce_schedule_independent (sources : Sources) (r : Request)
    (h : Searchable r.width) (limit : Nat) (s : Session) (workers : Nat) (hw : 0 < workers) :
    let c := Setting.ofRequest r h.valid
    WellFounded (fun q p => c.Step p q) ∧
    ∀ p, c.Steps (c.pool limit s workers) p → c.Ended p →
      (s.Calm → p.refused = false) ∧
      (p.refused = false →
        (∀ calm : Session, calm.Calm →
          (find sources limit r calm .bruteForce).1 = .ok (c.resultOf p.board)) ∧
        ∃ events, p.board.session.trace.toList = s.trace.toList ++ events ∧
          (events.filter (fun e => e.kind = .matched) : Multiset Event) =
            (solutions r h.valid).val.map c.event) := by
  intro c
  refine ⟨c.wellFounded_step, fun p steps ended => ⟨fun hs => Setting.not_refused hs steps, ?_⟩⟩
  intro hr
  obtain ⟨done, hd, hb⟩ := Setting.complete_of_ended hw steps ended hr
  refine ⟨fun calm hc => ?_, done.filterMap c.sent?, ?_, ?_⟩
  · obtain ⟨all, ha, hrun⟩ := c.run_calm hc limit
    rw [find_bruteForce sources limit h, hrun, hb, ha.resultOf_eq h.2, hd.resultOf_eq h.2]
  · rw [hb, Setting.trace_performed]
    rfl
  · rw [Setting.matched_sent, ← hd.reported, Multiset.map_coe]

/-- Two workers search for a check value and come to the result of one. -/
theorem bruteForce_two_workers :
    let r : Request := ⟨8, "123456789".toUTF8.toList, .bytes [0xf4]⟩
    let c := Setting.ofRequest r ⟨by decide, by decide⟩
    let s := Session.start false true .never
    ∃ p, c.Steps (c.pool 10 s 2) p ∧ c.Ended p ∧ p.refused = false ∧
      (find .builtin 10 r s .bruteForce).1 = .ok (c.resultOf p.board) := by
  intro r c s
  obtain ⟨p, steps, ended⟩ := c.exists_ended (c.pool 10 s 2)
  obtain ⟨-, outcome⟩ := bruteForce_schedule_independent .builtin r (by decide : Searchable 8) 10
    s 2 (by decide)
  obtain ⟨calm, result⟩ := outcome p steps ended
  have hr := calm ⟨rfl, rfl⟩
  exact ⟨p, steps, ended, hr, (result hr).1 s ⟨rfl, rfl⟩⟩

end DigestFinder.Search
