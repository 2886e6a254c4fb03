import DigestFinder.Proofs.Search.AscendingEvents

/-!
How far brute force says that it has come. Each announcement carries a number of finished
polynomials of its own, and the workers make them in any order. The one that all are finished comes
after all reports: by then nobody has a task that is not finished, and a task reports its matches
before it is finished.
-/

namespace DigestFinder.Search

/-- The number of finished polynomials, and the number of all, as an event tells them. -/
def Event.progress? : Event → Option (Nat × Nat)
  | progress done total => some (done.toNat, total.toNat)
  | _ => none

/-- The numbers of finished polynomials to be told: whole blocks of them, and all. -/
def milestones (width : Nat) : List Nat :=
  (List.range' 1 (2 ^ width)).filter fun done => done % 4096 = 0 ∨ done = 2 ^ width

theorem all_mem_milestones (width : Nat) : 2 ^ width ∈ milestones width := by
  have positive := Nat.two_pow_pos width
  simp only [milestones, List.mem_filter, List.mem_range'_1, decide_eq_true_eq, or_true, and_true]
  omega

namespace Setting

variable {c : Setting} {limit workers : Nat} {s : Session} {p q : Pool} {log : Log}

theorem toNat_toUInt64_succ {n : Nat} (h : n + 1 < 2 ^ 64) : (n.toUInt64 + 1).toNat = n + 1 := by
  have small : n.toUInt64.toNat = n := UInt64.toNat_ofNat_of_lt' (Nat.lt_of_succ_lt h)
  rw [toNat_succ (by omega), small]

theorem isDue_iff (hw : c.width ≤ 63) (done : UInt64) :
    c.isDue done = true ↔ done.toNat % 4096 = 0 ∨ done.toNat = 2 ^ c.width := by
  have block : progressBlock.toNat = 4096 := rfl
  rw [isDue, Bool.or_eq_true, beq_iff_eq, beq_iff_eq, ← UInt64.toNat_inj, ← UInt64.toNat_inj,
    UInt64.toNat_mod, block, toNat_total c hw]
  rfl

/-- The announcement that is due is that of the number itself, if it is a milestone. -/
theorem progress?_announcement? (hw : c.width ≤ 63) (done : UInt64) :
    (c.announcement? true done).bind Event.progress? =
      if done.toNat % 4096 = 0 ∨ done.toNat = 2 ^ c.width then
        some (done.toNat, 2 ^ c.width) else none := by
  simp only [announcement?, Bool.true_and, isDue_iff hw]
  split
  · rw [Option.bind_some, Event.progress?, toNat_total c hw]
  · rfl

/-- What is announced until all polynomials are finished. -/
theorem progress?_announcements (hw : c.width ≤ 63) :
    (c.announcements true (2 ^ c.width)).filterMap Event.progress? =
      (milestones c.width).map fun done => (done, 2 ^ c.width) := by
  have bound : 2 ^ c.width ≤ 2 ^ 63 := Nat.pow_le_pow_right (by decide) hw
  have value {n : Nat} (hn : n < 2 ^ c.width) : (n.toUInt64 + 1).toNat = 1 + n := by
    rw [toNat_toUInt64_succ (by omega), Nat.add_comm]
  rw [announcements, List.filterMap_filterMap, milestones, ← List.filterMap_eq_filter,
    List.map_filterMap, List.range'_eq_map_range, List.filterMap_map]
  apply List.filterMap_congr
  intro n hn
  rw [progress?_announcement? hw, value (List.mem_range.mp hn)]
  simp only [Function.comp_apply, Option.guard]
  split <;> simp_all

/-- What a worker has still to do: the end of a task, of which nothing may be left, or the
announcement that a task called for. -/
def Remains (c : Setting) (w : List Action) : Prop :=
  (∃ poly, w <:+ c.task poly) ∨ ∃ done, w = [.announce done]

theorem finish_mem_of_suffix {poly : UInt64} {w : List Action} (h : w <:+ c.task poly)
    (left : w ≠ []) : .finish ∈ w := by
  rw [task, List.suffix_concat_iff] at h
  rcases h with rfl | ⟨front, rfl, -⟩
  · exact absurd rfl left
  · simp

/-- A task ends when the polynomial is finished. -/
theorem nil_of_finish {poly : UInt64} {rest : List Action}
    (h : .finish :: rest <:+ c.task poly) : rest = [] := by
  have once := h.sublist.count_le .finish
  rw [count_task_finish, List.count_cons_self] at once
  have none : .finish ∉ rest := List.count_eq_zero.mp (by omega)
  by_contra left
  exact none (finish_mem_of_suffix ((List.suffix_cons _ _).trans h) left)

theorem Remains.perform {a : Action} {rest : List Action} (h : c.Remains (a :: rest)) (b : Board) :
    c.Remains ((c.perform b a).2.toList ++ rest) := by
  rcases h with ⟨poly, suffix⟩ | ⟨done, single⟩
  · have less : c.Remains rest := .inl ⟨poly, (List.suffix_cons a rest).trans suffix⟩
    cases a with
    | finish =>
      obtain rfl := nil_of_finish suffix
      simp only [Setting.perform]
      split
      · exact .inr ⟨_, rfl⟩
      · exact less
    | _ => exact less
  · obtain ⟨rfl, rfl⟩ := List.cons.inj single
    exact .inl ⟨0, List.nil_suffix⟩

theorem remains_of_steps (steps : c.Steps (c.pool limit s workers) p) :
    ∀ w ∈ p.workers, c.Remains w := by
  induction steps with
  | refl =>
    intro w hw
    obtain rfl := List.eq_of_mem_replicate hw
    exact .inl ⟨0, List.nil_suffix⟩
  | tail _ step ih =>
    cases step with
    | @start i poly idle waits go =>
      intro w hw
      rcases List.mem_or_eq_of_mem_set hw with hw | rfl
      · exact ih w hw
      · exact .inl ⟨poly, List.suffix_rfl⟩
    | refuse => exact ih
    | drop => exact ih
    | @act i a rest busy =>
      intro w hw
      rcases List.mem_or_eq_of_mem_set hw with hw | rfl
      · exact ih w hw
      · exact (ih _ (List.mem_of_getElem? busy)).perform _

theorem Remains.finish_mem {w : List Action} (h : c.Remains w) {p : Params}
    (hp : .report p ∈ w) : .finish ∈ w := by
  rcases h with ⟨poly, suffix⟩ | ⟨done, rfl⟩
  · exact finish_mem_of_suffix suffix (List.ne_nil_of_mem hp)
  · simp at hp

/-- Once all polynomials are finished no worker has a match to report. -/
theorem report_not_mem (hw : c.width ≤ 63) (steps : c.Steps (c.pool limit s workers) p)
    (hr : p.refused = false) (all : p.board.finished.toNat = 2 ^ c.width) {w : List Action}
    (h : w ∈ p.workers) (found : Params) : .report found ∉ w := by
  intro report
  -- who has a match to report has a polynomial to finish, too
  have finish := (remains_of_steps steps w h).finish_mem report
  have left : 0 < p.workers.flatten.count .finish :=
    List.count_pos_iff.mpr (List.mem_flatten.mpr ⟨w, h, finish⟩)
  have count := finished_add_left steps hr hw
  omega

/-- No more polynomials are told to be finished than are. -/
theorem le_finished_of_progress (hw : c.width ≤ 63)
    (turns : c.Turns (c.pool limit s workers) log p) (hr : p.refused = false) {done total : UInt64}
    (h : .progress done total ∈ log.events) : done.toNat ≤ p.board.finished.toNat := by
  have bound : 2 ^ c.width ≤ 2 ^ 63 := Nat.pow_le_pow_right (by decide) hw
  have count := finished_add_left (c.steps_iff_turns.mpr ⟨log, turns⟩) hr hw
  have told := (told_of_turns hw turns hr).subset
    (List.mem_append_left _ (List.mem_append_left _ h))
  rcases List.mem_append.mp told with report | announced
  · obtain ⟨found, -, he⟩ := List.mem_map.mp report
    cases he
  · obtain ⟨n, hn, due⟩ := List.mem_filterMap.mp announced
    rw [List.mem_range] at hn
    simp only [announcement?, Option.ite_none_right_eq_some, Option.some.injEq,
      Event.progress.injEq] at due
    obtain ⟨-, rfl, -⟩ := due
    rw [toNat_toUInt64_succ (by omega)]
    exact hn

/-- No match is reported after it was told that all polynomials are finished. -/
theorem reports_before_last (hw : c.width ≤ 63) (turns : c.Turns (c.pool limit s workers) log p)
    (hr : p.refused = false) : log.events.Pairwise fun e e' =>
      e.progress? = some (2 ^ c.width, 2 ^ c.width) → e'.kind ≠ .matched := by
  induction turns with
  | none => exact .nil
  | @more q r log last turns turn ih =>
    have hq := turn.not_refused hr
    have steps : c.Steps (c.pool limit s workers) q := c.steps_iff_turns.mpr ⟨log, turns⟩
    rw [Log.events_append]
    cases turn with
    | start => simpa [events_beginning] using ih hq
    | refuse => simpa using ih hq
    | drop => simpa using ih hq
    | @act i a rest busy =>
      rw [Log.events_map_told]
      refine List.pairwise_append.mpr ⟨ih hq, ?_, ?_⟩
      · cases c.sent? a <;> simp
      · intro e he e' he' final matched
        rw [Option.mem_toList] at he'
        cases e with
        | progress done total =>
          -- all are finished, so that the worker that acts has no match to report
          have all : done.toNat = 2 ^ c.width := (Prod.mk.inj (Option.some.inj final)).1
          have bound := le_finished_of_progress hw turns hq he
          have count := finished_add_left steps hq hw
          cases a with
          | report found =>
            exact report_not_mem hw steps hq (by omega) (List.mem_of_getElem? busy) found
              List.mem_cons_self
          | announce done =>
            obtain rfl := Option.some.inj he'
            cases matched
          | _ => cases he'
        | _ => cases final

section

variable (hc : c.width ≤ 63) (hw : 0 < workers) (turns : c.Turns (c.pool limit s workers) log p)
  (ended : c.Ended p) (hr : p.refused = false)

include hc hw turns ended hr

theorem progress?_of_ended (wanted : s.wantsProgress = true) :
    (log.events.filterMap Event.progress?).Perm
      ((milestones c.width).map fun done => (done, 2 ^ c.width)) := by
  have reports : (c.allHits.map c.event).filterMap Event.progress? = [] := by
    rw [List.filterMap_map, List.filterMap_eq_nil_iff]
    exact fun _ _ => rfl
  have numbers := (events_of_ended hc hw turns ended hr).filterMap Event.progress?
  rwa [wanted, List.filterMap_append, reports, List.nil_append, progress?_announcements hc]
    at numbers

theorem kind_of_ended (unwanted : s.wantsProgress = false) :
    ∀ e ∈ log.events, e.kind ≠ .progress := by
  intro e he
  have told := (events_of_ended hc hw turns ended hr).subset he
  rw [unwanted] at told
  rcases List.mem_append.mp told with report | announced
  · obtain ⟨found, -, rfl⟩ := List.mem_map.mp report
    simp [event, Event.kind]
  · obtain ⟨n, -, due⟩ := List.mem_filterMap.mp announced
    cases due

theorem exists_last_progress (wanted : s.wantsProgress = true) :
    ∃ before last after, log.events = before ++ last :: after ∧
      last.progress? = some (2 ^ c.width, 2 ^ c.width) ∧ ∀ e ∈ after, e.kind ≠ .matched := by
  have all : (2 ^ c.width, 2 ^ c.width) ∈ log.events.filterMap Event.progress? :=
    (progress?_of_ended hc hw turns ended hr wanted).mem_iff.mpr
      (List.mem_map_of_mem (all_mem_milestones c.width))
  obtain ⟨last, hl, final⟩ := List.mem_filterMap.mp all
  obtain ⟨before, after, split⟩ := List.append_of_mem hl
  have order := reports_before_last hc turns hr
  rw [split, List.pairwise_append, List.pairwise_cons] at order
  exact ⟨before, last, after, split, final, fun e he => order.2.1.1 e he final⟩

end

end Setting

/-- Brute force that is not stopped tells each milestone once, whatever the schedule of its
workers; when it tells that all polynomials are finished it has reported all matches. Where no
progress is wanted none is told. -/
theorem bruteForce_progress_exact {sources : Sources} {r : Request} (h : Searchable r.width)
    {limit workers : Nat} (hw : 0 < workers) {s : Session} {log : Log}
    {out : Except Error Result × Session}
    (run : Finds sources limit r workers s .bruteForce log out)
    (go : s.Calm ∨ out.1 ≠ .error .cancelled) :
    ∃ events, out.2.trace.toList = s.trace.toList ++ events ∧
      (s.wantsProgress = false → ∀ e ∈ events, e.kind ≠ .progress) ∧
      (s.wantsProgress = true →
        (events.filterMap Event.progress?).Perm
          ((milestones r.width).map fun done => (done, 2 ^ r.width)) ∧
        ∃ before last after, events = before ++ last :: after ∧
          last.progress? = some (2 ^ r.width, 2 ^ r.width) ∧ ∀ e ∈ after, e.kind ≠ .matched) := by
  have go : out.1 ≠ .error .cancelled := go.elim (run.ne_cancelled hw) fun go => go
  have session := (run.faithful hw).session
  refine ⟨log.events, by rw [session, Session.trace_after], ?_⟩
  cases run with
  | unserved unserved => exact absurd h unserved
  | bruteForce _ turns ended =>
    have hr := Setting.not_refused_of_outcome go
    refine ⟨Setting.kind_of_ended h.2 hw turns ended hr, fun wanted => ⟨?_, ?_⟩⟩
    · exact Setting.progress?_of_ended h.2 hw turns ended hr wanted
    · exact Setting.exists_last_progress h.2 hw turns ended hr wanted

/-- Two workers that search at the least width tell their progress once. -/
theorem bruteForce_progress_of_two_workers :
    let r : Request := ⟨8, Catalogue.checkInput, .bytes [0xf4]⟩
    ∃ log out, Finds .builtin 10 r 2 (.start false true .never) .bruteForce log out ∧
      Searchable r.width ∧ out.2.trace.toList.filterMap Event.progress? = [(256, 256)] := by
  intro r
  have h : Searchable r.width := by decide
  let s := Session.start false true .never
  let c := Setting.ofRequest r h.valid
  obtain ⟨p, steps, ended⟩ := c.exists_ended (c.pool 10 s 2)
  obtain ⟨log, turns⟩ := c.steps_iff_turns.mp steps
  have run : Finds .builtin 10 r 2 s .bruteForce log (c.outcome p) := .bruteForce h turns ended
  obtain ⟨events, trace, -, wanted⟩ :=
    bruteForce_progress_exact h (by decide) run (.inl (Session.calm_start ..))
  have numbers := (wanted rfl).1
  have single : milestones r.width = [256] := by decide +kernel
  rw [single] at numbers
  refine ⟨log, _, run, h, ?_⟩
  rw [trace]
  exact List.perm_singleton.mp numbers

end DigestFinder.Search
