import DigestFinder.Proofs.Search.Stopping

/-!
What a search that nobody stops tells. Brute force reports each solution once and announces its
progress after each block of polynomials, whichever workers finish them: the schedule decides only
the order of the events.
-/

namespace DigestFinder.Search

theorem toNat_succ {n : UInt64} (h : n.toNat + 1 < 2 ^ 64) : (n + 1).toNat = n.toNat + 1 := by
  rw [UInt64.toNat_add]
  exact Nat.mod_eq_of_lt h

namespace Setting

variable (c : Setting)

/-- The announcement that is due when so many polynomials are finished. -/
def announcement? (wantsProgress : Bool) (done : UInt64) : Option Event :=
  if wantsProgress && c.isDue done then some (.progress done c.total) else none

/-- The announcements until so many polynomials are finished. -/
def announcements (wantsProgress : Bool) (finished : Nat) : List Event :=
  (List.range finished).filterMap fun n => c.announcement? wantsProgress (n.toUInt64 + 1)

theorem announcements_succ (wantsProgress : Bool) (finished : Nat) :
    c.announcements wantsProgress (finished + 1) = c.announcements wantsProgress finished ++
      (c.announcement? wantsProgress (finished.toUInt64 + 1)).toList := by
  rw [announcements, List.range_succ, List.filterMap_append]
  rfl

theorem sent_task (poly : UInt64) :
    (c.task poly).filterMap c.sent? = (c.hits poly).map c.event := by
  simp [task, List.filterMap_flatMap, List.filterMap_cons, sent?, List.map_eq_flatMap]

/-- What the end of a task calls for is the announcement that is due. -/
theorem sent_finish (b : Board) : (c.perform b .finish).2.toList.filterMap c.sent? =
    (c.announcement? b.session.wantsProgress (b.finished + 1)).toList := by
  simp only [perform, announcement?]
  split <;> rfl

/-- What an action calls for is the announcement that it makes due. -/
theorem announcements_perform {b : Board} (h : b.finished.toNat + 1 < 2 ^ 64) (a : Action) :
    c.announcements b.session.wantsProgress (c.perform b a).1.finished.toNat =
      c.announcements b.session.wantsProgress b.finished.toNat ++
        (c.perform b a).2.toList.filterMap c.sent? := by
  cases a with
  | finish =>
    rw [sent_finish]
    change c.announcements _ (b.finished + 1).toNat = _
    rw [toNat_succ h, announcements_succ, Nat.toUInt64, UInt64.ofNat_toNat]
  | _ => exact (List.append_nil _).symm

/-- What a run has told, what its workers are still to tell and what nobody has started are the
reports of all matches and the announcements so far. -/
def Told (p : Pool) (log : Log) : Prop :=
  (log.events ++ p.workers.flatten.filterMap c.sent? ++
      (p.waiting.flatMap c.hits).map c.event).Perm
    (c.allHits.map c.event ++
      c.announcements p.board.session.wantsProgress p.board.finished.toNat)

variable {c} {limit workers : Nat} {s : Session} {p q : Pool} {log last : Log}

theorem told_pool (c : Setting) (limit : Nat) (s : Session) (workers : Nat) :
    c.Told (c.pool limit s workers) [] := by
  simp [Told, pool, Board.fresh, announcements, allHits]

theorem Turn.not_refused (turn : c.Turn p last q) (hr : q.refused = false) :
    p.refused = false := by
  rw [turn.recorded.refused, Bool.or_eq_false_iff] at hr
  exact hr.1

theorem Told.turn (h : c.Told p log) (hr : q.refused = false)
    (hf : p.board.finished.toNat + 1 < 2 ^ 64) (turn : c.Turn p last q) :
    c.Told q (log ++ last) := by
  unfold Told at h ⊢
  cases turn with
  | @start i poly idle waits go =>
    -- The reports of a task go from the waiting polynomials to the worker.
    have hw := (List.flatten_set_perm idle (c.task poly)).filterMap c.sent?
    have ht := ((List.perm_cons_erase waits).flatMap_right c.hits).map c.event
    have hl : (log ++ beginning .bruteForce []).events = log.events := by
      rw [Log.events_append]
      exact List.append_nil _
    rw [hl]
    simp only [List.nil_append, List.filterMap_append, sent_task, List.flatMap_cons,
      List.map_append, List.perm_iff_count, List.count_append] at hw ht h ⊢
    intro e
    rw [← h e, hw e, ht e]
    omega
  | refuse => cases hr
  | drop waits refused => simp [refused] at hr
  | @act i a rest busy =>
    -- An event goes from the worker to the log, an announcement that becomes due to the worker.
    have hw :=
      (List.flatten_set_perm busy ((c.perform p.board a).2.toList ++ rest)).filterMap c.sent?
    have hn := c.announcements_perform hf a
    have hs : (c.perform p.board a).1.session.wantsProgress = p.board.session.wantsProgress := by
      rw [perform_session, Session.wantsProgress_after]
    have ha : [a].filterMap c.sent? = (c.sent? a).toList := by
      cases he : c.sent? a <;> simp [he]
    dsimp only
    rw [hs, hn, Log.events_append, Log.events_map_told]
    rw [← List.singleton_append] at hw
    simp only [List.filterMap_append, ha, List.perm_iff_count, List.count_append] at hw h ⊢
    intro e
    have he := h e
    have := hw e
    omega

/-- Every polynomial is finished, or a worker has still to finish it, or nobody has started it. -/
theorem finished_add_left (h : c.Steps (c.pool limit s workers) p) (hr : p.refused = false)
    (hw : c.width ≤ 63) :
    p.board.finished.toNat + p.workers.flatten.count .finish + p.waiting.length = 2 ^ c.width := by
  obtain ⟨done, hd⟩ := accounted_of_steps h
  have hc := (hd.tasks hr).count_eq .finish
  have waits : (p.waiting.flatMap c.task).count .finish = p.waiting.length := by
    simp [List.count_flatMap, Function.comp_def, count_task_finish]
  rw [count_tasks_finish, List.count_append, List.count_filter rfl, List.count_append, waits] at hc
  have bound : 2 ^ c.width ≤ 2 ^ 63 := Nat.pow_le_pow_right (by decide) hw
  have hf : p.board.finished.toNat = done.count .finish := by
    rw [hd.board, finished_performed]
    exact (congrArg UInt64.toNat (UInt64.zero_add _)).trans
      (UInt64.toNat_ofNat_of_lt' (by change _ < 2 ^ 64; omega))
  rw [hf]
  exact hc

/-- Unless a worker is stopped, every run has told what it should. -/
theorem told_of_turns (hw : c.width ≤ 63) (turns : c.Turns (c.pool limit s workers) log p)
    (hr : p.refused = false) : c.Told p log := by
  induction turns with
  | none => exact told_pool c limit s workers
  | @more q r log last turns turn ih =>
    have steps : c.Steps (c.pool limit s workers) q := c.steps_iff_turns.mpr ⟨log, turns⟩
    have hq := turn.not_refused hr
    have hf : q.board.finished.toNat + 1 < 2 ^ 64 := by
      have hl := finished_add_left steps hq hw
      have hp : 2 ^ c.width ≤ 2 ^ 63 := Nat.pow_le_pow_right (by decide) hw
      omega
    exact (ih hq).turn hr hf turn

/-- However many workers there are, what they have told at the end is the same. -/
theorem events_of_ended (hc : c.width ≤ 63) (hw : 0 < workers)
    (turns : c.Turns (c.pool limit s workers) log p) (ended : c.Ended p) (hr : p.refused = false) :
    log.events.Perm (c.allHits.map c.event ++ c.announcements s.wantsProgress (2 ^ c.width)) := by
  have steps : c.Steps (c.pool limit s workers) p := c.steps_iff_turns.mpr ⟨log, turns⟩
  obtain ⟨done, hd, hb⟩ := complete_of_ended hw steps ended hr
  have hf : p.board.finished.toNat = 2 ^ c.width := hb ▸ hd.finished hc limit s
  have hl : 0 < p.workers.length := by rwa [length_workers steps]
  have hp : p.board.session.wantsProgress = s.wantsProgress := by
    rw [turns.recorded.session]
    exact s.wantsProgress_after log
  have told := told_of_turns hc turns hr
  rwa [Told, ended.idle, ended.waiting hl, hf, hp, List.filterMap_nil, List.flatMap_nil,
    List.map_nil, List.append_nil, List.append_nil] at told

/-- A run that is not cancelled had no worker stopped. -/
theorem not_refused_of_outcome (go : (c.outcome p).1 ≠ .error .cancelled) : p.refused = false := by
  rw [← Bool.not_eq_true]
  intro hr
  exact go (by rw [outcome, if_pos hr])

end Setting

/-- What is told of trying candidates in order. -/
def sweepEvents (strategy : Strategy) (request : Request) (verbose : Bool) :
    List Candidate → List Event
  | [] => []
  | c :: rest =>
    c.events strategy request verbose ++
      match c.verdict request with
      | .ok _ => sweepEvents strategy request verbose rest
      | .error _ => []

/-- What one strategy tells, in some order. -/
def findEvents (sources : Sources) (request : Request) (verbose wantsProgress : Bool)
    (strategy : Strategy) : Multiset Event :=
  if h : strategy.Serves request.width then
    match strategy, h with
    | .catalogue, _ => sweepEvents .catalogue request verbose
        (catalogueCandidates sources.catalogue request.width)
    | .documented, _ => sweepEvents .documented request verbose
        (documentedCandidates sources.provider request.width)
    | .bruteForce, h =>
      let c := Setting.ofRequest request (request.valid h)
      (solutions request (request.valid h)).val.map c.event +
        c.announcements wantsProgress (2 ^ request.width)
  else 0

/-- What strategies in order tell, in some order. -/
def runEvents (sources : Sources) (limit : Nat) (request : Request)
    (verbose wantsProgress : Bool) : List Strategy → Multiset Event
  | [] => 0
  | strategy :: rest =>
    {.started strategy} + findEvents sources request verbose wantsProgress strategy +
      match findOutcome sources limit request strategy with
      | .ok result => {.finished strategy result.found} +
          runEvents sources limit request verbose wantsProgress rest
      | .error e =>
        if e.skips then {.skipped strategy e.message} +
          runEvents sources limit request verbose wantsProgress rest
        else 0

section

variable {sources : Sources} {limit : Nat} {request : Request} {workers : Nat} {s : Session}
  {strategy : Strategy} {log : Log}

theorem events_beginning (strategy : Strategy) (es : List Event) :
    (beginning strategy es).events = es :=
  Log.events_map_told es

theorem events_sweepLog (hs : s.Calm) (cs : List Candidate) :
    (sweepLog strategy request s cs).events = sweepEvents strategy request s.verbose cs := by
  induction cs generalizing s with
  | nil => rfl
  | cons c rest ih =>
    rw [sweepLog, hs.cancelled, sweepEvents]
    cases hv : c.verdict request with
    | error e => simp [events_beginning]
    | ok hit => simp [events_beginning, ih (hs.after _)]

theorem Finds.events (hw : 0 < workers) (hs : s.Calm) {out : Except Error Result × Session}
    (run : Finds sources limit request workers s strategy log out) :
    (log.events : Multiset Event) =
      findEvents sources request s.verbose s.wantsProgress strategy := by
  cases run with
  | unserved h =>
    rw [findEvents, dif_neg h]
    rfl
  | catalogue h =>
    rw [findEvents, dif_pos h, events_sweepLog hs]
  | documented h =>
    rw [findEvents, dif_pos h, events_sweepLog hs]
  | bruteForce h turns ended =>
    rw [findEvents, dif_pos h]
    have hr := Setting.not_refused hs ((Setting.steps_iff_turns _).mpr ⟨log, turns⟩)
    have told := Setting.events_of_ended h.2 hw turns ended hr
    rw [Multiset.coe_eq_coe.mpr told, ← Multiset.coe_add, ← Multiset.map_coe, Setting.allHits_eq]
    rfl

theorem RunsAll.events (hw : 0 < workers) (hs : s.Calm) {r : Report} {strategies : List Strategy}
    {out : Except Error Report × Session}
    (run : RunsAll sources limit request workers r s strategies log out) :
    (log.events : Multiset Event) =
      runEvents sources limit request s.verbose s.wantsProgress strategies := by
  induction run with
  | done => rfl
  | @finished r s s' strategy rest result first second out run more ih =>
    have started := hs.emit (.started strategy)
    have he := run.events hw started
    have ho := (run.faithful hw).of_calm started
    obtain rfl : s' = _ := (run.faithful hw).session
    have hm := ih ((started.after first).emit _)
    simp only [Session.verbose_emit, Session.wantsProgress_emit, Session.verbose_after,
      Session.wantsProgress_after] at he hm
    rw [runEvents, ← ho, ← he, ← hm]
    simp [Multiset.singleton_add]
  | @skipped r s s' strategy rest e first second out run skips more ih =>
    have started := hs.emit (.started strategy)
    have he := run.events hw started
    have ho := (run.faithful hw).of_calm started
    obtain rfl : s' = _ := (run.faithful hw).session
    have hm := ih ((started.after first).emit _)
    simp only [Session.verbose_emit, Session.wantsProgress_emit, Session.verbose_after,
      Session.wantsProgress_after] at he hm
    rw [runEvents, ← ho, ← he, ← hm]
    simp [Multiset.singleton_add, skips]
  | @failed r s s' strategy rest e first run ends =>
    have started := hs.emit (.started strategy)
    have he := run.events hw started
    have ho := (run.faithful hw).of_calm started
    simp only [Session.verbose_emit, Session.wantsProgress_emit] at he
    rw [runEvents, ← ho, ← he]
    simp [Multiset.singleton_add, ends]

/-- What a search tells that nobody stops does not depend on the workers or on their schedule. -/
theorem Searches.events (hw : 0 < workers) {options : Options} {wantsProgress : Bool}
    {out : Except Error Report × Session}
    (run : Searches sources options request workers wantsProgress .never log out) :
    (log.events : Multiset Event) = runEvents sources options.maxMatches request options.verbose
      wantsProgress options.enabled :=
  RunsAll.events hw (Session.calm_start ..) run

end

end DigestFinder.Search
