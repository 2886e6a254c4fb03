import DigestFinder.Proofs.Search.Runs

/-!
Brute force in ascending order is a run of one worker, so that the search itself is one of its
runs. What it does does not depend on when it is asked to stop, only on how far it comes.
-/

namespace DigestFinder.Search

namespace Session

variable {s : Session}

theorem cut_beginning_of_cancelled (hs : s.cancelled = true) (strategy : Strategy)
    (events : List Event) (rest : Log) :
    s.cut (beginning strategy events ++ rest) = [.look strategy] := by
  simp [beginning, cut, hs, Mark.isLook]

theorem cut_beginning (hs : s.cancelled = false) (strategy : Strategy) (events : List Event)
    (rest : Log) : s.cut (beginning strategy events ++ rest) =
      beginning strategy events ++ (s.after (beginning strategy events)).cut rest := by
  have hp : s.passes (beginning strategy events) :=
    clear_beginning (fun _ => rfl) hs strategy events
  rw [cut_append, if_pos hp]

theorem cut_told (s : Session) (e : Event) (log : Log) :
    s.cut (.told e :: log) = .told e :: (s.emit e).cut log := rfl

theorem after_beginning (strategy : Strategy) (events : List Event) :
    s.after (beginning strategy events) = s.after (events.map .told) := rfl

end Session

theorem sweepLog_eq_cut (strategy : Strategy) (request : Request) {s t : Session} (ht : t.Calm)
    (hv : s.verbose = t.verbose) (cs : List Candidate) :
    sweepLog strategy request s cs = s.cut (sweepLog strategy request t cs) := by
  induction cs generalizing s t with
  | nil => rfl
  | cons c rest ih =>
    simp only [sweepLog, ht.cancelled, ← hv, Bool.false_eq_true, if_false]
    cases hc : s.cancelled with
    | true =>
      cases hd : c.verdict request with
      | error e => simpa using
          (Session.cut_beginning_of_cancelled hc strategy (c.events strategy request s.verbose)
            []).symm
      | ok hit => exact (Session.cut_beginning_of_cancelled hc _ _ _).symm
    | false =>
      cases hd : c.verdict request with
      | error e => simpa [Session.cut] using
          (Session.cut_beginning hc strategy (c.events strategy request s.verbose) []).symm
      | ok hit =>
        simp only [Bool.false_eq_true, if_false]
        rw [Session.cut_beginning hc, ih (ht.after _) (by simp [hv])]

/-- The board with another session. -/
def Board.under (b : Board) (s : Session) : Board := { b with session := s }

@[simp] theorem Board.session_under (b : Board) (s : Session) : (b.under s).session = s := rfl

@[simp] theorem Board.under_under (b : Board) (s t : Session) :
    (b.under s).under t = b.under t := rfl

namespace Setting

variable (c : Setting)

/-- The events of a task. -/
def eventsOf (b : Board) (poly : UInt64) : List Event :=
  (c.unrolled b (c.task poly)).filterMap c.sent?

/-- What brute force in ascending order leaves in the log. -/
def runLog (b : Board) : Nat → UInt64 → Log
  | 0, _ => []
  | n + 1, poly =>
    if b.session.cancelled then [.look .bruteForce]
    else
      beginning .bruteForce (c.eventsOf b poly) ++
        runLog (c.performAll b (c.task poly)) n (poly + 1)

theorem performed_under (b : Board) (s : Session) (actions : List Action) :
    c.performed (b.under s) actions =
      (c.performed b actions).under (s.after ((actions.filterMap c.sent?).map .told)) := by
  induction actions generalizing b s with
  | nil => rfl
  | cons a actions ih =>
    have hp : (c.perform (b.under s) a).1 =
        (c.perform b a).1.under (s.after ((c.sent? a).toList.map .told)) := by
      cases a <;> rfl
    refine (congrArg (c.performed · actions) hp).trans ((ih _ _).trans ?_)
    cases a <;> rfl

theorem session_performed (b : Board) (actions : List Action) :
    (c.performed b actions).session =
      b.session.after ((actions.filterMap c.sent?).map .told) :=
  congrArg Board.session (c.performed_under b b.session actions)

theorem unrolled_under (b : Board) {s : Session} (h : s.wantsProgress = b.session.wantsProgress)
    (actions : List Action) : c.unrolled (b.under s) actions = c.unrolled b actions := by
  induction actions generalizing b s with
  | nil => rfl
  | cons a actions ih =>
    have ha : (c.perform (b.under s) a).2 = (c.perform b a).2 := by
      cases a <;> simp [perform, h, Board.under]
    rw [unrolled, unrolled, ha, performBoth_eq, performBoth_eq, ha, performed_under, ih]
    rw [session_performed]
    simpa using h

theorem session_performAll (b : Board) (poly : UInt64) :
    (c.performAll b (c.task poly)).session =
      b.session.after (beginning .bruteForce (c.eventsOf b poly)) := by
  rw [performAll_unrolled, session_performed, Session.after_beginning]
  rfl

theorem eventsOf_under (b : Board) {s : Session} (h : s.wantsProgress = b.session.wantsProgress)
    (poly : UInt64) : c.eventsOf (b.under s) poly = c.eventsOf b poly := by
  rw [eventsOf, c.unrolled_under b h, ← eventsOf]

theorem performAll_under (b : Board) {s : Session} (h : s.wantsProgress = b.session.wantsProgress)
    (poly : UInt64) : c.performAll (b.under s) (c.task poly) =
      (c.performAll b (c.task poly)).under
        (s.after (beginning .bruteForce (c.eventsOf b poly))) := by
  rw [performAll_unrolled, performAll_unrolled, c.unrolled_under b h, performed_under]
  rfl

theorem runLog_eq_cut {b : Board} (hb : b.session.Calm) {s : Session}
    (h : s.wantsProgress = b.session.wantsProgress) (n : Nat) (poly : UInt64) :
    c.runLog (b.under s) n poly = s.cut (c.runLog b n poly) := by
  induction n generalizing b s poly with
  | zero => rfl
  | succ n ih =>
    have hs := c.session_performAll b poly
    have hl : c.runLog b (n + 1) poly = beginning .bruteForce (c.eventsOf b poly) ++
        c.runLog (c.performAll b (c.task poly)) n (poly + 1) :=
      if_neg (by simp [hb.cancelled])
    rw [hl]
    by_cases hc : s.cancelled = true
    · exact (if_pos hc).trans (Session.cut_beginning_of_cancelled hc _ _ _).symm
    · refine (if_neg hc).trans ?_
      rw [Session.cut_beginning (by simpa using hc), c.eventsOf_under b h, c.performAll_under b h,
        ih]
      · rw [hs]
        exact hb.after _
      · rw [hs]
        simpa using h

variable {c} {b : Board} {waiting : List UInt64}

theorem calls_no_more {a called : Action} (h : (c.perform b a).2 = some called) (b' : Board) :
    (c.perform b' called).2 = none := by
  cases a with
  | finish =>
    simp only [perform, Option.ite_none_right_eq_some, Option.some.injEq] at h
    rw [← h.2]
    rfl
  | _ => simp [perform] at h

theorem turn_act (b : Board) (waiting : List UInt64) (a : Action) (rest : List Action) :
    c.Turn ⟨b, waiting, [a :: rest], false⟩ ((c.sent? a).toList.map .told)
      ⟨(c.perform b a).1, waiting, [(c.perform b a).2.toList ++ rest], false⟩ :=
  .act (i := 0) rfl

/-- One worker performs its actions, and those that they call for. -/
theorem turns_performAll (b : Board) (waiting : List UInt64) (actions : List Action) :
    c.Turns ⟨b, waiting, [actions], false⟩
      (((c.unrolled b actions).filterMap c.sent?).map .told)
      ⟨c.performAll b actions, waiting, [[]], false⟩ := by
  induction actions generalizing b with
  | nil => exact .none
  | cons a actions ih =>
    have both : c.Turns ⟨b, waiting, [a :: actions], false⟩
        (((a :: (c.perform b a).2.toList).filterMap c.sent?).map .told)
        ⟨c.performBoth b a, waiting, [actions], false⟩ := by
      have first := Turns.none.more (turn_act (c := c) b waiting a actions)
      rw [performBoth_eq]
      cases hx : (c.perform b a).2 with
      | none =>
        rw [hx] at first
        cases hs : c.sent? a <;> simpa [performed, hs] using first
      | some called =>
        have second := turn_act (c := c) (c.perform b a).1 waiting called actions
        rw [calls_no_more hx] at second
        rw [hx] at first
        have two := first.more second
        cases hs : c.sent? a <;> cases ht : c.sent? called <;>
          simpa [performed, hs, ht] using two
    rw [unrolled, List.filterMap_append, List.map_append]
    exact both.trans (ih _)

theorem ended_of_nothing {p : Pool} (hw : p.waiting = []) (hi : p.workers.flatten = []) :
    c.Ended p := by
  intro q step
  cases step with
  | start idle waits go => simp [hw] at waits
  | refuse idle waits stop => simp [hw] at waits
  | drop waits refused => simp [hw] at waits
  | act busy =>
    have hm := List.flatten_eq_nil_iff.mp hi _ (List.mem_of_getElem? busy)
    cases hm

/-- Once the worker has refused, it gives up what is left. -/
theorem turns_drop (b : Board) (waiting : List UInt64) :
    c.Turns ⟨b, waiting, [[]], true⟩ [] ⟨b, [], [[]], true⟩ := by
  induction waiting with
  | nil => exact .none
  | cons poly waiting ih =>
    have turn := Turn.drop (c := c) (p := ⟨b, poly :: waiting, [[]], true⟩)
      (List.mem_cons_self ..) rfl
    rw [List.erase_cons_head] at turn
    exact (Turns.none.more turn).trans ih

/-- The ascending run is a run of one worker. -/
theorem turns_runFrom (b : Board) (n : Nat) (poly : UInt64) :
    ∃ q, c.Turns ⟨b, (List.range n).map fun k => poly + k.toUInt64, [[]], false⟩
        (c.runLog b n poly) q ∧ c.Ended q ∧
      c.runFrom b n poly =
        (if q.refused then .error .cancelled else .ok q.board, q.board.session) := by
  induction n generalizing b poly with
  | zero => exact ⟨_, .none, ended_of_nothing rfl rfl, rfl⟩
  | succ n ih =>
    rw [map_range_succ]
    by_cases hc : b.session.cancelled = true
    · -- The worker refuses the first polynomial and gives up the others.
      have refuse := Turn.refuse (c := c) (i := 0) (p := ⟨b, poly :: (List.range n).map fun k =>
        poly + 1 + k.toUInt64, [[]], false⟩) rfl (List.mem_cons_self ..) hc
      rw [List.erase_cons_head] at refuse
      refine ⟨⟨b, [], [[]], true⟩, ?_, ended_of_nothing rfl rfl, if_pos hc⟩
      rw [runLog, if_pos hc]
      exact (Turns.none.more refuse).trans (turns_drop b _)
    · have start := Turn.start (c := c) (i := 0) (p := ⟨b, poly :: (List.range n).map fun k =>
        poly + 1 + k.toUInt64, [[]], false⟩) rfl (List.mem_cons_self ..) (by simpa using hc)
      rw [List.erase_cons_head] at start
      have task := turns_performAll (c := c) b ((List.range n).map fun k => poly + 1 + k.toUInt64)
        (c.task poly)
      obtain ⟨q, turns, ended, hq⟩ := ih (c.performAll b (c.task poly)) (poly + 1)
      refine ⟨q, ?_, ended, (if_neg hc).trans hq⟩
      rw [runLog, if_neg hc]
      exact ((Turns.none.more start).trans task).trans turns

theorem run_eq_outcome (limit : Nat) (s : Session) :
    ∃ q, c.Turns (c.pool limit s 1) (c.runLog (.fresh limit s) (1 <<< c.width) 0) q ∧ c.Ended q ∧
      c.run limit s = c.outcome q := by
  obtain ⟨q, turns, ended, hq⟩ := c.turns_runFrom (.fresh limit s) (1 <<< c.width) 0
  refine ⟨q, ?_, ended, ?_⟩
  · simpa [pool, polynomials] using turns
  · rw [run, show (⟨s, 0, 0, .ofLimit limit⟩ : Board) = .fresh limit s from rfl, hq, outcome]
    cases q.refused <;> rfl

end Setting

section

variable (sources : Sources) (limit : Nat) (request : Request)

/-- What one strategy by itself leaves in the log, with brute force in ascending order. -/
def findLog (s : Session) (strategy : Strategy) : Log :=
  if h : strategy.Serves request.width then
    match strategy, h with
    | .catalogue, _ =>
      sweepLog .catalogue request s (catalogueCandidates sources.catalogue request.width)
    | .documented, _ =>
      sweepLog .documented request s (documentedCandidates sources.provider request.width)
    | .bruteForce, h =>
      (Setting.ofRequest request (request.valid h)).runLog (.fresh limit s) (1 <<< request.width) 0
  else []

theorem finds_find (s : Session) (strategy : Strategy) :
    Finds sources limit request 1 s strategy (findLog sources limit request s strategy)
      (find sources limit request s strategy) := by
  unfold find findLog
  by_cases h : strategy.Serves request.width
  · rw [dif_pos h, dif_pos h]
    cases strategy with
    | catalogue => exact .catalogue h
    | documented => exact .documented h
    | bruteForce =>
      obtain ⟨q, turns, ended, hq⟩ :=
        (Setting.ofRequest request (request.valid h)).run_eq_outcome limit s
      dsimp only
      rw [hq]
      exact .bruteForce h turns ended
  · rw [dif_neg h, dif_neg h]
    exact .unserved h

theorem findLog_eq_cut {s t : Session} (ht : t.Calm) (hv : s.verbose = t.verbose)
    (hp : s.wantsProgress = t.wantsProgress) (strategy : Strategy) :
    findLog sources limit request s strategy =
      s.cut (findLog sources limit request t strategy) := by
  unfold findLog
  by_cases h : strategy.Serves request.width
  · rw [dif_pos h, dif_pos h]
    cases strategy with
    | catalogue => exact sweepLog_eq_cut _ _ ht hv _
    | documented => exact sweepLog_eq_cut _ _ ht hv _
    | bruteForce =>
      let c := Setting.ofRequest request (request.valid h)
      exact c.runLog_eq_cut (b := .fresh limit t) ht hp _ _
  · rw [dif_neg h, dif_neg h]
    rfl

theorem runAll_cons (r : Report) (s : Session) (strategy : Strategy) (rest : List Strategy) :
    runAll sources limit request r s (strategy :: rest) =
      match find sources limit request (s.emit (.started strategy)) strategy with
      | (.ok result, s) =>
        runAll sources limit request (r.add strategy result)
          (s.emit (.finished strategy result.found)) rest
      | (.error e, s) =>
        if e.skips then
          runAll sources limit request (r.skip strategy e.message)
            (s.emit (.skipped strategy e.message)) rest
        else (.error e, s) := by
  rw [runAll]
  generalize find sources limit request (s.emit (.started strategy)) strategy = out
  obtain ⟨found, s'⟩ := out
  cases found with
  | ok result => rfl
  | error e => cases e <;> rfl

theorem find_eq {s t : Session} (ht : t.Calm) (hv : s.verbose = t.verbose)
    (hp : s.wantsProgress = t.wantsProgress) (strategy : Strategy) :
    find sources limit request s strategy =
      (if s.passes (findLog sources limit request t strategy) then
        findOutcome sources limit request strategy else .error .cancelled,
        s.after (s.cut (findLog sources limit request t strategy))) := by
  have hf := (finds_find sources limit request s strategy).faithful Nat.one_pos
  rw [findLog_eq_cut sources limit request ht hv hp] at hf
  exact Prod.ext (by rw [hf.result, Session.passes_cut]) hf.session

/-- What strategies in order leave in the log, with brute force in ascending order. -/
def runAllLog (s : Session) : List Strategy → Log
  | [] => []
  | strategy :: rest =>
    .told (.started strategy) ::
        findLog sources limit request (s.emit (.started strategy)) strategy ++
      match find sources limit request (s.emit (.started strategy)) strategy with
      | (.ok result, s) =>
        .told (.finished strategy result.found) ::
          runAllLog (s.emit (.finished strategy result.found)) rest
      | (.error e, s) =>
        if e.skips then
          .told (.skipped strategy e.message) ::
            runAllLog (s.emit (.skipped strategy e.message)) rest
        else []

/-- Strategies in order, with brute force in ascending order, are a run of one worker. -/
theorem runsAll_runAll (r : Report) (s : Session) (strategies : List Strategy) :
    RunsAll sources limit request 1 r s strategies (runAllLog sources limit request s strategies)
      (runAll sources limit request r s strategies) := by
  induction strategies generalizing r s with
  | nil => exact .done
  | cons strategy rest ih =>
    have run := finds_find sources limit request (s.emit (.started strategy)) strategy
    rw [runAll_cons, runAllLog]
    rcases hf : find sources limit request (s.emit (.started strategy)) strategy with ⟨o, s'⟩
    rw [hf] at run
    cases o with
    | ok result => exact .finished run (ih _ _)
    | error e =>
      cases he : e.skips with
      | true => simpa [he] using RunsAll.skipped run he (ih _ _)
      | false => simpa [he] using @RunsAll.failed _ _ _ _ _ _ _ _ rest _ _ run he

/-- A search that is asked to stop does what it would do undisturbed, up to the first look that
finds the request. -/
theorem runAllLog_eq_cut {s t : Session} (ht : t.Calm) (hv : s.verbose = t.verbose)
    (hp : s.wantsProgress = t.wantsProgress) (strategies : List Strategy) :
    runAllLog sources limit request s strategies =
      s.cut (runAllLog sources limit request t strategies) := by
  induction strategies generalizing s t with
  | nil => rfl
  | cons strategy rest ih =>
    have ht' := ht.emit (.started strategy)
    have hv' : (s.emit (.started strategy)).verbose = (t.emit (.started strategy)).verbose := by
      simpa using hv
    have hp' : (s.emit (.started strategy)).wantsProgress =
        (t.emit (.started strategy)).wantsProgress := by
      simpa using hp
    rw [runAllLog, runAllLog, find_eq sources limit request ht' hv' hp',
      find_eq sources limit request ht' rfl rfl, findLog_eq_cut sources limit request ht' hv' hp']
    generalize findLog sources limit request (t.emit (.started strategy)) strategy = first
    rw [if_pos (ht'.clear _ first), Session.cut_of_passes (ht'.clear _ first), List.cons_append,
      List.cons_append, Session.cut_told, Session.cut_append]
    by_cases h : (s.emit (.started strategy)).passes first
    · have ht'' := ht'.after first
      rw [if_pos h, if_pos h, Session.cut_of_passes h]
      cases findOutcome sources limit request strategy with
      | ok result =>
        dsimp only
        rw [Session.cut_told, ih (ht''.emit _) (by simpa using hv) (by simpa using hp)]
      | error e =>
        cases he : e.skips with
        | true =>
          simp only [he, if_true]
          rw [Session.cut_told, ih (ht''.emit _) (by simpa using hv) (by simpa using hp)]
        | false => simp [he, Session.cut]
    · rw [if_neg h, if_neg h]
      simp [Error.skips]

end

end DigestFinder.Search
