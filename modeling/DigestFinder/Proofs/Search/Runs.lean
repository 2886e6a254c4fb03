import DigestFinder.Proofs.Search.Outcome

/-!
The runs of a search whose brute force is done by several workers, with their logs. Each run comes
to the calm outcome, or a look finds the request to stop and it comes to nothing.
-/

namespace DigestFinder.Search

namespace Setting

variable (c : Setting)

/-- One step of one worker, with what it leaves in the log. -/
inductive Turn : Pool → Log → Pool → Prop
  | start {p : Pool} {i : Nat} {poly : UInt64} (idle : p.workers[i]? = some [])
      (waits : poly ∈ p.waiting) (go : p.board.session.cancelled = false) :
      Turn p (beginning .bruteForce [])
        { p with waiting := p.waiting.erase poly, workers := p.workers.set i (c.task poly) }
  | refuse {p : Pool} {i : Nat} {poly : UInt64} (idle : p.workers[i]? = some [])
      (waits : poly ∈ p.waiting) (stop : p.board.session.cancelled = true) :
      Turn p [.look .bruteForce] { p with waiting := p.waiting.erase poly, refused := true }
  | drop {p : Pool} {poly : UInt64} (waits : poly ∈ p.waiting) (refused : p.refused = true) :
      Turn p [] { p with waiting := p.waiting.erase poly }
  | act {p : Pool} {i : Nat} {a : Action} {rest : List Action}
      (busy : p.workers[i]? = some (a :: rest)) :
      Turn p ((c.sent? a).toList.map .told) { p with
        board := (c.perform p.board a).1
        workers := p.workers.set i ((c.perform p.board a).2.toList ++ rest) }

/-- Any number of turns. -/
inductive Turns : Pool → Log → Pool → Prop
  | none {p : Pool} : Turns p [] p
  | more {p q r : Pool} {log last : Log} (turns : Turns p log q) (turn : c.Turn q last r) :
      Turns p (log ++ last) r

/-- The turns are the steps. -/
theorem step_iff_turn {p q : Pool} : c.Step p q ↔ ∃ log, c.Turn p log q := by
  constructor
  · rintro (⟨idle, waits, go⟩ | ⟨idle, waits, stop⟩ | ⟨waits, refused⟩ | busy)
    · exact ⟨_, .start idle waits go⟩
    · exact ⟨_, .refuse idle waits stop⟩
    · exact ⟨_, .drop waits refused⟩
    · exact ⟨_, .act busy⟩
  · rintro ⟨log, ⟨idle, waits, go⟩ | ⟨idle, waits, stop⟩ | ⟨waits, refused⟩ | busy⟩
    · exact .start idle waits go
    · exact .refuse idle waits stop
    · exact .drop waits refused
    · exact .act busy

theorem steps_iff_turns {p q : Pool} : c.Steps p q ↔ ∃ log, c.Turns p log q := by
  constructor
  · intro h
    induction h with
    | refl => exact ⟨[], .none⟩
    | tail _ step ih =>
      obtain ⟨log, turns⟩ := ih
      obtain ⟨last, turn⟩ := c.step_iff_turn.mp step
      exact ⟨log ++ last, turns.more turn⟩
  · rintro ⟨log, turns⟩
    induction turns with
    | none => exact .refl
    | more _ turn ih => exact ih.tail (c.step_iff_turn.mpr ⟨_, turn⟩)

variable {c} {p q r : Pool} {log first second : Log}

theorem Turns.trans (h : c.Turns p first q) (h' : c.Turns q second r) :
    c.Turns p (first ++ second) r := by
  induction h' with
  | none => rwa [List.append_nil]
  | more _ turn ih =>
    rw [← List.append_assoc]
    exact ih.more turn

theorem perform_session (c : Setting) (b : Board) (a : Action) :
    (c.perform b a).1.session = b.session.after ((c.sent? a).toList.map .told) := by
  cases a <;> rfl

/-- What has been looked at and sent is in the log, and a worker refuses just when its look finds
the request to stop. -/
structure Recorded (p : Pool) (log : Log) (q : Pool) : Prop where
  session : q.board.session = p.board.session.after log
  refused : q.refused = (p.refused || !p.board.session.passes log)
  heeds : p.board.session.heeds log
  looks : ∀ strategy, .look strategy ∈ log → strategy = .bruteForce

theorem Turn.recorded (turn : c.Turn p log q) : Recorded p log q := by
  cases turn with
  | start idle waits go =>
    have hp : p.board.session.passes (beginning .bruteForce []) :=
      Session.clear_beginning (fun _ => rfl) go .bruteForce []
    exact {
      session := rfl
      refused := by simp [hp]
      heeds := Session.clear_beginning (fun _ => rfl) go .bruteForce []
      looks := by simp [beginning] }
  | refuse idle waits stop =>
    exact {
      session := rfl
      refused := by simp [Session.clear, Mark.isLook, stop]
      heeds := rfl
      looks := by simp }
  | drop waits refused =>
    exact {
      session := rfl
      refused := by simp [Session.clear]
      heeds := rfl
      looks := by simp }
  | @act i a rest busy =>
    have told (watched : Mark → Bool) (hw : ∀ e, watched (.told e) = false) :
        p.board.session.clear watched ((c.sent? a).toList.map .told) :=
      Session.clear_of_unwatched _ (by simp [hw])
    exact {
      session := c.perform_session _ _
      refused := by simp [told Mark.isLook fun _ => rfl]
      heeds := told _ fun _ => rfl
      looks := by simp }

theorem Turns.recorded (turns : c.Turns p log q) : Recorded p log q := by
  induction turns with
  | none =>
    exact {
      session := rfl
      refused := by simp [Session.clear]
      heeds := rfl
      looks := by simp }
  | @more q r log last _ turn ih =>
    have hl := turn.recorded
    refine ⟨?_, ?_, ?_, ?_⟩
    · rw [hl.session, ih.session, Session.after_append]
    · rw [hl.refused, ih.refused, ih.session]
      simp [Session.clear_append, Bool.or_assoc]
    · have hh := hl.heeds
      rw [ih.session] at hh
      simp [Session.clear_append, ih.heeds, hh]
    · intro strategy hm
      rcases List.mem_append.mp hm with hm | hm
      · exact ih.looks strategy hm
      · exact hl.looks strategy hm

/-- What brute force comes to with the workers at the end. -/
def outcome (c : Setting) (p : Pool) : Except Error Result × Session :=
  (if p.refused then .error .cancelled else .ok (c.resultOf p.board), p.board.session)

theorem faithful_of_ended {request : Request} (h : Searchable request.width)
    {limit workers : Nat} (hw : 0 < workers) {s : Session}
    (turns : (ofRequest request h.valid).Turns
      ((ofRequest request h.valid).pool limit s workers) log p)
    (ended : (ofRequest request h.valid).Ended p) :
    Faithful s (.ok (enumerated request h.valid limit)) log
      ((ofRequest request h.valid).outcome p) := by
  have hr := turns.recorded
  have steps := (ofRequest request h.valid).steps_iff_turns.mpr ⟨log, turns⟩
  refine ⟨hr.session, ?_, hr.heeds⟩
  have hn : p.refused = !s.passes log := hr.refused
  cases hp : s.passes log with
  | true =>
    rw [hp] at hn
    obtain ⟨done, hd, hb⟩ := complete_of_ended hw steps ended hn
    have he := hd.resultOf_eq h.2 limit s
    rw [← hb] at he
    simp [outcome, hn, he]
  | false => simp [outcome, hn, hp]

end Setting

section

variable (sources : Sources) (limit : Nat) (request : Request) (workers : Nat)

/-- The runs of one strategy by itself. -/
inductive Finds (s : Session) : Strategy → Log → Except Error Result × Session → Prop
  | unserved {strategy : Strategy} (h : ¬ strategy.Serves request.width) :
      Finds s strategy []
        (.error (.parameter strategy request.width strategy.minWidth strategy.maxWidth), s)
  | catalogue (h : Strategy.catalogue.Serves request.width) :
      Finds s .catalogue
        (sweepLog .catalogue request s (catalogueCandidates sources.catalogue request.width))
        (sweep .catalogue request {} s (catalogueCandidates sources.catalogue request.width))
  | documented (h : Strategy.documented.Serves request.width) :
      Finds s .documented
        (sweepLog .documented request s (documentedCandidates sources.provider request.width))
        (sweep .documented request {} s (documentedCandidates sources.provider request.width))
  | bruteForce (h : Strategy.bruteForce.Serves request.width) {log : Log} {p : Pool}
      (turns : (Setting.ofRequest request (request.valid h)).Turns
        ((Setting.ofRequest request (request.valid h)).pool limit s workers) log p)
      (ended : (Setting.ofRequest request (request.valid h)).Ended p) :
      Finds s .bruteForce log ((Setting.ofRequest request (request.valid h)).outcome p)

/-- The runs of strategies in order on top of a report. -/
inductive RunsAll :
    Report → Session → List Strategy → Log → Except Error Report × Session → Prop
  | done {r : Report} {s : Session} : RunsAll r s [] [] (.ok r, s)
  | finished {r : Report} {s s' : Session} {strategy : Strategy} {rest : List Strategy}
      {result : Result} {first second : Log} {out : Except Error Report × Session}
      (run : Finds sources limit request workers (s.emit (.started strategy)) strategy first
        (.ok result, s'))
      (more : RunsAll (r.add strategy result) (s'.emit (.finished strategy result.found)) rest
        second out) :
      RunsAll r s (strategy :: rest)
        (.told (.started strategy) :: first ++ .told (.finished strategy result.found) :: second)
        out
  | skipped {r : Report} {s s' : Session} {strategy : Strategy} {rest : List Strategy}
      {e : Error} {first second : Log} {out : Except Error Report × Session}
      (run : Finds sources limit request workers (s.emit (.started strategy)) strategy first
        (.error e, s'))
      (skips : e.skips = true)
      (more : RunsAll (r.skip strategy e.message) (s'.emit (.skipped strategy e.message)) rest
        second out) :
      RunsAll r s (strategy :: rest)
        (.told (.started strategy) :: first ++ .told (.skipped strategy e.message) :: second) out
  | failed {r : Report} {s s' : Session} {strategy : Strategy} {rest : List Strategy}
      {e : Error} {first : Log}
      (run : Finds sources limit request workers (s.emit (.started strategy)) strategy first
        (.error e, s'))
      (ends : e.skips = false) :
      RunsAll r s (strategy :: rest) (.told (.started strategy) :: first) (.error e, s')

end

/-- The runs of a search. -/
def Searches (sources : Sources) (options : Options) (request : Request) (workers : Nat)
    (wantsProgress : Bool) (cancellation : Cancellation) (log : Log)
    (out : Except Error Report × Session) : Prop :=
  RunsAll sources options.maxMatches request workers ⟨request.width, {}, []⟩
    (.start options.verbose wantsProgress cancellation) options.enabled log out

section

variable {sources : Sources} {limit : Nat} {request : Request} {workers : Nat} {s : Session}
  {strategy : Strategy} {log : Log}

theorem Finds.faithful (hw : 0 < workers) {out : Except Error Result × Session}
    (run : Finds sources limit request workers s strategy log out) :
    Faithful s (findOutcome sources limit request strategy) log out := by
  cases run with
  | unserved h =>
    rw [findOutcome, dif_neg h]
    exact .nothing s _
  | catalogue h =>
    rw [findOutcome, dif_pos h]
    exact sweep_faithful ..
  | documented h =>
    rw [findOutcome, dif_pos h]
    exact sweep_faithful ..
  | bruteForce h turns ended =>
    rw [findOutcome, dif_pos h]
    exact Setting.faithful_of_ended h hw turns ended

theorem Candidate.strategy_of_mem_events (c : Candidate) (verbose : Bool) :
    ∀ e ∈ c.events strategy request verbose, e.strategy = strategy := by
  unfold events
  cases c.verdict request with
  | error e => cases verbose <;> simp [Event.strategy]
  | ok hit => cases hit <;> cases verbose <;> simp [Event.strategy]

theorem strategy_of_mem_sweepLog (cs : List Candidate) :
    ∀ m ∈ sweepLog strategy request s cs, m.strategy = strategy := by
  induction cs generalizing s with
  | nil => exact List.forall_mem_nil _
  | cons c rest ih =>
    have one : ∀ m ∈ beginning strategy (c.events strategy request s.verbose),
        m.strategy = strategy := by
      simpa [beginning, Mark.strategy] using c.strategy_of_mem_events s.verbose
    rw [sweepLog]
    split
    · exact List.forall_mem_singleton.mpr rfl
    · cases c.verdict request with
      | error e => exact one
      | ok hit => exact List.forall_mem_append.mpr ⟨one, ih⟩

theorem Setting.Turns.strategy_of_mem {c : Setting} {p q : Pool} (turns : c.Turns p log q) :
    ∀ m ∈ log, m.strategy = .bruteForce := by
  induction turns with
  | none => exact List.forall_mem_nil _
  | more _ turn ih =>
    refine List.forall_mem_append.mpr ⟨ih, ?_⟩
    cases turn with
    | start => simp [beginning, Mark.strategy]
    | refuse => simp [Mark.strategy]
    | drop => simp
    | @act i a => cases a <;> simp [sent?, event, Mark.strategy, Event.strategy]

/-- All that happens in a run of one strategy is about this strategy. -/
theorem Finds.strategy_of_mem {out : Except Error Result × Session}
    (run : Finds sources limit request workers s strategy log out) :
    ∀ m ∈ log, m.strategy = strategy := by
  cases run with
  | unserved => exact List.forall_mem_nil _
  | catalogue => exact strategy_of_mem_sweepLog _
  | documented => exact strategy_of_mem_sweepLog _
  | bruteForce h turns ended => exact turns.strategy_of_mem

/-- Only a strategy that serves the width looks at the request to stop, and no other does. -/
theorem Finds.look {out : Except Error Result × Session} {other : Strategy}
    (run : Finds sources limit request workers s strategy log out) (h : .look other ∈ log) :
    other = strategy ∧ strategy.Serves request.width := by
  cases run with
  | unserved => cases h
  | catalogue serves => exact ⟨strategy_of_mem_sweepLog _ _ h, serves⟩
  | documented serves => exact ⟨strategy_of_mem_sweepLog _ _ h, serves⟩
  | bruteForce serves turns ended => exact ⟨turns.recorded.looks _ h, serves⟩

end

end DigestFinder.Search
