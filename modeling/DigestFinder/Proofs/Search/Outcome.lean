import DigestFinder.Proofs.Search.Log

/-!
What a search that nobody stops comes to, without the session, and how a run that may be stopped
relates to it: the run comes to the same, unless a look finds the request to stop.
-/

namespace DigestFinder.Search

/-- Whether a strategy serves a width. -/
abbrev Strategy.Serves (strategy : Strategy) (width : Nat) : Prop :=
  strategy.minWidth ≤ width ∧ width ≤ strategy.maxWidth

theorem Request.valid (request : Request) (h : Strategy.bruteForce.Serves request.width) :
    Crc.ValidWidth request.width :=
  validWidth h

/-- Whether a candidate has the digest that is looked for. -/
def Candidate.verdict (c : Candidate) (request : Request) : Except Error Bool :=
  (c.digest request.target).map request.expected.accepts

/-- The result of trying candidates in order on top of a result. -/
def sweepOutcome (request : Request) (total : Result) : List Candidate → Except Error Result
  | [] => .ok total
  | c :: rest =>
    match c.verdict request with
    | .error e => .error e
    | .ok true => sweepOutcome request (total.hit c.found) rest
    | .ok false => sweepOutcome request total.miss rest

/-- The result of one strategy by itself. -/
def findOutcome (sources : Sources) (limit : Nat) (request : Request) (strategy : Strategy) :
    Except Error Result :=
  if h : strategy.Serves request.width then
    match strategy, h with
    | .catalogue, _ =>
      sweepOutcome request {} (catalogueCandidates sources.catalogue request.width)
    | .documented, _ =>
      sweepOutcome request {} (documentedCandidates sources.provider request.width)
    | .bruteForce, h => .ok (enumerated request (request.valid h) limit)
  else .error (.parameter strategy request.width strategy.minWidth strategy.maxWidth)

/-- Whether an error has the strategy skipped; any other ends the search. -/
def Error.skips : Error → Bool
  | parameter .. => true
  | _ => false

/-- The report of strategies in order on top of a report. -/
def runOutcome (sources : Sources) (limit : Nat) (request : Request) (r : Report) :
    List Strategy → Except Error Report
  | [] => .ok r
  | strategy :: rest =>
    match findOutcome sources limit request strategy with
    | .ok result => runOutcome sources limit request (r.add strategy result) rest
    | .error e =>
      if e.skips then runOutcome sources limit request (r.skip strategy e.message) rest
      else .error e

/-- The report of a search, or its error. -/
def searchOutcome (sources : Sources) (options : Options) (request : Request) :
    Except Error Report :=
  runOutcome sources options.maxMatches request ⟨request.width, {}, []⟩ options.enabled

/-- A run with its log: it comes to the calm outcome unless a look finds the request to stop, and
nothing is begun after the request. -/
structure Faithful {α : Type} (s : Session) (calm : Except Error α) (log : Log)
    (out : Except Error α × Session) : Prop where
  session : out.2 = s.after log
  result : out.1 = if s.passes log then calm else .error .cancelled
  heeds : s.heeds log

namespace Faithful

variable {α : Type} {s : Session} {calm : Except Error α} {log first : Log}
  {out : Except Error α × Session}

theorem of_calm (h : Faithful s calm log out) (hs : s.Calm) : out.1 = calm := by
  rw [h.result, if_pos (hs.clear _ log)]

theorem nothing (s : Session) (calm : Except Error α) : Faithful s calm [] (calm, s) where
  session := rfl
  result := rfl
  heeds := rfl

theorem refused (hs : s.cancelled = true) (calm : Except Error α) (strategy : Strategy) :
    Faithful s calm [.look strategy] (.error .cancelled, s) where
  session := rfl
  result := by simp [Session.clear, hs, Mark.isLook]
  heeds := rfl

/-- What comes first may not decide the outcome. -/
theorem append (hp : s.passes first) (hh : s.heeds first)
    (h : Faithful (s.after first) calm log out) : Faithful s calm (first ++ log) out where
  session := by rw [Session.after_append, h.session]
  result := by
    have hf : s.passes (first ++ log) = (s.after first).passes log := by
      simp [Session.clear_append, hp]
    rw [hf, h.result]
  heeds := by simp [Session.clear_append, hh, h.heeds]

theorem told (e : Event) (h : Faithful (s.emit e) calm log out) :
    Faithful s calm (.told e :: log) out :=
  @append _ _ _ _ [.told e] _ rfl rfl h

theorem passes_of_ne (h : Faithful s calm log out) (ho : out.1 ≠ .error .cancelled) :
    s.passes log := by
  by_contra hp
  exact ho (by rw [h.result, if_neg hp])

/-- A run that is not cancelled comes to the calm outcome. -/
theorem of_ne (h : Faithful s calm log out) (ho : out.1 ≠ .error .cancelled) : out.1 = calm := by
  rw [h.result, if_pos (h.passes_of_ne ho)]

end Faithful

/-- The events of trying a candidate. -/
def Candidate.events (c : Candidate) (strategy : Strategy) (request : Request) (verbose : Bool) :
    List Event :=
  (if verbose then [.candidate strategy c.found.id] else []) ++
    match c.verdict request with
    | .ok true => [.matched strategy c.found]
    | _ => []

/-- A candidate or a polynomial that is begun, with some events after it. -/
def beginning (strategy : Strategy) (events : List Event) : Log :=
  .look strategy :: .begun strategy :: events.map .told

/-- What a sweep leaves in the log. -/
def sweepLog (strategy : Strategy) (request : Request) (s : Session) : List Candidate → Log
  | [] => []
  | c :: rest =>
    if s.cancelled then [.look strategy]
    else
      let log := beginning strategy (c.events strategy request s.verbose)
      match c.verdict request with
      | .ok _ => log ++ sweepLog strategy request (s.after log) rest
      | .error _ => log

theorem Session.clear_beginning {watched : Mark → Bool} (hw : ∀ e, watched (.told e) = false)
    {s : Session} (hs : s.cancelled = false) (strategy : Strategy) (events : List Event) :
    s.clear watched (beginning strategy events) := by
  have ht : s.clear watched (events.map .told) := s.clear_of_unwatched (by simp [hw])
  simpa [beginning, clear, hs] using ht

theorem Faithful.begin {α : Type} {s : Session} {calm : Except Error α} {log : Log}
    {out : Except Error α × Session} (hs : s.cancelled = false) (strategy : Strategy)
    (events : List Event) (h : Faithful (s.after (beginning strategy events)) calm log out) :
    Faithful s calm (beginning strategy events ++ log) out :=
  h.append (Session.clear_beginning (fun _ => rfl) hs strategy events)
    (Session.clear_beginning (fun _ => rfl) hs strategy events)

theorem sweep_cons (strategy : Strategy) (request : Request) (total : Result) (s : Session)
    (c : Candidate) (rest : List Candidate) :
    sweep strategy request total s (c :: rest) =
      if s.cancelled then (.error .cancelled, s)
      else
        let s := s.after (beginning strategy (c.events strategy request s.verbose))
        match c.verdict request with
        | .error e => (.error e, s)
        | .ok true => sweep strategy request (total.hit c.found) s rest
        | .ok false => sweep strategy request total.miss s rest := by
  rw [sweep]
  unfold beginning Candidate.events Candidate.verdict
  split
  · rfl
  · cases c.digest request.target with
    | error e => cases s.verbose <;> rfl
    | ok digest =>
      simp only [Except.map]
      cases request.expected.accepts digest <;> cases s.verbose <;> rfl

theorem sweep_faithful (strategy : Strategy) (request : Request) (total : Result) (s : Session)
    (cs : List Candidate) :
    Faithful s (sweepOutcome request total cs) (sweepLog strategy request s cs)
      (sweep strategy request total s cs) := by
  induction cs generalizing total s with
  | nil => exact .nothing s _
  | cons c rest ih =>
    rw [sweep_cons, sweepLog, sweepOutcome]
    cases hc : s.cancelled with
    | true => exact .refused hc _ strategy
    | false =>
      cases hv : c.verdict request with
      | error e =>
        simpa using Faithful.begin hc strategy (c.events strategy request s.verbose)
          (.nothing _ (.error e))
      | ok hit =>
        cases hit with
        | true => exact (ih _ _).begin hc strategy _
        | false => exact (ih _ _).begin hc strategy _

end DigestFinder.Search
