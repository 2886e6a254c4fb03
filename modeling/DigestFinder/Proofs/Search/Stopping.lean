import DigestFinder.Proofs.Search.Ascending

/-!
A search that is asked to stop ends with nothing, or with all that it would have come to anyway:
there is no partial report. It ends with nothing just when a strategy looks at the request after
it was made, and it begins nothing more then.
-/

namespace DigestFinder.Search

section

variable {sources : Sources} {limit : Nat} {request : Request} {workers : Nat}

theorem RunsAll.faithful (hw : 0 < workers) {r : Report} {s : Session}
    {strategies : List Strategy} {log : Log} {out : Except Error Report × Session}
    (run : RunsAll sources limit request workers r s strategies log out) :
    Faithful s (runOutcome sources limit request r strategies) log out := by
  induction run with
  | done => exact .nothing _ _
  | @finished r s s' strategy rest result first second out run _ ih =>
    have hf := run.faithful hw
    have hp := hf.passes_of_ne (by simp)
    have ho : findOutcome sources limit request strategy = .ok result := by
      simpa [hp] using hf.result.symm
    obtain rfl : s' = _ := hf.session
    rw [runOutcome, ho]
    exact .told _ (.append hp hf.heeds (.told _ ih))
  | @skipped r s s' strategy rest e first second out run skips _ ih =>
    have hf := run.faithful hw
    have hp := hf.passes_of_ne (by rintro ⟨⟩; cases skips)
    have ho : findOutcome sources limit request strategy = .error e := by
      simpa [hp] using hf.result.symm
    obtain rfl : s' = _ := hf.session
    rw [runOutcome, ho]
    simp only [skips, if_true]
    exact .told _ (.append hp hf.heeds (.told _ ih))
  | @failed r s s' strategy rest e first run ends =>
    have hf := run.faithful hw
    refine .told _ ⟨hf.session, ?_, hf.heeds⟩
    have hr : Except.error e = _ := hf.result
    cases hp : (s.emit (.started strategy)).passes first with
    | true =>
      have ho : findOutcome sources limit request strategy = .error e := by
        simpa [hp] using hr.symm
      rw [runOutcome, ho]
      simp [ends]
    | false =>
      obtain rfl : e = .cancelled := by simpa [hp] using hr
      simp

theorem RunsAll.look {r : Report} {s : Session} {strategies : List Strategy} {log : Log}
    {out : Except Error Report × Session} {strategy : Strategy}
    (run : RunsAll sources limit request workers r s strategies log out)
    (h : .look strategy ∈ log) : strategy ∈ strategies ∧ strategy.Serves request.width := by
  have later {e : Event} {log : Log} (h : .look strategy ∈ .told e :: log) :
      .look strategy ∈ log :=
    List.mem_of_ne_of_mem Mark.noConfusion h
  induction run with
  | done => cases h
  | finished run _ ih =>
    rcases List.mem_append.mp h with h | h
    · obtain ⟨rfl, hs⟩ := run.look (later h)
      exact ⟨List.mem_cons_self .., hs⟩
    · obtain ⟨hm, hs⟩ := ih (later h)
      exact ⟨List.mem_cons_of_mem _ hm, hs⟩
  | skipped run _ _ ih =>
    rcases List.mem_append.mp h with h | h
    · obtain ⟨rfl, hs⟩ := run.look (later h)
      exact ⟨List.mem_cons_self .., hs⟩
    · obtain ⟨hm, hs⟩ := ih (later h)
      exact ⟨List.mem_cons_of_mem _ hm, hs⟩
  | failed run _ =>
    obtain ⟨rfl, hs⟩ := run.look (later h)
    exact ⟨List.mem_cons_self .., hs⟩

end

theorem Candidate.verdict_ne_cancelled {request : Request} {c : Candidate}
    (h : c.digest request.target ≠ .error .cancelled) :
    c.verdict request ≠ .error .cancelled := by
  unfold verdict
  cases hd : c.digest request.target with
  | error e => simpa [Except.map, hd] using h
  | ok digest => simp [Except.map]

theorem sweepOutcome_ne_cancelled {request : Request} {total : Result} {cs : List Candidate}
    (h : ∀ c ∈ cs, c.digest request.target ≠ .error .cancelled) :
    sweepOutcome request total cs ≠ .error .cancelled := by
  induction cs generalizing total with
  | nil => simp [sweepOutcome]
  | cons c rest ih =>
    have hv := c.verdict_ne_cancelled (h c (List.mem_cons_self ..))
    have hr (total : Result) := @ih total fun c hc => h c (List.mem_cons_of_mem _ hc)
    rw [sweepOutcome]
    cases hc : c.verdict request with
    | error e => simpa [hc] using hv
    | ok hit => cases hit <;> exact hr _

theorem findOutcome_ne_cancelled (sources : Sources) (limit : Nat) (request : Request)
    (strategy : Strategy) : findOutcome sources limit request strategy ≠ .error .cancelled := by
  unfold findOutcome
  by_cases h : strategy.Serves request.width
  · rw [dif_pos h]
    cases strategy with
    | catalogue =>
      refine sweepOutcome_ne_cancelled fun c hc => ?_
      obtain ⟨e, -, rfl⟩ := List.mem_map.mp hc
      simp [Candidate.ofEntry]
    | documented =>
      refine sweepOutcome_ne_cancelled fun c hc => ?_
      obtain ⟨listed, -, rfl⟩ := List.mem_map.mp hc
      simp only [Candidate.ofListed]
      split <;> simp
    | bruteForce => simp
  · rw [dif_neg h]
    simp

/-- A strategy that nobody stops is not cancelled. -/
theorem Finds.ne_cancelled {sources : Sources} {limit : Nat} {request : Request} {workers : Nat}
    (hw : 0 < workers) {s : Session} (hs : s.Calm) {strategy : Strategy} {log : Log}
    {out : Except Error Result × Session}
    (run : Finds sources limit request workers s strategy log out) :
    out.1 ≠ .error .cancelled := by
  rw [(run.faithful hw).of_calm hs]
  exact findOutcome_ne_cancelled sources limit request strategy

theorem runOutcome_ne_cancelled (sources : Sources) (limit : Nat) (request : Request)
    (r : Report) (strategies : List Strategy) :
    runOutcome sources limit request r strategies ≠ .error .cancelled := by
  induction strategies generalizing r with
  | nil => simp [runOutcome]
  | cons strategy rest ih =>
    have hf := findOutcome_ne_cancelled sources limit request strategy
    rw [runOutcome]
    cases ho : findOutcome sources limit request strategy with
    | ok result => exact ih _
    | error e =>
      dsimp only
      split
      · exact ih _
      · simpa [ho] using hf

/-- What a search leaves in the log, with brute force in ascending order. -/
def searchLog (sources : Sources) (options : Options) (request : Request) (wantsProgress : Bool)
    (cancellation : Cancellation) : Log :=
  runAllLog sources options.maxMatches request (.start options.verbose wantsProgress cancellation)
    options.enabled

/-- Whether nothing is begun after the request to stop. -/
def Cancellation.Heeded (c : Cancellation) (log : Log) : Prop :=
  ∀ before strategy rest, log = before ++ .begun strategy :: rest →
    c.due (Log.events before) = false

section

variable {sources : Sources} {options : Options} {request : Request} {workers : Nat}
  {wantsProgress : Bool} {cancellation : Cancellation} {log : Log}
  {out : Except Error Report × Session}

theorem Searches.faithful (hw : 0 < workers)
    (run : Searches sources options request workers wantsProgress cancellation log out) :
    Faithful (.start options.verbose wantsProgress cancellation)
      (searchOutcome sources options request) log out :=
  RunsAll.faithful hw run

theorem searches_search (sources : Sources) (options : Options) (request : Request)
    (wantsProgress : Bool) (cancellation : Cancellation) :
    Searches sources options request 1 wantsProgress cancellation
      (searchLog sources options request wantsProgress cancellation)
      (search sources options request wantsProgress cancellation) :=
  runsAll_runAll ..

/-- A search that nobody stops comes to the calm outcome. -/
theorem search_never (sources : Sources) (options : Options) (request : Request)
    (wantsProgress : Bool) :
    (search sources options request wantsProgress .never).1 =
      searchOutcome sources options request :=
  ((searches_search ..).faithful Nat.one_pos).of_calm (Session.calm_start ..)

/-- A request to stop would be found in the log by a strategy that is enabled and serves the
width. -/
theorem Searches.passes_eq_false
    (run : Searches sources options request workers wantsProgress cancellation log out)
    (c : Cancellation) :
    (Session.start options.verbose wantsProgress c).passes log = false ↔
      ∃ strategy ∈ options.enabled, strategy.Serves request.width ∧ c.Found log strategy := by
  rw [Session.passes_start_eq_false]
  constructor
  · rintro ⟨strategy, hs⟩
    obtain ⟨before, rest, rfl, -⟩ := id hs
    have hm : .look strategy ∈ before ++ .look strategy :: rest := by simp
    obtain ⟨he, hw⟩ := RunsAll.look run hm
    exact ⟨strategy, he, hw, hs⟩
  · rintro ⟨strategy, -, -, hs⟩
    exact ⟨strategy, hs⟩

theorem Searches.cancelled_iff (hw : 0 < workers)
    (run : Searches sources options request workers wantsProgress cancellation log out) :
    out.1 = .error .cancelled ↔
      (Session.start options.verbose wantsProgress cancellation).passes log = false := by
  have hn : searchOutcome sources options request ≠ .error .cancelled :=
    runOutcome_ne_cancelled _ _ _ _ _
  rw [(run.faithful hw).result]
  cases hp : (Session.start options.verbose wantsProgress cancellation).passes log with
  | true => simpa using hn
  | false => simp

theorem Searches.heeded (hw : 0 < workers)
    (run : Searches sources options request workers wantsProgress cancellation log out) :
    cancellation.Heeded log := by
  intro before strategy rest h
  have hh := Session.clear_iff.mp (run.faithful hw).heeds before _ rest h rfl
  rwa [Session.cancelled_after] at hh

theorem Searches.trace (hw : 0 < workers)
    (run : Searches sources options request workers wantsProgress cancellation log out) :
    out.2.trace.toList = log.events := by
  rw [(run.faithful hw).session, Session.trace_after]
  cases cancellation <;> rfl

end

/-- There are runs with any number of workers. -/
theorem exists_searches (sources : Sources) (options : Options) (request : Request)
    (workers : Nat) (wantsProgress : Bool) (cancellation : Cancellation) :
    ∃ log out, Searches sources options request workers wantsProgress cancellation log out := by
  have finds (s : Session) (strategy : Strategy) :
      ∃ log out, Finds sources options.maxMatches request workers s strategy log out := by
    by_cases h : strategy.Serves request.width
    · cases strategy with
      | catalogue => exact ⟨_, _, .catalogue h⟩
      | documented => exact ⟨_, _, .documented h⟩
      | bruteForce =>
        obtain ⟨p, steps, ended⟩ := (Setting.ofRequest request (request.valid h)).exists_ended
          ((Setting.ofRequest request (request.valid h)).pool options.maxMatches s workers)
        obtain ⟨log, turns⟩ := (Setting.steps_iff_turns _).mp steps
        exact ⟨log, _, .bruteForce h turns ended⟩
    · exact ⟨_, _, .unserved h⟩
  have runs (strategies : List Strategy) (r : Report) (s : Session) :
      ∃ log out, RunsAll sources options.maxMatches request workers r s strategies log out := by
    induction strategies generalizing r s with
    | nil => exact ⟨_, _, .done⟩
    | cons strategy rest ih =>
      obtain ⟨first, ⟨o, s'⟩, run⟩ := finds (s.emit (.started strategy)) strategy
      cases o with
      | ok result =>
        obtain ⟨second, out, more⟩ := ih (r.add strategy result)
          (s'.emit (.finished strategy result.found))
        exact ⟨_, _, .finished run more⟩
      | error e =>
        obtain ⟨second, out, more⟩ := ih (r.skip strategy e.message)
          (s'.emit (.skipped strategy e.message))
        cases he : e.skips with
        | true => exact ⟨_, _, .skipped run he more⟩
        | false => exact ⟨_, _, .failed run he⟩
  exact runs ..

/-- A search that is asked to stop comes to nothing or to all that it would have come to
undisturbed, whatever the schedule of its workers; it comes to nothing just when a strategy looks
at the request after it was made. In ascending order it does what it would do undisturbed, up to
the first look that finds the request. -/
theorem search_all_or_nothing (sources : Sources) (options : Options) (request : Request)
    (wantsProgress : Bool) (cancellation : Cancellation) (workers : Nat) (hw : 0 < workers) :
    (∀ log out, Searches sources options request workers wantsProgress cancellation log out →
      out.2.trace.toList = log.events ∧
      (out.1 = .error .cancelled ∨
        out.1 = (search sources options request wantsProgress .never).1) ∧
      (out.1 = .error .cancelled ↔ ∃ strategy ∈ options.enabled,
        strategy.Serves request.width ∧ cancellation.Found log strategy) ∧
      cancellation.Heeded log) ∧
    ∃ log full,
      Searches sources options request 1 wantsProgress cancellation log
        (search sources options request wantsProgress cancellation) ∧
      Searches sources options request 1 wantsProgress .never full
        (search sources options request wantsProgress .never) ∧
      log <+: full ∧
      (search sources options request wantsProgress cancellation).2.trace.toList <+:
        (search sources options request wantsProgress .never).2.trace.toList ∧
      ((search sources options request wantsProgress cancellation).1 = .error .cancelled ↔
        ∃ strategy ∈ options.enabled, strategy.Serves request.width ∧
          cancellation.Found full strategy) := by
  refine ⟨fun log out run => ⟨run.trace hw, ?_,
    (run.cancelled_iff hw).trans (run.passes_eq_false cancellation), run.heeded hw⟩, ?_⟩
  · rw [search_never, (run.faithful hw).result]
    split
    · exact .inr rfl
    · exact .inl rfl
  · have run := searches_search sources options request wantsProgress cancellation
    have calm := searches_search sources options request wantsProgress .never
    have hc : searchLog sources options request wantsProgress cancellation =
        (Session.start options.verbose wantsProgress cancellation).cut
          (searchLog sources options request wantsProgress .never) := by
      apply runAllLog_eq_cut _ _ _ (Session.calm_start ..)
      · cases cancellation <;> rfl
      · cases cancellation <;> rfl
    have hp : searchLog sources options request wantsProgress cancellation <+:
        searchLog sources options request wantsProgress .never := by
      rw [hc]
      exact Session.cut_prefix _ _
    refine ⟨_, _, run, calm, hp, ?_, ?_⟩
    · rw [run.trace Nat.one_pos, calm.trace Nat.one_pos]
      exact hp.filterMap _
    · rw [run.cancelled_iff Nat.one_pos, hc, Session.passes_cut]
      exact calm.passes_eq_false cancellation

/-- Two workers that are asked to stop after the first event come to nothing or to everything. -/
theorem search_stopped_after_first_event :
    let r : Request := ⟨8, "123456789".toUTF8.toList, .bytes [0xf4]⟩
    ∃ log out, Searches .builtin {} r 2 true (.after .started 1) log out ∧
      (out.1 = .error .cancelled ∨ out.1 = (search .builtin {} r true .never).1) := by
  intro r
  obtain ⟨log, out, run⟩ := exists_searches .builtin {} r 2 true (.after .started 1)
  obtain ⟨outcomes, -⟩ := search_all_or_nothing .builtin {} r true (.after .started 1) 2
    (by decide)
  exact ⟨log, out, run, (outcomes log out run).2.1⟩

end DigestFinder.Search
