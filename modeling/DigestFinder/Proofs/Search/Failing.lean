import DigestFinder.Proofs.Search.Composition
import DigestFinder.Proofs.Text.ByteOrder

/-!
When a search fails, and what it skips. Only the sweep of the algorithms that the provider lists
can end a search, and brute force comes after it.
-/

namespace DigestFinder.Search

universe u

namespace Summary

def found? (s : Summary) : Option UInt64 :=
  match s.contribution with
  | .finished found _ => some found
  | .skipped _ => none

def searched (s : Summary) : Nat :=
  match s.contribution with
  | .finished _ searched => searched
  | .skipped _ => 0

def reason? (s : Summary) : Option String :=
  match s.contribution with
  | .finished _ _ => none
  | .skipped reason => some reason

end Summary

namespace Report

/-- How a report marks that a strategy was skipped. -/
structure MarksSkipped (r : Report) (s : Summary) : Prop where
  found : s.found? = none
  searched : s.searched = 0
  warned : ∃ reason, s.reason? = some reason ∧
    r.warnings.filter (·.1 = s.strategy) = [(s.strategy, reason)]

/-- How a report marks that a strategy was not. -/
structure MarksFinished (r : Report) (s : Summary) : Prop where
  found : s.found?.isSome
  reason : s.reason? = none
  unwarned : r.warnings.filter (·.1 = s.strategy) = []

theorem warnings_eq (r : Report) :
    r.warnings = r.summaries.filterMap fun s => s.reason?.map (s.strategy, ·) := by
  unfold warnings
  congr 1
  funext s
  unfold Summary.reason?
  cases s.contribution <;> rfl

/-- A report warns of a strategy as its summary does. -/
theorem warnings_of_mem {r : Report} (distinct : (r.summaries.map Summary.strategy).Nodup)
    {s : Summary} (h : s ∈ r.summaries) :
    r.warnings.filter (·.1 = s.strategy) = (s.reason?.map (s.strategy, ·)).toList := by
  obtain ⟨before, after, hs⟩ := List.append_of_mem h
  rw [hs, List.map_append, List.map_cons, List.nodup_append, List.nodup_cons] at distinct
  obtain ⟨-, ⟨later, -⟩, earlier⟩ := distinct
  have others (ss : List Summary) (h : ∀ t ∈ ss, t.strategy ≠ s.strategy) :
      (ss.filterMap fun t => t.reason?.map (t.strategy, ·)).filter (·.1 = s.strategy) = [] := by
    rw [List.filter_eq_nil_iff]
    intro w hw
    obtain ⟨t, ht, hr⟩ := List.mem_filterMap.mp hw
    obtain ⟨reason, -, rfl⟩ := Option.map_eq_some_iff.mp hr
    simpa using h t ht
  have front := others before fun t ht =>
    earlier _ (List.mem_map_of_mem ht) _ (List.mem_cons_self ..)
  have back := others after fun t ht heq => later (heq ▸ List.mem_map_of_mem ht)
  rw [warnings_eq, hs, List.filterMap_append, List.filter_append, front, List.filterMap_cons]
  cases s.reason? <;> simp [back]

section

variable {r : Report} (distinct : (r.summaries.map Summary.strategy).Nodup) {s : Summary}
  (h : s ∈ r.summaries)

include distinct h

theorem marksSkipped_iff : r.MarksSkipped s ↔ s.found? = none := by
  refine ⟨MarksSkipped.found, fun found => ?_⟩
  have warned := warnings_of_mem distinct h
  obtain ⟨strategy, _ | reason⟩ := s
  · cases found
  · exact ⟨rfl, rfl, reason, rfl, warned⟩

theorem marksFinished_iff : r.MarksFinished s ↔ s.found? ≠ none := by
  refine ⟨fun marks => Option.isSome_iff_ne_none.mp marks.found, fun found => ?_⟩
  have unwarned := warnings_of_mem distinct h
  obtain ⟨strategy, _ | reason⟩ := s
  · exact ⟨rfl, rfl, unwarned⟩
  · cases found rfl

end

end Report

section

variable {sources : Sources} {limit : Nat} {request : Request} {workers : Nat} {s : Session}
  {log : Log}

/-- A search that fails does nothing for the strategies after the sweep that ends it. -/
theorem RunsAll.strategy_of_mem (hw : 0 < workers) (hs : s.Calm) {r : Report}
    {strategies : List Strategy} {out : Except Error Report × Session}
    (run : RunsAll sources limit request workers r s strategies log out) {e : Error}
    (ho : out.1 = .error e) : ∃ before after, strategies = before ++ .documented :: after ∧
      ∀ m ∈ log, m.strategy ∈ before ++ [.documented] := by
  -- What a strategy tells that does not end the search, and all that follows.
  have more {strategy : Strategy} {rest before after : List Strategy} {first second : Log}
      {ending : Event} (own : ∀ m ∈ first, m.strategy = strategy)
      (he : ending.strategy = strategy) (hr : rest = before ++ .documented :: after)
      (later : ∀ m ∈ second, m.strategy ∈ before ++ [.documented]) :
      ∃ before after, strategy :: rest = before ++ .documented :: after ∧
        ∀ m ∈ .told (.started strategy) :: first ++ .told ending :: second,
          m.strategy ∈ before ++ [.documented] := by
    refine ⟨strategy :: before, after, by rw [hr, List.cons_append], fun m hm => ?_⟩
    rw [List.cons_append, List.mem_cons, List.mem_append, List.mem_cons] at hm
    rw [List.cons_append, List.mem_cons]
    rcases hm with rfl | hm | rfl | hm
    · exact .inl rfl
    · exact .inl (own m hm)
    · exact .inl he
    · exact .inr (later m hm)
  induction run with
  | done => cases ho
  | @finished r s s' strategy rest result first second out run _ ih =>
    obtain rfl : s' = _ := (run.faithful hw).session
    obtain ⟨before, after, hr, later⟩ := ih (((hs.emit _).after first).emit _) ho
    exact more run.strategy_of_mem rfl hr later
  | @skipped r s s' strategy rest e first second out run _ _ ih =>
    obtain rfl : s' = _ := (run.faithful hw).session
    obtain ⟨before, after, hr, later⟩ := ih (((hs.emit _).after first).emit _) ho
    exact more run.strategy_of_mem rfl hr later
  | @failed r s s' strategy rest e first run ends =>
    have calm := (run.faithful hw).of_calm (hs.emit _)
    rcases findOutcome_eq_error_iff.mp calm.symm with ⟨-, rfl⟩ | ⟨rfl, -⟩
    · cases ends
    · refine ⟨[], rest, rfl, ?_⟩
      rw [List.forall_mem_cons]
      refine ⟨List.mem_singleton_self _, fun m hm => ?_⟩
      exact List.mem_singleton.mpr (run.strategy_of_mem m hm)

end

/-- Nothing of brute force is in a search that fails: it comes last. -/
theorem Searches.ne_bruteForce {sources : Sources} {options : Options} {request : Request}
    {workers : Nat} {wantsProgress : Bool} {log : Log} {out : Except Error Report × Session}
    (hw : 0 < workers)
    (run : Searches sources options request workers wantsProgress .never log out) {e : Error}
    (ho : out.1 = .error e) : ∀ m ∈ log, m.strategy ≠ .bruteForce := by
  obtain ⟨before, after, he, among⟩ := RunsAll.strategy_of_mem hw (Session.calm_start ..) run ho
  have last : options.enabled.Pairwise fun strategy _ => strategy ≠ .bruteForce :=
    (by decide : Strategy.all.Pairwise fun strategy _ => strategy ≠ .bruteForce).filter _
  rw [he, List.pairwise_append] at last
  intro m hm
  rcases List.mem_append.mp (among m hm) with hb | hd
  · exact last.2.2 _ hb _ (List.mem_cons_self ..)
  · rw [List.mem_singleton.mp hd]
    decide

theorem serves_iff {strategy : Strategy} {width : Nat} : strategy.Serves width ↔
    8 ≤ width ∧ width ≤ if strategy = .bruteForce then 63 else 64 := by
  cases strategy <;> rfl

section

variable {sources : Sources} {limit : Nat} {request : Request} {strategy : Strategy}

/-- Of a strategy that does not fail a report counts what was found, if it serves the width. -/
theorem found?_summaryOf (skips : ∀ e, findOutcome sources limit request strategy = .error e →
      e.skips = true) :
    (summaryOf sources limit request strategy).found? = none ↔
      ¬ strategy.Serves request.width := by
  unfold summaryOf Summary.found?
  cases hf : findOutcome sources limit request strategy with
  | ok result =>
    refine iff_of_false (Option.some_ne_none _) (not_not.mpr ?_)
    by_contra unserved
    rw [findOutcome_unserved _ _ unserved] at hf
    cases hf
  | error e => exact iff_of_true rfl ((skips_iff hf).mp (skips e hf))

end

/-- A search that nobody stops fails just when the sweep of listed algorithms is asked for, serves
the width and comes across an algorithm that the provider does not have. It then names the first
such algorithm, in the order of the bytes, and brute force is never started. Any other search gives
a report, in which just the strategies that do not serve the width are marked as skipped. With the
algorithms of a registry no search fails. -/
theorem search_fails_iff (sources : Sources) (options : Options) (request : Request)
    (wantsProgress : Bool) :
    let outcome := (search sources options request wantsProgress .never).1
    ((∃ e, outcome = .error e) ↔
      .documented ∈ options.strategies ∧ 8 ≤ request.width ∧ request.width ≤ 64 ∧
        ∃ id cause, sources.provider.Lacks request.width id cause) ∧
    (∀ e, outcome = .error e →
      ∃ id cause, e = .internal id cause ∧ sources.provider.Lacks request.width id cause ∧
        ∀ id' cause', sources.provider.Lacks request.width id' cause' →
          Bytes.ofText id ≤ Bytes.ofText id') ∧
    (∀ report, outcome = .ok report →
      report.summaries.map Summary.strategy = options.enabled ∧
      ∀ s ∈ report.summaries,
        (report.MarksSkipped s ↔
          ¬ (8 ≤ request.width ∧ request.width ≤ if s.strategy = .bruteForce then 63 else 64)) ∧
        (report.MarksFinished s ↔
          8 ≤ request.width ∧ request.width ≤ if s.strategy = .bruteForce then 63 else 64)) ∧
    (∀ workers, 0 < workers → ∀ log out,
      Searches sources options request workers wantsProgress .never log out →
        out.1 = outcome ∧ ∀ e, outcome = .error e →
          .started .bruteForce ∉ out.2.trace.toList ∧ ∀ m ∈ log, m.strategy ≠ .bruteForce) ∧
    (∀ (δ : Type u) (make : δ → Streaming) (registry : Registry δ),
      sources.provider = .ofRegistry make registry → ∃ report, outcome = .ok report) := by
  intro outcome
  refine ⟨?_, fun e failed => ?_, fun report ok => ?_, fun workers hw log out run => ?_, ?_⟩
  · simp only [outcome, search_eq_error_iff, exists_and_left, exists_ends_iff]
    exact and_congr_right fun _ => and_assoc
  · obtain ⟨-, id, cause, he, lacks, first⟩ := ends_iff.mp (search_eq_error_iff.mp failed).2
    exact ⟨id, cause, he, lacks, fun id' cause' lacks' =>
      Bytes.ofText_le_iff.mpr (first id' cause' lacks')⟩
  · obtain ⟨skips, rfl⟩ := search_eq_ok_iff.mp ok
    have strategies := strategies_combined sources options.maxMatches request options.enabled
    have distinct := options.nodup_enabled
    rw [← strategies] at distinct
    refine ⟨strategies, fun s hs => ?_⟩
    rw [Report.marksSkipped_iff distinct hs, Report.marksFinished_iff distinct hs, Ne,
      ← serves_iff]
    obtain ⟨strategy, enabled, rfl⟩ := List.mem_map.mp hs
    have found := found?_summaryOf (skips strategy enabled)
    refine ⟨found, ?_⟩
    rw [found]
    exact not_not
  · refine ⟨run.eq_search hw, fun e failed => ?_⟩
    have others := run.ne_bruteForce hw ((run.eq_search hw).trans failed)
    refine ⟨fun hm => ?_, others⟩
    rw [run.trace hw] at hm
    obtain ⟨m, hl, he⟩ := List.mem_filterMap.mp hm
    cases m <;> cases he
    exact others _ hl rfl
  · rintro δ make registry hp
    obtain ⟨_, catalogue⟩ := sources
    obtain rfl := hp
    refine ⟨_, search_eq_ok_iff.mpr ⟨?_, rfl⟩⟩
    intro strategy _ e he
    exact unfailing_registry make registry catalogue options.maxMatches request strategy e he

/-- A provider that has nothing of what it lists ends a search by two workers; with the registry
the same search finishes all strategies. -/
theorem search_fails_for_missing_algorithm :
    let p : Provider := {
      list := fun _ => ⟨[("md0", "no digest")], List.pairwise_singleton ..⟩
      digest := fun id => .error (.unknown id) }
    let r : Request := ⟨8, "123456789".toUTF8.toList, .bytes [0xf4]⟩
    (∃ log out, Searches ⟨p, .published⟩ {} r 2 true .never log out ∧
      (∃ id cause, out.1 = .error (.internal id cause) ∧ p.Lacks 8 id cause) ∧
      .started .bruteForce ∉ out.2.trace.toList) ∧
    ∃ report, (search .builtin {} r true .never).1 = .ok report ∧
      ∀ s ∈ report.summaries, report.MarksFinished s := by
  intro p r
  constructor
  · obtain ⟨fails, names, -, runs, -⟩ := search_fails_iff.{0} ⟨p, .published⟩ {} r true
    obtain ⟨e, failed⟩ := fails.mpr ⟨by decide, by decide, by decide, "md0", .unknown "md0",
      List.mem_singleton_self _, rfl⟩
    obtain ⟨id, cause, rfl, lacks, -⟩ := names e failed
    obtain ⟨log, out, run⟩ := exists_searches ⟨p, .published⟩ {} r 2 true .never
    obtain ⟨same, never⟩ := runs 2 (by decide) log out run
    exact ⟨log, out, run, ⟨id, cause, same.trans failed, lacks⟩, (never _ failed).1⟩
  · obtain ⟨-, -, marks, -, registries⟩ := search_fails_iff.{0} .builtin {} r true
    obtain ⟨report, ok⟩ := registries Named Named.streaming .builtin rfl
    refine ⟨report, ok, fun s hs => ((marks report ok).2 s hs).2.mpr ⟨by decide, ?_⟩⟩
    split <;> decide

end DigestFinder.Search
