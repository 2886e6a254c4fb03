import DigestFinder.Proofs.Search.Blocks
import DigestFinder.Proofs.Search.Counting

/-!
A search as the combination of the searches with one strategy each. Nothing passes from one
strategy to the next: a report adds up what each of them yields by itself, and the trace is put
together from their traces.
-/

namespace DigestFinder.Search

namespace Event

/-- Whether an event is one of those that the workers of brute force send in no certain order. -/
def isFree : Event → Bool
  | matched strategy _ => strategy = .bruteForce
  | progress _ _ => true
  | _ => false

end Event

/-- Traces that differ in the order of free events that follow one another. -/
inductive Reordered : List Event → List Event → Prop
  | refl (es : List Event) : Reordered es es
  | cons (e : Event) {es es' : List Event} (h : Reordered es es') : Reordered (e :: es) (e :: es')
  | swap {e e' : Event} (free : e.isFree = true) (free' : e'.isFree = true) (es : List Event) :
      Reordered (e :: e' :: es) (e' :: e :: es)
  | trans {first second third : List Event} (h : Reordered first second)
      (h' : Reordered second third) : Reordered first third

namespace Reordered

variable {first second third fourth : List Event}

theorem symm (h : Reordered first second) : Reordered second first := by
  induction h with
  | refl => exact .refl _
  | cons e _ ih => exact .cons e ih
  | swap free free' es => exact .swap free' free es
  | trans _ _ ih ih' => exact .trans ih' ih

theorem of_perm (h : first.Perm second) (free : ∀ e ∈ first, e.isFree = true) :
    Reordered first second := by
  induction h with
  | nil => exact .refl []
  | cons e _ ih => exact .cons e (ih fun e' he => free e' (List.mem_cons_of_mem _ he))
  | swap e e' es => exact .swap (free e' (by simp)) (free e (by simp)) es
  | trans h _ ih ih' => exact .trans (ih free) (ih' fun e he => free e (h.mem_iff.mpr he))

theorem append_left (es : List Event) (h : Reordered first second) :
    Reordered (es ++ first) (es ++ second) := by
  induction es with
  | nil => exact h
  | cons e es ih => exact .cons e ih

theorem append_right (es : List Event) (h : Reordered first second) :
    Reordered (first ++ es) (second ++ es) := by
  induction h with
  | refl => exact .refl _
  | cons e _ ih => exact .cons e ih
  | swap free free' _ => exact .swap free free' _
  | trans _ _ ih ih' => exact .trans ih ih'

theorem append (h : Reordered first second) (h' : Reordered third fourth) :
    Reordered (first ++ third) (second ++ fourth) :=
  (h.append_right third).trans (h'.append_left second)

theorem flatMap {α : Type} {as : List α} {f g : α → List Event}
    (h : ∀ a ∈ as, Reordered (f a) (g a)) : Reordered (as.flatMap f) (as.flatMap g) := by
  induction as with
  | nil => exact .refl []
  | cons a as ih =>
    obtain ⟨ha, hs⟩ := List.forall_mem_cons.mp h
    exact ha.append (ih hs)

end Reordered

section

variable {sources : Sources} {limit : Nat} {request : Request} {workers : Nat} {s t : Session}
  {strategy : Strategy} {log : Log}

theorem Setting.Turns.free {c : Setting} {p q : Pool} (turns : c.Turns p log q) :
    ∀ e ∈ log.events, e.isFree = true := by
  intro e he
  obtain ⟨a, ha⟩ := turns.sent e he
  cases a <;> simp [sent?] at ha <;> subst ha <;> rfl

/-- Two runs of one strategy that nobody stops tell the same, except for the order in which the
workers of brute force do. -/
theorem Finds.reordered {others : Nat} (hw : 0 < workers) (ho : 0 < others) (hs : s.Calm)
    (ht : t.Calm) (hv : s.verbose = t.verbose) (hp : s.wantsProgress = t.wantsProgress)
    {log' : Log} {out out' : Except Error Result × Session}
    (run : Finds sources limit request workers s strategy log out)
    (run' : Finds sources limit request others t strategy log' out') :
    Reordered log.events log'.events := by
  have same := (run.events hw hs).trans ((hv ▸ hp ▸ run'.events ho ht).symm)
  cases run with
  | unserved h =>
    cases run' with
    | unserved => exact .refl []
    | _ => contradiction
  | catalogue h =>
    cases run' with
    | unserved => contradiction
    | catalogue =>
      rw [events_sweepLog hs, events_sweepLog ht, hv]
      exact .refl _
  | documented h =>
    cases run' with
    | unserved => contradiction
    | documented =>
      rw [events_sweepLog hs, events_sweepLog ht, hv]
      exact .refl _
  | bruteForce h turns ended => exact .of_perm (Multiset.coe_eq_coe.mp same) turns.free

/-- What a strategy tells that nobody stops, with brute force in ascending order. -/
def calmBlock (sources : Sources) (limit : Nat) (request : Request)
    (verbose wantsProgress : Bool) (strategy : Strategy) : Block where
  summary := summaryOf sources limit request strategy
  body := (findLog sources limit request (.start verbose wantsProgress .never) strategy).events

theorem Finds.reordered_block (hw : 0 < workers) (hs : s.Calm)
    {out : Except Error Result × Session} (run : Finds sources limit request workers
      (s.emit (.started strategy)) strategy log out)
    {rest rest' : List Event} (later : Reordered rest rest') :
    Reordered
      (.started strategy :: (log.events ++
        (summaryOf sources limit request strategy).ending :: rest))
      ((calmBlock sources limit request s.verbose s.wantsProgress strategy).events ++ rest') := by
  have body := run.reordered hw Nat.one_pos (hs.emit _)
    (Session.calm_start s.verbose s.wantsProgress) (s.verbose_emit _) (s.wantsProgress_emit _)
    (finds_find ..)
  have whole := (body.append (later.cons (summaryOf sources limit request strategy).ending)).cons
    (.started strategy)
  simpa [Block.events, calmBlock] using whole

/-- Strategies that nobody stops tell one block each, and nothing that depends on the others. -/
theorem RunsAll.reordered (hw : 0 < workers) (hs : s.Calm) {r report : Report}
    {strategies : List Strategy} {out : Except Error Report × Session}
    (run : RunsAll sources limit request workers r s strategies log out)
    (ho : out.1 = .ok report) : Reordered log.events (strategies.flatMap fun strategy =>
      (calmBlock sources limit request s.verbose s.wantsProgress strategy).events) := by
  induction run with
  | done => exact .refl []
  | @finished r s s' strategy rest result first second out run more ih =>
    have calm := (run.faithful hw).of_calm (hs.emit _)
    obtain rfl : s' = _ := (run.faithful hw).session
    have later := ih (((hs.emit _).after first).emit _) ho
    have ending : (summaryOf sources limit request strategy).ending =
        .finished strategy result.found := by
      rw [summaryOf, ← calm]
      rfl
    simpa [ending] using run.reordered_block hw hs later
  | @skipped r s s' strategy rest e first second out run skips more ih =>
    have calm := (run.faithful hw).of_calm (hs.emit _)
    obtain rfl : s' = _ := (run.faithful hw).session
    have later := ih (((hs.emit _).after first).emit _) ho
    have ending : (summaryOf sources limit request strategy).ending =
        .skipped strategy e.message := by
      rw [summaryOf, ← calm]
      rfl
    simpa [ending] using run.reordered_block hw hs later
  | failed => cases ho

end

/-- The options with one strategy only. -/
def Options.only (o : Options) (strategy : Strategy) : Options :=
  { o with strategies := [strategy] }

namespace Options

variable {o : Options} {strategy : Strategy}

@[simp] theorem enabled_only : (o.only strategy).enabled = [strategy] := by
  cases strategy <;> rfl

@[simp] theorem mem_enabled : strategy ∈ o.enabled ↔ strategy ∈ o.strategies := by
  have known : strategy ∈ Strategy.all := by cases strategy <;> decide
  simp [enabled, known]

theorem nodup_enabled (o : Options) : o.enabled.Nodup :=
  (by decide : Strategy.all.Nodup).filter _

theorem enabled_without :
    (o.without strategy).enabled = o.enabled.filter (· ≠ strategy) := by
  simp [enabled, without, List.filter_filter, Bool.and_comm]

end Options

/-- The report puts others together in order. -/
structure Report.Combines (r : Report) (parts : List Report) : Prop where
  width : ∀ part ∈ parts, part.width = r.width
  /-- The sum of counters of 64 bits is one of them. -/
  found : r.total.found.toNat = (parts.map (·.total.found.toNat)).sum % 2 ^ 64
  searched : r.total.searched = (parts.map (·.total.searched)).sum
  kept : r.total.kept = parts.flatMap (·.total.kept)
  truncated : r.total.truncated = parts.any (·.total.truncated)
  summaries : r.summaries = parts.flatMap Report.summaries

section

variable {sources : Sources} {limit : Nat} {request : Request}

/-- The report of a strategy by itself. -/
def alone (sources : Sources) (limit : Nat) (request : Request) (strategy : Strategy) : Report :=
  ⟨request.width, contribution sources limit request strategy,
    [summaryOf sources limit request strategy]⟩

theorem combined_combines (sources : Sources) (limit : Nat) (request : Request)
    (strategies : List Strategy) :
    (combined sources limit request ⟨request.width, {}, []⟩ strategies).Combines
      (strategies.map (alone sources limit request)) where
  width := by simp [combined, alone]
  found := by simp [combined, alone, toNat_found_foldl_merge, Function.comp_def]
  searched := by simp [combined, alone, searched_foldl_merge, Function.comp_def]
  kept := by simp [combined, alone, kept_foldl_merge, List.flatMap_map]
  truncated := by simp [combined, alone, truncated_foldl_merge, Function.comp_def]
  summaries := by simp [combined, alone, List.flatMap_map, ← List.map_eq_flatMap]

theorem strategies_combined (sources : Sources) (limit : Nat) (request : Request)
    (strategies : List Strategy) :
    (combined sources limit request ⟨request.width, {}, []⟩ strategies).summaries.map
      Summary.strategy = strategies := by
  simp [combined, Function.comp_def]

theorem combined_single (strategy : Strategy) :
    combined sources limit request ⟨request.width, {}, []⟩ [strategy] =
      alone sources limit request strategy := by
  simp [combined, alone, Result.merge]

theorem search_eq_error_iff {options : Options} {wantsProgress : Bool} {e : Error} :
    (search sources options request wantsProgress .never).1 = .error e ↔
      .documented ∈ options.strategies ∧ Ends sources request e := by
  rw [search_never, ← Options.mem_enabled]
  exact runOutcome_eq_error_iff

theorem search_eq_ok_iff {options : Options} {wantsProgress : Bool} {report : Report} :
    (search sources options request wantsProgress .never).1 = .ok report ↔
      (∀ strategy ∈ options.enabled, ∀ e,
        findOutcome sources options.maxMatches request strategy = .error e → e.skips = true) ∧
      report =
        combined sources options.maxMatches request ⟨request.width, {}, []⟩ options.enabled := by
  rw [search_never]
  exact runOutcome_eq_ok_iff

end

/-- How the report of a search comes from those of the searches with one strategy each. -/
structure Composes (sources : Sources) (options : Options) (request : Request)
    (wantsProgress : Bool) (report : Report) (part : Strategy → Report) : Prop where
  parts : ∀ strategy ∈ options.enabled,
    (search sources (options.only strategy) request wantsProgress .never).1 = .ok (part strategy)
  single : ∀ strategy ∈ options.enabled, (part strategy).summaries.map Summary.strategy = [strategy]
  whole : report.Combines (options.enabled.map part)
  without : ∀ strategy, ∃ rest,
    (search sources (options.without strategy) request wantsProgress .never).1 = .ok rest ∧
    rest.Combines ((options.enabled.filter (· ≠ strategy)).map part)
  /-- However many workers there are, and however many for one strategy alone. -/
  runs : ∀ workers, 0 < workers → ∀ log out,
    Searches sources options request workers wantsProgress .never log out → out.1 = .ok report ∧
    ∀ single : Strategy → Except Error Report × Session,
      (∀ strategy ∈ options.enabled, ∃ workers log, 0 < workers ∧ Searches sources
        (options.only strategy) request workers wantsProgress .never log (single strategy)) →
      Reordered out.2.trace.toList
        (options.enabled.flatMap fun strategy => (single strategy).2.trace.toList)

section

variable {sources : Sources} {options : Options} {request : Request} {workers : Nat}
  {wantsProgress : Bool} {log : Log} {out : Except Error Report × Session} {report : Report}

theorem Searches.eq_search (hw : 0 < workers)
    (run : Searches sources options request workers wantsProgress .never log out) :
    out.1 = (search sources options request wantsProgress .never).1 := by
  rw [search_never]
  exact (run.faithful hw).of_calm (Session.calm_start ..)

theorem Searches.reordered (hw : 0 < workers)
    (run : Searches sources options request workers wantsProgress .never log out)
    (ho : out.1 = .ok report) : Reordered out.2.trace.toList (options.enabled.flatMap
      fun strategy => (calmBlock sources options.maxMatches request options.verbose wantsProgress
        strategy).events) := by
  rw [run.trace hw]
  exact RunsAll.reordered hw (Session.calm_start ..) run ho

theorem composes_of_search
    (ok : (search sources options request wantsProgress .never).1 = .ok report) :
    Composes sources options request wantsProgress report
      (alone sources options.maxMatches request) := by
  obtain ⟨skips, rfl⟩ := search_eq_ok_iff.mp ok
  have parts : ∀ strategy ∈ options.enabled,
      (search sources (options.only strategy) request wantsProgress .never).1 =
        .ok (alone sources options.maxMatches request strategy) := by
    intro strategy enabled
    refine search_eq_ok_iff.mpr ⟨?_, ?_⟩
    · rw [Options.enabled_only, List.forall_mem_singleton]
      exact skips strategy enabled
    · rw [Options.enabled_only]
      exact (combined_single strategy).symm
  refine ⟨parts, fun _ _ => rfl, combined_combines .., fun strategy => ?_, ?_⟩
  · refine ⟨_, search_eq_ok_iff.mpr ⟨?_, rfl⟩, ?_⟩
    · rw [Options.enabled_without]
      exact fun other remains => skips other (List.mem_of_mem_filter remains)
    · rw [Options.enabled_without]
      exact combined_combines ..
  · intro workers hw log out run
    have ho := (run.eq_search hw).trans ok
    refine ⟨ho, fun single runs => (run.reordered hw ho).trans (.flatMap ?_)⟩
    intro strategy enabled
    obtain ⟨workers', log', hw', run'⟩ := runs strategy enabled
    have told := run'.reordered hw' ((run'.eq_search hw').trans (parts strategy enabled))
    rw [Options.enabled_only, List.flatMap_singleton] at told
    exact told.symm

end

/-- A search depends only on which strategies are asked for. If it gives a report, so do the
searches with one strategy each, and the report and the trace are put together from theirs in the
order of the strategies. -/
theorem search_composes (sources : Sources) (options : Options) (request : Request)
    (wantsProgress : Bool) :
    (∀ strategies : List Strategy,
      (∀ strategy, strategy ∈ strategies ↔ strategy ∈ options.strategies) → ∀ cancellation,
        search sources { options with strategies } request wantsProgress cancellation =
          search sources options request wantsProgress cancellation) ∧
    options.enabled.Sublist Strategy.all ∧
    (∀ strategy, strategy ∈ options.enabled ↔ strategy ∈ options.strategies) ∧
    ∀ report, (search sources options request wantsProgress .never).1 = .ok report →
      report.summaries.map Summary.strategy = options.enabled ∧
      ∃ part, Composes sources options request wantsProgress report part := by
  refine ⟨fun strategies same cancellation => ?_, List.filter_sublist,
    fun _ => Options.mem_enabled, fun report ok => ⟨?_, _, composes_of_search ok⟩⟩
  · have enabled : ({ options with strategies } : Options).enabled = options.enabled := by
      simp [Options.enabled, same]
    rw [search, enabled]
    rfl
  · obtain ⟨-, rfl⟩ := search_eq_ok_iff.mp ok
    exact strategies_combined ..

/-- Brute force is asked for twice and before the catalogue, and two workers do it. -/
theorem search_composes_of_check_value :
    let r : Request := ⟨8, "123456789".toUTF8.toList, .bytes [0xf4]⟩
    let options : Options := { strategies := [.bruteForce, .catalogue, .bruteForce] }
    search .builtin { options with strategies := [.catalogue, .bruteForce] } r true .never =
      search .builtin options r true .never ∧
    ∃ (report : Report) (part : Strategy → Report),
      (search .builtin options r true .never).1 = .ok report ∧
      report.summaries.map Summary.strategy = [.catalogue, .bruteForce] ∧
      report.Combines [part .catalogue, part .bruteForce] ∧
      ∃ log out, Searches .builtin options r 2 true .never log out ∧ out.1 = .ok report := by
  intro r options
  obtain ⟨members, -, -, composes⟩ := search_composes .builtin options r true
  obtain ⟨report, ok, -⟩ := exists_report Named.streaming .published options r true
  obtain ⟨summaries, part, parts⟩ := composes report ok
  obtain ⟨log, out, run⟩ := exists_searches .builtin options r 2 true .never
  have enabled : options.enabled = [.catalogue, .bruteForce] := by decide
  have whole := parts.whole
  rw [enabled] at summaries whole
  refine ⟨members _ (fun strategy => ?_) .never, report, part, ok, summaries, whole, log, out, run,
    (parts.runs 2 (by decide) log out run).1⟩
  cases strategy <;> decide

end DigestFinder.Search
