import DigestFinder.Proofs.Search.Totals

/-!
Which searches give a report, and what is in it. A search fails only where the provider lists an
algorithm that it does not have; otherwise its report is put together from the results of the
strategies, and just those that do not serve the width are skipped.
-/

namespace DigestFinder.Search

section

variable {request : Request}

/-- Either no candidate fails, or there is a first one that does. -/
theorem first_failure (request : Request) (cs : List Candidate) :
    (∀ c ∈ cs, c.verdict request = .ok (c.hits request)) ∨
      ∃ before c after e, cs = before ++ c :: after ∧
        (∀ d ∈ before, d.verdict request = .ok (d.hits request)) ∧ c.verdict request = .error e := by
  induction cs with
  | nil => exact .inl (List.forall_mem_nil _)
  | cons c rest ih =>
    cases hv : c.verdict request with
    | error e => exact .inr ⟨[], c, rest, e, rfl, List.forall_mem_nil _, hv⟩
    | ok hit =>
      have hc : c.verdict request = .ok (c.hits request) := by
        rw [Candidate.hits, hv]
      rcases ih with all | ⟨before, d, after, e, rfl, earlier, hd⟩
      · exact .inl (List.forall_mem_cons.mpr ⟨hc, all⟩)
      · exact .inr ⟨c :: before, d, after, e, rfl, List.forall_mem_cons.mpr ⟨hc, earlier⟩, hd⟩

/-- A sweep ends with the first candidate that fails. -/
theorem sweepOutcome_error {before : List Candidate}
    (h : ∀ d ∈ before, d.verdict request = .ok (d.hits request)) {c : Candidate} {e : Error}
    (hc : c.verdict request = .error e) (after : List Candidate) (total : Result) :
    sweepOutcome request total (before ++ c :: after) = .error e := by
  induction before generalizing total with
  | nil => simp [sweepOutcome, hc]
  | cons d before ih =>
    obtain ⟨hd, hb⟩ := List.forall_mem_cons.mp h
    rw [List.cons_append, sweepOutcome, hd]
    cases d.hits request <;> exact ih hb _

theorem sweepOutcome_eq_error_iff {total : Result} {cs : List Candidate} {e : Error} :
    sweepOutcome request total cs = .error e ↔ ∃ before c after, cs = before ++ c :: after ∧
      (∀ d ∈ before, d.verdict request = .ok (d.hits request)) ∧ c.verdict request = .error e := by
  constructor
  · intro h
    rcases first_failure request cs with all | ⟨before, c, after, e', rfl, earlier, hc⟩
    · rw [sweepOutcome_ok all] at h
      cases h
    · rw [sweepOutcome_error earlier hc] at h
      exact ⟨before, c, after, rfl, earlier, Except.error.inj h ▸ hc⟩
  · rintro ⟨before, c, after, rfl, earlier, hc⟩
    exact sweepOutcome_error earlier hc after total

/-- In a sweep that gives a result no candidate failed. -/
theorem verdict_of_sweepOutcome {total result : Result} {cs : List Candidate}
    (h : sweepOutcome request total cs = .ok result) :
    ∀ c ∈ cs, c.verdict request = .ok (c.hits request) := by
  rcases first_failure request cs with all | ⟨before, c, after, e, rfl, earlier, hc⟩
  · exact all
  · rw [sweepOutcome_error earlier hc] at h
    cases h

end

/-- An algorithm that is listed for a width, but cannot be provided. -/
def Provider.Lacks (p : Provider) (width : Nat) (id : String) (cause : DigestError) : Prop :=
  id ∈ (p.list width).entries.map (·.1) ∧ p.digest id = .error cause

theorem Candidate.verdict_ofListed {p : Provider} {id description : String} {request : Request}
    {e : Error} : (ofListed p id description).verdict request = .error e ↔
      ∃ cause, p.digest id = .error cause ∧ e = .internal id cause := by
  unfold verdict ofListed
  dsimp only
  cases p.digest id with
  | error cause => simp [Except.map, eq_comm]
  | ok digest => simp [Except.map]

variable {sources : Sources} {limit : Nat} {request : Request}

theorem lacks_of_sweepOutcome {e : Error} (h : sweepOutcome request {}
      (documentedCandidates sources.provider request.width) = .error e) :
    ∃ id cause, e = .internal id cause ∧ sources.provider.Lacks request.width id cause ∧
      ∀ id' cause', sources.provider.Lacks request.width id' cause' → id ≤ id' := by
  obtain ⟨before, c, after, hs, earlier, hc⟩ := sweepOutcome_eq_error_iff.mp h
  obtain ⟨front, rest, he, rfl, hr⟩ := List.map_eq_append_iff.mp hs
  obtain ⟨⟨id, description⟩, back, rfl, rfl, rfl⟩ := List.map_eq_cons_iff.mp hr
  obtain ⟨cause, hd, rfl⟩ := Candidate.verdict_ofListed.mp hc
  refine ⟨id, cause, rfl, ⟨by simp [he], hd⟩, ?_⟩
  rintro id' cause' ⟨hm, hd'⟩
  obtain ⟨⟨_, description'⟩, hm', rfl⟩ := List.mem_map.mp hm
  have sorted := (sources.provider.list request.width).sorted
  rw [he] at hm' sorted
  rcases List.mem_append.mp hm' with hm' | hm'
  · -- What stands before does not fail.
    have hv := earlier _ (List.mem_map_of_mem hm')
    rw [Candidate.verdict_ofListed.mpr ⟨cause', hd', rfl⟩] at hv
    cases hv
  · rcases List.mem_cons.mp hm' with hm' | hm'
    · exact Std.le_of_eq (Prod.mk.inj hm').1.symm
    · have above := (List.pairwise_cons.mp (List.pairwise_append.mp sorted).2.1).1
      exact Std.le_of_lt (above _ hm')

theorem exists_sweepOutcome_error {id : String} {cause : DigestError}
    (lacks : sources.provider.Lacks request.width id cause) : ∃ e, sweepOutcome request {}
      (documentedCandidates sources.provider request.width) = .error e := by
  rcases first_failure request (documentedCandidates sources.provider request.width) with
    all | ⟨before, c, after, e, hs, earlier, hc⟩
  · obtain ⟨⟨_, description⟩, hm, rfl⟩ := List.mem_map.mp lacks.1
    have hv := all _ (List.mem_map_of_mem hm)
    rw [Candidate.verdict_ofListed.mpr ⟨cause, lacks.2, rfl⟩] at hv
    cases hv
  · exact ⟨e, hs ▸ sweepOutcome_error earlier hc after _⟩

/-- Whether the sweep of listed algorithms ends a search: it serves the width and fails. -/
def Ends (sources : Sources) (request : Request) (e : Error) : Prop :=
  Strategy.documented.Serves request.width ∧
    sweepOutcome request {} (documentedCandidates sources.provider request.width) = .error e

/-- A search is ended by the first listed algorithm that the provider lacks. -/
theorem ends_iff {e : Error} : Ends sources request e ↔ Strategy.documented.Serves request.width ∧
    ∃ id cause, e = .internal id cause ∧ sources.provider.Lacks request.width id cause ∧
      ∀ id' cause', sources.provider.Lacks request.width id' cause' → id ≤ id' := by
  refine and_congr_right fun _ => ⟨lacks_of_sweepOutcome, ?_⟩
  rintro ⟨id, cause, rfl, lacks, first⟩
  obtain ⟨e, he⟩ := exists_sweepOutcome_error lacks
  obtain ⟨id', cause', rfl, lacks', first'⟩ := lacks_of_sweepOutcome he
  obtain rfl : id = id' := String.le_antisymm (first _ _ lacks') (first' _ _ lacks)
  obtain rfl : cause = cause' := Except.error.inj (lacks.2.symm.trans lacks'.2)
  exact he

/-- A search is ended whenever the provider lacks a listed algorithm. -/
theorem exists_ends_iff : (∃ e, Ends sources request e) ↔
    Strategy.documented.Serves request.width ∧
      ∃ id cause, sources.provider.Lacks request.width id cause := by
  constructor
  · rintro ⟨e, ends⟩
    obtain ⟨serves, id, cause, -, lacks, -⟩ := ends_iff.mp ends
    exact ⟨serves, id, cause, lacks⟩
  · rintro ⟨serves, id, cause, lacks⟩
    obtain ⟨e, he⟩ := exists_sweepOutcome_error lacks
    exact ⟨e, serves, he⟩

theorem findOutcome_eq_error_iff {strategy : Strategy} {e : Error} :
    findOutcome sources limit request strategy = .error e ↔
      (¬ strategy.Serves request.width ∧
        e = .parameter strategy request.width strategy.minWidth strategy.maxWidth) ∨
      (strategy = .documented ∧ Ends sources request e) := by
  unfold findOutcome Ends
  by_cases h : strategy.Serves request.width
  · rw [dif_pos h]
    cases strategy with
    | catalogue =>
      have all : ∀ c ∈ catalogueCandidates sources.catalogue request.width,
          c.verdict request = .ok (c.hits request) := by
        intro c hc
        obtain ⟨entry, -, rfl⟩ := List.mem_map.mp hc
        rfl
      simp [sweepOutcome_ok all, h]
    | documented => simpa [h] using fun _ => h
    | bruteForce => simp [h]
  · rw [dif_neg h]
    by_cases hd : strategy = .documented
    · subst hd
      simp [h, eq_comm]
    · simp [h, hd, eq_comm]

/-- A strategy is skipped just where it does not serve the width. -/
theorem skips_iff {strategy : Strategy} {e : Error}
    (h : findOutcome sources limit request strategy = .error e) :
    e.skips = true ↔ ¬ strategy.Serves request.width := by
  rcases findOutcome_eq_error_iff.mp h with ⟨unserved, rfl⟩ | ⟨rfl, ends⟩
  · exact iff_of_true rfl unserved
  · obtain ⟨serves, id, cause, rfl, -⟩ := ends_iff.mp ends
    exact iff_of_false Bool.false_ne_true (not_not.mpr serves)

section

variable (sources limit request)

/-- What a report says of a strategy that does not fail. -/
def summaryOf (strategy : Strategy) : Summary where
  strategy := strategy
  contribution :=
    match findOutcome sources limit request strategy with
    | .ok result => .finished result.found result.searched
    | .error e => .skipped e.message

@[simp] theorem strategy_summaryOf (strategy : Strategy) :
    (summaryOf sources limit request strategy).strategy = strategy := rfl

/-- A report with the contributions of strategies added to it. -/
def combined (r : Report) (strategies : List Strategy) : Report where
  width := r.width
  total := (strategies.map (contribution sources limit request)).foldl .merge r.total
  summaries := r.summaries ++ strategies.map (summaryOf sources limit request)

end

/-- A strategy that ends the search is the only thing that keeps it from a report. -/
theorem runOutcome_eq_ok_iff {r report : Report} {strategies : List Strategy} :
    runOutcome sources limit request r strategies = .ok report ↔
      (∀ strategy ∈ strategies, ∀ e,
        findOutcome sources limit request strategy = .error e → e.skips = true) ∧
      report = combined sources limit request r strategies := by
  induction strategies generalizing r with
  | nil =>
    have hc : combined sources limit request r [] = r := by simp [combined]
    simpa [runOutcome, hc] using eq_comm
  | cons strategy rest ih =>
    rw [runOutcome, List.forall_mem_cons]
    cases hf : findOutcome sources limit request strategy with
    | ok result =>
      have hc : combined sources limit request (r.add strategy result) rest =
          combined sources limit request r (strategy :: rest) := by
        simp [combined, Report.add, summaryOf, contribution, hf, Except.toOption]
      simp [ih, hc]
    | error e =>
      have hc : combined sources limit request (r.skip strategy e.message) rest =
          combined sources limit request r (strategy :: rest) := by
        simp [combined, Report.skip, summaryOf, contribution, hf, Except.toOption,
          Result.merge_empty]
      cases he : e.skips with
      | true => simp [he, ih, hc]
      | false => simp [he]

/-- A search that fails is ended by the sweep of listed algorithms. -/
theorem runOutcome_eq_error_iff {r : Report} {strategies : List Strategy} {e : Error} :
    runOutcome sources limit request r strategies = .error e ↔
      .documented ∈ strategies ∧ Ends sources request e := by
  induction strategies generalizing r with
  | nil => simp [runOutcome]
  | cons strategy rest ih =>
    have later {r : Report} (other : ∀ e, findOutcome sources limit request strategy = .error e →
        e.skips = true) : runOutcome sources limit request r rest = .error e ↔
          .documented ∈ strategy :: rest ∧ Ends sources request e := by
      rw [ih, List.mem_cons]
      refine ⟨fun h => ⟨.inr h.1, h.2⟩, ?_⟩
      rintro ⟨rfl | hm, ends⟩
      · have hf : findOutcome sources limit request .documented = .error e :=
          findOutcome_eq_error_iff.mpr (.inr ⟨rfl, ends⟩)
        exact absurd ends.1 ((skips_iff hf).mp (other e hf))
      · exact ⟨hm, ends⟩
    rw [runOutcome]
    cases hf : findOutcome sources limit request strategy with
    | ok result => exact later (by simp [hf])
    | error e' =>
      cases he' : e'.skips with
      | true => simpa [he'] using later (by simp [hf, he'])
      | false =>
        rcases findOutcome_eq_error_iff.mp hf with ⟨unserved, -⟩ | ⟨rfl, ends⟩
        · simp [(skips_iff hf).mpr unserved] at he'
        · have same : Ends sources request e ↔ e' = e := by
            simpa [Ends, ends.2] using fun _ => ends.1
          simp [he', same]

end DigestFinder.Search
