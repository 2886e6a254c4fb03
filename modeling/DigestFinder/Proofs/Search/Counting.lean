import Mathlib.Algebra.Order.BigOperators.Group.List
import DigestFinder.Proofs.Comparison
import DigestFinder.Proofs.Search.Reports

/-!
How many candidates match. The number that a search reports is a counter of 64 bits. Of the
parameter sets of a width at most one half match, which the counter holds up to a width of 60;
from 61 on, a short message can have so many solutions that it wraps around.
-/

namespace DigestFinder.Search

universe u

/-- The number of candidates of a strategy that match. -/
def matching (sources : Sources) (request : Request) (strategy : Strategy) : Nat :=
  if h : strategy.Serves request.width then
    match strategy, h with
    | .catalogue, _ =>
      (catalogueCandidates sources.catalogue request.width).countP (·.hits request)
    | .documented, _ =>
      (documentedCandidates sources.provider request.width).countP (·.hits request)
    | .bruteForce, h => (solutions request (request.valid h)).card
  else 0

/-- The candidates of all strategies that match. -/
def matchCount (sources : Sources) (options : Options) (request : Request) : Nat :=
  (options.enabled.map (matching sources request)).sum

section

variable {δ : Type u} {make : δ → Streaming} {request : Request}

theorem verdict_of_catalogue {catalogue : Catalogue} {c : Candidate}
    (h : c ∈ catalogueCandidates catalogue request.width) :
    c.verdict request = .ok (c.hits request) := by
  obtain ⟨e, -, rfl⟩ := List.mem_map.mp h
  rfl

theorem digest_ofListed {registry : Registry δ} {id : String} {f : Factory δ}
    (h : registry.resolve id = .ok f) (description : String) (data : Bytes) :
    (Candidate.ofListed (.ofRegistry make registry) id description).digest data =
      .ok ((f.streaming make).digest data) := by
  simp only [Candidate.ofListed, Provider.ofRegistry, Registry.instantiate, h]
  rfl

theorem verdict_of_digest {c : Candidate} {digest : Bytes}
    (h : c.digest request.target = .ok digest) : c.verdict request = .ok (c.hits request) := by
  simp [Candidate.hits, Candidate.verdict, h, Except.map]

theorem verdict_of_documented {registry : Registry δ} {c : Candidate}
    (h : c ∈ documentedCandidates (.ofRegistry make registry) request.width) :
    c.verdict request = .ok (c.hits request) := by
  obtain ⟨⟨id, description⟩, he, rfl⟩ := List.mem_map.mp h
  obtain ⟨l, hl, -, -⟩ := Registry.mem_list.mp he
  exact verdict_of_digest (digest_ofListed (Registry.resolve_of_listed hl) description _)

theorem findOutcome_catalogue (sources : Sources) (limit : Nat)
    (h : Strategy.catalogue.Serves request.width) :
    findOutcome sources limit request .catalogue =
      .ok (tally request (catalogueCandidates sources.catalogue request.width)) :=
  (dif_pos h).trans (sweepOutcome_eq_tally fun _ hc => verdict_of_catalogue hc)

theorem findOutcome_documented (make : δ → Streaming) (registry : Registry δ)
    (catalogue : Catalogue) (limit : Nat) (h : Strategy.documented.Serves request.width) :
    findOutcome ⟨.ofRegistry make registry, catalogue⟩ limit request .documented =
      .ok (tally request (documentedCandidates (.ofRegistry make registry) request.width)) :=
  (dif_pos h).trans (sweepOutcome_eq_tally fun _ hc => verdict_of_documented hc)

theorem findOutcome_bruteForce (sources : Sources) (limit : Nat)
    (h : Strategy.bruteForce.Serves request.width) :
    findOutcome sources limit request .bruteForce =
      .ok (enumerated request (request.valid h) limit) :=
  dif_pos h

theorem findOutcome_unserved (sources : Sources) (limit : Nat) {strategy : Strategy}
    (h : ¬ strategy.Serves request.width) :
    findOutcome sources limit request strategy =
      .error (.parameter strategy request.width strategy.minWidth strategy.maxWidth) :=
  dif_neg h

/-- With the algorithms of the registry no strategy fails. -/
theorem unfailing_registry (make : δ → Streaming) (registry : Registry δ) (catalogue : Catalogue)
    (limit : Nat) (request : Request) :
    Unfailing ⟨.ofRegistry make registry, catalogue⟩ limit request := by
  intro strategy e h
  by_cases hs : strategy.Serves request.width
  · cases strategy with
    | catalogue =>
      rw [findOutcome_catalogue _ _ hs] at h
      cases h
    | documented =>
      rw [findOutcome_documented _ _ _ _ hs] at h
      cases h
    | bruteForce =>
      rw [findOutcome_bruteForce _ _ hs] at h
      cases h
  · rw [findOutcome_unserved _ _ hs] at h
    obtain rfl := Except.error.inj h
    rfl

theorem contribution_unserved (sources : Sources) (limit : Nat) {strategy : Strategy}
    (h : ¬ strategy.Serves request.width) : contribution sources limit request strategy = {} := by
  rw [contribution, findOutcome_unserved _ _ h]
  rfl

theorem contribution_of_ok {sources : Sources} {limit : Nat} {strategy : Strategy}
    {result : Result} (h : findOutcome sources limit request strategy = .ok result) :
    contribution sources limit request strategy = result := by
  rw [contribution, h]
  rfl

/-- Each strategy contributes the number of its candidates that match, as a 64-bit counter. -/
theorem found_contribution (make : δ → Streaming) (registry : Registry δ) (catalogue : Catalogue)
    (limit : Nat) (strategy : Strategy) :
    (contribution ⟨.ofRegistry make registry, catalogue⟩ limit request strategy).found.toNat =
      matching ⟨.ofRegistry make registry, catalogue⟩ request strategy % 2 ^ 64 := by
  by_cases hs : strategy.Serves request.width
  · rw [matching, dif_pos hs]
    cases strategy with
    | catalogue =>
      rw [contribution_of_ok (findOutcome_catalogue _ _ hs)]
      exact UInt64.toNat_ofNat'
    | documented =>
      rw [contribution_of_ok (findOutcome_documented _ _ _ _ hs)]
      exact UInt64.toNat_ofNat'
    | bruteForce =>
      rw [contribution_of_ok (findOutcome_bruteForce _ _ hs)]
      exact UInt64.toNat_ofNat'
  · rw [matching, dif_neg hs, contribution_unserved _ _ hs]
    rfl

theorem parameters_not_mem_tally {cs : List Candidate}
    (h : ∀ c ∈ cs, ∃ id description, c.found = .named id description) (m : Crc.Model) :
    .parameters m ∉ (tally request cs).kept := by
  intro hm
  obtain ⟨c, hc, he⟩ := List.mem_map.mp hm
  obtain ⟨id, description, hn⟩ := h c (List.mem_of_mem_filter hc)
  rw [hn] at he
  cases he

/-- Only brute force keeps parameter sets, and only brute force leaves matches out. -/
theorem contribution_listed (make : δ → Streaming) (registry : Registry δ) (catalogue : Catalogue)
    (limit : Nat) {strategy : Strategy} (hs : strategy ≠ .bruteForce) :
    (contribution ⟨.ofRegistry make registry, catalogue⟩ limit request strategy).truncated = false ∧
      ∀ m, .parameters m ∉
        (contribution ⟨.ofRegistry make registry, catalogue⟩ limit request strategy).kept := by
  by_cases h : strategy.Serves request.width
  · cases strategy with
    | catalogue =>
      rw [contribution_of_ok (findOutcome_catalogue _ _ h)]
      refine ⟨rfl, parameters_not_mem_tally fun c hc => ?_⟩
      obtain ⟨e, -, rfl⟩ := List.mem_map.mp hc
      exact ⟨_, _, rfl⟩
    | documented =>
      rw [contribution_of_ok (findOutcome_documented _ _ _ _ h)]
      refine ⟨rfl, parameters_not_mem_tally fun c hc => ?_⟩
      obtain ⟨e, -, rfl⟩ := List.mem_map.mp hc
      exact ⟨_, _, rfl⟩
    | bruteForce => exact absurd rfl hs
  · rw [contribution_unserved _ _ h]
    exact ⟨rfl, fun _ => List.not_mem_nil⟩

/-- Solutions that agree in all but the final mask are equal, since only one mask gives the
expected digest. -/
theorem eq_of_mem_solutions {valid : Crc.ValidWidth request.width} {p q : Params}
    (hp : p ∈ solutions request valid) (hq : q ∈ solutions request valid)
    (poly : p.poly = q.poly) (init : p.init = q.init) (refIn : p.refIn = q.refIn)
    (refOut : p.refOut = q.refOut) : p = q := by
  obtain ⟨⟨-, -, hx⟩, ha⟩ := mem_solutions.mp hp
  obtain ⟨⟨-, -, hx'⟩, ha'⟩ := mem_solutions.mp hq
  have hd : (p.model request.width valid).digest request.target =
      (q.model request.width valid).digest request.target :=
    Expected.accepts_unique (by simp only [Crc.Model.digest, Crc.length_toBytes]; rfl) ha ha'
  have hc : (p.model request.width valid).crc request.target =
      (q.model request.width valid).crc request.target :=
    Crc.toBytes_inj valid (Crc.Model.crc_le _ _) (Crc.Model.crc_le _ _) hd
  rw [p.crc_model valid (le_mask_of_either hx), q.crc_model valid (le_mask_of_either hx'), poly,
    init, refIn] at hc
  have xorOut : p.xorOut = q.xorOut := by
    simpa [Params.output, refOut] using hc
  cases p
  cases q
  simp_all

theorem card_solutions_le (request : Request) (valid : Crc.ValidWidth request.width) :
    (solutions request valid).card ≤ 2 ^ (request.width + 3) := by
  have hc : (Finset.range (2 ^ request.width) ×ˢ
      ({0, Crc.mask request.width} : Finset UInt64) ×ˢ (Finset.univ : Finset Bool) ×ˢ
      (Finset.univ : Finset Bool)).card ≤ 2 ^ (request.width + 3) := by
    have hm : ({0, Crc.mask request.width} : Finset UInt64).card ≤ 2 := Finset.card_le_two
    simp only [Finset.card_product, Finset.card_range, Finset.card_univ, Fintype.card_bool]
    calc 2 ^ request.width * (({0, Crc.mask request.width} : Finset UInt64).card * (2 * 2))
        ≤ 2 ^ request.width * (2 * (2 * 2)) :=
          Nat.mul_le_mul_left _ (Nat.mul_le_mul_right _ hm)
      _ = 2 ^ (request.width + 3) := (pow_add 2 request.width 3).symm
  refine le_trans (Finset.card_le_card_of_injOn
    (fun p => (p.poly.toNat, p.init, p.refIn, p.refOut)) ?_ ?_) hc
  · intro p hp
    obtain ⟨⟨hpoly, hinit, -⟩, -⟩ := mem_solutions.mp hp
    have hl := (Crc.le_mask_iff_lt valid p.poly).mp hpoly
    simpa [hl] using hinit
  · intro p hp q hq h
    simp only [Prod.mk.injEq, UInt64.toNat_inj] at h
    exact eq_of_mem_solutions hp hq h.1 h.2.1 h.2.2.1 h.2.2.2

theorem model_injOn (valid : Crc.ValidWidth request.width) :
    Set.InjOn (fun p : Params => p.model request.width valid) (solutions request valid) := by
  have kept {v : UInt64} (hv : v ≤ Crc.mask request.width) := Crc.and_mask_of_le valid hv
  intro p hp q hq h
  obtain ⟨⟨hpoly, hinit, hx⟩, -⟩ := mem_solutions.mp hp
  obtain ⟨⟨hpoly', hinit', hx'⟩, -⟩ := mem_solutions.mp hq
  simp only [Params.model, Crc.Model.masked, Crc.Model.mk.injEq, kept hpoly, kept hpoly',
    kept (le_mask_of_either hinit), kept (le_mask_of_either hinit'),
    kept (le_mask_of_either hx), kept (le_mask_of_either hx')] at h
  cases p
  cases q
  simp_all

theorem mem_kept_enumerated {valid : Crc.ValidWidth request.width} {limit : Nat} {p : Params}
    (hp : p ∈ solutions request valid) :
    .parameters (p.model request.width valid) ∈ (enumerated request valid limit).kept ↔
      p ∈ (solutions request valid).sort.take limit := by
  constructor
  · intro hm
    obtain ⟨q, hq, he⟩ := List.mem_map.mp hm
    have hs : q ∈ solutions request valid := (Finset.mem_sort _).mp (List.mem_of_mem_take hq)
    rwa [← model_injOn valid hs hp (Match.parameters.inj he)]
  · exact fun hm => List.mem_map_of_mem hm

/-- Brute force leaves matches out just when a solution is missing from what it keeps. -/
theorem truncated_enumerated {valid : Crc.ValidWidth request.width} {limit : Nat}
    (h : (solutions request valid).card < 2 ^ 64) :
    (enumerated request valid limit).truncated = true ↔ ∃ p ∈ solutions request valid,
      .parameters (p.model request.width valid) ∉ (enumerated request valid limit).kept := by
  have ht : (enumerated request valid limit).truncated = true ↔
      limit < (solutions request valid).card := by
    have hc : (solutions request valid).card.toUInt64.toNat = (solutions request valid).card :=
      UInt64.toNat_ofNat_of_lt' h
    have hm : (min limit (solutions request valid).card).toUInt64.toNat =
        min limit (solutions request valid).card :=
      UInt64.toNat_ofNat_of_lt' ((Nat.min_le_right _ _).trans_lt h)
    rw [enumerated, decide_eq_true_eq, UInt64.lt_iff_toNat_lt, hc, hm]
    omega
  rw [ht]
  constructor
  · intro hl
    by_contra hall
    push Not at hall
    have hs : solutions request valid ⊆ ((solutions request valid).sort.take limit).toFinset :=
      fun p hp => List.mem_toFinset.mpr ((mem_kept_enumerated hp).mp (hall p hp))
    have hk := (Finset.card_le_card hs).trans (List.toFinset_card_le _)
    rw [List.length_take, Finset.length_sort] at hk
    omega
  · rintro ⟨p, hp, hn⟩
    by_contra hl
    rw [mem_kept_enumerated hp, List.take_of_length_le (by rw [Finset.length_sort]; omega)] at hn
    exact hn ((Finset.mem_sort _).mpr hp)

end

section

/-- What all strategies contribute together. -/
def totalOf (sources : Sources) (limit : Nat) (request : Request) (strategies : List Strategy) :
    Result :=
  (strategies.map (contribution sources limit request)).foldl .merge {}

variable {δ : Type u} {make : δ → Streaming} {registry : Registry δ} {catalogue : Catalogue}
  {limit : Nat} {request : Request} {strategies : List Strategy}

theorem found_totalOf :
    (totalOf ⟨.ofRegistry make registry, catalogue⟩ limit request strategies).found.toNat =
      (strategies.map (matching ⟨.ofRegistry make registry, catalogue⟩ request)).sum % 2 ^ 64 := by
  have h0 : ({} : Result).found.toNat = 0 := rfl
  rw [totalOf, toNat_found_foldl_merge, h0, Nat.zero_add, List.map_map, Function.comp_def]
  simp only [found_contribution]
  rw [List.sum_nat_mod (strategies.map (matching ⟨.ofRegistry make registry, catalogue⟩ request)),
    List.map_map]
  rfl

theorem parameters_mem_totalOf {m : Crc.Model} :
    .parameters m ∈ (totalOf ⟨.ofRegistry make registry, catalogue⟩ limit request strategies).kept ↔
      .bruteForce ∈ strategies ∧ .parameters m ∈
        (contribution ⟨.ofRegistry make registry, catalogue⟩ limit request .bruteForce).kept := by
  rw [totalOf, kept_foldl_merge, List.nil_append, List.flatMap_map, List.mem_flatMap]
  constructor
  · rintro ⟨strategy, hs, hm⟩
    by_cases hb : strategy = .bruteForce
    · exact hb ▸ ⟨hs, hm⟩
    · exact absurd hm ((contribution_listed make registry catalogue limit hb).2 m)
  · rintro ⟨hs, hm⟩
    exact ⟨_, hs, hm⟩

theorem truncated_totalOf :
    (totalOf ⟨.ofRegistry make registry, catalogue⟩ limit request strategies).truncated = true ↔
      .bruteForce ∈ strategies ∧
        (contribution ⟨.ofRegistry make registry, catalogue⟩ limit request
          .bruteForce).truncated := by
  rw [totalOf, truncated_foldl_merge, List.any_map, Bool.false_or, List.any_eq_true]
  constructor
  · rintro ⟨strategy, hs, ht⟩
    by_cases hb : strategy = .bruteForce
    · exact hb ▸ ⟨hs, ht⟩
    · rw [Function.comp_apply, (contribution_listed make registry catalogue limit hb).1] at ht
      cases ht
  · rintro ⟨hs, ht⟩
    exact ⟨_, hs, ht⟩

theorem matching_bruteForce (sources : Sources) (h : Strategy.bruteForce.Serves request.width) :
    matching sources request .bruteForce = (solutions request (request.valid h)).card :=
  dif_pos h

theorem matching_le_sum (sources : Sources) {strategy : Strategy} (h : strategy ∈ strategies) :
    matching sources request strategy ≤ (strategies.map (matching sources request)).sum :=
  List.single_le_sum (fun _ _ => Nat.zero_le _) _ (List.mem_map_of_mem h)

/-- A report leaves matches out just when a solution is missing from it. -/
theorem truncated_totalOf_iff
    (h : (strategies.map (matching ⟨.ofRegistry make registry, catalogue⟩ request)).sum < 2 ^ 64) :
    (totalOf ⟨.ofRegistry make registry, catalogue⟩ limit request strategies).truncated = true ↔
      .bruteForce ∈ strategies ∧ ∃ (hs : Searchable request.width),
        ∃ p ∈ solutions request hs.valid, .parameters (p.model request.width hs.valid) ∉
          (totalOf ⟨.ofRegistry make registry, catalogue⟩ limit request strategies).kept := by
  rw [truncated_totalOf]
  simp only [parameters_mem_totalOf, not_and]
  refine and_congr_right fun hb => ?_
  by_cases hs : Strategy.bruteForce.Serves request.width
  · have hc : (solutions request (request.valid hs)).card < 2 ^ 64 := by
      rw [← matching_bruteForce ⟨.ofRegistry make registry, catalogue⟩ hs]
      exact (matching_le_sum _ hb).trans_lt h
    rw [contribution_of_ok (findOutcome_bruteForce _ limit hs), truncated_enumerated hc]
    constructor
    · rintro ⟨p, solves, missing⟩
      exact ⟨hs, p, solves, fun _ => missing⟩
    · rintro ⟨_, p, solves, missing⟩
      exact ⟨p, solves, missing hb⟩
  · rw [contribution_unserved _ _ hs]
    constructor
    · intro ht
      cases ht
    · rintro ⟨hs', -⟩
      exact absurd hs' hs

/-- The most matches that a strategy can have where the counter is wide enough for all. -/
def matchBound : Strategy → Nat
  | .catalogue => 2 ^ 62
  | .documented => Registry.aliases.length + Registry.natives.length
  | .bruteForce => 2 ^ 63

variable {make : Named → Streaming}

theorem matching_le_bound (hc : catalogue.entries.length ≤ 2 ^ 62) {strategy : Strategy}
    (hb : strategy = .bruteForce → request.width ≤ 60 ∨ 63 < request.width) :
    matching ⟨.ofRegistry make .builtin, catalogue⟩ request strategy ≤ matchBound strategy := by
  unfold matching
  split
  · rename_i hs
    cases strategy with
    | catalogue =>
      apply List.countP_le_length.trans
      rw [catalogueCandidates, List.length_map]
      exact (List.length_filter_le ..).trans hc
    | documented =>
      apply List.countP_le_length.trans
      rw [documentedCandidates, List.length_map]
      exact (Registry.length_list_le _ _).trans Registry.length_listings_le
    | bruteForce =>
      have hw : request.width ≤ 63 := hs.2
      have := hb rfl
      apply (card_solutions_le request _).trans
      exact Nat.pow_le_pow_right (by decide) (by omega)
  · exact Nat.zero_le _

/-- The counter holds the number of matches where brute force has a width of at most 60. -/
theorem matchCount_lt {options : Options} (hc : catalogue.entries.length ≤ 2 ^ 62)
    (hb : .bruteForce ∈ options.enabled → request.width ≤ 60 ∨ 63 < request.width) :
    matchCount ⟨.ofRegistry make .builtin, catalogue⟩ options request < 2 ^ 64 := by
  have each : ∀ strategy ∈ options.enabled,
      matching ⟨.ofRegistry make .builtin, catalogue⟩ request strategy ≤ matchBound strategy :=
    fun _ he => matching_le_bound hc fun hs => hb (hs ▸ he)
  have part : options.enabled.Sublist Strategy.all := List.filter_sublist
  calc matchCount ⟨.ofRegistry make .builtin, catalogue⟩ options request
      ≤ (options.enabled.map matchBound).sum := List.sum_le_sum each
    _ ≤ (Strategy.all.map matchBound).sum :=
        (part.map matchBound).sum_le_sum fun _ _ => Nat.zero_le _
    _ < 2 ^ 64 := by decide

end

/-- A search with the algorithms of the registry that is not cancelled gives a report. -/
theorem exists_report (make : Named → Streaming) (catalogue : Catalogue) (options : Options)
    (request : Request) (wantsProgress : Bool) :
    let sources : Sources := ⟨.ofRegistry make .builtin, catalogue⟩
    ∃ report, (search sources options request wantsProgress .never).1 = .ok report ∧
      report.total = totalOf sources options.maxMatches request options.enabled := by
  have skips := unfailing_registry make .builtin catalogue options.maxMatches request
  exact ⟨_, (search_never ..).trans
    (runOutcome_eq_ok_iff.mpr ⟨fun strategy _ => skips strategy, rfl⟩), rfl⟩

/-- A search with the algorithms of the registry counts the candidates that match, in 64 bits. As
long as the counter holds their number, something is reported found just when a candidate matches,
and truncated just when a matching parameter set is missing. -/
theorem found_counts_matches (hashes : Hashes) (catalogue : Catalogue) (options : Options)
    (request : Request) (wantsProgress : Bool) :
    let sources : Sources := ⟨.ofRegistry hashes.streaming .builtin, catalogue⟩
    let count := matchCount sources options request
    ∃ report, (search sources options request wantsProgress .never).1 = .ok report ∧
      (∀ workers, 0 < workers → ∀ log out,
        Searches sources options request workers wantsProgress .never log out →
          out.1 = .ok report) ∧
      report.total.found.toNat = count % 2 ^ 64 ∧
      (count < 2 ^ 64 → (report.isFound = true ↔ 0 < count) ∧
        (report.total.truncated = true ↔ .bruteForce ∈ options.enabled ∧
          ∃ (h : Searchable request.width), ∃ p ∈ solutions request h.valid,
            .parameters (p.model request.width h.valid) ∉ report.total.kept)) ∧
      (catalogue.entries.length ≤ 2 ^ 62 →
        (.bruteForce ∈ options.enabled → request.width ≤ 60 ∨ 63 < request.width) →
        count < 2 ^ 64) := by
  intro sources count
  obtain ⟨report, hr, ht⟩ :=
    exists_report hashes.streaming catalogue options request wantsProgress
  have hf : report.total.found.toNat = count % 2 ^ 64 := ht ▸ found_totalOf
  refine ⟨report, hr, ?_, hf, fun hc => ⟨?_, ?_⟩, fun hl hb => matchCount_lt hl hb⟩
  · intro workers hw log out run
    rw [search_never] at hr
    exact ((run.faithful hw).of_calm (Session.calm_start ..)).trans hr
  · rw [Nat.mod_eq_of_lt hc] at hf
    rw [Report.isFound, Result.isFound, decide_eq_true_eq, UInt64.lt_iff_toNat_lt, hf]
    rfl
  · rw [ht]
    exact truncated_totalOf_iff hc

section

variable {width : Nat}

/-- No message, and a digest of zeros. -/
abbrev zeros (width : Nat) : Request := ⟨width, [], .bytes (Crc.toBytes 0 width)⟩

theorem reflect_of_either (valid : Crc.ValidWidth width) {v : UInt64}
    (h : v = 0 ∨ v = Crc.mask width) : Crc.reflect v width = v := by
  apply Crc.word_ext
  intro i _
  rw [Crc.bit_reflect valid]
  rcases h with rfl | rfl
  · rw [Crc.bit_zero, Crc.bit_zero, Bool.and_false]
  · rw [Crc.bit_mask valid, Crc.bit_mask valid, Bool.and_eq_left_iff_imp, decide_eq_true_eq,
      decide_eq_true_eq]
    omega

/-- Without a message the register keeps its initial value. -/
theorem crc_empty (valid : Crc.ValidWidth width) {p : Params}
    (init : p.init = 0 ∨ p.init = Crc.mask width)
    (xorOut : p.xorOut = 0 ∨ p.xorOut = Crc.mask width) :
    (p.model width valid).crc [] = p.init ^^^ p.xorOut := by
  have hs : shared valid p.poly p.init p.refIn [] = p.init :=
    Crc.and_mask_of_le valid (le_mask_of_either init)
  rw [p.crc_model valid (le_mask_of_either xorOut), hs, Params.output,
    reflect_of_either valid init, ite_self]

theorem mem_solutions_zeros (valid : Crc.ValidWidth width) {p : Params} :
    p ∈ solutions (zeros width) valid ↔
      p.poly ≤ Crc.mask width ∧ (p.init = 0 ∨ p.init = Crc.mask width) ∧ p.xorOut = p.init := by
  have digest (init : p.init = 0 ∨ p.init = Crc.mask width)
      (xorOut : p.xorOut = 0 ∨ p.xorOut = Crc.mask width) :
      (zeros width).expected.accepts ((p.model width valid).digest []) = true ↔
        p.xorOut = p.init := by
    have hle : p.init ^^^ p.xorOut ≤ Crc.mask width :=
      Crc.xor_le_mask valid (le_mask_of_either init) (le_mask_of_either xorOut)
    rw [Expected.accepts_bytes_iff, Crc.Model.digest, crc_empty valid init xorOut]
    constructor
    · intro h
      have hz := Crc.toBytes_inj valid UInt64.zero_le hle h
      exact (UInt64.xor_eq_zero_iff.mp hz.symm).symm
    · intro h
      rw [h, UInt64.xor_self]
      rfl
  rw [mem_solutions]
  constructor
  · rintro ⟨⟨poly, init, xorOut⟩, accepts⟩
    exact ⟨poly, init, (digest init xorOut).mp accepts⟩
  · rintro ⟨poly, init, same⟩
    have xorOut : p.xorOut = 0 ∨ p.xorOut = Crc.mask width := same ▸ init
    exact ⟨⟨poly, init, xorOut⟩, (digest init xorOut).mpr same⟩

/-- The solution with these values and the final mask that goes with them. -/
def clearing : Nat × UInt64 × Bool × Bool → Params :=
  fun (poly, init, refIn, refOut) => ⟨poly.toUInt64, init, refIn, refOut, init⟩

/-- The values that a solution may have apart from the final mask. -/
def choices (width : Nat) : Finset (Nat × UInt64 × Bool × Bool) :=
  Finset.range (2 ^ width) ×ˢ {0, Crc.mask width} ×ˢ Finset.univ ×ˢ Finset.univ

theorem mem_choices {poly : Nat} {init : UInt64} {refIn refOut : Bool} :
    (poly, init, refIn, refOut) ∈ choices width ↔
      poly < 2 ^ width ∧ (init = 0 ∨ init = Crc.mask width) := by
  simp [choices]

theorem toNat_toUInt64_of_lt (valid : Crc.ValidWidth width) {n : Nat} (h : n < 2 ^ width) :
    n.toUInt64.toNat = n :=
  UInt64.toNat_ofNat_of_lt' (h.trans_le (Nat.pow_le_pow_right (by decide) valid.2))

theorem solutions_zeros (valid : Crc.ValidWidth width) :
    solutions (zeros width) valid = (choices width).image clearing := by
  ext p
  rw [mem_solutions_zeros, Crc.le_mask_iff_lt valid, Finset.mem_image]
  constructor
  · rintro ⟨poly, init, same⟩
    refine ⟨(p.poly.toNat, p.init, p.refIn, p.refOut), mem_choices.mpr ⟨poly, init⟩, ?_⟩
    cases p
    simp_all [clearing, Nat.toUInt64]
  · rintro ⟨⟨poly, init, refIn, refOut⟩, hc, rfl⟩
    obtain ⟨hp, hi⟩ := mem_choices.mp hc
    refine ⟨?_, hi, rfl⟩
    rwa [clearing, toNat_toUInt64_of_lt valid hp]

theorem clearing_injOn (valid : Crc.ValidWidth width) : Set.InjOn clearing (choices width) := by
  rintro ⟨poly, init, refIn, refOut⟩ h ⟨poly', init', refIn', refOut'⟩ h' same
  rw [Finset.mem_coe, mem_choices] at h h'
  simp only [clearing, Params.mk.injEq] at same
  obtain ⟨hp, rfl, rfl, rfl, -⟩ := same
  rw [← toNat_toUInt64_of_lt valid h.1, hp, toNat_toUInt64_of_lt valid h'.1]

/-- The bound on the number of solutions is reached at every width. -/
theorem card_solutions_zeros (valid : Crc.ValidWidth width) :
    (solutions (zeros width) valid).card = 2 ^ (width + 3) := by
  have ones : 0 ≠ Crc.mask width := (Setting.ofRequest (zeros width) valid).ones_ne_zero
  rw [solutions_zeros, Finset.card_image_of_injOn (clearing_injOn valid)]
  calc (choices width).card = 2 ^ width * (2 * (2 * 2)) := by
        rw [choices, Finset.card_product, Finset.card_product, Finset.card_product,
          Finset.card_range, Finset.card_pair ones, Finset.card_univ, Fintype.card_bool]
    _ = 2 ^ (width + 3) := (pow_add 2 width 3).symm

/-- At width 61 the number of matches can be that at which the counter is back at zero. -/
theorem found_wraps :
    let options : Options := { strategies := [.bruteForce], maxMatches := 0 }
    matchCount .builtin options (zeros 61) = 2 ^ 64 ∧
      ∃ report, (search .builtin options (zeros 61) true .never).1 = .ok report ∧
        report.total.found = 0 ∧ report.isFound = false ∧ report.total.truncated = false := by
  intro options
  have hs : Strategy.bruteForce.Serves (zeros 61).width := by decide
  have he : options.enabled = [.bruteForce] := by decide
  have card : (solutions (zeros 61) ((zeros 61).valid hs)).card = 2 ^ 64 :=
    card_solutions_zeros _
  have hm : matchCount .builtin options (zeros 61) = 2 ^ 64 := by
    rw [matchCount, he, List.map_singleton, List.sum_singleton, matching_bruteForce .builtin hs,
      card]
  obtain ⟨report, hr, ht⟩ := exists_report Hashes.own.streaming .published options (zeros 61) true
  have h0 : report.total.found = 0 := by
    have sum : (options.enabled.map (matching .builtin (zeros 61))).sum = 2 ^ 64 := hm
    rw [← UInt64.toNat_inj, ht, found_totalOf]
    exact (congrArg (· % 2 ^ 64) sum).trans (by decide)
  have complete : report.total.truncated = false := by
    have back : (2 ^ 64 : Nat).toUInt64 = 0 := rfl
    rw [ht, ← Bool.not_eq_true, truncated_totalOf,
      contribution_of_ok (findOutcome_bruteForce _ _ hs), enumerated, card, back, decide_eq_true_eq]
    exact fun h => UInt64.not_lt_zero h.2
  exact ⟨hm, report, hr, h0, by rw [Report.isFound, Result.isFound, h0]; rfl, complete⟩

end

end DigestFinder.Search
