import DigestFinder.Proofs.Registry
import DigestFinder.Proofs.Search.Stopping

/-!
Every match that a search reports can be reproduced: its name stands for an algorithm of the
registry, and the digest that this algorithm yields is the expected one.
-/

namespace DigestFinder

universe u

/-- The digest of a CRC is that of the reference computation. -/
theorem Crc.Model.digest_streaming (m : Crc.Model) (data : Bytes) :
    m.streaming.digest data = m.digest data :=
  ((Crc.Engine.holds_start (m := m)).update data).digest

namespace Search

variable {δ : Type u} {make : δ → Streaming}

/-- Whether a registry has a digest under the name of a match that yields the expected value. -/
def Match.Reproduces (m : Match) (make : δ → Streaming) (registry : Registry δ)
    (request : Request) : Prop :=
  ∃ s, registry.instantiate make m.id = .ok s ∧
    request.expected.accepts (s.digest request.target) = true

theorem Match.reproduces_of_crc {m : Match} {registry : Registry δ} {request : Request}
    {model : Crc.Model} (resolved : registry.resolve m.id = .ok (.crc model))
    (accepted : request.expected.accepts (model.digest request.target) = true) :
    m.Reproduces make registry request := by
  refine ⟨model.streaming, ?_, ?_⟩
  · rw [Registry.instantiate, resolved]
    rfl
  · rwa [model.digest_streaming]

theorem Candidate.exists_digest {c : Candidate} {request : Request}
    (h : c.verdict request = .ok true) :
    ∃ digest, c.digest request.target = .ok digest ∧ request.expected.accepts digest = true := by
  unfold verdict at h
  cases hd : c.digest request.target with
  | error e => simp [hd, Except.map] at h
  | ok digest => exact ⟨digest, rfl, by simpa [hd, Except.map] using h⟩

/-- What a sweep keeps is what it started from, and the candidates that match. -/
theorem mem_kept_sweepOutcome {request : Request} {total result : Result} {cs : List Candidate}
    (h : sweepOutcome request total cs = .ok result) {m : Match} (hm : m ∈ result.kept) :
    m ∈ total.kept ∨ ∃ c ∈ cs, c.found = m ∧ c.verdict request = .ok true := by
  induction cs generalizing total with
  | nil =>
    obtain rfl : total = result := by simpa [sweepOutcome] using h
    exact .inl hm
  | cons c rest ih =>
    rw [sweepOutcome] at h
    cases hv : c.verdict request with
    | error e => simp [hv] at h
    | ok hit =>
      cases hit with
      | true =>
        rw [hv] at h
        rcases ih h with hm | ⟨d, hd, hr⟩
        · rcases List.mem_append.mp hm with hm | hm
          · exact .inl hm
          · exact .inr ⟨c, List.mem_cons_self .., (List.mem_singleton.mp hm).symm, hv⟩
        · exact .inr ⟨d, List.mem_cons_of_mem _ hd, hr⟩
      | false =>
        rw [hv] at h
        rcases ih h with hm | ⟨d, hd, hr⟩
        · exact .inl hm
        · exact .inr ⟨d, List.mem_cons_of_mem _ hd, hr⟩

theorem mem_kept_runOutcome {sources : Sources} {limit : Nat} {request : Request}
    {r report : Report} {strategies : List Strategy}
    (h : runOutcome sources limit request r strategies = .ok report) {m : Match}
    (hm : m ∈ report.total.kept) :
    m ∈ r.total.kept ∨ ∃ strategy ∈ strategies, ∃ result,
      findOutcome sources limit request strategy = .ok result ∧ m ∈ result.kept := by
  induction strategies generalizing r with
  | nil =>
    obtain rfl : r = report := by simpa [runOutcome] using h
    exact .inl hm
  | cons strategy rest ih =>
    rw [runOutcome] at h
    cases hf : findOutcome sources limit request strategy with
    | ok result =>
      rw [hf] at h
      rcases ih h with hm | ⟨other, ho, hr⟩
      · rcases List.mem_append.mp hm with hm | hm
        · exact .inl hm
        · exact .inr ⟨strategy, List.mem_cons_self .., result, hf, hm⟩
      · exact .inr ⟨other, List.mem_cons_of_mem _ ho, hr⟩
    | error e =>
      cases he : e.skips with
      | true =>
        simp only [hf, he, if_true] at h
        rcases ih h with hm | ⟨other, ho, hr⟩
        · exact .inl hm
        · exact .inr ⟨other, List.mem_cons_of_mem _ ho, hr⟩
      | false => simp [hf, he] at h

theorem reproduces_of_catalogue {make : Named → Streaming} {request : Request} {c : Candidate}
    (hc : c ∈ catalogueCandidates .published request.width)
    (h : c.verdict request = .ok true) : c.found.Reproduces make .builtin request := by
  obtain ⟨digest, hd, ha⟩ := Candidate.exists_digest h
  obtain ⟨e, he, rfl⟩ := List.mem_map.mp hc
  apply Match.reproduces_of_crc (Registry.resolve_of_published (List.mem_of_mem_filter he))
  obtain rfl := Except.ok.inj hd
  rwa [← e.model.digest_streaming]

theorem reproduces_of_documented {registry : Registry δ} {request : Request} {c : Candidate}
    (hc : c ∈ documentedCandidates (.ofRegistry make registry) request.width)
    (h : c.verdict request = .ok true) : c.found.Reproduces make registry request := by
  obtain ⟨digest, hd, ha⟩ := Candidate.exists_digest h
  obtain ⟨⟨id, description⟩, -, rfl⟩ := List.mem_map.mp hc
  cases hr : registry.instantiate make id with
  | error cause => simp [Candidate.ofListed, Provider.ofRegistry, hr, Except.map] at hd
  | ok s =>
    obtain rfl : s.digest request.target = digest := by
      simpa [Candidate.ofListed, Provider.ofRegistry, hr, Except.map] using hd
    exact ⟨s, hr, ha⟩

theorem reproduces_of_enumerated {make : Named → Streaming} {request : Request}
    {valid : Crc.ValidWidth request.width} {limit : Nat} {m : Match}
    (h : m ∈ (enumerated request valid limit).kept) : m.Reproduces make .builtin request := by
  obtain ⟨p, hp, rfl⟩ := List.mem_map.mp h
  have hs : p ∈ solutions request valid := (Finset.mem_sort _).mp (List.mem_of_mem_take hp)
  exact Match.reproduces_of_crc (Registry.resolve_text _) (mem_solutions.mp hs).2

/-- What one strategy keeps can be reproduced. -/
theorem reproduces_of_findOutcome {hashes : Hashes} {limit : Nat} {request : Request}
    {strategy : Strategy} {result : Result}
    (h : findOutcome (.ofHashes hashes) limit request strategy = .ok result) {m : Match}
    (hm : m ∈ result.kept) : m.Reproduces hashes.streaming .builtin request := by
  unfold findOutcome at h
  by_cases hs : strategy.Serves request.width
  · rw [dif_pos hs] at h
    cases strategy with
    | catalogue =>
      obtain hn | ⟨c, hc, rfl, hv⟩ := mem_kept_sweepOutcome h hm
      · cases hn
      · exact reproduces_of_catalogue hc hv
    | documented =>
      obtain hn | ⟨c, hc, rfl, hv⟩ := mem_kept_sweepOutcome h hm
      · cases hn
      · exact reproduces_of_documented hc hv
    | bruteForce =>
      obtain rfl := Except.ok.inj h
      exact reproduces_of_enumerated hm
  · rw [dif_neg hs] at h
    cases h

/-- Every match in the report of a search can be reproduced by the registry, whichever strategy
found it, however many workers there are and whenever the search is asked to stop. The hashes may
be any functions of the bytes. -/
theorem matches_reproducible {hashes : Hashes} {options : Options} {request : Request}
    {workers : Nat} (hw : 0 < workers) {wantsProgress : Bool} {cancellation : Cancellation}
    {log : Log} {out : Except Error Report × Session}
    (run : Searches (.ofHashes hashes) options request workers wantsProgress cancellation log out)
    {report : Report} (h : out.1 = .ok report) :
    ∀ m ∈ report.total.kept, m.Reproduces hashes.streaming .builtin request := by
  intro m hm
  have ho : searchOutcome (.ofHashes hashes) options request = .ok report := by
    have hr := (run.faithful hw).result
    rw [h] at hr
    split at hr
    · exact hr.symm
    · cases hr
  obtain hn | ⟨strategy, -, result, hf, hk⟩ := mem_kept_runOutcome ho hm
  · cases hn
  · exact reproduces_of_findOutcome hf hk

/-- A search for a check value reports the published model, under a name that reproduces it. -/
theorem matches_of_check_value :
    let r : Request := ⟨40, Catalogue.checkInput, .bytes [0xd4, 0x16, 0x4f, 0xc6, 0x46]⟩
    let options : Options := { strategies := [.catalogue] }
    ∃ report, (search .builtin options r false .never).1 = .ok report ∧
      report.total.kept.map Match.id = ["CRC-40/GSM"] ∧
      ∀ m ∈ report.total.kept, m.Reproduces Hashes.own.streaming .builtin r := by
  intro r options
  have ids : (searchOutcome .builtin options r).toOption.map (·.total.kept.map Match.id) =
      some ["CRC-40/GSM"] := by
    decide +kernel
  cases h : searchOutcome .builtin options r with
  | error e => simp [h, Except.toOption] at ids
  | ok report =>
    have hr := (search_never .builtin options r false).trans h
    exact ⟨report, hr, by simpa [h, Except.toOption] using ids,
      matches_reproducible Nat.one_pos (searches_search ..) hr⟩

end Search

end DigestFinder
