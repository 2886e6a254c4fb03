import DigestFinder.Proofs.Catalogue
import DigestFinder.Proofs.Search.Counting

/-!
The lookup in a catalogue that was read from a text. It tries the entries of the width and reports
those whose digest by the reference computation is the expected one, in the order of the text.
-/

namespace DigestFinder

/-- Whether an entry has the width of a request and its model the expected digest. -/
def Entry.solves (e : Entry) (r : Search.Request) : Bool :=
  e.model.width == r.width && r.expected.accepts (e.model.digest r.target)

theorem Entry.solves_iff {e : Entry} {r : Search.Request} : e.solves r = true ↔
    e.model.width = r.width ∧ r.expected.accepts (e.model.digest r.target) = true := by
  rw [Entry.solves, Bool.and_eq_true, beq_iff_eq]

namespace Search

/-- A match that stands for an entry: it has the name of the entry, and its description ends in a
text that is read as the model. -/
structure Match.Cites (m : Match) (e : Entry) : Prop where
  id : m.id = e.id
  description : m.description = e.description ++ " [crc:" ++ e.model.text ++ "]"
  readable : Crc.Model.read e.model.text = .ok e.model

/-- The result of a request by going through a catalogue: every entry of the width is counted, and
those that solve the request are all kept, in their order and no name twice. -/
structure LooksUp (c : Catalogue) (r : Request) (result : Result) : Prop where
  searched : result.searched = c.entries.countP (·.model.width == r.width)
  kept : List.Forall₂ Match.Cites result.kept (c.entries.filter (·.solves r))
  once : (result.kept.map Match.id).Nodup
  found : result.found = result.kept.length.toUInt64
  complete : result.truncated = false

section

variable {c : Catalogue} {r : Request}

theorem cites_ofEntry (e : Entry) : (Candidate.ofEntry e).found.Cites e where
  id := rfl
  description := by
    simp [Candidate.ofEntry, Match.description, String.append_assoc, toString]
  readable := by
    have bare : "" ∈ Crc.Model.leads := by decide
    apply Crc.Model.read_of_spells
    simpa using e.model.spells_text bare

/-- A candidate is tried with the streaming computation, which has the digest of the reference. -/
theorem hits_ofEntry (e : Entry) (r : Request) :
    (Candidate.ofEntry e).hits r = r.expected.accepts (e.model.digest r.target) := by
  have digest : ((Crc.Engine.start e.model).update r.target).digest = e.model.digest r.target :=
    e.model.digest_streaming r.target
  rw [← digest]
  rfl

theorem filter_catalogueCandidates (c : Catalogue) (r : Request) :
    (catalogueCandidates c r.width).filter (·.hits r) =
      (c.entries.filter (·.solves r)).map .ofEntry := by
  rw [catalogueCandidates, List.filter_map, Catalogue.withWidth, List.filter_filter]
  congr 2
  funext e
  rw [Entry.solves, Function.comp_apply, hits_ofEntry, Bool.and_comm]

theorem looksUp_tally (distinct : (c.entries.map Entry.id).Nodup) :
    LooksUp c r (tally r (catalogueCandidates c r.width)) where
  searched := by
    rw [List.countP_eq_length_filter]
    exact List.length_map ..
  kept := by
    rw [tally, filter_catalogueCandidates, List.map_map, List.forall₂_map_left_iff]
    exact List.forall₂_same.mpr fun e _ => cites_ofEntry e
  once := by
    rw [tally, filter_catalogueCandidates, List.map_map, List.map_map]
    exact distinct.sublist (List.filter_sublist.map Entry.id)
  found := by
    rw [tally, List.length_map, List.countP_eq_length_filter]
  complete := rfl

theorem LooksUp.length_kept_le {result : Result} (h : LooksUp c r result) :
    result.kept.length ≤ c.entries.length :=
  h.kept.length_eq.trans_le (List.length_filter_le ..)

/-- Whoever watches it, a lookup that gives a result has looked up all of it. -/
theorem looksUp_of_find {sources : Sources}
    (distinct : (sources.catalogue.entries.map Entry.id).Nodup) {limit : Nat} {s : Session}
    {result : Result} (h : (find sources limit r s .catalogue).1 = .ok result) :
    LooksUp sources.catalogue r result := by
  have faithful := (finds_find sources limit r s .catalogue).faithful Nat.one_pos
  have outcome := faithful.of_ne (by simp [h])
  rw [h] at outcome
  by_cases serves : Strategy.catalogue.Serves r.width
  · rw [findOutcome_catalogue sources limit serves] at outcome
    obtain rfl := Except.ok.inj outcome
    exact looksUp_tally distinct
  · rw [findOutcome_unserved sources limit serves] at outcome
    cases outcome

theorem LooksUp.cites_of_mem {result : Result} (h : LooksUp c r result)
    (distinct : (c.entries.map Entry.id).Nodup) {e : Entry} (he : e ∈ c.entries) {m : Match}
    (hm : m ∈ result.kept) (same : m.id = e.id) : e.solves r ∧ m.Cites e := by
  obtain ⟨e', he', cites⟩ := h.kept.flip.exists_left hm
  obtain ⟨listed, solves⟩ := List.mem_filter.mp he'
  obtain rfl : e' = e := List.inj_on_of_nodup_map distinct listed he (cites.id.symm.trans same)
  exact ⟨solves, cites⟩

end

/-- A lookup that is not stopped reports the entries of the width that have the expected digest,
each once and in their order, and counts both them and those that it tried. -/
theorem lookup_reports_matching_entries {text : String} {sources : Sources}
    (hc : Catalogue.read text = .ok sources.catalogue) (limit : Nat) {r : Request}
    (h : Strategy.catalogue.Serves r.width) :
    ∃ result, LooksUp sources.catalogue r result ∧
      (text.length < 2 ^ 64 → result.found.toNat = result.kept.length) ∧
      ∀ s : Session,
        ((find sources limit r s .catalogue).1 = .ok result ∨
          (find sources limit r s .catalogue).1 = .error .cancelled) ∧
        (s.Calm → (find sources limit r s .catalogue).1 = .ok result) := by
  have distinct := (Catalogue.reads_of_read hc).nodup_ids
  have looks := looksUp_tally (r := r) distinct
  refine ⟨_, looks, fun short => ?_, fun s => ?_⟩
  · have bound := looks.length_kept_le.trans (Catalogue.length_entries_le hc)
    rw [looks.found]
    exact UInt64.toNat_ofNat_of_lt' (bound.trans_lt short)
  · have run := (finds_find sources limit r s .catalogue).faithful Nat.one_pos
    rw [findOutcome_catalogue sources limit h] at run
    refine ⟨?_, run.of_calm⟩
    rw [run.result]
    split
    · exact .inl rfl
    · exact .inr rfl

/-- Of two models that differ in whether the length is mixed in, the one with the expected digest
is reported. -/
theorem lookup_of_included_length :
    let text := "X|16,1021,0,false,false,0|31c3|\nX-LEN|16,1021,0,false,false,0,true,true,ff00|0|\n"
    let r : Request := ⟨16, [0x61, 0x62], .bytes [0xf9, 0xd0]⟩
    ∃ sources result, Catalogue.read text = .ok sources.catalogue ∧
      Strategy.catalogue.Serves r.width ∧
      (find sources 0 r (.start false false .never) .catalogue).1 = .ok result ∧
      LooksUp sources.catalogue r result ∧ result.found.toNat = 1 ∧
      result.kept.map Match.id = ["X-LEN"] := by
  intro text r
  let plain : Crc.Model := .masked 16 (by decide) 0x1021 0 false false 0
  let included := plain.withLength ⟨true, [0xff, 0x00]⟩
  let e : Entry := ⟨"X-LEN", included, 0, ""⟩
  let sources : Sources := ⟨.ofRegistry Named.streaming .builtin, ⟨[⟨"X", plain, 0x31c3, ""⟩, e]⟩⟩
  have hc : Catalogue.read text = .ok sources.catalogue := by decide
  have serves : Strategy.catalogue.Serves r.width := by decide
  have solving : sources.catalogue.entries.filter (·.solves r) = [e] := by decide +kernel
  obtain ⟨result, looks, exact, outcome⟩ := lookup_reports_matching_entries hc 0 serves
  have kept := looks.kept
  rw [solving] at kept
  obtain ⟨m, rest, cites, none, hk⟩ := List.forall₂_cons_right_iff.mp kept
  obtain rfl := List.forall₂_nil_right_iff.mp none
  refine ⟨_, result, hc, serves, (outcome _).2 (Session.calm_start ..), looks, ?_, ?_⟩
  · rw [exact (by decide), hk]
    rfl
  · rw [hk, List.map_singleton, cites.id]

end Search

end DigestFinder
