import DigestFinder.Proofs.Search.Events
import DigestFinder.Proofs.Search.Lookup

/-!
What brute force tries of a catalogue: the models with a conventional initial value and final mask
that do not mix in the length. Of those it finds what the lookup finds, under the text that stands
in the description of the match there.
-/

namespace DigestFinder.Search

/-- Whether a model is one of those that brute force tries. -/
structure Conventional (m : Crc.Model) : Prop where
  plain : m.length = none
  init : m.init = 0 ∨ m.init = m.mask
  xorOut : m.xorOut = 0 ∨ m.xorOut = m.mask

namespace Params

/-- The parameters of a model. -/
def ofModel (m : Crc.Model) : Params := ⟨m.poly, m.init, m.refIn, m.refOut, m.xorOut⟩

theorem model_ofModel {width : Nat} (valid : Crc.ValidWidth width) {m : Crc.Model}
    (same : m.width = width) (plain : m.length = none) : (ofModel m).model width valid = m := by
  subst same
  obtain ⟨width, poly, init, refIn, refOut, xorOut, length, valid, poly_le, init_le, xorOut_le⟩ := m
  obtain rfl : length = none := plain
  simp only [model, ofModel, Crc.Model.masked, Crc.and_mask_of_le valid poly_le,
    Crc.and_mask_of_le valid init_le, Crc.and_mask_of_le valid xorOut_le]

end Params

section

variable {r : Request} {e : Entry}

theorem ofModel_mem_solutions (valid : Crc.ValidWidth r.width) (solves : e.solves r)
    (conventional : Conventional e.model) : Params.ofModel e.model ∈ solutions r valid := by
  obtain ⟨same, accepts⟩ := Entry.solves_iff.mp solves
  have tried := conventional.init
  have tried' := conventional.xorOut
  have fits := e.model.poly_le
  rw [Crc.Model.mask, same] at tried tried'
  rw [same] at fits
  rw [mem_solutions, Params.model_ofModel valid same conventional.plain]
  exact ⟨⟨fits, tried, tried'⟩, accepts⟩

variable {sources : Sources} {limit workers : Nat} {s : Session} {log : Log}
  {out : Except Error Result × Session}

/-- Brute force that is not cancelled tells of every solution. -/
theorem event_mem_of_finds (hw : 0 < workers) (h : Searchable r.width)
    (run : Finds sources limit r workers s .bruteForce log out) (go : out.1 ≠ .error .cancelled)
    {p : Params} (hp : p ∈ solutions r h.valid) :
    .matched .bruteForce (.parameters (p.model r.width h.valid)) ∈ log.events := by
  cases run with
  | unserved unserved => exact absurd h unserved
  | bruteForce _ turns ended =>
    have told := Setting.events_of_ended h.2 hw turns ended (Setting.not_refused_of_outcome go)
    have hit : p ∈ (Setting.ofRequest r h.valid).allHits := by
      rwa [← Multiset.mem_coe, Setting.allHits_eq]
    exact told.mem_iff.mpr (List.mem_append_left _ (List.mem_map_of_mem hit))

/-- The result of brute force that is not cancelled. -/
theorem result_of_finds (hw : 0 < workers) (h : Searchable r.width)
    (run : Finds sources limit r workers s .bruteForce log out)
    (go : out.1 ≠ .error .cancelled) : out.1 = .ok (enumerated r h.valid limit) :=
  ((run.faithful hw).of_ne go).trans (findOutcome_bruteForce sources limit h)

end

/-- If the lookup in a catalogue reports an entry that brute force tries, too, then brute force
reports its model, under the text that stands in the description there. It keeps this match unless
the limit is reached by matches with smaller parameters. -/
theorem bruteForce_covers_lookup {text : String} {sources : Sources}
    (hc : Catalogue.read text = .ok sources.catalogue) {r : Request} (h : Searchable r.width)
    {limit' : Nat} {s : Session} {looked : Result}
    (hl : (find sources limit' r s .catalogue).1 = .ok looked) {m : Match} (hm : m ∈ looked.kept)
    {e : Entry} (he : e ∈ sources.catalogue.entries) (same : m.id = e.id)
    (conventional : Conventional e.model) :
    ∃ found : Match, found.id = "crc:" ++ e.model.text ∧
      m.description = e.description ++ " [" ++ found.id ++ "]" ∧
      ∀ limit workers, 0 < workers → ∀ (t : Session) (log : Log) out,
        Finds sources limit r workers t .bruteForce log out →
        t.Calm ∨ out.1 ≠ .error .cancelled →
          (∃ events, out.2.trace.toList = t.trace.toList ++ events ∧
            .matched .bruteForce found ∈ events) ∧
          ∃ result, out.1 = .ok result ∧ (found ∈ result.kept ↔
            ((solutions r h.valid).filter (· < Params.ofModel e.model)).card < limit) := by
  have distinct := (Catalogue.reads_of_read hc).nodup_ids
  obtain ⟨solves, cites⟩ := (looksUp_of_find distinct hl).cites_of_mem distinct he hm same
  have solution := ofModel_mem_solutions h.valid solves conventional
  have width := (Entry.solves_iff.mp solves).1
  have model := Params.model_ofModel h.valid width conventional.plain
  refine ⟨.parameters e.model, rfl, ?_, ?_⟩
  · have opening : " [crc:" = " [" ++ "crc:" := by decide
    rw [cites.description, opening, Match.id]
    simp only [String.append_assoc]
  · intro limit workers hw t log out run go
    have go : out.1 ≠ .error .cancelled := go.elim (run.ne_cancelled hw) fun go => go
    have session := (run.faithful hw).session
    have reported := event_mem_of_finds hw h run go solution
    rw [model] at reported
    refine ⟨⟨log.events, by rw [session, Session.trace_after], reported⟩, ?_⟩
    refine ⟨_, result_of_finds hw h run go, ?_⟩
    rw [← Finset.mem_take_sort_iff solution, ← mem_kept_enumerated solution, model]

/-- The lookup reports the published model of this name; so does brute force, under its text. -/
theorem bruteForce_covers_smbus :
    let text := "CRC-8/SMBUS|8,07,00,false,false,00|f4|packet error code"
    let r : Request := ⟨8, Catalogue.checkInput, .bytes [0xf4]⟩
    let s := Session.start false false .never
    ∃ sources looked m log out, Catalogue.read text = .ok sources.catalogue ∧
      Searchable r.width ∧ (find sources 0 r s .catalogue).1 = .ok looked ∧ m ∈ looked.kept ∧
      m.id = "CRC-8/SMBUS" ∧ Finds sources 1 r 1 s .bruteForce log out ∧
      ∃ found : Match, found.id = "crc:8,07,00,false,false,00" ∧
        m.description = "packet error code [crc:8,07,00,false,false,00]" ∧
        .matched .bruteForce found ∈ out.2.trace.toList := by
  intro text r s
  let model : Crc.Model := .masked 8 (by decide) 0x07 0 false false 0
  let e : Entry := ⟨"CRC-8/SMBUS", model, 0xf4, "packet error code"⟩
  let sources : Sources := ⟨.ofRegistry Named.streaming .builtin, ⟨[e]⟩⟩
  have hc : Catalogue.read text = .ok sources.catalogue := by decide
  have h : Searchable r.width := by decide
  let m : Match := (Candidate.ofEntry e).found
  have hl : (find sources 0 r s .catalogue).1 = .ok ⟨1, 1, [m], false⟩ := by decide +kernel
  have conventional : Conventional e.model := ⟨rfl, by decide, by decide⟩
  obtain ⟨found, id, description, covers⟩ := bruteForce_covers_lookup hc h hl
    List.mem_cons_self (e := e) List.mem_cons_self rfl conventional
  have run := finds_find sources 1 r s .bruteForce
  obtain ⟨⟨events, trace, reported⟩, -⟩ :=
    covers 1 1 Nat.one_pos s _ _ run (.inl (Session.calm_start ..))
  have modelText : "crc:" ++ e.model.text = "crc:8,07,00,false,false,00" := by decide
  refine ⟨sources, _, m, _, _, hc, h, hl, List.mem_cons_self, rfl, run, found, ?_, ?_, ?_⟩
  · rw [id, modelText]
  · rw [description, id, modelText]
    decide
  · rw [trace]
    exact List.mem_append_right _ reported

end DigestFinder.Search
