import DigestFinder.Proofs.Algorithm
import DigestFinder.Proofs.Registry
import DigestFinder.Proofs.Text.ByteOrder

/-!
What a registry answers. Main statement: whatever is inserted into the built-in registry in whatever
order, under names that may be taken already, each name is listed and stands for what was inserted
under it last; a name under which there is nothing stands for a published model or for the model
that it writes.
-/

namespace DigestFinder

universe u

namespace Registry

variable {δ : Type u}

/-- What a name stands for after insertions: what was inserted last, else the entry of a catalogue
in any letter case, else the model that it writes behind `crc:`. -/
inductive Resolves (calls : List (Insertion δ)) (c : Catalogue) (id : String) :
    Except DigestError (Factory δ) → Prop
  | listed {i} : Insertion.Latest calls i → i.id = id →
      Resolves calls c id (.ok i.listing.factory)
  | entry {e} : (∀ i ∈ calls, i.id ≠ id) → e ∈ c.entries → Text.Recased id e.id →
      Resolves calls c id (.ok (.crc e.model))
  | model {lead m} : (∀ i ∈ calls, i.id ≠ id) → (∀ e ∈ c.entries, ¬ Text.Recased id e.id) →
      lead ∈ ["crc:", "CRC:"] → lead.toList <+: id.toList → Crc.Model.Writes .signed id m →
      Resolves calls c id (.ok (.crc m))
  | rejected {lead cause} : (∀ i ∈ calls, i.id ≠ id) →
      (∀ e ∈ c.entries, ¬ Text.Recased id e.id) → lead ∈ ["crc:", "CRC:"] →
      lead.toList <+: id.toList → Crc.Model.read id = .error cause →
      Resolves calls c id (.error (.crc cause))
  | unknown : (∀ i ∈ calls, i.id ≠ id) → (∀ e ∈ c.entries, ¬ Text.Recased id e.id) →
      (∀ lead ∈ ["crc:", "CRC:"], ¬ lead.toList <+: id.toList) →
      Resolves calls c id (.error (.unknown id))

section Resolves

variable {calls : List (Insertion δ)} {id : String} {x : Except DigestError (Factory δ)}

theorem isPrefixOf_iff :
    ("crc:".toList.isPrefixOf id.toList || "CRC:".toList.isPrefixOf id.toList) = true ↔
      ∃ lead ∈ ["crc:", "CRC:"], lead.toList <+: id.toList := by
  simp only [Bool.or_eq_true, List.isPrefixOf_iff_prefix, List.mem_cons, List.not_mem_nil,
    or_false, exists_eq_or_imp, exists_eq_left]

theorem resolve_of_resolves (h : Resolves calls .published id x) :
    (calls.foldl perform ⟨.empty, .published⟩).resolve id = x := by
  have catalogue : (calls.foldl perform ⟨.empty, .published⟩).catalogue = .published :=
    catalogue_foldl_perform calls _
  cases h with
  | listed latest hi => rw [resolve, find?_foldl_perform.mpr ⟨_, latest, hi, rfl⟩]
  | entry unlisted he same =>
    rw [resolve, find?_eq_none_of_unlisted unlisted, catalogue,
      Catalogue.get?_of_published he same]
  | model unlisted other hl behind written =>
    rw [resolve, find?_eq_none_of_unlisted unlisted, catalogue,
      Catalogue.get?_eq_none_iff.mpr other, if_pos (isPrefixOf_iff.mpr ⟨_, hl, behind⟩),
      Crc.Model.read_eq_ok_iff.mpr written]
  | rejected unlisted other hl behind refused =>
    rw [resolve, find?_eq_none_of_unlisted unlisted, catalogue,
      Catalogue.get?_eq_none_iff.mpr other, if_pos (isPrefixOf_iff.mpr ⟨_, hl, behind⟩), refused]
  | unknown unlisted other bare =>
    have plain : ¬ ∃ lead ∈ ["crc:", "CRC:"], lead.toList <+: id.toList := by
      rintro ⟨lead, hl, behind⟩
      exact bare lead hl behind
    rw [resolve, find?_eq_none_of_unlisted unlisted, catalogue,
      Catalogue.get?_eq_none_iff.mpr other, if_neg (mt isPrefixOf_iff.mp plain)]

/-- Every name stands for something. -/
theorem exists_resolves (calls : List (Insertion δ)) (c : Catalogue) (id : String) :
    ∃ x, Resolves calls c id x := by
  by_cases listed : ∃ i ∈ calls, i.id = id
  · obtain ⟨i, hi, rfl⟩ := listed
    obtain ⟨k, latest, hk⟩ := Insertion.exists_latest hi
    exact ⟨_, .listed latest hk⟩
  have unlisted : ∀ i ∈ calls, i.id ≠ id := fun i hi same => listed ⟨i, hi, same⟩
  by_cases known : ∃ e ∈ c.entries, Text.Recased id e.id
  · obtain ⟨e, he, same⟩ := known
    exact ⟨_, .entry unlisted he same⟩
  have other : ∀ e ∈ c.entries, ¬ Text.Recased id e.id := fun e he same => known ⟨e, he, same⟩
  by_cases behind : ∃ lead ∈ ["crc:", "CRC:"], lead.toList <+: id.toList
  · obtain ⟨lead, hl, behind⟩ := behind
    cases hm : Crc.Model.read id with
    | ok m => exact ⟨_, .model unlisted other hl behind (Crc.Model.read_eq_ok_iff.mp hm)⟩
    | error cause => exact ⟨_, .rejected unlisted other hl behind hm⟩
  · exact ⟨_, .unknown unlisted other fun lead hl h => behind ⟨lead, hl, h⟩⟩

theorem resolve_eq_iff : (calls.foldl perform ⟨.empty, .published⟩).resolve id = x ↔
    Resolves calls .published id x := by
  refine ⟨?_, resolve_of_resolves⟩
  rintro rfl
  obtain ⟨y, h⟩ := exists_resolves calls .published id
  exact (resolve_of_resolves h).symm ▸ h

end Resolves

theorem mem_list_some {r : Registry δ} {bits : Nat} {id description : String} :
    (id, description) ∈ (r.list (some bits)).entries ↔
      ∃ l, (id, l) ∈ r.listings.entries ∧ l.bits = bits ∧ l.description = description := by
  simp only [mem_list, Option.all_some, beq_iff_eq]

theorem mem_list_none {r : Registry δ} {id description : String} :
    (id, description) ∈ (r.list none).entries ↔
      ∃ l, (id, l) ∈ r.listings.entries ∧ l.description = description := by
  simp only [mem_list, Option.all_none, true_and]

section Lists

variable (r : Registry δ)

/-- Everything is listed under some width. -/
theorem mem_list_none_iff (e : String × String) :
    e ∈ (r.list none).entries ↔ ∃ bits, e ∈ (r.list (some bits)).entries := by
  obtain ⟨id, description⟩ := e
  simp only [mem_list_some, mem_list_none]
  constructor
  · rintro ⟨l, hl, hd⟩
    exact ⟨l.bits, l, hl, rfl, hd⟩
  · rintro ⟨_, l, hl, -, hd⟩
    exact ⟨l, hl, hd⟩

/-- Nothing is listed under two widths. -/
theorem disjoint_list {bits bits' : Nat} (differ : bits ≠ bits') : List.Disjoint
    ((r.list (some bits)).entries.map (·.1)) ((r.list (some bits')).entries.map (·.1)) := by
  intro id h h'
  obtain ⟨⟨_, description⟩, he, rfl⟩ := List.mem_map.mp h
  obtain ⟨⟨_, description'⟩, he', same⟩ := List.mem_map.mp h'
  obtain ⟨l, hl, hb, -⟩ := mem_list_some.mp he
  obtain ⟨l', hl', hb', -⟩ := mem_list_some.mp he'
  dsimp only at same hl
  rw [same] at hl'
  have one : l = l' :=
    Option.some.inj ((IdMap.find?_of_mem hl).symm.trans (IdMap.find?_of_mem hl'))
  exact differ (hb.symm.trans ((congrArg Listing.bits one).trans hb'))

theorem length_list_none : (r.list none).entries.length = r.size := by
  simp [list, IdMap.map, IdMap.filter, size, IdMap.size]

theorem ordered_list (bits : Option Nat) :
    (r.list bits).entries.Pairwise fun e e' => Bytes.ofText e.1 < Bytes.ofText e'.1 :=
  (r.list bits).sorted.imp Bytes.ofText_lt_iff.mpr

end Lists

theorem mem_list_foldl_perform (calls : List (Insertion δ)) (c : Catalogue) (bits : Nat)
    (id description : String) :
    (id, description) ∈ ((calls.foldl perform ⟨.empty, c⟩).list (some bits)).entries ↔
      ∃ i, Insertion.Latest calls i ∧ i.id = id ∧ i.listing.bits = bits ∧
        i.listing.description = description := by
  rw [mem_list_some]
  simp only [mem_listings_foldl_perform]
  constructor
  · rintro ⟨_, ⟨i, latest, hi, rfl⟩, hb, hd⟩
    exact ⟨i, latest, hi, hb, hd⟩
  · rintro ⟨i, latest, hi, hb, hd⟩
    exact ⟨_, ⟨i, latest, hi, rfl⟩, hb, hd⟩

/-- What a registry answers after calls: its lists have what was inserted last under each name, each
under one width and in the order of the bytes of the names; a name gives a new digest of that, as it
is made from what was inserted, and a CRC has the width that it is listed under. -/
structure Answers (make : δ → Streaming) (r : Registry δ) (calls : List (Insertion δ)) : Prop where
  mem_list_width : ∀ bits id description, (id, description) ∈ (r.list (some bits)).entries ↔
    ∃ i, Insertion.Latest calls i ∧ i.id = id ∧ i.listing.bits = bits ∧
      i.listing.description = description
  mem_list_all : ∀ e, e ∈ (r.list none).entries ↔ ∃ bits, e ∈ (r.list (some bits)).entries
  disjoint : ∀ bits bits', bits ≠ bits' → List.Disjoint
    ((r.list (some bits)).entries.map (·.1)) ((r.list (some bits')).entries.map (·.1))
  length_list : (r.list none).entries.length = r.size
  size_eq : r.size = (calls.map Insertion.id).dedup.length
  ordered : ∀ bits, (r.list bits).entries.Pairwise fun e e' => Bytes.ofText e.1 < Bytes.ofText e'.1
  instantiate : ∀ i, Insertion.Latest calls i →
    r.instantiate make i.id = .ok (i.listing.factory.streaming make)
  crc : ∀ id description model, Insertion.Latest calls (.crc id description model) →
    ∀ bits, id ∈ (r.list (some bits)).entries.map (·.1) → ∃ s, r.instantiate make id = .ok s ∧
      s.bits = bits ∧ ∀ state, (s.result state).length = (bits + 7) / 8
  resolve_eq_iff : ∀ id x, r.resolve id = x ↔ Resolves calls .published id x

theorem answers_foldl_perform (make : δ → Streaming) (calls : List (Insertion δ)) :
    Answers make (calls.foldl perform ⟨.empty, .published⟩) calls where
  mem_list_width := mem_list_foldl_perform calls .published
  mem_list_all := mem_list_none_iff _
  disjoint _ _ := disjoint_list _
  length_list := length_list_none _
  size_eq := size_foldl_perform
  ordered := ordered_list _
  instantiate i latest := by
    exact congrArg (Except.map (Factory.streaming make)) (resolve_of_resolves (.listed latest rfl))
  crc id description model latest bits h := by
    obtain ⟨⟨_, shown⟩, he, rfl⟩ := List.mem_map.mp h
    obtain ⟨i, latest', hi, rfl, -⟩ := (mem_list_foldl_perform calls .published _ _ _).mp he
    obtain rfl := latest'.unique latest hi
    have resolved := resolve_of_resolves (.listed latest rfl)
    refine ⟨model.streaming, ?_, rfl, fun e => Crc.length_toBytes _ _⟩
    exact congrArg (Except.map (Factory.streaming make)) resolved
  resolve_eq_iff _ _ := resolve_eq_iff

/-- Whatever is inserted into the built-in registry, its answers are those to all calls that made
it, the latest for each name. What makes the digests, of the built-in algorithms and of those that
are inserted, may be of any kind. -/
theorem answers_after_insertions (make : δ → Streaming) (kinds : Named → δ)
    (history : List (Insertion δ)) :
    Answers make (history.foldl perform (builtinOf kinds)) (shipped kinds ++ history) := by
  rw [builtinOf_eq, ← List.foldl_append]
  exact answers_foldl_perform make _

/-- The number of bytes as a digest. -/
def countStreaming : Streaming := .ofFunction (fun data => [data.length.toUInt8]) 8 1

/-- The name of a published model, inserted under twice, the second time with a digest that is not
among those that are built in. -/
theorem answers_after_repeated_name : ∃ history : List (Insertion Streaming),
    history.map Insertion.id = ["CRC-16/ARC", "CRC-16/ARC"] ∧
      Answers id (history.foldl perform (builtinOf Named.streaming))
        (shipped Named.streaming ++ history) ∧
      ("CRC-16/ARC", "count") ∈
        ((history.foldl perform (builtinOf Named.streaming)).list (some 8)).entries ∧
      (history.foldl perform (builtinOf Named.streaming)).instantiate id "CRC-16/ARC" =
        .ok countStreaming := by
  let model : Crc.Model := .masked 16 (by decide) 0x8005 0 true true 0
  let history : List (Insertion Streaming) := [.crc "CRC-16/ARC" "" model,
    .other "CRC-16/ARC" "count" 8 countStreaming]
  have answers := answers_after_insertions id Named.streaming history
  have latest : Insertion.Latest (shipped Named.streaming ++ history)
      (.other "CRC-16/ARC" "count" 8 countStreaming) :=
    ⟨shipped Named.streaming ++ [.crc "CRC-16/ARC" "" model], [], by simp [history], by simp⟩
  exact ⟨history, rfl, answers, (answers.mem_list_width _ _ _).mpr ⟨_, latest, rfl, rfl, rfl⟩,
    answers.instantiate _ latest⟩

end Registry

end DigestFinder
