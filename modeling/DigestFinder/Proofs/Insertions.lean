import Mathlib.Data.List.Dedup
import Mathlib.Data.List.Induction
import DigestFinder.Registry

/-!
Registries as what insertions make of them. A name may be inserted under more than once; it is the
last time that counts. Main statement: what is listed is what was inserted last.
-/

namespace DigestFinder

universe u

/-- A call that lists a CRC, or whatever makes a digest under a description and a width. -/
inductive Insertion (δ : Type u)
  | crc (id description : String) (model : Crc.Model)
  | other (id description : String) (bits : Nat) (kind : δ)

namespace Insertion

variable {δ : Type u}

def id : Insertion δ → String
  | crc id _ _ => id
  | other id _ _ _ => id

def listing : Insertion δ → Listing δ
  | crc _ description model => ⟨description, model.width, .crc model⟩
  | other _ description bits kind => ⟨description, bits, .named kind⟩

/-- A published model under a short name. -/
def alias? (names : String × String) : Option (Insertion δ) :=
  (Catalogue.published.get? names.2).map fun e =>
    .crc names.1 s!"{e.id} ({e.description})" e.model

/-- An algorithm without parameters, as what stands for it. -/
def native (kinds : Named → δ) (n : String × String × Nat × Named) : Insertion δ :=
  .other n.1 n.2.1 n.2.2.1 (kinds n.2.2.2)

/-- A call after which there is none for the same name. -/
def Latest (calls : List (Insertion δ)) (i : Insertion δ) : Prop :=
  ∃ earlier later, calls = earlier ++ i :: later ∧ ∀ j ∈ later, j.id ≠ i.id

variable {calls : List (Insertion δ)} {i j : Insertion δ}

theorem Latest.mem (h : Latest calls i) : i ∈ calls := by
  obtain ⟨earlier, later, rfl, -⟩ := h
  simp

/-- One more call is the latest for its name, and changes nothing for the others. -/
theorem latest_concat_iff : Latest (calls ++ [j]) i ↔ i = j ∨ Latest calls i ∧ j.id ≠ i.id := by
  constructor
  · rintro ⟨earlier, later, split, absent⟩
    rcases List.eq_nil_or_concat later with rfl | ⟨later, last, rfl⟩
    · obtain ⟨-, last⟩ := List.append_inj' split rfl
      exact .inl (List.singleton_inj.mp last).symm
    · rw [List.concat_eq_append] at split absent
      rw [← List.cons_append, ← List.append_assoc] at split
      obtain ⟨rfl, same⟩ := List.append_inj' split rfl
      obtain rfl := List.singleton_inj.mp same
      refine .inr ⟨⟨earlier, later, rfl, ?_⟩, ?_⟩
      · exact fun k hk => absent k (List.mem_append_left _ hk)
      · exact absent j (List.mem_append_right _ List.mem_cons_self)
  · rintro (rfl | ⟨⟨earlier, later, rfl, absent⟩, other⟩)
    · exact ⟨calls, [], rfl, by simp⟩
    · refine ⟨earlier, later ++ [j], by simp, ?_⟩
      intro k hk
      rcases List.mem_append.mp hk with hk | hk
      · exact absent k hk
      · exact List.mem_singleton.mp hk ▸ other

/-- Among the calls for a name one is the latest. -/
theorem exists_latest (h : i ∈ calls) : ∃ k, Latest calls k ∧ k.id = i.id := by
  induction calls using List.reverseRecOn with
  | nil => cases h
  | append_singleton calls j ih =>
    by_cases same : j.id = i.id
    · exact ⟨j, latest_concat_iff.mpr (.inl rfl), same⟩
    · have earlier : i ∈ calls := by
        rcases List.mem_append.mp h with h | h
        · exact h
        · exact absurd (congrArg id (List.mem_singleton.mp h)).symm same
      obtain ⟨k, latest, hk⟩ := ih earlier
      exact ⟨k, latest_concat_iff.mpr (.inr ⟨latest, hk ▸ same⟩), hk⟩

theorem Latest.unique (hi : Latest calls i) (hj : Latest calls j) (h : i.id = j.id) : i = j := by
  induction calls using List.reverseRecOn with
  | nil => exact absurd hi.mem (by simp)
  | append_singleton calls k ih =>
    rcases latest_concat_iff.mp hi with rfl | ⟨hi, hki⟩ <;>
      rcases latest_concat_iff.mp hj with rfl | ⟨hj, hkj⟩
    · rfl
    · exact absurd h hkj
    · exact absurd h.symm hki
    · exact ih hi hj

end Insertion

namespace IdMap

variable {α : Type u}

theorem find?_eq_none {m : IdMap α} {id : String} (h : ∀ e ∈ m.entries, e.1 ≠ id) :
    m.find? id = none := by
  simpa [find?] using h

/-- An identifier is found with the value that it has. -/
theorem find?_of_mem {m : IdMap α} {id : String} {v : α} (h : (id, v) ∈ m.entries) :
    m.find? id = some v := by
  have first {es : List (String × α)} (sorted : es.Pairwise (·.1 < ·.1)) (h : (id, v) ∈ es) :
      es.find? (·.1 == id) = some (id, v) := by
    induction es with
    | nil => cases h
    | cons head rest ih =>
      obtain ⟨above, tail⟩ := List.pairwise_cons.mp sorted
      rcases List.mem_cons.mp h with rfl | h
      · simp
      · have hne : head.1 ≠ id := fun he => String.lt_irrefl _ (he ▸ above _ h)
        simp [hne, ih tail h]
  rw [find?, first m.sorted h]
  rfl

/-- After an insertion an identifier is found with the new value, all others as before. -/
theorem find?_insert (m : IdMap α) (id key : String) (v : α) :
    (m.insert id v).find? key = if id = key then some v else m.find? key := by
  have list (es : List (String × α)) : ((put id v es).find? (·.1 == key)).map (·.2) =
      if id = key then some v else (es.find? (·.1 == key)).map (·.2) := by
    induction es with
    | nil => by_cases hk : id = key <;> simp [put, hk]
    | cons head rest ih =>
      simp only [put]
      split
      · by_cases hk : id = key <;> simp [hk]
      · split
        · next same => by_cases hk : id = key <;> simp [hk, ← same]
        · next other =>
          by_cases hh : head.1 = key
          · have hk : id ≠ key := fun hk => other (hk.trans hh.symm)
            simp [hh, hk]
          · simp [hh, ih]
  exact list m.entries

theorem mem_entries_iff {m : IdMap α} {id : String} {v : α} :
    (id, v) ∈ m.entries ↔ m.find? id = some v := by
  refine ⟨find?_of_mem, fun h => ?_⟩
  rw [find?, Option.map_eq_some_iff] at h
  obtain ⟨e, he, rfl⟩ := h
  have same : e.1 = id := by simpa using List.find?_some he
  exact same ▸ List.mem_of_find?_eq_some he

theorem nodup_ids (m : IdMap α) : (m.entries.map (·.1)).Nodup :=
  List.pairwise_map.mpr (m.sorted.imp fun h => String.ne_of_lt h)

end IdMap

namespace Registry

variable {δ : Type u}

def perform (r : Registry δ) : Insertion δ → Registry δ
  | .crc id description model => r.insertCrc id description model
  | .other id description bits kind => r.insert id description bits kind

theorem perform_eq (r : Registry δ) (i : Insertion δ) :
    r.perform i = { r with listings := r.listings.insert i.id i.listing } := by
  cases i <;> rfl

theorem catalogue_foldl_perform (calls : List (Insertion δ)) (r : Registry δ) :
    (calls.foldl perform r).catalogue = r.catalogue := by
  induction calls generalizing r with
  | nil => rfl
  | cons i calls ih => rw [List.foldl_cons, ih, perform_eq]

/-- What is listed is what was inserted last. -/
theorem find?_foldl_perform {calls : List (Insertion δ)} {c : Catalogue} {id : String}
    {l : Listing δ} :
    (calls.foldl perform ⟨.empty, c⟩).listings.find? id = some l ↔
      ∃ i, Insertion.Latest calls i ∧ i.id = id ∧ i.listing = l := by
  induction calls using List.reverseRecOn with
  | nil =>
    refine iff_of_false (by simp [IdMap.find?, IdMap.empty]) ?_
    rintro ⟨i, latest, -⟩
    exact absurd latest.mem (by simp)
  | append_singleton calls j ih =>
    rw [List.foldl_append, List.foldl_cons, List.foldl_nil, perform_eq]
    dsimp only
    rw [IdMap.find?_insert]
    simp only [Insertion.latest_concat_iff]
    split
    · next same =>
      constructor
      · intro h
        exact ⟨j, .inl rfl, same, Option.some.inj h⟩
      · rintro ⟨i, rfl | ⟨latest, other⟩, hi, rfl⟩
        · rfl
        · exact absurd (same.trans hi.symm) other
    · next other =>
      rw [ih]
      constructor
      · rintro ⟨i, latest, hi, hl⟩
        exact ⟨i, .inr ⟨latest, hi ▸ other⟩, hi, hl⟩
      · rintro ⟨i, rfl | ⟨latest, -⟩, hi, hl⟩
        · exact absurd hi other
        · exact ⟨i, latest, hi, hl⟩

section Calls

variable {calls : List (Insertion δ)} {c : Catalogue}

theorem mem_listings_foldl_perform {id : String} {l : Listing δ} :
    (id, l) ∈ (calls.foldl perform ⟨.empty, c⟩).listings.entries ↔
      ∃ i, Insertion.Latest calls i ∧ i.id = id ∧ i.listing = l :=
  IdMap.mem_entries_iff.trans find?_foldl_perform

theorem find?_eq_none_of_unlisted {id : String} (h : ∀ i ∈ calls, i.id ≠ id) :
    (calls.foldl perform ⟨.empty, c⟩).listings.find? id = none := by
  rw [Option.eq_none_iff_forall_ne_some]
  intro l found
  obtain ⟨i, latest, hi, -⟩ := find?_foldl_perform.mp found
  exact h i latest.mem hi

/-- There are as many listings as there are names. -/
theorem size_foldl_perform :
    (calls.foldl perform ⟨.empty, c⟩).size = (calls.map Insertion.id).dedup.length := by
  let r : Registry δ := calls.foldl perform ⟨.empty, c⟩
  have same (id : String) :
      id ∈ r.listings.entries.map (·.1) ↔ id ∈ (calls.map Insertion.id).dedup := by
    rw [List.mem_dedup, List.mem_map, List.mem_map]
    constructor
    · rintro ⟨⟨_, l⟩, he, rfl⟩
      obtain ⟨i, latest, hi, -⟩ := mem_listings_foldl_perform.mp he
      exact ⟨i, latest.mem, hi⟩
    · rintro ⟨i, hi, rfl⟩
      obtain ⟨k, latest, hk⟩ := Insertion.exists_latest hi
      exact ⟨(i.id, k.listing), mem_listings_foldl_perform.mpr ⟨k, latest, hk, rfl⟩, rfl⟩
  have names := (List.perm_ext_iff_of_nodup r.listings.nodup_ids (List.nodup_dedup _)).mpr same
  rw [size, IdMap.size, ← names.length_eq, List.length_map]

end Calls

section Builtin

variable (kinds : Named → δ)

/-- The calls that make the built-in registry. -/
def shipped : List (Insertion δ) :=
  aliases.filterMap Insertion.alias? ++ natives.map (Insertion.native kinds)

theorem foldl_insertAlias_eq (names : List (String × String)) {r : Registry δ}
    (h : r.catalogue = .published) :
    names.foldl insertAlias r = (names.filterMap Insertion.alias?).foldl perform r := by
  induction names generalizing r with
  | nil => rfl
  | cons n names ih =>
    rw [List.foldl_cons, List.filterMap_cons, insertAlias, h, Insertion.alias?]
    cases Catalogue.published.get? n.2 with
    | none => exact ih h
    | some e => exact ih (r := r.insertCrc n.1 s!"{e.id} ({e.description})" e.model) h

theorem builtinOf_eq : builtinOf kinds = (shipped kinds).foldl perform ⟨.empty, .published⟩ := by
  rw [builtinOf, foldl_insertAlias_eq aliases rfl, shipped, List.foldl_append, List.foldl_map]
  rfl

/-- What holds of the published models under their short names, and of the algorithms without
parameters, holds of everything that the built-in registry lists. -/
theorem forall_mem_builtinOf {P : String × Listing δ → Prop}
    (short : ∀ n ∈ aliases, ∀ e, Catalogue.published.get? n.2 = some e →
      P (n.1, ⟨s!"{e.id} ({e.description})", e.model.width, .crc e.model⟩))
    (native : ∀ n ∈ natives, P (n.1, ⟨n.2.1, n.2.2.1, .named (kinds n.2.2.2)⟩)) :
    ∀ e ∈ (builtinOf kinds).listings.entries, P e := by
  rintro ⟨id, l⟩ he
  rw [builtinOf_eq] at he
  obtain ⟨i, latest, rfl, rfl⟩ := mem_listings_foldl_perform.mp he
  rcases List.mem_append.mp latest.mem with h | h
  · obtain ⟨n, hn, h⟩ := List.mem_filterMap.mp h
    obtain ⟨e, known, rfl⟩ := Option.map_eq_some_iff.mp h
    exact short n hn e known
  · obtain ⟨n, hn, rfl⟩ := List.mem_map.mp h
    exact native n hn

end Builtin

end Registry

end DigestFinder
