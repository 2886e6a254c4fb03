import DigestFinder.Proofs.Catalogue
import DigestFinder.Proofs.Crc.Simulation
import DigestFinder.Proofs.Insertions

/-!
What a name stands for. Listed names, catalogue names and the texts of models do not shadow one
another, so that each of them is resolved as what it is.
-/

namespace DigestFinder

universe u

namespace Registry

theorem catalogue_builtin : builtin.catalogue = .published := by
  rw [builtin, builtinOf_eq, catalogue_foldl_perform]

/-- An algorithm without parameters is resolved under its name. -/
theorem resolve_of_native {n : String × String × Nat × Named} (h : n ∈ natives) :
    builtin.resolve n.1 = .ok (.named n.2.2.2) := by
  have distinct : (natives.map (·.1)).Nodup := by decide
  obtain ⟨earlier, later, split⟩ := List.append_of_mem h
  have latest : Insertion.Latest (shipped id) (.native id n) := by
    refine ⟨aliases.filterMap Insertion.alias? ++ earlier.map (Insertion.native id),
      later.map (Insertion.native id), ?_, ?_⟩
    · rw [shipped, split, List.map_append, List.map_cons, List.append_assoc]
    · intro i hi same
      obtain ⟨n', hn, rfl⟩ := List.mem_map.mp hi
      rw [split, List.map_append, List.map_cons] at distinct
      have fresh := (List.nodup_cons.mp (List.nodup_append.mp distinct).2.1).1
      exact fresh (List.mem_map.mpr ⟨n', hn, same⟩)
  have found : ((shipped id).foldl perform ⟨.empty, .published⟩).listings.find? n.1 =
      some ⟨n.2.1, n.2.2.1, .named n.2.2.2⟩ :=
    find?_foldl_perform.mpr ⟨_, latest, rfl, rfl⟩
  rw [builtin, builtinOf_eq, resolve, found]

theorem length_listings_le :
    builtin.listings.entries.length ≤ aliases.length + natives.length := by
  have size : builtin.listings.entries.length = ((shipped id).map Insertion.id).dedup.length := by
    rw [builtin, builtinOf_eq, ← size_foldl_perform (c := .published)]
    rfl
  calc
    builtin.listings.entries.length ≤ ((shipped id).map Insertion.id).length :=
      size.trans_le (List.dedup_sublist _).length_le
    _ = (aliases.filterMap Insertion.alias? : List (Insertion Named)).length + natives.length := by
      rw [List.length_map, shipped, List.length_append, List.length_map]
    _ ≤ aliases.length + natives.length :=
      Nat.add_le_add_right (List.length_filterMap_le _ _) _

/-- Listed names have small letters, catalogue names start with a capital. -/
theorem small_of_listed {e : String × Listing Named} (h : e ∈ builtin.listings.entries) :
    e.1.toList.head?.any Char.isLower ∧ ':' ∉ e.1.toList := by
  have short : ∀ names ∈ aliases,
      names.1.toList.head?.any Char.isLower ∧ ':' ∉ names.1.toList := by
    decide
  have native : ∀ n ∈ natives, n.1.toList.head?.any Char.isLower ∧ ':' ∉ n.1.toList := by
    decide
  exact forall_mem_builtinOf id (P := fun e => e.1.toList.head?.any Char.isLower ∧ ':' ∉ e.1.toList)
    (fun n hn _ _ => short n hn) native e h

/-- The built-in registry lists each algorithm under the width of its digest. -/
theorem bits_of_listed {e : String × Listing Named} (h : e ∈ builtin.listings.entries) :
    e.2.bits = (e.2.factory.streaming Named.streaming).bits := by
  have native : ∀ n ∈ natives, n.2.2.1 = n.2.2.2.streaming.bits := by
    decide
  exact forall_mem_builtinOf id
    (P := fun e => e.2.bits = (e.2.factory.streaming Named.streaming).bits)
    (fun _ _ _ _ => rfl) native e h

end Registry

namespace Catalogue

theorem capital_of_published :
    ∀ e ∈ published.entries, e.id.toList.head?.any Char.isUpper ∧ ':' ∉ e.id.toList := by
  decide +kernel

/-- A name in any letter case, as a number. -/
def letterKey (id : String) : Nat :=
  (id.toList.map Char.toLower).foldl (fun n c => n * 256 + c.toNat) 0

/-- The names of published models differ in more than the case of their letters. -/
theorem distinct_published :
    published.entries.Pairwise fun e e' => ¬ Text.Recased e.id e'.id := by
  have distinct : (published.entries.map fun e => letterKey e.id).Nodup := by
    decide +kernel
  refine (List.pairwise_map.mp distinct).imp fun differ same => differ ?_
  rw [letterKey, letterKey, Text.recased_iff.mp same]

/-- A published model is found by its name in any letter case. -/
theorem get?_of_published {e : Entry} (h : e ∈ published.entries) {id : String}
    (same : Text.Recased id e.id) : published.get? id = some e :=
  get?_of_recased distinct_published h same

/-- The text of a model is no name of a published one. -/
theorem get?_of_colon {id : String} (h : ':' ∈ id.toList) : published.get? id = none := by
  have small {c : Char} (hc : c.toLower = ':') : c = ':' := by
    by_cases hn : c.toNat < 65 ∨ 90 < c.toNat
    · rwa [Text.toLower_of_toNat hn] at hc
    · have all : ∀ n ≤ 90, 65 ≤ n → (Char.ofNat n).toLower ≠ ':' := by decide
      have hl := all c.toNat (by omega) (by omega)
      rw [Char.ofNat_toNat] at hl
      exact absurd hc hl
  refine get?_eq_none_iff.mpr fun e he same => ?_
  have hm : ':' ∈ e.id.toList.map Char.toLower := by
    rw [← Text.recased_iff.mp same]
    exact List.mem_map.mpr ⟨':', h, rfl⟩
  obtain ⟨c, hc, hcl⟩ := List.mem_map.mp hm
  exact (capital_of_published e he).2 (small hcl ▸ hc)

end Catalogue

namespace Registry

variable {δ : Type u}

/-- A published model is resolved under its name. -/
theorem resolve_of_published {e : Entry} (h : e ∈ Catalogue.published.entries) :
    builtin.resolve e.id = .ok (.crc e.model) := by
  have hn : builtin.listings.find? e.id = none := by
    refine IdMap.find?_eq_none fun f hf he => ?_
    have small := (small_of_listed hf).1
    have capital := (Catalogue.capital_of_published e h).1
    rw [he] at small
    cases hc : e.id.toList.head? with
    | none => simp [hc] at small
    | some c =>
      rw [hc, Option.any_some, Text.isLower_iff] at small
      rw [hc, Option.any_some, Text.isUpper_iff] at capital
      omega
  rw [resolve, hn, catalogue_builtin, Catalogue.get?_of_published h (Text.Recased.refl e.id)]

/-- What is listed is resolved as listed. -/
theorem resolve_of_listed {r : Registry δ} {id : String} {l : Listing δ}
    (h : (id, l) ∈ r.listings.entries) : r.resolve id = .ok l.factory := by
  rw [resolve, IdMap.find?_of_mem h]

theorem length_list_le (r : Registry δ) (bits : Option Nat) :
    (r.list bits).entries.length ≤ r.listings.entries.length := by
  simpa [list, IdMap.map, IdMap.filter] using List.length_filter_le ..

theorem mem_list {r : Registry δ} {bits : Option Nat} {id description : String} :
    (id, description) ∈ (r.list bits).entries ↔ ∃ l, (id, l) ∈ r.listings.entries ∧
      bits.all (l.bits == ·) = true ∧ l.description = description := by
  simp [list, IdMap.map, IdMap.filter, and_assoc]

/-- The text of a model is resolved as that model. -/
theorem resolve_text (m : Crc.Model) : builtin.resolve ("crc:" ++ m.text) = .ok (.crc m) := by
  have colon : ':' ∈ ("crc:" ++ m.text).toList := by
    rw [String.toList_append]
    exact List.mem_append_left _ (by decide)
  have hn : builtin.listings.find? ("crc:" ++ m.text) = none :=
    IdMap.find?_eq_none fun f hf he => (small_of_listed hf).2 (he ▸ colon)
  have hp : "crc:".toList.isPrefixOf ("crc:" ++ m.text).toList = true := by
    rw [String.toList_append, List.isPrefixOf_iff_prefix]
    exact List.prefix_append ..
  rw [resolve, hn, catalogue_builtin, Catalogue.get?_of_colon colon, hp,
    Crc.Model.read_prefixed_text]
  rfl

end Registry

end DigestFinder
