import DigestFinder.Proofs.Crc.ModelText
import DigestFinder.Proofs.Search.Counting
import DigestFinder.Proofs.Text.ByteOrder
import DigestFinder.Proofs.Text.FieldOrder

/-!
The identifiers under which brute force reports its matches. All values of a width have the same
number of digits and `false` comes before `true`, so that identifiers have the order of the
parameters, and what brute force keeps is in ascending order as text, too.
-/

namespace DigestFinder

namespace Crc.Model

theorem wordText_lt {width : Nat} (valid : ValidWidth width) {v u : UInt64}
    (hv : v ≤ Crc.mask width) (hu : u ≤ Crc.mask width) (h : v < u) :
    (wordText width v).toList < (wordText width u).toList := by
  rw [wordText, wordText, toList_hexText, toList_hexText]
  apply Text.Hex.encode_lt_encode
  apply Bytes.lt_of_toNat_lt
  · rw [length_toBytes, length_toBytes]
  · rwa [toNat_toBytes valid hv, toNat_toBytes valid hu, ← UInt64.lt_iff_toNat_lt]

theorem apart_wordText (width : Nat) (v u : UInt64) :
    Text.Apart (wordText width v).toList (wordText width u).toList := by
  apply Text.apart_of_length_eq
  rw [wordText, wordText, toList_hexText, toList_hexText, Text.Hex.length_encode,
    Text.Hex.length_encode, length_toBytes, length_toBytes]

theorem boolText_lt {b c : Bool} (h : b < c) : (boolText b).toList < (boolText c).toList := by
  obtain ⟨rfl, rfl⟩ := Bool.lt_iff.mp h
  decide

theorem apart_boolText (b c : Bool) : Text.Apart (boolText b).toList (boolText c).toList := by
  have all : ∀ b c : Bool, (boolText b).toList <+: (boolText c).toList → b = c := by
    decide
  rintro (begins | begins)
  · rw [all b c begins]
  · rw [all c b begins]

end Crc.Model

namespace Search

/-- The identifier of a match with these parameters. -/
def Params.id (p : Params) (width : Nat) (valid : Crc.ValidWidth width) : String :=
  (Match.parameters (p.model width valid)).id

section

variable {width : Nat} (valid : Crc.ValidWidth width) {p q : Params}

theorem Params.toList_id (p : Params) :
    (p.id width valid).toList =
      "crc:".toList ++ [','].intercalate (p.model width valid).fields := by
  rw [id, Match.id, String.toList_append, Crc.Model.toList_text]

/-- The parameters of a trial fit its width as they are. -/
theorem fields_model (hp : p ∈ trials width) : (p.model width valid).fields =
    [(toString width).toList, (Crc.Model.wordText width p.poly).toList,
      (Crc.Model.wordText width p.init).toList, (Crc.Model.boolText p.refIn).toList,
      (Crc.Model.boolText p.refOut).toList, (Crc.Model.wordText width p.xorOut).toList] := by
  obtain ⟨poly, init, xorOut⟩ := (mem_trials valid p).mp hp
  have kept {v : UInt64} (hv : v ≤ Crc.mask width) := Crc.and_mask_of_le valid hv
  simp only [Params.model, Crc.Model.masked, Crc.Model.fields, Crc.Model.lengthFields, kept poly,
    kept (le_mask_of_either init), kept (le_mask_of_either xorOut)]

theorem apart_fields (hp : p ∈ trials width) (hq : q ∈ trials width) :
    List.Forall₂ Text.Apart (p.model width valid).fields (q.model width valid).fields := by
  rw [fields_model valid hp, fields_model valid hq]
  have word (v u : UInt64) := Crc.Model.apart_wordText width v u
  have bool (b c : Bool) := Crc.Model.apart_boolText b c
  exact .cons (Text.apart_of_length_eq rfl) (.cons (word _ _) (.cons (word _ _)
    (.cons (bool _ _) (.cons (bool _ _) (.cons (word _ _) .nil)))))

theorem fields_lt (hp : p ∈ trials width) (hq : q ∈ trials width) (h : p < q) :
    (p.model width valid).fields < (q.model width valid).fields := by
  obtain ⟨poly, init, xorOut⟩ := (mem_trials valid p).mp hp
  obtain ⟨poly', init', xorOut'⟩ := (mem_trials valid q).mp hq
  have word {v u : UInt64} (hv : v ≤ Crc.mask width) (hu : u ≤ Crc.mask width)
      (less : v.toNat < u.toNat) :=
    Crc.Model.wordText_lt valid hv hu (UInt64.lt_iff_toNat_lt.mpr less)
  rw [Params.lt_iff] at h
  simp only [Params.key, Prod.Lex.toLex_lt_toLex, UInt64.toNat_inj] at h
  rw [fields_model valid hp, fields_model valid hq]
  simp only [List.cons_lt_cons_iff, true_and]
  -- behind the width the first parameter that differs is the first field that does
  refine .inr ?_
  rcases h with h | ⟨same, h⟩
  · exact .inl (word poly poly' h)
  refine .inr ⟨by rw [same], ?_⟩
  rcases h with h | ⟨same, h⟩
  · exact .inl (word (le_mask_of_either init) (le_mask_of_either init') h)
  refine .inr ⟨by rw [same], ?_⟩
  rcases h with h | ⟨same, h⟩
  · exact .inl (Crc.Model.boolText_lt h)
  refine .inr ⟨by rw [same], ?_⟩
  rcases h with h | ⟨same, h⟩
  · exact .inl (Crc.Model.boolText_lt h)
  refine .inr ⟨by rw [same], .inl ?_⟩
  exact word (le_mask_of_either xorOut) (le_mask_of_either xorOut') h

theorem id_lt (hp : p ∈ trials width) (hq : q ∈ trials width) (h : p < q) :
    p.id width valid < q.id width valid := by
  have ordered : (p.id width valid).toList < (q.id width valid).toList := by
    rw [p.toList_id valid, q.toList_id valid]
    apply List.append_left_lt
    exact Text.intercalate_lt (apart_fields valid hp hq) (fields_lt valid hp hq h)
  exact ordered

theorem id_lt_iff (hp : p ∈ trials width) (hq : q ∈ trials width) :
    p.id width valid < q.id width valid ↔ p < q := by
  refine ⟨fun less => ?_, id_lt valid hp hq⟩
  rcases lt_trichotomy p q with h | rfl | h
  · exact h
  · exact absurd less (String.lt_irrefl _)
  · exact absurd less (String.lt_asymm (id_lt valid hq hp h))

theorem eq_of_id_eq (hp : p ∈ trials width) (hq : q ∈ trials width)
    (same : p.id width valid = q.id width valid) : p = q := by
  rcases lt_trichotomy p q with h | h | h
  · have less := id_lt valid hp hq h
    rw [same] at less
    exact absurd less (String.lt_irrefl _)
  · exact h
  · have less := id_lt valid hq hp h
    rw [same] at less
    exact absurd less (String.lt_irrefl _)

include valid in
theorem card_trials : (trials width).card = 2 ^ (width + 4) := by
  have ones : 0 ≠ Crc.mask width := (Setting.ofRequest ⟨width, [], .bytes []⟩ valid).ones_ne_zero
  rw [trials, Finset.card_image_of_injOn]
  · simp only [Finset.card_product, Finset.card_range, Finset.card_univ, Fintype.card_bool,
      Finset.card_pair ones]
    exact (pow_add 2 width 4).symm
  · rintro ⟨poly, init, refIn, refOut, xorOut⟩ h ⟨poly', init', refIn', refOut', xorOut'⟩ h' same
    simp only [Finset.coe_product, Set.mem_prod, Finset.mem_coe, Finset.mem_range] at h h'
    simp only [Params.mk.injEq] at same
    obtain ⟨hp, rfl, rfl, rfl, rfl⟩ := same
    rw [← toNat_toUInt64_of_lt valid h.1, hp, toNat_toUInt64_of_lt valid h'.1]

/-- What brute force keeps is in ascending order of the identifiers. -/
theorem pairwise_ids_enumerated (r : Request) (valid : Crc.ValidWidth r.width) (limit : Nat) :
    ((enumerated r valid limit).kept.map Match.id).Pairwise (· < ·) := by
  have tried {p : Params} (hp : p ∈ (solutions r valid).sort.take limit) : p ∈ trials r.width :=
    Finset.mem_of_mem_filter p ((Finset.mem_sort _).mp (List.mem_of_mem_take hp))
  have sorted : ((solutions r valid).sort.take limit).Pairwise (· < ·) :=
    (Finset.sortedLT_sort (solutions r valid)).pairwise.take
  rw [enumerated, List.map_map, List.pairwise_map]
  exact sorted.imp_of_mem fun hp hq h => id_lt valid (tried hp) (tried hq) h

end

/-- No two parameter sets of a width have the same identifier, and the bytes of the identifiers have
the order of the parameters. So what brute force keeps is in strictly ascending order as text,
however many workers there are and whatever the limit. -/
theorem bruteForce_ids_ordered {width : Nat} (h : Searchable width) :
    (trials width).card = 2 ^ (width + 4) ∧
    (∀ p ∈ trials width, ∀ q ∈ trials width, p.id width h.valid = q.id width h.valid → p = q) ∧
    (∀ p ∈ trials width, ∀ q ∈ trials width,
      (Bytes.ofText (p.id width h.valid) < Bytes.ofText (q.id width h.valid) ↔ p.key < q.key)) ∧
    ∀ (sources : Sources) (r : Request), r.width = width → ∀ limit workers, 0 < workers →
      ∀ s log out, Finds sources limit r workers s .bruteForce log out →
        ∀ result, out.1 = .ok result →
          (result.kept.map fun m => Bytes.ofText m.id).Pairwise (· < ·) := by
  refine ⟨card_trials h.valid, fun p hp q hq same => eq_of_id_eq h.valid hp hq same, ?_, ?_⟩
  · intro p hp q hq
    rw [Bytes.ofText_lt_iff, ← Params.lt_iff]
    exact id_lt_iff h.valid hp hq
  · rintro sources r rfl limit workers hw s log out run result ok
    have serves : Strategy.bruteForce.Serves r.width := h
    have outcome := (run.faithful hw).of_ne (by simp [ok])
    rw [ok, findOutcome_bruteForce sources limit serves] at outcome
    obtain rfl := Except.ok.inj outcome
    have ids := pairwise_ids_enumerated r h.valid limit
    rw [List.pairwise_map] at ids ⊢
    exact ids.imp Bytes.ofText_lt_ofText

/-- The polynomial decides before everything behind it, and leading zeros count as digits. -/
theorem bruteForce_ids_of_width_twelve :
    let r : Request := ⟨12, [], .bytes [0, 0]⟩
    Searchable r.width ∧
      Bytes.ofText "crc:12,00ff,0fff,true,true,0fff" <
        Bytes.ofText "crc:12,0100,0000,false,false,0000" ∧
      ∃ result, (find .builtin 100 r (.start false true .never) .bruteForce).1 = .ok result ∧
        (result.kept.map fun m => Bytes.ofText m.id).Pairwise (· < ·) := by
  intro r
  have h : Searchable r.width := by decide
  obtain ⟨-, -, order, ascending⟩ := bruteForce_ids_ordered h
  let low : Params := ⟨0x0ff, 0xfff, true, true, 0xfff⟩
  let high : Params := ⟨0x100, 0, false, false, 0⟩
  have lowId : low.id 12 (by decide) = "crc:12,00ff,0fff,true,true,0fff" := by decide
  have highId : high.id 12 (by decide) = "crc:12,0100,0000,false,false,0000" := by decide
  refine ⟨h, ?_, ?_⟩
  · rw [← lowId, ← highId]
    refine (order low ?_ high ?_).mpr ((low.precedes_iff high).mp (by decide))
    · rw [mem_trials h.valid]
      decide
    · rw [mem_trials h.valid]
      decide
  · have run := finds_find .builtin 100 r (.start false true .never) .bruteForce
    have ok := (run.faithful Nat.one_pos).of_calm (Session.calm_start ..)
    rw [findOutcome_bruteForce .builtin 100 h] at ok
    exact ⟨_, ok, ascending .builtin r rfl 100 1 Nat.one_pos _ _ _ run _ ok⟩

end Search

end DigestFinder
