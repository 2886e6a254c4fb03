import Mathlib.Data.Prod.Lex
import Mathlib.Data.Multiset.Sort
import DigestFinder.Search.BruteForce

/-!
The lexicographic order of parameter sets, and what a board keeps under it: the lowest sets of all
that were pushed, whatever the order in which they came.
-/

namespace DigestFinder.Search

namespace Params

/-- The fields by which parameter sets are ordered, the first one first. -/
def key (p : Params) : Nat ×ₗ Nat ×ₗ Bool ×ₗ Bool ×ₗ Nat :=
  toLex (p.poly.toNat, toLex (p.init.toNat, toLex (p.refIn, toLex (p.refOut, p.xorOut.toNat))))

theorem key_injective : Function.Injective key := by
  rintro ⟨poly, init, refIn, refOut, xorOut⟩ ⟨poly', init', refIn', refOut', xorOut'⟩ h
  simp only [key, EmbeddingLike.apply_eq_iff_eq, Prod.mk.injEq, UInt64.toNat_inj] at h
  simp only [mk.injEq]
  exact h

instance : LinearOrder Params := LinearOrder.lift' key key_injective

theorem lt_iff (p q : Params) : p < q ↔ key p < key q := Iff.rfl

theorem precedes_iff (p q : Params) : p.precedes q = true ↔ p < q := by
  rw [lt_iff]
  simp only [key, Prod.Lex.toLex_lt_toLex, UInt64.toNat_inj, ← UInt64.lt_iff_toNat_lt]
  unfold precedes
  by_cases h1 : p.poly = q.poly
  · by_cases h2 : p.init = q.init
    · by_cases h3 : p.refIn = q.refIn
      · by_cases h4 : p.refOut = q.refOut
        · simp [h1, h2, h3, h4]
        · have hb : (q.refOut = true ↔ p.refOut < q.refOut) := by
            revert h4
            cases p.refOut <;> cases q.refOut <;> decide
          simp [h1, h2, h3, h4, hb]
      · have hb : (q.refIn = true ↔ p.refIn < q.refIn) := by
          revert h3
          cases p.refIn <;> cases q.refIn <;> decide
        simp [h1, h2, h3, hb]
    · simp [h1, h2]
  · simp [h1]

end Params

namespace Kept

theorem place_perm (p : Params) (items : List Params) : (place p items).Perm (p :: items) := by
  induction items with
  | nil => exact .rfl
  | cons q rest ih =>
    unfold place
    split
    · exact .rfl
    · exact (ih.cons q).trans (.swap p q rest)

theorem place_sorted {p : Params} {items : List Params} (h : items.Pairwise (· ≥ ·)) :
    (place p items).Pairwise (· ≥ ·) := by
  induction items with
  | nil => simp [place]
  | cons q rest ih =>
    obtain ⟨hq, hr⟩ := List.pairwise_cons.mp h
    unfold place
    split
    · rename_i hp
      have hqp : q ≤ p := ((q.precedes_iff p).mp hp).le
      refine List.pairwise_cons.mpr ⟨?_, h⟩
      intro r hm
      rcases List.mem_cons.mp hm with rfl | hm
      · exact hqp
      · exact (hq r hm).trans hqp
    · rename_i hp
      have hpq : p ≤ q := not_lt.mp fun hlt => hp ((q.precedes_iff p).mpr hlt)
      refine List.pairwise_cons.mpr ⟨?_, ih hr⟩
      intro r hm
      rcases List.mem_cons.mp ((place_perm p rest).mem_iff.mp hm) with rfl | hm
      · exact hpq
      · exact hq r hm

/-- In ascending order placing is ordered insertion. -/
theorem reverse_place (p : Params) {items : List Params} (h : items.Pairwise (· ≥ ·)) :
    (place p items).reverse = items.reverse.orderedInsert (· ≤ ·) p := by
  have hs : items.reverse.Pairwise (· ≤ ·) := List.pairwise_reverse.mpr h
  have hp : (place p items).reverse.Perm (items.reverse.orderedInsert (· ≤ ·) p) :=
    (List.reverse_perm _).trans ((place_perm p items).trans
      (((List.reverse_perm items).symm.cons p).trans (List.perm_orderedInsert _ p _).symm))
  exact hp.eq_of_pairwise' (List.pairwise_reverse.mpr (place_sorted h)) (hs.orderedInsert p _)

theorem take_orderedInsert (p : Params) (k : Nat) (l : List Params) :
    (l.orderedInsert (· ≤ ·) p).take k = ((l.take k).orderedInsert (· ≤ ·) p).take k := by
  induction l generalizing k with
  | nil => simp
  | cons q rest ih =>
    cases k with
    | zero => simp
    | succ k =>
      simp only [List.take_succ_cons, List.orderedInsert_cons]
      split
      · cases k <;> simp [List.take_take]
      · simp only [List.take_succ_cons, ih k]

theorem sort_cons (p : Params) (s : Multiset Params) :
    (p ::ₘ s).sort = s.sort.orderedInsert (· ≤ ·) p := by
  have hp : (p ::ₘ s).sort.Perm (p :: s.sort) := by
    rw [← Multiset.coe_eq_coe, Multiset.sort_eq, ← Multiset.cons_coe, Multiset.sort_eq]
  have hi := hp.trans (List.perm_orderedInsert (· ≤ ·) p s.sort).symm
  exact hi.eq_of_pairwise' (Multiset.pairwise_sort _ _)
    ((Multiset.pairwise_sort s (· ≤ ·)).orderedInsert p _)

/-- Of all sets in `pushed` the lowest ones are kept, as many as the limit allows. -/
structure Holds (k : Kept) (limit : Nat) (pushed : Multiset Params) : Prop where
  size : k.items.length + k.room = limit
  lowest : k.items.reverse = pushed.sort.take limit

theorem holds_ofLimit (limit : Nat) : (ofLimit limit).Holds limit 0 :=
  ⟨by simp [ofLimit], by simp [ofLimit]⟩

theorem Holds.push {k : Kept} {limit : Nat} {pushed : Multiset Params} (h : k.Holds limit pushed)
    (p : Params) : (k.push p).Holds limit (p ::ₘ pushed) := by
  obtain ⟨hs, hl⟩ := h
  have hd : k.items.Pairwise (· ≥ ·) := by
    rw [← List.pairwise_reverse, hl]
    exact (Multiset.pairwise_sort pushed (· ≤ ·)).take
  have hlen : (place p k.items).length = k.items.length + 1 := (place_perm p k.items).length_eq
  have hw : (place p k.items).reverse.take limit = (p ::ₘ pushed).sort.take limit := by
    rw [reverse_place p hd, hl, sort_cons, ← take_orderedInsert]
  unfold Kept.push
  split
  · rename_i hr
    rw [hr, Nat.add_zero] at hs
    refine ⟨by simp [hlen, hr, hs], ?_⟩
    rw [← hw, ← hs, ← List.dropLast_reverse]
    simp [List.dropLast_eq_take, hlen]
  · rename_i room hr
    refine ⟨by simp [hlen]; omega, ?_⟩
    rw [← hw, List.take_of_length_le]
    simp [hlen]
    omega

/-- Pushing one after the other keeps the lowest of them all. -/
theorem Holds.foldl_push {k : Kept} {limit : Nat} {pushed : Multiset Params}
    (h : k.Holds limit pushed) (ps : List Params) :
    (ps.foldl Kept.push k).Holds limit (ps + pushed) := by
  induction ps generalizing k pushed with
  | nil => simpa using h
  | cons p ps ih =>
    have hp := ih (h.push p)
    rwa [Multiset.add_cons, ← Multiset.cons_add, Multiset.cons_coe] at hp

end Kept

end DigestFinder.Search
