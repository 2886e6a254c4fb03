import Mathlib.Data.Finset.Prod
import DigestFinder.Proofs.Crc.Simulation
import DigestFinder.Proofs.Search.Lowest
import DigestFinder.Proofs.Search.Matcher

/-!
The parameter sets that solve a request, as a set: all that are tried, computed one by one by the
reference computation and compared as a whole. What brute force finds for a polynomial are the
solutions with that polynomial, each once.
-/

namespace DigestFinder

namespace Search

/-- All parameter sets of a width that are tried. -/
def trials (width : Nat) : Finset Params :=
  (Finset.range (2 ^ width) ×ˢ {0, Crc.mask width} ×ˢ Finset.univ ×ˢ Finset.univ ×ˢ
    {0, Crc.mask width}).image
    fun (poly, init, refIn, refOut, xorOut) => ⟨poly.toUInt64, init, refIn, refOut, xorOut⟩

theorem mem_trials {width : Nat} (valid : Crc.ValidWidth width) (p : Params) :
    p ∈ trials width ↔ p.poly ≤ Crc.mask width ∧ (p.init = 0 ∨ p.init = Crc.mask width) ∧
      (p.xorOut = 0 ∨ p.xorOut = Crc.mask width) := by
  rw [Crc.le_mask_iff_lt valid]
  simp only [trials, Finset.mem_image, Finset.mem_product, Finset.mem_range, Finset.mem_insert,
    Finset.mem_singleton, Finset.mem_univ, true_and, Prod.exists]
  constructor
  · rintro ⟨poly, init, refIn, refOut, xorOut, ⟨hp, hi, hx⟩, rfl⟩
    refine ⟨?_, hi, hx⟩
    have hs : poly.toUInt64.toNat = poly % 2 ^ 64 := UInt64.toNat_ofNat'
    rw [hs]
    exact (Nat.mod_le _ _).trans_lt hp
  · rintro ⟨hp, hi, hx⟩
    exact ⟨p.poly.toNat, p.init, p.refIn, p.refOut, p.xorOut, ⟨hp, hi, hx⟩, by simp [Nat.toUInt64]⟩

/-- The trials whose digest is the expected one. -/
def solutions (r : Request) (valid : Crc.ValidWidth r.width) : Finset Params :=
  (trials r.width).filter fun p => r.expected.accepts ((p.model r.width valid).digest r.target)

theorem mem_solutions {r : Request} {valid : Crc.ValidWidth r.width} {p : Params} :
    p ∈ solutions r valid ↔
      (p.poly ≤ Crc.mask r.width ∧ (p.init = 0 ∨ p.init = Crc.mask r.width) ∧
        (p.xorOut = 0 ∨ p.xorOut = Crc.mask r.width)) ∧
      r.expected.accepts ((p.model r.width valid).digest r.target) := by
  rw [solutions, Finset.mem_filter, mem_trials valid]

/-- The register after the data, which four parameter sets share. -/
def shared {width : Nat} (valid : Crc.ValidWidth width) (poly init : UInt64) (refIn : Bool)
    (data : Bytes) : UInt64 :=
  (Crc.Model.masked width valid poly init refIn false 0).absorb (init &&& Crc.mask width) data

theorem le_mask_of_either {width : Nat} {v : UInt64} (h : v = 0 ∨ v = Crc.mask width) :
    v ≤ Crc.mask width := by
  rcases h with rfl | rfl
  · exact UInt64.zero_le
  · exact UInt64.le_refl _

/-- What a parameter set makes of the shared register. -/
def Params.output (p : Params) (width : Nat) (register : UInt64) : UInt64 :=
  (if p.refOut then Crc.reflect register width else register) ^^^ p.xorOut

theorem shared_le {width : Nat} (valid : Crc.ValidWidth width) (poly init : UInt64) (refIn : Bool)
    (data : Bytes) : shared valid poly init refIn data ≤ Crc.mask width :=
  Crc.Model.absorb_le _ data (Crc.and_mask_le _ _)

theorem Params.output_le (p : Params) {width : Nat} (valid : Crc.ValidWidth width)
    (hx : p.xorOut ≤ Crc.mask width) {register : UInt64} (h : register ≤ Crc.mask width) :
    p.output width register ≤ Crc.mask width := by
  apply Crc.xor_le_mask valid _ hx
  split
  · exact Crc.reflect_le_mask valid _
  · exact h

/-- The CRC of a parameter set, from the shared register. -/
theorem Params.crc_model (p : Params) {width : Nat} (valid : Crc.ValidWidth width)
    (hx : p.xorOut ≤ Crc.mask width) (data : Bytes) :
    (p.model width valid).crc data =
      p.output width (shared valid p.poly p.init p.refIn data) := by
  have hs := shared_le valid p.poly p.init p.refIn data
  change ((if p.refOut then Crc.reflect (shared valid p.poly p.init p.refIn data) width
    else shared valid p.poly p.init p.refIn data) ^^^ (p.xorOut &&& Crc.mask width)) &&&
      Crc.mask width = _
  rw [Crc.and_mask_of_le valid hx]
  exact Crc.and_mask_of_le valid (p.output_le valid hx hs)

namespace Setting

@[simp] theorem ofRequest_width (r : Request) (valid : Crc.ValidWidth r.width) :
    (ofRequest r valid).width = r.width := rfl

@[simp] theorem ofRequest_ones (r : Request) (valid : Crc.ValidWidth r.width) :
    (ofRequest r valid).ones = Crc.mask r.width := rfl

/-- Either way of computing it, the shared register is that of the reference computation. -/
theorem register_eq (c : Setting) (poly init : UInt64) (refIn : Bool) :
    c.register poly init refIn = shared c.valid poly init refIn c.data := by
  have hs := shared_le c.valid poly init refIn c.data
  have hr : (Crc.Model.masked c.width c.valid poly init refIn false 0).crc c.data =
      shared c.valid poly init refIn c.data := by
    change ((shared c.valid poly init refIn c.data) ^^^ (0 &&& Crc.mask c.width)) &&&
      Crc.mask c.width = _
    rw [UInt64.zero_and, UInt64.xor_zero, Crc.and_mask_of_le c.valid hs]
  unfold register
  split
  · exact (Crc.Engine.checksum_eq _ _).trans hr
  · exact hr

theorem mem_hitsOf {c : Setting} {poly init : UInt64} {refIn : Bool} {p : Params} :
    p ∈ c.hitsOf poly init refIn ↔
      p.poly = poly ∧ p.init = init ∧ p.refIn = refIn ∧ (p.xorOut = 0 ∨ p.xorOut = c.ones) ∧
        c.matcher.accepts (p.output c.width (c.register p.poly p.init p.refIn)) := by
  simp only [hitsOf, List.mem_flatMap, List.mem_filterMap, Option.ite_none_right_eq_some,
    Option.some.injEq]
  constructor
  · rintro ⟨refOut, -, xorOut, hx, ha, rfl⟩
    refine ⟨rfl, rfl, rfl, ?_, ha⟩
    simpa using hx
  · rintro ⟨rfl, rfl, rfl, hx, ha⟩
    refine ⟨p.refOut, ?_, p.xorOut, ?_, ha, rfl⟩
    · cases p.refOut <;> simp
    · simpa using hx

theorem poly_of_mem_hits {c : Setting} {poly : UInt64} {p : Params} (h : p ∈ c.hits poly) :
    p.poly = poly := by
  simp only [hits, List.mem_flatMap, mem_hitsOf] at h
  obtain ⟨-, -, -, -, he, -⟩ := h
  exact he

/-- The comparison of a trial with the expected digest. -/
theorem accepts_output {r : Request} {valid : Crc.ValidWidth r.width} {p : Params}
    (hx : p.xorOut ≤ Crc.mask r.width) :
    (ofRequest r valid).matcher.accepts
        (p.output r.width ((ofRequest r valid).register p.poly p.init p.refIn)) =
      r.expected.accepts ((p.model r.width valid).digest r.target) := by
  rw [register_eq]
  change (Matcher.ofExpected r.width r.expected).accepts
    (p.output r.width (shared valid p.poly p.init p.refIn r.target)) = _
  rw [← p.crc_model valid hx, Matcher.accepts_ofExpected valid]
  · rfl
  · exact Crc.Model.crc_le _ _

/-- What is found for a polynomial are the solutions with that polynomial. -/
theorem mem_hits {r : Request} {valid : Crc.ValidWidth r.width} {poly : UInt64}
    (h : poly ≤ Crc.mask r.width) {p : Params} :
    p ∈ (ofRequest r valid).hits poly ↔ p ∈ solutions r valid ∧ p.poly = poly := by
  rw [mem_solutions]
  simp only [hits, List.mem_flatMap, mem_hitsOf]
  constructor
  · rintro ⟨init, hi, refIn, -, rfl, rfl, rfl, hx, ha⟩
    have hle : p.xorOut ≤ Crc.mask r.width := le_mask_of_either hx
    refine ⟨⟨⟨h, ?_, hx⟩, ?_⟩, rfl⟩
    · simpa using hi
    · rw [← accepts_output hle]
      exact ha
  · rintro ⟨⟨⟨-, hi, hx⟩, ha⟩, rfl⟩
    refine ⟨p.init, ?_, p.refIn, ?_, rfl, rfl, rfl, hx, ?_⟩
    · simpa using hi
    · cases p.refIn <;> simp
    · rw [← accepts_output (le_mask_of_either hx)] at ha
      exact ha

theorem ones_ne_zero (c : Setting) : 0 ≠ c.ones := by
  intro h
  have hb := Crc.bit_mask c.valid 0
  have hp : 0 < c.width := c.valid.1
  rw [show Crc.mask c.width = 0 from h.symm] at hb
  simp [hp] at hb

theorem nodup_hitsOf (c : Setting) (poly init : UInt64) (refIn : Bool) :
    (c.hitsOf poly init refIn).Nodup := by
  refine List.nodup_flatMap_of_field (g := Params.refOut) (by decide) ?_ ?_
  · intro refOut _
    refine List.Nodup.filterMap ?_ (by simp [c.ones_ne_zero])
    intro x y p hx hy
    simp only [Option.mem_def, Option.ite_none_right_eq_some, Option.some.injEq] at hx hy
    rw [← hy.2] at hx
    simpa using hx.2
  · intro refOut _ p hp
    simp only [List.mem_filterMap, Option.ite_none_right_eq_some, Option.some.injEq] at hp
    obtain ⟨x, -, -, rfl⟩ := hp
    rfl

theorem nodup_hits (c : Setting) (poly : UInt64) : (c.hits poly).Nodup := by
  refine List.nodup_flatMap_of_field (g := Params.init) (by simp [c.ones_ne_zero]) ?_ ?_
  · intro init _
    refine List.nodup_flatMap_of_field (g := Params.refIn) (by decide) ?_ ?_
    · intro refIn _
      exact c.nodup_hitsOf poly init refIn
    · intro refIn _ p hp
      exact (mem_hitsOf.mp hp).2.2.1
  · intro init _ p hp
    obtain ⟨refIn, -, hm⟩ := List.mem_flatMap.mp hp
    exact (mem_hitsOf.mp hm).2.1

/-- Every polynomial of the width. -/
def polynomials (c : Setting) : List UInt64 := (List.range (1 <<< c.width)).map Nat.toUInt64

theorem toNat_of_lt {c : Setting} {n : Nat} (h : n < 1 <<< c.width) :
    n.toUInt64.toNat = n := by
  have hw : (1 <<< c.width) ≤ 2 ^ 64 := by
    rw [Nat.one_shiftLeft]
    exact Nat.pow_le_pow_right (by decide) c.valid.2
  exact UInt64.toNat_ofNat_of_lt' (h.trans_le hw)

theorem nodup_polynomials (c : Setting) : c.polynomials.Nodup := by
  refine List.Nodup.map_on ?_ List.nodup_range
  intro n hn k hk h
  rw [← toNat_of_lt (List.mem_range.mp hn), h, toNat_of_lt (List.mem_range.mp hk)]

theorem mem_polynomials {c : Setting} {v : UInt64} : v ∈ c.polynomials ↔ v ≤ Crc.mask c.width := by
  rw [Crc.le_mask_iff_lt c.valid, ← Nat.one_shiftLeft]
  simp only [polynomials, List.mem_map, List.mem_range]
  constructor
  · rintro ⟨n, hn, rfl⟩
    rwa [toNat_of_lt hn]
  · intro hv
    exact ⟨v.toNat, hv, by simp [Nat.toUInt64]⟩

/-- Over all polynomials the solutions are found, each once. -/
theorem coe_flatMap_hits (r : Request) (valid : Crc.ValidWidth r.width) :
    (((ofRequest r valid).polynomials.flatMap (ofRequest r valid).hits : List Params) :
      Multiset Params) = (solutions r valid).val := by
  have hn : ((ofRequest r valid).polynomials.flatMap (ofRequest r valid).hits).Nodup := by
    refine List.nodup_flatMap_of_field (g := Params.poly) (nodup_polynomials _) ?_ ?_
    · intro poly _
      exact nodup_hits _ poly
    · intro poly hp p hm
      rw [mem_polynomials, ofRequest_width] at hp
      exact ((mem_hits hp).mp hm).2
  apply (Multiset.Nodup.ext (Multiset.coe_nodup.mpr hn) (solutions r valid).nodup).mpr
  intro p
  rw [Multiset.mem_coe, List.mem_flatMap, Finset.mem_val]
  constructor
  · rintro ⟨poly, hp, hm⟩
    rw [mem_polynomials, ofRequest_width] at hp
    exact ((mem_hits hp).mp hm).1
  · intro hs
    have hp : p.poly ≤ Crc.mask r.width := (mem_solutions.mp hs).1.1
    refine ⟨p.poly, ?_, (mem_hits hp).mpr ⟨hs, rfl⟩⟩
    rw [mem_polynomials, ofRequest_width]
    exact hp

end Setting

end Search

end DigestFinder
