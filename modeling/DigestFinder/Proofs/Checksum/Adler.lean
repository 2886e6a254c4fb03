import DigestFinder.Checksum.Adler
import DigestFinder.Proofs.BigEndian
import DigestFinder.Proofs.Checksum.RunningSum
import DigestFinder.Proofs.Lists

/-!
The sums of Adler-32. They are reduced between two runs of bytes, and within a run they do not pass
the end of the word. So they are the sums modulo 65521, wherever a message is cut into runs.

Main statement: after any pieces the sums are those of all bytes, and no addition on the way went
wrong.
-/

namespace DigestFinder.Adler32

abbrev Residues := ZMod 65521 × ZMod 65521

def addResidue (r : Residues) (byte : UInt8) : Residues :=
  (r.1 + byte.toNat, r.2 + (r.1 + byte.toNat))

def State.residues (s : State) : Residues := (s.a.toNat, s.b.toNat)

structure Reduced (s : State) : Prop where
  a_lt : s.a.toNat < 65521
  b_lt : s.b.toNat < 65521

theorem reduced_start : Reduced start := ⟨by decide, by decide⟩

theorem reduced_reduce (s : State) : Reduced (reduce s) := by
  constructor
  · exact (UInt32.toNat_mod ..).trans_lt (Nat.mod_lt _ (by decide))
  · exact (UInt32.toNat_mod ..).trans_lt (Nat.mod_lt _ (by decide))

theorem residues_reduce (s : State) : (reduce s).residues = s.residues := by
  have hm : modulus.toNat = 65521 := rfl
  simp [reduce, State.residues, UInt32.toNat_mod, hm]

/-- Reduced sums are known from their residues. -/
theorem eq_of_residues {s t : State} (hs : Reduced s) (ht : Reduced t)
    (h : s.residues = t.residues) : s = t := by
  obtain ⟨sa, sb⟩ := s
  obtain ⟨ta, tb⟩ := t
  obtain ⟨ha, hb⟩ := Prod.ext_iff.mp h
  have small {m n : UInt32} (hm : m.toNat < 65521) (hn : n.toNat < 65521)
      (he : (m.toNat : ZMod 65521) = n.toNat) : m = n := by
    rw [ZMod.natCast_eq_natCast_iff', Nat.mod_eq_of_lt hm, Nat.mod_eq_of_lt hn] at he
    exact UInt32.toNat_inj.mp he
  exact congrArg₂ State.mk (small hs.a_lt ht.a_lt ha) (small hs.b_lt ht.b_lt hb)

/-- How far the sums can have come `n` bytes after they were reduced. -/
structure Within (n : Nat) (s : State) : Prop where
  a_le : s.a.toNat ≤ 65520 + 255 * n
  b_le : 2 * s.b.toNat ≤ (n + 1) * (2 * 65520 + 255 * n)

theorem Reduced.within {s : State} (h : Reduced s) : Within 0 s := by
  have ha := h.a_lt
  have hb := h.b_lt
  exact ⟨by omega, by omega⟩

/-- Up to the end of a run no sum passes the end of the word. -/
theorem Within.add_toNat {n : Nat} {s : State} (h : Within n s) (hn : n < run) (byte : UInt8) :
    (add s byte).a.toNat = s.a.toNat + byte.toNat ∧
      (add s byte).b.toNat = s.b.toNat + (s.a.toNat + byte.toNat) := by
  have ha := h.a_le
  have hb := h.b_le
  have small := byte.toNat_lt
  have last : (n + 1) * (2 * 65520 + 255 * n) ≤ run * (2 * 65520 + 255 * 5551) :=
    Nat.mul_le_mul hn (by simp only [run] at hn; omega)
  simp only [run] at hn last
  have first : (add s byte).a.toNat = s.a.toNat + byte.toNat := by
    simp only [add, UInt32.toNat_add, UInt8.toNat_toUInt32]
    omega
  refine ⟨first, ?_⟩
  change (s.b + (add s byte).a).toNat = _
  rw [UInt32.toNat_add, first]
  omega

theorem Within.add {n : Nat} {s : State} (h : Within n s) (hn : n < run) (byte : UInt8) :
    Within (n + 1) (add s byte) := by
  obtain ⟨ha, hb⟩ := h.add_toNat hn byte
  have hal := h.a_le
  have hbl := h.b_le
  have small := byte.toNat_lt
  constructor
  · rw [ha]
    omega
  · have next : (n + 1 + 1) * (2 * 65520 + 255 * (n + 1)) =
        (n + 1) * (2 * 65520 + 255 * n) + (2 * 65520 + 510 * (n + 1)) := by
      ring
    rw [hb, next]
    omega

theorem Within.residues_foldl {n : Nat} {s : State} (h : Within n s) {data : Bytes}
    (hn : n + data.length ≤ run) :
    (data.foldl Adler32.add s).residues = data.foldl addResidue s.residues := by
  induction data generalizing n s with
  | nil => rfl
  | cons byte data ih =>
    rw [List.length_cons] at hn
    have inside : n < run := by omega
    obtain ⟨ha, hb⟩ := h.add_toNat inside byte
    have one : (Adler32.add s byte).residues = addResidue s.residues byte := by
      simp [State.residues, addResidue, ha, hb]
    rw [List.foldl_cons, List.foldl_cons, ← one, ih (h.add inside byte) (by omega)]

/-- Whatever is absorbed by reduced sums, they stay reduced, and their residues are those of bytes
that are added one at a time. -/
theorem Reduced.absorb {s : State} (h : Reduced s) (data : Bytes) :
    Reduced (absorb s data) ∧ (absorb s data).residues = data.foldl addResidue s.residues := by
  fun_induction Adler32.absorb s data with
  | case1 => exact ⟨h, rfl⟩
  | case2 s data _ ih =>
    obtain ⟨reduced, residues⟩ := ih (reduced_reduce _)
    refine ⟨reduced, ?_⟩
    have once : ((data.take run).foldl add s).residues =
        (data.take run).foldl addResidue s.residues :=
      h.within.residues_foldl (by rw [List.length_take]; omega)
    rw [residues, residues_reduce, once, ← List.foldl_append, List.take_append_drop]

theorem Reduced.absorb_append {s : State} (h : Reduced s) (x y : Bytes) :
    Adler32.absorb (Adler32.absorb s x) y = Adler32.absorb s (x ++ y) := by
  obtain ⟨between, hx⟩ := h.absorb x
  obtain ⟨apart, hy⟩ := between.absorb y
  obtain ⟨together, hxy⟩ := h.absorb (x ++ y)
  apply eq_of_residues apart together
  rw [hy, hx, hxy, List.foldl_append]

/-- Add a byte, unless one of the sums passes the end of the word. -/
def checkedByte (s : State) (byte : UInt8) : Option State := do
  let a ← checkedAdd UInt32.toNat UInt32.size s.a byte.toUInt32
  let b ← checkedAdd UInt32.toNat UInt32.size s.b a
  return ⟨a, b⟩

/-- The loop over the runs, given up at the first addition that passes the end of the word. -/
def checkedAbsorb (s : State) (data : Bytes) : Option State :=
  if data = [] then some s
  else do
    let sums ← (data.take run).foldlM checkedByte s
    checkedAbsorb (reduce sums) (data.drop run)
termination_by data.length
decreasing_by
  have : 0 < data.length := List.length_pos_iff.mpr ‹_›
  simp [run]
  omega

/-- A byte that is added without loss is counted in full. -/
theorem toNat_of_checkedByte {s t : State} {byte : UInt8} (h : checkedByte s byte = some t) :
    t.a.toNat = s.a.toNat + byte.toNat ∧ t.b.toNat = s.b.toNat + (s.a.toNat + byte.toNat) := by
  have exact {x y z : UInt32} (h : checkedAdd UInt32.toNat UInt32.size x y = some z) :
      z.toNat = x.toNat + y.toNat := by
    obtain ⟨fits, rfl⟩ := checkedAdd_eq_some.mp h
    rw [UInt32.toNat_add]
    exact Nat.mod_eq_of_lt fits
  obtain ⟨a, ha, h⟩ := Option.bind_eq_some_iff.mp h
  obtain ⟨b, hb, h⟩ := Option.bind_eq_some_iff.mp h
  obtain rfl := Option.some.inj h
  refine ⟨exact ha, ?_⟩
  rw [exact hb, exact ha]
  rfl

theorem toNat_of_foldlM_checkedByte {s t : State} {data : Bytes}
    (h : data.foldlM checkedByte s = some t) :
    t.b.toNat = s.b.toNat + data.length * s.a.toNat + Bytes.weightedTotal data := by
  induction data generalizing s with
  | nil =>
    obtain rfl := Option.some.inj h
    simp [Bytes.weightedTotal]
  | cons byte data ih =>
    obtain ⟨next, hn, h⟩ := Option.bind_eq_some_iff.mp h
    obtain ⟨ha, hb⟩ := toNat_of_checkedByte hn
    rw [ih h, ha, hb, Bytes.weightedTotal_cons, List.length_cons]
    ring

theorem Within.checkedByte_eq {n : Nat} {s : State} (h : Within n s) (hn : n < run)
    (byte : UInt8) : checkedByte s byte = some (Adler32.add s byte) := by
  obtain ⟨ha, hb⟩ := h.add_toNat hn byte
  have first : checkedAdd UInt32.toNat UInt32.size s.a byte.toUInt32 =
      some (Adler32.add s byte).a := by
    refine checkedAdd_eq_some.mpr ⟨?_, rfl⟩
    rw [UInt8.toNat_toUInt32, ← ha]
    exact UInt32.toNat_lt_size _
  have second : checkedAdd UInt32.toNat UInt32.size s.b (Adler32.add s byte).a =
      some (Adler32.add s byte).b := by
    refine checkedAdd_eq_some.mpr ⟨?_, rfl⟩
    rw [ha, ← hb]
    exact UInt32.toNat_lt_size _
  rw [checkedByte, first, Option.bind_eq_bind, Option.bind_some, second]
  rfl

theorem Within.foldlM_checkedByte {n : Nat} {s : State} (h : Within n s) {data : Bytes}
    (hn : n + data.length ≤ run) :
    data.foldlM checkedByte s = some (data.foldl Adler32.add s) := by
  induction data generalizing n s with
  | nil => rfl
  | cons byte data ih =>
    rw [List.length_cons] at hn
    have inside : n < run := by omega
    rw [List.foldlM_cons, h.checkedByte_eq inside, Option.bind_eq_bind, Option.bind_some,
      ih (h.add inside byte) (by omega), List.foldl_cons]

/-- How far the highest bytes take the highest reduced sums. -/
theorem toNat_of_highest {n : Nat} {t : State}
    (h : (List.replicate n 255).foldlM checkedByte ⟨65520, 65520⟩ = some t) :
    2 * t.b.toNat = 2 * (65520 + n * 65520) + n * (n + 1) * 255 := by
  have value : t.b.toNat = 65520 + n * 65520 + Bytes.weightedTotal (List.replicate n 255) := by
    simpa using toNat_of_foldlM_checkedByte h
  have weight : 2 * Bytes.weightedTotal (List.replicate n 255) = n * (n + 1) * 255 :=
    Bytes.weightedTotal_replicate n 255
  rw [value, Nat.mul_add, weight]

/-- Reduced sums can take as many bytes as there are in a run, whatever they are, and no more. -/
theorem run_is_largest {n : Nat} :
    (∀ s, Reduced s → ∀ data : Bytes, data.length ≤ n → (data.foldlM checkedByte s).isSome) ↔
      n ≤ run := by
  constructor
  · intro h
    by_contra longer
    obtain ⟨t, ht⟩ := Option.isSome_iff_exists.mp (h ⟨65520, 65520⟩ ⟨by decide, by decide⟩
      (List.replicate (run + 1) 255) (by rw [List.length_replicate]; omega))
    have value := toNat_of_highest ht
    have small := t.b.toNat_lt
    simp only [run] at value
    omega
  · intro hn s hs data hd
    rw [hs.within.foldlM_checkedByte (by omega)]
    rfl

theorem Reduced.checkedAbsorb_eq {s : State} (h : Reduced s) (data : Bytes) :
    checkedAbsorb s data = some (Adler32.absorb s data) := by
  fun_induction Adler32.absorb s data with
  | case1 => rw [checkedAbsorb, if_pos rfl]
  | case2 s data hne ih =>
    have once : (data.take run).foldlM checkedByte s = some ((data.take run).foldl add s) :=
      h.within.foldlM_checkedByte (by rw [List.length_take]; omega)
    rw [checkedAbsorb, if_neg hne, once, Option.bind_eq_bind, Option.bind_some,
      ih (reduced_reduce _)]

/-- Pieces leave the sums of all their bytes. -/
theorem Reduced.foldl_absorb {s : State} (h : Reduced s) (pieces : List Bytes) :
    Reduced (pieces.foldl Adler32.absorb s) ∧ (pieces.foldl Adler32.absorb s).residues =
      pieces.flatten.foldl addResidue s.residues := by
  induction pieces generalizing s with
  | nil => exact ⟨h, rfl⟩
  | cons piece pieces ih =>
    obtain ⟨after, residues⟩ := h.absorb piece
    obtain ⟨reduced, rest⟩ := ih after
    refine ⟨reduced, ?_⟩
    rw [List.foldl_cons, rest, residues, List.flatten_cons, List.foldl_append]

theorem Reduced.toNat_of_residues {s : State} (h : Reduced s) {a b : Nat}
    (hr : s.residues = ((a : ZMod 65521), (b : ZMod 65521))) :
    s.a.toNat = a % 65521 ∧ s.b.toNat = b % 65521 := by
  obtain ⟨ha, hb⟩ := Prod.mk.inj hr
  exact ⟨eq_mod_of_residue h.a_lt ha, eq_mod_of_residue h.b_lt hb⟩

/-- The second sum stands above the first. -/
theorem Reduced.toNat_result {s : State} (h : Reduced s) :
    (result s).toNat = s.b.toNat * 65536 + s.a.toNat := by
  have ha := h.a_lt
  have hb := h.b_lt
  have high : (s.b <<< 16).toNat = s.b.toNat <<< 16 := by
    rw [UInt32.toNat_shiftLeft]
    exact Nat.mod_eq_of_lt (by rw [Nat.shiftLeft_eq]; change _ * 65536 < 4294967296; omega)
  have word : ((s.b <<< 16) ||| s.a).toNat = s.b.toNat * 65536 + s.a.toNat := by
    rw [UInt32.toNat_or, high, ← Nat.shiftLeft_add_eq_or_of_lt (by omega), Nat.shiftLeft_eq]
  rw [result, Bytes.toNat_ofWord (by decide), UInt32.toNat_toUInt64, word]
  omega

/-- Whatever pieces are absorbed, no addition passes the end of the word, the sums are reduced after
each piece, and the result is that of the sums of all bytes. -/
theorem sums_exact (pieces : List Bytes) :
    let s := pieces.foldl absorb start
    let fed : Bytes := pieces.flatten
    pieces.foldlM checkedAbsorb start = some s ∧
      (s.a.toNat < 65521 ∧ s.b.toNat < 65521) ∧
      (result s).length = 4 ∧
      (result s).toNat =
        (fed.length + fed.weightedTotal) % 65521 * 65536 + (1 + fed.total) % 65521 := by
  obtain ⟨reduced, residues⟩ := reduced_start.foldl_absorb pieces
  have sums : (pieces.foldl absorb start).residues =
      (((1 + Bytes.total pieces.flatten : Nat) : ZMod 65521),
        ((pieces.flatten.length + Bytes.weightedTotal pieces.flatten : Nat) : ZMod 65521)) := by
    have closed := Bytes.foldl_running_sums pieces.flatten (1 : ZMod 65521) 0
    rw [zero_add, mul_one] at closed
    push_cast
    rw [residues, ← closed]
    rfl
  obtain ⟨ha, hb⟩ := reduced.toNat_of_residues sums
  have checked : pieces.foldlM checkedAbsorb start = some (pieces.foldl absorb start) :=
    (List.foldlM_eq_some_foldl Reduced (fun _ piece h => h.checkedAbsorb_eq piece)
      (fun _ piece h => (h.absorb piece).1) reduced_start pieces).1
  refine ⟨checked, ⟨reduced.a_lt, reduced.b_lt⟩, Bytes.length_ofWord 4 _, ?_⟩
  rw [reduced.toNat_result, ha, hb]

end DigestFinder.Adler32
