import DigestFinder.Checksum.Fletcher
import DigestFinder.Checksum.Sum
import DigestFinder.Proofs.BigEndian
import DigestFinder.Proofs.Checksum.RunningSum
import DigestFinder.Proofs.Lists

/-!
Sums that are brought down to sixteen bits, by adding the carries or by reducing each step. Main
statement: no carry is lost on the way, so that the results are the sums modulo 65535 and 255.
-/

namespace DigestFinder

namespace SystemVSum

theorem toNat_foldl_add (bs : Bytes) (sum : UInt64) :
    (bs.foldl add sum).toNat = (sum.toNat + bs.total) % 2 ^ 64 := by
  induction bs generalizing sum with
  | nil => exact (Nat.mod_eq_of_lt sum.toNat_lt).symm
  | cons b bs ih =>
    rw [List.foldl_cons, ih, Bytes.total_cons, add, UInt64.toNat_add, UInt8.toNat_toUInt64,
      Nat.mod_add_mod, Nat.add_assoc]

/-- The bits above the low sixteen are added, and none passes the end of the word. -/
theorem toNat_carry (s : UInt64) : (carry s).toNat = s.toNat % 65536 + s.toNat / 65536 := by
  have low : (s &&& 0xffff).toNat = s.toNat % 65536 := by
    rw [UInt64.toNat_and]
    exact Nat.and_two_pow_sub_one_eq_mod _ 16
  have high : (s >>> 16).toNat = s.toNat / 65536 := by
    rw [UInt64.toNat_shiftRight]
    exact Nat.shiftRight_eq_div_pow _ 16
  have small := s.toNat_lt
  rw [carry, UInt64.toNat_add, low, high]
  omega

/-- After the first of the two foldings at most one carry is left, and then the low bits are not all
set. -/
theorem toNat_fold (sum : UInt64) :
    (fold sum).toNat = (carry (carry (sum &&& 0xffffffff))).toNat ∧
      (fold sum).toNat ≡ sum.toNat % 2 ^ 32 [MOD 65535] ∧
      ((fold sum).toNat = 0 ↔ sum.toNat % 2 ^ 32 = 0) := by
  have low : (sum &&& 0xffffffff).toNat = sum.toNat % 2 ^ 32 := by
    rw [UInt64.toNat_and]
    exact Nat.and_two_pow_sub_one_eq_mod _ 32
  have twice : (carry (carry (sum &&& 0xffffffff))).toNat =
      (sum.toNat % 2 ^ 32 % 65536 + sum.toNat % 2 ^ 32 / 65536) % 65536 +
        (sum.toNat % 2 ^ 32 % 65536 + sum.toNat % 2 ^ 32 / 65536) / 65536 := by
    rw [toNat_carry, toNat_carry, low]
  have below : sum.toNat % 2 ^ 32 < 2 ^ 32 := Nat.mod_lt _ (by decide)
  have whole : (fold sum).toNat = (carry (carry (sum &&& 0xffffffff))).toNat := by
    rw [fold, UInt64.toNat_toUInt16]
    refine Nat.mod_eq_of_lt ?_
    rw [twice]
    omega
  refine ⟨whole, ?_, ?_⟩
  · rw [whole, twice, Nat.ModEq]
    omega
  · rw [whole, twice]
    omega

end SystemVSum

namespace Fletcher16

abbrev Residues := ZMod 255 × ZMod 255

def State.residues (s : State) : Residues := (s.c0.toNat, s.c1.toNat)

structure Reduced (s : State) : Prop where
  c0_lt : s.c0.toNat < 255
  c1_lt : s.c1.toNat < 255

/-- Add a byte, unless one of the sums passes the end of the word before it is reduced. -/
def checkedByte (s : State) (byte : UInt8) : Option State := do
  let c0 ← checkedAdd UInt16.toNat UInt16.size s.c0 byte.toUInt16
  let c1 ← checkedAdd UInt16.toNat UInt16.size s.c1 (c0 % 255)
  return ⟨c0 % 255, c1 % 255⟩

theorem toNat_mod_lt (c : UInt16) : (c % 255).toNat < 255 :=
  (UInt16.toNat_mod ..).trans_lt (Nat.mod_lt _ (by decide))

theorem reduced_start : Reduced start := ⟨by decide, by decide⟩

theorem reduced_add (s : State) (byte : UInt8) : Reduced (add s byte) :=
  ⟨toNat_mod_lt _, toNat_mod_lt _⟩

/-- Reduced sums take any byte. -/
theorem Reduced.checkedByte_eq {s : State} (h : Reduced s) (byte : UInt8) :
    checkedByte s byte = some (add s byte) := by
  have h0 := h.c0_lt
  have h1 := h.c1_lt
  have small := byte.toNat_lt
  have size : UInt16.size = 65536 := rfl
  have first : checkedAdd UInt16.toNat UInt16.size s.c0 byte.toUInt16 =
      some (s.c0 + byte.toUInt16) := by
    refine checkedAdd_eq_some.mpr ⟨?_, rfl⟩
    rw [UInt8.toNat_toUInt16]
    omega
  have second (c : UInt16) : checkedAdd UInt16.toNat UInt16.size s.c1 (c % 255) =
      some (s.c1 + c % 255) := by
    refine checkedAdd_eq_some.mpr ⟨?_, rfl⟩
    have reduced := toNat_mod_lt c
    omega
  rw [checkedByte, first, Option.bind_eq_bind, Option.bind_some, second]
  rfl

theorem Reduced.residues_add {s : State} (h : Reduced s) (byte : UInt8) :
    (add s byte).residues =
      (s.residues.1 + byte.toNat, s.residues.2 + (s.residues.1 + byte.toNat)) := by
  have h0 := h.c0_lt
  have h1 := h.c1_lt
  have small := byte.toNat_lt
  have first : (add s byte).c0.toNat = (s.c0.toNat + byte.toNat) % 255 := by
    simp only [add, UInt16.toNat_mod, UInt16.toNat_add, UInt8.toNat_toUInt16, UInt16.reduceToNat]
    omega
  have second : (add s byte).c1.toNat = (s.c1.toNat + (add s byte).c0.toNat) % 255 := by
    have reduced := (reduced_add s byte).c0_lt
    change ((s.c1 + (add s byte).c0) % 255).toNat = _
    simp only [UInt16.toNat_mod, UInt16.toNat_add, UInt16.reduceToNat]
    omega
  simp [State.residues, first, second]

/-- No byte fails, and the residues are those of the sums of all bytes. -/
theorem Reduced.foldl_add {s : State} (h : Reduced s) (bs : Bytes) :
    (bs.foldlM checkedByte s = some (bs.foldl add s) ∧ Reduced (bs.foldl add s)) ∧
      (bs.foldl add s).residues =
        (s.residues.1 + bs.total, s.residues.2 + bs.length * s.residues.1 + bs.weightedTotal) := by
  have folded : (bs.foldl add s).residues =
      bs.foldl (fun (r : Residues) (b : UInt8) => (r.1 + b.toNat, r.2 + (r.1 + b.toNat)))
        s.residues := by
    induction bs generalizing s with
    | nil => rfl
    | cons b bs ih => rw [List.foldl_cons, List.foldl_cons, ih (reduced_add s b), h.residues_add]
  exact ⟨List.foldlM_eq_some_foldl Reduced (fun _ b h => h.checkedByte_eq b)
    (fun s b _ => reduced_add s b) h bs, folded.trans (bs.foldl_running_sums _ _)⟩

theorem Reduced.toNat_result {s : State} (h : Reduced s) :
    (result s).toNat = s.c1.toNat * 256 + s.c0.toNat := by
  have h0 := h.c0_lt
  have h1 := h.c1_lt
  have high : (s.c1 <<< 8).toNat = s.c1.toNat <<< 8 := by
    rw [UInt16.toNat_shiftLeft]
    exact Nat.mod_eq_of_lt (by rw [Nat.shiftLeft_eq]; change _ * 256 < 65536; omega)
  have word : ((s.c1 <<< 8) ||| s.c0).toNat = s.c1.toNat * 256 + s.c0.toNat := by
    rw [UInt16.toNat_or, high, ← Nat.shiftLeft_add_eq_or_of_lt (by omega), Nat.shiftLeft_eq]
  rw [result, Bytes.toNat_ofWord (by decide), UInt16.toNat_toUInt64, word]
  omega

/-- After any pieces the result is that of the sums of all bytes. -/
theorem toNat_result_of_pieces (pieces : List Bytes) :
    pieces.foldlM (List.foldlM checkedByte) start = some (pieces.foldl (List.foldl add) start) ∧
      (result (pieces.foldl (List.foldl add) start)).toNat =
        Bytes.weightedTotal pieces.flatten % 255 * 256 + Bytes.total pieces.flatten % 255 := by
  obtain ⟨checked, reduced⟩ := List.foldlM_eq_some_foldl Reduced
    (fun _ piece h => (h.foldl_add piece).1.1) (fun _ piece h => (h.foldl_add piece).1.2)
    reduced_start pieces
  refine ⟨checked, ?_⟩
  have closed : (pieces.foldl (List.foldl add) start).residues =
      ((Bytes.total pieces.flatten : ZMod 255),
        (Bytes.weightedTotal pieces.flatten : ZMod 255)) := by
    have none : start.residues = (0, 0) := rfl
    rw [← List.foldl_flatten, (reduced_start.foldl_add pieces.flatten).2, none, mul_zero,
      zero_add, zero_add, zero_add]
  obtain ⟨h0, h1⟩ := Prod.mk.inj closed
  rw [reduced.toNat_result, eq_mod_of_residue reduced.c0_lt h0,
    eq_mod_of_residue reduced.c1_lt h1]

end Fletcher16

/-- Whatever pieces are fed, no carry is lost. The cast at the end of the System V sum keeps the
value, which is the sum of all bytes modulo 65535, and zero only where the sum is. No addition of
Fletcher-16 passes the end of the word, and its result is made of the sums modulo 255. -/
theorem carries_kept (pieces : List Bytes) :
    let fed : Bytes := pieces.flatten
    let sum : UInt64 := pieces.foldl SystemVSum.streaming.absorb SystemVSum.streaming.start
    let folded : Bytes := SystemVSum.streaming.result sum
    let sums : Fletcher16.State :=
      pieces.foldl Fletcher16.streaming.absorb Fletcher16.streaming.start
    let checks : Bytes := Fletcher16.streaming.result sums
    ((SystemVSum.fold sum).toNat =
        (SystemVSum.carry (SystemVSum.carry (sum &&& 0xffffffff))).toNat ∧
      folded.length = 2 ∧ folded.toNat = (SystemVSum.fold sum).toNat ∧
      folded.toNat ≡ fed.total % 2 ^ 32 [MOD 65535] ∧
      (folded.toNat = 0 ↔ fed.total % 2 ^ 32 = 0)) ∧
    (pieces.foldlM (List.foldlM Fletcher16.checkedByte) Fletcher16.start = some sums ∧
      checks.length = 2 ∧
      checks.toNat = fed.weightedTotal % 255 * 256 + fed.total % 255) := by
  intro fed sum folded sums checks
  have total : sum.toNat % 2 ^ 32 = fed.total % 2 ^ 32 := by
    have whole : sum = fed.foldl SystemVSum.add 0 := List.foldl_flatten.symm
    rw [whole, SystemVSum.toNat_foldl_add, Nat.mod_mod_of_dvd _ (by decide)]
    exact congrArg (· % _) (Nat.zero_add _)
  have value : folded.toNat = (SystemVSum.fold sum).toNat := by
    change Bytes.toNat (Bytes.ofWord 2 (SystemVSum.fold sum).toUInt64) = _
    rw [Bytes.toNat_ofWord (by decide), UInt16.toNat_toUInt64]
    exact Nat.mod_eq_of_lt (SystemVSum.fold sum).toNat_lt
  obtain ⟨whole, congruent, zero⟩ := SystemVSum.toNat_fold sum
  rw [total] at congruent zero
  obtain ⟨checked, result⟩ := Fletcher16.toNat_result_of_pieces pieces
  refine ⟨⟨whole, Bytes.length_ofWord 2 _, value, ?_, ?_⟩, checked, Bytes.length_ofWord 2 _,
    result⟩
  · rw [value]
    exact congruent
  · rw [value]
    exact zero

end DigestFinder
