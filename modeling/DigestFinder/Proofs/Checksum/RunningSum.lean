import Mathlib.Algebra.BigOperators.Fin
import Mathlib.Data.ZMod.Basic
import Mathlib.Tactic.Ring
import DigestFinder.Bytes

/-!
Sums of bytes. A checksum of two sums adds each byte to the first and the first to the second, so
that in the second a byte counts once for itself and once for each byte behind it.
-/

namespace DigestFinder

namespace Bytes

def total (bs : Bytes) : Nat := (bs.map UInt8.toNat).sum

/-- Each byte as often as there are bytes from it to the end. -/
def weightedTotal (bs : Bytes) : Nat := ∑ i : Fin bs.length, (bs.length - i) * bs[i].toNat

theorem total_cons (b : UInt8) (bs : Bytes) : total (b :: bs) = b.toNat + total bs := by
  rw [total, List.map_cons, List.sum_cons, total]

theorem weightedTotal_cons (b : UInt8) (bs : Bytes) :
    weightedTotal (b :: bs) = (bs.length + 1) * b.toNat + weightedTotal bs := by
  have later (i : Nat) : bs.length + 1 - (i + 1) = bs.length - i := by omega
  simp [weightedTotal, Fin.sum_univ_succ, later]

theorem weightedTotal_replicate (n : Nat) (b : UInt8) :
    2 * weightedTotal (List.replicate n b) = n * (n + 1) * b.toNat := by
  induction n with
  | zero => simp [weightedTotal]
  | succ n ih =>
    rw [List.replicate_succ, weightedTotal_cons, Nat.mul_add, ih, List.length_replicate]
    ring

/-- What two running sums come to. -/
theorem foldl_running_sums {R : Type} [CommSemiring R] (bs : Bytes) (first second : R) :
    bs.foldl (fun (r : R × R) (b : UInt8) => (r.1 + b.toNat, r.2 + (r.1 + b.toNat)))
        (first, second) =
      (first + bs.total, second + bs.length * first + bs.weightedTotal) := by
  induction bs generalizing first second with
  | nil => simp [total, weightedTotal]
  | cons b bs ih =>
    rw [List.foldl_cons, ih, total_cons, weightedTotal_cons, List.length_cons, Prod.mk.injEq]
    push_cast
    constructor <;> ring

end Bytes

/-- A reduced sum is known from its residue. -/
theorem eq_mod_of_residue {modulus m n : Nat} (hm : m < modulus)
    (h : (m : ZMod modulus) = n) : m = n % modulus := by
  rw [← Nat.mod_eq_of_lt hm]
  exact (ZMod.natCast_eq_natCast_iff' ..).mp h

/-- The sum of two words, unless it passes the end of the word. -/
def checkedAdd {W : Type} [Add W] (value : W → Nat) (size : Nat) (x y : W) : Option W :=
  if value x + value y < size then some (x + y) else none

theorem checkedAdd_eq_some {W : Type} [Add W] {value : W → Nat} {size : Nat} {x y z : W} :
    checkedAdd value size x y = some z ↔ value x + value y < size ∧ x + y = z := by
  rw [checkedAdd, Option.ite_none_right_eq_some, Option.some_inj]

end DigestFinder
