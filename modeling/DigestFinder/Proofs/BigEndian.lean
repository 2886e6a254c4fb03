import Mathlib.Data.Nat.Bitwise
import Mathlib.Tactic.Ring
import DigestFinder.Bytes

/-!
Big-endian values. Byte strings of one length are told apart and ordered by their values, and up to
eight bytes the value as a word is exact.
-/

namespace DigestFinder.Bytes

theorem foldl_toNat (bs : Bytes) (n : Nat) :
    bs.foldl (fun n (b : UInt8) => n * 256 + b.toNat) n = n * 256 ^ bs.length + toNat bs := by
  unfold toNat
  induction bs generalizing n with
  | nil => simp
  | cons b bs ih =>
    rw [List.foldl_cons, List.foldl_cons, ih, ih (0 * 256 + b.toNat), List.length_cons, pow_succ]
    ring

theorem toNat_cons (b : UInt8) (bs : Bytes) :
    toNat (b :: bs) = b.toNat * 256 ^ bs.length + toNat bs := by
  rw [← foldl_toNat bs b.toNat, toNat, List.foldl_cons, Nat.zero_mul, Nat.zero_add]

theorem toNat_lt (bs : Bytes) : toNat bs < 256 ^ bs.length := by
  induction bs with
  | nil => simp [toNat]
  | cons b bs ih =>
    have hb : b.toNat + 1 ≤ 256 := b.toNat_lt
    calc toNat (b :: bs) = b.toNat * 256 ^ bs.length + toNat bs := toNat_cons b bs
      _ < (b.toNat + 1) * 256 ^ bs.length := by rw [Nat.add_mul, Nat.one_mul]; omega
      _ ≤ 256 * 256 ^ bs.length := Nat.mul_le_mul_right _ hb
      _ = 256 ^ (b :: bs).length := by rw [List.length_cons, pow_succ, Nat.mul_comm]

theorem toNat_injective {bs cs : Bytes} (hl : bs.length = cs.length) (h : toNat bs = toNat cs) :
    bs = cs := by
  induction bs generalizing cs with
  | nil => exact (List.length_eq_zero_iff.mp hl.symm).symm
  | cons b bs ih =>
    obtain ⟨c, cs, rfl⟩ : ∃ c cs', cs = c :: cs' := List.exists_cons_of_length_eq_add_one hl.symm
    have hl' : bs.length = cs.length := by simpa using hl
    rw [toNat_cons, toNat_cons, hl'] at h
    have hb := toNat_lt bs
    have hc := toNat_lt cs
    rw [hl'] at hb
    have hp : 0 < 256 ^ cs.length := Nat.pow_pos (by decide)
    have hd : b.toNat = c.toNat := by
      have h1 := congrArg (· / 256 ^ cs.length) h
      simp only [Nat.mul_comm _ (256 ^ cs.length), Nat.mul_add_div hp, Nat.div_eq_of_lt hb,
        Nat.div_eq_of_lt hc, Nat.add_zero] at h1
      exact h1
    rw [hd] at h
    rw [UInt8.toNat_inj.mp hd, ih hl' (Nat.add_left_cancel h)]

/-- Of two byte strings of one length the one with the smaller value comes first. -/
theorem lt_of_toNat_lt {bs cs : Bytes} (hl : bs.length = cs.length) (h : toNat bs < toNat cs) :
    bs < cs := by
  induction bs generalizing cs with
  | nil =>
    obtain rfl : cs = [] := List.length_eq_zero_iff.mp hl.symm
    exact absurd h (Nat.lt_irrefl _)
  | cons b bs ih =>
    obtain ⟨c, cs, rfl⟩ : ∃ c cs', cs = c :: cs' := List.exists_cons_of_length_eq_add_one hl.symm
    have size : bs.length = cs.length := by simpa using hl
    rw [toNat_cons, toNat_cons, size] at h
    rw [List.cons_lt_cons_iff, UInt8.lt_iff_toNat_lt, ← UInt8.toNat_inj]
    rcases Nat.lt_trichotomy b.toNat c.toNat with less | same | more
    · exact .inl less
    · rw [same] at h
      exact .inr ⟨same, ih size (Nat.lt_of_add_lt_add_left h)⟩
    · -- a higher first byte counts more than all the bytes behind it
      have below := toNat_lt cs
      have reach : (c.toNat + 1) * 256 ^ cs.length ≤ b.toNat * 256 ^ cs.length :=
        Nat.mul_le_mul_right _ more
      rw [Nat.add_mul, Nat.one_mul] at reach
      omega

theorem toNat_ofWord {n : Nat} (h : n ≤ 8) (v : UInt64) :
    toNat (ofWord n v) = v.toNat % 256 ^ n := by
  induction n with
  | zero => simp [ofWord, toNat, Nat.mod_one]
  | succ n ih =>
    have hs : (8 * n).toUInt64.toNat % 64 = 8 * n := by
      rw [Nat.toUInt64, UInt64.toNat_ofNat']
      omega
    have hb : (v >>> (8 * n).toUInt64).toUInt8.toNat = v.toNat / 256 ^ n % 256 := by
      rw [UInt64.toNat_toUInt8, UInt64.toNat_shiftRight, hs, Nat.shiftRight_eq_div_pow, Nat.pow_mul]
    rw [ofWord, toNat_cons, ih (by omega), length_ofWord, hb, Nat.mod_pow_succ]
    ring

theorem toNat_shift_or (v : UInt64) (b : UInt8) :
    ((v <<< 8) ||| b.toUInt64).toNat = (v.toNat * 256 + b.toNat) % 2 ^ 64 := by
  have hb : b.toNat < 2 ^ 8 := b.toNat_lt
  have hs : (v.toNat * 256 + b.toNat) = v.toNat <<< 8 ||| b.toNat := by
    rw [← Nat.shiftLeft_add_eq_or_of_lt hb, Nat.shiftLeft_eq]
  rw [hs, Nat.or_mod_two_pow, UInt64.toNat_or, UInt64.toNat_shiftLeft, UInt8.toNat_toUInt64,
    Nat.mod_eq_of_lt (a := b.toNat) (by omega)]
  rfl

theorem toNat_foldl_word (bs : Bytes) (v : UInt64) :
    (bs.foldl (fun (v : UInt64) (b : UInt8) => (v <<< 8) ||| b.toUInt64) v).toNat =
      bs.foldl (fun (n : Nat) (b : UInt8) => n * 256 + b.toNat) v.toNat % 2 ^ 64 := by
  induction bs generalizing v with
  | nil => exact (Nat.mod_eq_of_lt v.toNat_lt).symm
  | cons b bs ih =>
    rw [List.foldl_cons, List.foldl_cons, ih, foldl_toNat, foldl_toNat, toNat_shift_or, Nat.add_mod,
      Nat.mod_mul_mod, ← Nat.add_mod]

theorem toNat_toWord (bs : Bytes) : (toWord bs).toNat = toNat bs % 2 ^ 64 :=
  toNat_foldl_word bs 0

/-- Up to eight bytes, a word has the value of the bytes only if they are its bytes. -/
theorem toWord_eq_iff {bs : Bytes} {v : UInt64} (h : bs.length ≤ 8)
    (hv : v.toNat < 256 ^ bs.length) : toWord bs = v ↔ bs = ofWord bs.length v := by
  have hp : 256 ^ bs.length ≤ 2 ^ 64 := by
    calc 256 ^ bs.length ≤ 256 ^ 8 := Nat.pow_le_pow_right (by decide) h
      _ = 2 ^ 64 := by decide
  have hw : (toWord bs).toNat = toNat bs := by
    rw [toNat_toWord, Nat.mod_eq_of_lt ((toNat_lt bs).trans_le hp)]
  have ho : toNat (ofWord bs.length v) = v.toNat := by
    rw [toNat_ofWord h, Nat.mod_eq_of_lt hv]
  constructor
  · intro he
    apply toNat_injective (by simp)
    rw [ho, ← he, hw]
  · intro he
    rw [← UInt64.toNat_inj, hw, ← ho, ← he]

end DigestFinder.Bytes
