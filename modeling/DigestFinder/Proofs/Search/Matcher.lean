import DigestFinder.Proofs.BigEndian
import DigestFinder.Proofs.Comparison
import DigestFinder.Proofs.Crc.ModelText
import DigestFinder.Search.Trial

/-!
The comparison of registers with what is expected. It is prepared once, so that expected bytes are
compared as a number; what it accepts are the values whose bytes the comparison of digests accepts,
and of the values within the width at most one.
-/

namespace DigestFinder

namespace Search

namespace Matcher

variable {width : Nat}

/-- The prepared comparison is that of the digest bytes. -/
theorem accepts_ofExpected (valid : Crc.ValidWidth width) (e : Expected)
    {v : UInt64} (h : v ≤ Crc.mask width) :
    (Matcher.ofExpected width e).accepts v = e.accepts (Crc.toBytes v width) := by
  cases e with
  | text value encoding => rfl
  | bytes digest =>
    simp only [Matcher.ofExpected, Expected.accepts]
    split
    · rename_i hl
      have h8 : digest.length ≤ 8 := hl ▸ Crc.byteLength_le valid
      have hv : v.toNat < 256 ^ digest.length := by
        rw [hl]
        exact ((Crc.le_mask_iff_lt valid v).mp h).trans_le (Crc.two_pow_le_byteLength width)
      have hi := Bytes.toWord_eq_iff h8 hv
      rw [hl] at hi
      rw [Bool.eq_iff_iff]
      simp only [Matcher.accepts, beq_iff_eq]
      exact hi
    · rename_i hl
      symm
      simp only [Matcher.accepts, beq_eq_false_iff_ne]
      rintro rfl
      simp at hl

/-- Bytes with a bit set beyond the width are never met. -/
theorem accepts_wide (valid : Crc.ValidWidth width) {digest : Bytes}
    (wide : 2 ^ width ≤ digest.toNat) {v : UInt64} (h : v ≤ Crc.mask width) :
    (ofExpected width (.bytes digest)).accepts v = false := by
  rw [← Bool.not_eq_true, accepts_ofExpected valid _ h, Expected.accepts_bytes_iff]
  rintro rfl
  rw [Crc.toNat_toBytes valid h] at wide
  exact absurd ((Crc.le_mask_iff_lt valid v).mp h) (not_lt.mpr wide)

/-- Of the values within the width no two are accepted. -/
theorem accepts_unique (valid : Crc.ValidWidth width) {e : Expected} {v u : UInt64}
    (hv : v ≤ Crc.mask width) (hu : u ≤ Crc.mask width)
    (accepts : (ofExpected width e).accepts v = true)
    (accepts' : (ofExpected width e).accepts u = true) : v = u := by
  rw [accepts_ofExpected valid e hv] at accepts
  rw [accepts_ofExpected valid e hu] at accepts'
  have same := Expected.accepts_unique (by simp) accepts accepts'
  exact Crc.toBytes_inj valid hv hu same

/-- Where the digest of a value is expected, as bytes or in an encoding, that value is accepted and
no other within the width. -/
theorem accepts_digest_iff (valid : Crc.ValidWidth width) {v u : UInt64}
    (hv : v ≤ Crc.mask width) (hu : u ≤ Crc.mask width) {e : Expected}
    (stands : e = .bytes (Crc.toBytes u width) ∨
      ∃ code : Encoding, e = .ofText (code.encode (Crc.toBytes u width)) code) :
    (ofExpected width e).accepts v = true ↔ v = u := by
  have own : (ofExpected width e).accepts u = true := by
    rw [accepts_ofExpected valid e hu]
    rcases stands with rfl | ⟨code, rfl⟩
    · exact Expected.accepts_bytes_iff.mpr rfl
    · rw [Expected.accepts_ofText (code.spells_encode _) rfl]
      exact Expected.accepts_bytes_iff.mpr rfl
  constructor
  · intro accepts
    exact accepts_unique valid hv hu accepts own
  · rintro rfl
    exact own

end Matcher

/-- The prepared comparison does with a value what the comparison of digests does with its bytes.
Bytes with a bit set beyond the width are never met; no two values are accepted alike, and the
digest of a value is met by that value alone. -/
theorem prepared_comparison_exact {width : Nat} (valid : Crc.ValidWidth width) (e : Expected)
    {v : UInt64} (h : v ≤ Crc.mask width) :
    (Matcher.ofExpected width e).accepts v = e.accepts (Crc.toBytes v width) ∧
      (∀ digest, e = .bytes digest → 2 ^ width ≤ digest.toNat →
        (Matcher.ofExpected width e).accepts v = false) ∧
      ∀ u ≤ Crc.mask width,
        ((Matcher.ofExpected width e).accepts v = true →
          (Matcher.ofExpected width e).accepts u = true → v = u) ∧
        ((e = .bytes (Crc.toBytes u width) ∨
          ∃ code : Encoding, e = .ofText (code.encode (Crc.toBytes u width)) code) →
          ((Matcher.ofExpected width e).accepts v = true ↔ v = u)) := by
  refine ⟨Matcher.accepts_ofExpected valid e h, ?_, fun u hu => ⟨?_, ?_⟩⟩
  · rintro digest rfl wide
    exact Matcher.accepts_wide valid wide h
  · exact Matcher.accepts_unique valid h hu
  · exact Matcher.accepts_digest_iff valid h hu

/-- At width 12 two bytes with a thirteenth bit are not met by the value of their low bits, which
the text of its digest accepts. -/
theorem prepared_comparison_of_width_twelve :
    (0xfff : UInt64) ≤ Crc.mask 12 ∧
      (Matcher.ofExpected 12 (.bytes [0x1f, 0xff])).accepts 0xfff = false ∧
      (Matcher.ofExpected 12 (.ofText " 0FfF" .hex)).accepts 0xfff = true := by
  have valid : Crc.ValidWidth 12 := by decide
  have within : (0xfff : UInt64) ≤ Crc.mask 12 := by decide
  refine ⟨within, ?_, ?_⟩
  · exact (prepared_comparison_exact valid _ within).2.1 [0x1f, 0xff] rfl (by decide)
  · rw [(prepared_comparison_exact valid _ within).1]
    decide

end Search

end DigestFinder
