import Mathlib.Algebra.Polynomial.Div
import Mathlib.Algebra.Polynomial.Monic
import Mathlib.Algebra.Field.ZMod
import Mathlib.Tactic.LinearCombination
import DigestFinder.Proofs.Crc.Register

/-!
The reference computation is polynomial division over the field of two elements. A step multiplies
the register by `X`, adds the bit that enters at `X ^ width` and reduces by the generator.
-/

namespace DigestFinder.Crc

open Polynomial

/-- A bit as a coefficient. -/
def coefficient (b : Bool) : ZMod 2 := if b then 1 else 0

@[simp] theorem coefficient_false : coefficient false = 0 := rfl

@[simp] theorem coefficient_true : coefficient true = 1 := rfl

theorem coefficient_xor (a b : Bool) :
    coefficient (a ^^ b) = coefficient a + coefficient b := by
  cases a <;> cases b <;> decide

/-- The low `width` bits of a word, bit `i` as the coefficient of `X ^ i`. -/
noncomputable def wordPoly (width : Nat) (v : UInt64) : (ZMod 2)[X] :=
  ∑ i ∈ Finset.range width, C (coefficient (bit v i)) * X ^ i

/-- A row of bits, the first one as the highest coefficient. -/
noncomputable def rowPoly : List Bool → (ZMod 2)[X]
  | [] => 0
  | b :: bits => C (coefficient b) * X ^ bits.length + rowPoly bits

/-- The word of `width` bits whose bit `i` is `f i`. -/
def wordOf (width : Nat) (f : Nat → Bool) : UInt64 :=
  UInt64.ofNat (Nat.ofBits fun i : Fin width => f i)

theorem bit_wordOf {width : Nat} (h : width ≤ 64) (f : Nat → Bool) (i : Nat) :
    bit (wordOf width f) i = (decide (i < width) && f i) := by
  rw [bit_eq_testBit, wordOf, UInt64.toNat_ofNat', Nat.testBit_mod_two_pow, Nat.testBit_ofBits]
  by_cases hi : i < width
  · have h64 : i < 64 := by omega
    simp [hi, h64]
  · simp [hi]

theorem coeff_wordPoly (width : Nat) (v : UInt64) (i : Nat) :
    (wordPoly width v).coeff i = coefficient (decide (i < width) && bit v i) := by
  rw [wordPoly, finsetSum_coeff]
  simp only [coeff_C_mul_X_pow]
  rw [Finset.sum_ite_eq]
  by_cases hi : i < width <;> simp [hi]

theorem degree_wordPoly_lt (width : Nat) (v : UInt64) : (wordPoly width v).degree < width := by
  rw [degree_lt_iff_coeff_zero]
  intro i hi
  have hn : ¬ i < width := by omega
  rw [coeff_wordPoly]
  simp [hn]

namespace Model

variable (m : Model)

/-- The polynomial of the model with its top coefficient. -/
noncomputable def generator : (ZMod 2)[X] := X ^ m.width + wordPoly m.width m.poly

theorem generator_monic : m.generator.Monic :=
  monic_X_pow_add (degree_wordPoly_lt _ _)

theorem degree_generator : m.generator.degree = m.width := by
  rw [generator, degree_add_eq_left_of_degree_lt, degree_X_pow]
  rw [degree_X_pow]
  exact degree_wordPoly_lt _ _

theorem coeff_generator (i : Nat) :
    m.generator.coeff i =
      coefficient (decide (i = m.width) ^^ (decide (i < m.width) && bit m.poly i)) := by
  rw [generator, coeff_add, coeff_X_pow, coeff_wordPoly, coefficient_xor]
  by_cases hi : i = m.width <;> simp [hi]

/-- Shifting moves the register up by one place. -/
theorem coeff_wordPoly_mul_X (register : UInt64) (i : Nat) :
    (wordPoly m.width register * X).coeff i =
      coefficient (decide (0 < i) && (decide (i ≤ m.width) && bit register (i - 1))) := by
  cases i with
  | zero => simp
  | succ i =>
    rw [coeff_mul_X, coeff_wordPoly]
    simp

/-- What a step does to the register, with the multiple of the generator that it takes away. -/
theorem wordPoly_step (register : UInt64) (b : Bool) :
    wordPoly m.width (m.step register b) + C (coefficient (m.takes register b)) * m.generator =
      wordPoly m.width register * X + C (coefficient b) * X ^ m.width := by
  have hp := m.width_pos
  ext i
  rw [coeff_add, coeff_add, coeff_C_mul, coeff_C_mul_X_pow, coeff_wordPoly_mul_X, coeff_wordPoly,
    coeff_generator, bit_step]
  -- At `X ^ width` the bit that leaves, the one that enters and the generator cancel.
  rcases lt_trichotomy i m.width with hi | hi | hi
  · have hn : i ≠ m.width := by omega
    have hl : i ≤ m.width := by omega
    simp only [hi, hn, hl, decide_true, decide_false, Bool.true_and, Bool.false_xor, if_false,
      add_zero]
    cases m.takes register b <;> cases bit m.poly i <;>
      cases (decide (0 < i) && bit register (i - 1)) <;> decide
  · have hn : ¬ i < m.width := by omega
    have hl : i ≤ m.width := by omega
    have h0 : 0 < i := by omega
    rw [hi] at hn hl h0 ⊢
    simp only [hn, hl, h0, decide_true, decide_false, Bool.true_and, Bool.false_and, Bool.xor_false,
      if_true, takes]
    cases bit register (m.width - 1) <;> cases b <;> decide
  · have hn : i ≠ m.width := by omega
    have hl : ¬ i < m.width := by omega
    have hle : ¬ i ≤ m.width := by omega
    simp [hn, hl, hle]

/-- Feeding bits is division: the register follows the polynomial of the message up to a multiple
of the generator. -/
theorem generator_dvd_foldl_step (bits : List Bool) (register : UInt64) :
    m.generator ∣ wordPoly m.width register * X ^ bits.length + rowPoly bits * X ^ m.width -
      wordPoly m.width (bits.foldl m.step register) := by
  induction bits generalizing register with
  | nil => simp [rowPoly]
  | cons b bits ih =>
    have hs := m.wordPoly_step register b
    have hd : m.generator ∣ C (coefficient (m.takes register b)) * m.generator * X ^ bits.length :=
      (dvd_mul_left _ _).mul_right _
    have h := dvd_add (ih (m.step register b)) hd
    convert h using 1
    rw [List.length_cons, rowPoly, pow_succ, List.foldl_cons]
    linear_combination (-X ^ bits.length) * hs

/-- The register after bits is what remains of the division. -/
theorem wordPoly_foldl_step (bits : List Bool) (register : UInt64) :
    wordPoly m.width (bits.foldl m.step register) =
      (wordPoly m.width register * X ^ bits.length + rowPoly bits * X ^ m.width) %ₘ
        m.generator := by
  rw [modByMonic_eq_of_dvd_sub m.generator_monic (m.generator_dvd_foldl_step bits register)]
  symm
  rw [modByMonic_eq_self_iff m.generator_monic, degree_generator]
  exact degree_wordPoly_lt _ _

/-- What is divided: the first register in front of the message, multiplied by `X ^ width`. -/
noncomputable def dividend (bytes : Bytes) : (ZMod 2)[X] :=
  wordPoly m.width m.init * X ^ (8 * bytes.length) +
    rowPoly (bytes.flatMap (byteBits m.refIn)) * X ^ m.width

noncomputable def remainder (bytes : Bytes) : (ZMod 2)[X] := m.dividend bytes %ₘ m.generator

theorem wordPoly_absorb (bytes : Bytes) :
    wordPoly m.width (m.absorb m.init bytes) = m.remainder bytes := by
  rw [absorb_eq_foldl_step, wordPoly_foldl_step, length_flatMap_byteBits, remainder, dividend]

/-- The coefficients of the remainder are the bits of the register. -/
theorem coeff_remainder (bytes : Bytes) {i : Nat} (hi : i < m.width) :
    decide ((m.remainder bytes).coeff i = 1) = bit (m.absorb m.init bytes) i := by
  rw [← wordPoly_absorb, coeff_wordPoly]
  cases bit (m.absorb m.init bytes) i <;> simp [hi]

theorem bit_finish (register : UInt64) (i : Nat) :
    bit (m.finish register) i = (decide (i < m.width) &&
      (bit register (if m.refOut then m.width - 1 - i else i) ^^ bit m.xorOut i)) := by
  rw [finish, bit_and, Model.mask, bit_mask m.validWidth, bit_xor, Bool.and_comm]
  by_cases hi : i < m.width
  · cases m.refOut <;> simp [hi, bit_reflect m.validWidth]
  · simp [hi]

end Model

/-- The register after the bytes of a message, and behind them those of its length where the model
has it, is the remainder of their polynomial, and the CRC is the same word, turned where the output
is reflected, with the final mask on it. -/
theorem crc_eq_word_of_remainder (m : Model) (data : Bytes) :
    let fed := data ++ (match m.length with
      | some l => l.encode data.length.toUInt64
      | none => [])
    let coefficients := fun i => decide ((m.remainder fed).coeff i = 1)
    m.absorb m.init fed = wordOf m.width coefficients ∧
      m.crc data =
        wordOf m.width (fun i => coefficients (if m.refOut then m.width - 1 - i else i)) ^^^
          m.xorOut := by
  intro fed coefficients
  have hc {i : Nat} (hi : i < m.width) : coefficients i = bit (m.absorb m.init fed) i :=
    m.coeff_remainder fed hi
  have hb := (le_mask_iff m.validWidth _).mp (m.absorb_le fed m.init_le)
  have hx := (le_mask_iff m.validWidth _).mp m.xorOut_le
  constructor
  · apply word_ext
    intro i _
    rw [bit_wordOf m.width_le]
    by_cases hi : i < m.width
    · simp [hi, hc hi]
    · simp [hi, hb i (not_lt.mp hi)]
  · apply word_ext
    intro i _
    have bytes : data ++ m.trailer data.length.toUInt64 = fed := rfl
    rw [Model.crc, ← m.absorb_append, bytes, m.bit_finish, bit_xor, bit_wordOf m.width_le]
    by_cases hi : i < m.width
    · have ht : (if m.refOut then m.width - 1 - i else i) < m.width := by
        split <;> omega
      rw [hc ht]
      simp [hi, fed]
    · simp [hi, hx i (not_lt.mp hi)]

end DigestFinder.Crc
