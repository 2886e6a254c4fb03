import DigestFinder.Proofs.Crc.Bits

/-!
Both orientations of the table register at once. A register moves towards its leading end, which
is the low end where the bits of a byte enter lowest first and the high end elsewhere.
-/

namespace DigestFinder.Crc

variable (low : Bool)

/-- One place towards the leading end. -/
def advance (v : UInt64) : UInt64 := if low then v >>> 1 else v <<< 1

/-- The bit that leaves next. -/
def lead (v : UInt64) : Bool := bit v (if low then 0 else 63)

/-- A word whose only bit leaves next, or no bit at all. -/
def entering (b : Bool) : UInt64 := if b then (if low then 1 else (1 : UInt64) <<< 63) else 0

/-- A byte at the leading end. -/
def place (b : UInt8) : UInt64 := if low then b.toUInt64 else b.toUInt64 <<< 56

/-- The byte at the leading end. -/
def head (v : UInt64) : UInt8 := if low then v.toUInt8 else (v >>> 56).toUInt8

/-- One step of the register: the polynomial is taken where a bit leaves. -/
def feed (poly v : UInt64) : UInt64 :=
  if lead low v then advance low v ^^^ poly else advance low v

/-- The next `n` bits that leave, in order. -/
def leadingBits : Nat → UInt64 → List Bool
  | 0, _ => []
  | n + 1, v => lead low v :: leadingBits n (advance low v)

theorem advance_eight (v : UInt64) :
    (advance low)^[8] v = if low then v >>> 8 else v <<< 8 := by
  apply UInt64.toBitVec_inj.mp
  cases low
  · simp [advance, BitVec.shiftLeft_eq', ← BitVec.shiftLeft_add]
  · simp [advance, BitVec.ushiftRight_eq', ← BitVec.shiftRight_add]

theorem advance_xor (v u : UInt64) : advance low (v ^^^ u) = advance low v ^^^ advance low u := by
  cases low
  · exact shiftLeft_xor v u 1
  · exact shiftRight_xor v u 1

theorem advance_eight_xor (v u : UInt64) :
    (advance low)^[8] (v ^^^ u) = (advance low)^[8] v ^^^ (advance low)^[8] u := by
  cases low
  · simp [advance_eight, shiftLeft_xor]
  · simp [advance_eight, shiftRight_xor]

theorem advance_entering (b : Bool) : advance low (entering low b) = 0 := by
  cases low <;> cases b <;> rfl

theorem lead_xor (v u : UInt64) : lead low (v ^^^ u) = (lead low v ^^ lead low u) :=
  bit_xor v u _

theorem lead_entering (b : Bool) : lead low (entering low b) = b := by
  cases low <;> cases b <;> simp [lead, entering]

theorem head_xor (v u : UInt64) : head low (v ^^^ u) = head low v ^^^ head low u := by
  cases low
  · simp [head, shiftRight_xor]
  · simp [head]

theorem head_place (b : UInt8) : head low (place low b) = b := by
  cases low
  · apply UInt8.toBitVec_inj.mp
    apply BitVec.eq_of_getLsbD_eq
    intro i hi
    have hu : 56 + i < 64 := by omega
    have hl : i < 64 := by omega
    simp [head, place, hi, hu, hl]
  · simp [head, place]

/-- The bits that leave first are those of the leading byte. -/
theorem leadingBits_eight (v : UInt64) : leadingBits low 8 v = byteBits low (head low v) := by
  cases low
  · simp [leadingBits, lead, advance, byteBits, head, bitOf_eq, bit]
  · simp [leadingBits, lead, advance, byteBits, head, bitOf_eq, bit]

theorem advance_place (b : UInt8) : (advance low)^[8] (place low b) = 0 := by
  rw [advance_eight]
  apply word_ext
  intro i _
  cases low
  · simp [place]
    omega
  · simp [place]

/-- A bit enters the register at its leading end. -/
def enter (poly v : UInt64) (b : Bool) : UInt64 := feed low poly (v ^^^ entering low b)

theorem enter_false (poly v : UInt64) : enter low poly v false = feed low poly v := by
  simp [enter, entering]

/-- The polynomial is taken where the bit that leaves differs from the one that enters. -/
theorem enter_eq (poly v : UInt64) (b : Bool) :
    enter low poly v b = if lead low v ^^ b then advance low v ^^^ poly else advance low v := by
  unfold enter feed
  simp only [lead_xor, lead_entering, advance_xor, advance_entering, UInt64.xor_zero]

theorem bit_enter (poly v : UInt64) (b : Bool) (i : Nat) :
    bit (enter low poly v b) i = (bit (advance low v) i ^^ ((lead low v ^^ b) && bit poly i)) := by
  rw [enter_eq]
  split
  · rename_i h
    simp [h]
  · rename_i h
    simp [h]

/-- Of a word that is added to the register only the leading bit takes part in the next step. -/
theorem feed_xor (poly v c : UInt64) :
    feed low poly (v ^^^ c) = enter low poly v (lead low c) ^^^ advance low c := by
  rw [enter_eq, feed, lead_xor, advance_xor]
  split
  · ac_rfl
  · rfl

/-- Adding a word and then moving on is the same as letting its bits enter one by one. -/
theorem iterate_feed_xor (poly v c : UInt64) (n : Nat) :
    (feed low poly)^[n] (v ^^^ c) =
      (leadingBits low n c).foldl (enter low poly) v ^^^ (advance low)^[n] c := by
  induction n generalizing v c with
  | zero => rfl
  | succ n ih =>
    rw [Function.iterate_succ_apply, Function.iterate_succ_apply, feed_xor, ih]
    rfl

theorem foldl_enter_zero (poly v : UInt64) :
    (byteBits low 0).foldl (enter low poly) v = (feed low poly)^[8] v := by
  cases low <;> simp [byteBits, bitOf_eq, enter_false]

/-- Eight steps depend on the leading byte, and move the others. -/
theorem feed_eight (poly v : UInt64) :
    (feed low poly)^[8] v =
      (feed low poly)^[8] (place low (head low v)) ^^^ (advance low)^[8] v := by
  -- Apart from its leading byte, no bit of the register leaves in eight steps.
  have hv : v = place low (head low v) ^^^ (v ^^^ place low (head low v)) := by
    rw [UInt64.xor_comm v, ← UInt64.xor_assoc, UInt64.xor_self, UInt64.zero_xor]
  have hh : head low (v ^^^ place low (head low v)) = 0 := by
    rw [head_xor, head_place, UInt8.xor_self]
  conv_lhs => rw [hv]
  rw [iterate_feed_xor, leadingBits_eight, hh, foldl_enter_zero, advance_eight_xor, advance_place,
    UInt64.xor_zero]

/-- Adding a byte and taking eight steps is the same as letting its bits enter one by one. -/
theorem iterate_feed_place (poly v : UInt64) (b : UInt8) :
    (feed low poly)^[8] (v ^^^ place low b) = (byteBits low b).foldl (enter low poly) v := by
  rw [iterate_feed_xor, leadingBits_eight, head_place, advance_place, UInt64.xor_zero]

/-- Letting a byte enter bit by bit, from the entry for the byte that leaves. -/
theorem foldl_enter (poly v : UInt64) (b : UInt8) :
    (byteBits low b).foldl (enter low poly) v =
      (feed low poly)^[8] (place low (head low v ^^^ b)) ^^^ (advance low)^[8] v := by
  rw [← iterate_feed_place, feed_eight, head_xor, head_place, advance_eight_xor, advance_place,
    UInt64.xor_zero]

end DigestFinder.Crc
