import DigestFinder.Crc.Word

/-!
CRC parameter sets: width, generator polynomial without its top bit, initial register, the
reflections of input and output, the final mask, and how the message length is mixed in.
-/

namespace DigestFinder.Crc

/-- How the message length follows the data into the register. -/
structure LengthInclusion where
  msFirst : Bool
  xor : Bytes
  deriving Repr, DecidableEq

/-- The bytes that stand for a length: the fewest that hold it, extended with zeros to the size of
the mask, in the stated order, with the mask on the leading ones. -/
def LengthInclusion.encode (l : LengthInclusion) (len : UInt64) : Bytes :=
  let bytes := (Bytes.littleEndian len.toNat).rightpad l.xor.length 0
  Bytes.xorLeading (if l.msFirst then bytes.reverse else bytes) l.xor

/-- The widths that a register can have. -/
abbrev ValidWidth (width : Nat) : Prop := minWidth ≤ width ∧ width ≤ maxWidth

structure Model where
  width : Nat
  poly : UInt64
  init : UInt64
  refIn : Bool
  refOut : Bool
  xorOut : UInt64
  length : Option LengthInclusion := none
  validWidth : ValidWidth width
  poly_le : poly ≤ mask width
  init_le : init ≤ mask width
  xorOut_le : xorOut ≤ mask width
  deriving DecidableEq

theorem and_mask_le (v : UInt64) (width : Nat) : v &&& mask width ≤ mask width := by
  rw [UInt64.le_iff_toNat_le, UInt64.toNat_and]
  exact Nat.and_le_right

namespace Model

/-- The model with the given values cut to the width. -/
def masked (width : Nat) (valid : ValidWidth width) (poly init : UInt64) (refIn refOut : Bool)
    (xorOut : UInt64) : Model where
  width := width
  poly := poly &&& Crc.mask width
  init := init &&& Crc.mask width
  refIn := refIn
  refOut := refOut
  xorOut := xorOut &&& Crc.mask width
  validWidth := valid
  poly_le := and_mask_le _ _
  init_le := and_mask_le _ _
  xorOut_le := and_mask_le _ _

/-- The same model with the message length mixed in. -/
def withLength (m : Model) (l : LengthInclusion) : Model := { m with length := some l }

@[inline] def mask (m : Model) : UInt64 := Crc.mask m.width

/-- The bytes of a digest. -/
def digestLength (m : Model) : Nat := byteLength m.width

/-- Apply the reflection of the output and the final mask. -/
def finish (m : Model) (register : UInt64) : UInt64 :=
  ((if m.refOut then reflect register m.width else register) ^^^ m.xorOut) &&& m.mask

end Model

end DigestFinder.Crc
