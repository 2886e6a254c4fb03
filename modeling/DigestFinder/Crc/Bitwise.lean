import DigestFinder.Crc.Model

/-!
The reference computation: message bits enter one at a time at the top of the register, which
shifts left and takes the polynomial where the bit that leaves differs from the one that enters.
-/

namespace DigestFinder.Crc.Model

@[inline] def step (m : Model) (register : UInt64) (bit : Bool) : UInt64 :=
  let shifted := (register <<< 1) &&& m.mask
  if (register &&& topBit m.width != 0) != bit then shifted ^^^ m.poly else shifted

/-- The eight bits of a byte enter in the order that the model sets. -/
def absorbByte (m : Model) (register : UInt64) (b : UInt8) : UInt64 :=
  let bit := bitOf b
  if m.refIn then
    m.step (m.step (m.step (m.step (m.step (m.step (m.step (m.step register
      (bit 0)) (bit 1)) (bit 2)) (bit 3)) (bit 4)) (bit 5)) (bit 6)) (bit 7)
  else
    m.step (m.step (m.step (m.step (m.step (m.step (m.step (m.step register
      (bit 7)) (bit 6)) (bit 5)) (bit 4)) (bit 3)) (bit 2)) (bit 1)) (bit 0)

theorem absorbByte_eq_foldl (m : Model) (register : UInt64) (b : UInt8) :
    m.absorbByte register b = (byteBits m.refIn b).foldl m.step register := by
  unfold absorbByte byteBits
  split <;> rfl

def absorb (m : Model) (register : UInt64) (data : Bytes) : UInt64 :=
  data.foldl m.absorbByte register

@[simp] theorem absorb_nil (m : Model) (register : UInt64) : m.absorb register [] = register := rfl

@[simp] theorem absorb_cons (m : Model) (register : UInt64) (b : UInt8) (data : Bytes) :
    m.absorb register (b :: data) = m.absorb (m.absorbByte register b) data := rfl

@[simp] theorem absorb_append (m : Model) (register : UInt64) (front back : Bytes) :
    m.absorb register (front ++ back) = m.absorb (m.absorb register front) back :=
  List.foldl_append

/-- The bytes that follow the data into the register. -/
def trailer (m : Model) (length : UInt64) : Bytes :=
  match m.length with
  | some l => l.encode length
  | none => []

/-- The CRC of a message. -/
def crc (m : Model) (data : Bytes) : UInt64 :=
  m.finish (m.absorb (m.absorb m.init data) (m.trailer data.length.toUInt64))

/-- The CRC as big-endian bytes. -/
def digest (m : Model) (data : Bytes) : Bytes := toBytes (m.crc data) m.width

end DigestFinder.Crc.Model
