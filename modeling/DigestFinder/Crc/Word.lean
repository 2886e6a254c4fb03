import DigestFinder.Bytes

/-!
Words of 1 to 64 bits, held in the low bits of a `UInt64`. The width is always given.
-/

namespace DigestFinder.Crc

/-- The narrowest and the widest register. -/
def minWidth : Nat := 1

def maxWidth : Nat := 64

/-- The low `width` bits. -/
@[inline] def mask (width : Nat) : UInt64 := (-1 : UInt64) >>> (64 - width).toUInt64

/-- The highest bit of a register. -/
@[inline] def topBit (width : Nat) : UInt64 := 1 <<< (width - 1).toUInt64

/-- Move `n` bits from the low end of `v` to the low end of `acc`, the last one moved lowest. -/
def reverseOnto : Nat → UInt64 → UInt64 → UInt64
  | 0, _, acc => acc
  | n + 1, v, acc => reverseOnto n (v >>> 1) ((acc <<< 1) ||| (v &&& 1))

/-- The low `width` bits in reverse order; higher bits are dropped. -/
def reflect (v : UInt64) (width : Nat) : UInt64 := reverseOnto width v 0

/-- The bytes that a register fills. -/
@[inline] def byteLength (width : Nat) : Nat := (width + 7) / 8

/-- The low bytes of a value, big-endian, as many as the register fills. -/
def toBytes (v : UInt64) (width : Nat) : Bytes := Bytes.ofWord (byteLength width) v

@[simp] theorem length_toBytes (v : UInt64) (width : Nat) :
    (toBytes v width).length = byteLength width := by
  simp [toBytes]

/-- Bit `i` of a byte, counted from the least significant. -/
@[inline] def bitOf (b : UInt8) (i : UInt8) : Bool := (b >>> i) &&& 1 == 1

/-- The bits of a byte in the order in which they enter a register. -/
def byteBits (lsbFirst : Bool) (b : UInt8) : List Bool :=
  if lsbFirst then [0, 1, 2, 3, 4, 5, 6, 7].map (bitOf b)
  else [7, 6, 5, 4, 3, 2, 1, 0].map (bitOf b)

end DigestFinder.Crc
