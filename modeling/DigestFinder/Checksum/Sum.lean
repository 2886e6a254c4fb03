import DigestFinder.Checksum.Streaming

/-! Checksums with one number for a state: sums, exclusive or, and the rotating and hashing ones. -/

namespace DigestFinder

namespace ByteSum

/-- Add a byte modulo 2 to the power of `bits`. -/
@[inline] def add (bits : Nat) (sum : UInt64) (byte : UInt8) : UInt64 :=
  (sum + byte.toUInt64) &&& ((1 <<< bits.toUInt64) - 1)

/-- The sum of all bytes, in `length` bytes. -/
def streaming (length : Nat) : Streaming where
  State := UInt64
  start := 0
  absorb := List.foldl (add (8 * length))
  reset _ := 0
  result := Bytes.ofWord length
  bits := 8 * length

end ByteSum

namespace SystemVSum

@[inline] def add (sum : UInt64) (byte : UInt8) : UInt64 := sum + byte.toUInt64

/-- Add the bits above the low sixteen to these. -/
def carry (s : UInt64) : UInt64 :=
  let low := s &&& 0xffff
  low + (s >>> 16)

/-- Fold the low 32 bits of the sum into 16, twice. -/
def fold (sum : UInt64) : UInt16 := (carry (carry (sum &&& 0xffffffff))).toUInt16

def streaming : Streaming where
  State := UInt64
  start := 0
  absorb := List.foldl add
  reset _ := 0
  result sum := Bytes.ofWord 2 (fold sum).toUInt64
  bits := 16

end SystemVSum

namespace BsdSum

/-- Rotate right by one bit, then add. -/
@[inline] def add (sum : UInt16) (byte : UInt8) : UInt16 :=
  ((sum >>> 1) ||| (sum <<< 15)) + byte.toUInt16

def streaming : Streaming where
  State := UInt16
  start := 0
  absorb := List.foldl add
  reset _ := 0
  result sum := Bytes.ofWord 2 sum.toUInt64
  bits := 16

end BsdSum

namespace Xor8

def streaming : Streaming where
  State := UInt8
  start := 0
  absorb := List.foldl (· ^^^ ·)
  reset _ := 0
  result value := [value]
  bits := 8

end Xor8

namespace ElfHash

/-- Shift by four bits and add; the bits that reach the top four are folded back and cleared. -/
@[inline] def add (hash : UInt32) (byte : UInt8) : UInt32 :=
  let hash := (hash <<< 4) + byte.toUInt32
  let high : UInt32 := hash &&& 0xf0000000
  (hash ^^^ (high >>> 24)) &&& ~~~high

def streaming : Streaming where
  State := UInt32
  start := 0
  absorb := List.foldl add
  reset _ := 0
  result hash := Bytes.ofWord 4 hash.toUInt64
  bits := 32

end ElfHash

end DigestFinder
