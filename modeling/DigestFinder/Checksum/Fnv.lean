import DigestFinder.Checksum.Streaming

/-! Fowler-Noll-Vo hashes of 32 and 64 bits. -/

namespace DigestFinder.Fnv

inductive Size
  | bits32
  | bits64
  deriving Repr, DecidableEq

/-- FNV-0 starts at zero; FNV-1a takes the byte before it multiplies, the others after. -/
inductive Variant
  | fnv0
  | fnv1
  | fnv1a
  deriving Repr, DecidableEq

namespace Size

def bytes : Size → Nat
  | bits32 => 4
  | bits64 => 8

def prime : Size → UInt64
  | bits32 => 0x01000193
  | bits64 => 0x00000100000001b3

def mask : Size → UInt64
  | bits32 => 0xffffffff
  | bits64 => 0xffffffffffffffff

def offsetBasis : Size → UInt64
  | bits32 => 0x811c9dc5
  | bits64 => 0xcbf29ce484222325

end Size

def start (size : Size) : Variant → UInt64
  | .fnv0 => 0
  | .fnv1 | .fnv1a => size.offsetBasis

@[inline] def add (size : Size) (variant : Variant) (hash : UInt64) (byte : UInt8) : UInt64 :=
  match variant with
  | .fnv0 | .fnv1 => ((hash * size.prime) &&& size.mask) ^^^ byte.toUInt64
  | .fnv1a => ((hash ^^^ byte.toUInt64) * size.prime) &&& size.mask

def streaming (size : Size) (variant : Variant) : Streaming where
  State := UInt64
  start := start size variant
  absorb := List.foldl (add size variant)
  reset _ := start size variant
  result := Bytes.ofWord size.bytes
  bits := 8 * size.bytes

end DigestFinder.Fnv
