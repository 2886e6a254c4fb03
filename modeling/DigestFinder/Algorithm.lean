import DigestFinder.Checksum.Adler
import DigestFinder.Checksum.Castagnoli
import DigestFinder.Checksum.Fletcher
import DigestFinder.Checksum.Fnv
import DigestFinder.Checksum.Sum
import DigestFinder.Crc.Engine
import DigestFinder.Hash.Sha2
import DigestFinder.Hash.XxHash.Xxh3

/-! The digest algorithms, what digests are made from, and a digest under way. -/

namespace DigestFinder

universe u

/-- The algorithms without parameters. -/
inductive Named
  | crc32c
  | adler32
  | fletcher16
  | sum8
  | sum16
  | sum24
  | sum32
  | systemV
  | bsd
  | elf
  | xor8
  | fnv (size : Fnv.Size) (variant : Fnv.Variant)
  | xxh32
  | xxh64
  | xxh3Short
  | xxh3Long
  | sha224
  | sha256
  | sha384
  | sha512
  | sha512Cut224
  | sha512Cut256
  deriving Repr, DecidableEq

/-- The hash functions, and the function that continues a CRC-32C: what a digest needs of them is
no more than that its value depends on the bytes that it was fed. -/
structure Hashes where
  castagnoli : UInt32 → Bytes → UInt32
  castagnoli_nil : castagnoli 0 [] = 0
  castagnoli_append : ∀ x y, castagnoli (castagnoli 0 x) y = castagnoli 0 (x ++ y)
  xxh32 : Bytes → Bytes
  xxh64 : Bytes → Bytes
  xxh3Short : Bytes → Bytes
  xxh3Long : Bytes → Bytes
  sha224 : Bytes → Bytes
  sha256 : Bytes → Bytes
  sha384 : Bytes → Bytes
  sha512 : Bytes → Bytes
  sha512Cut224 : Bytes → Bytes
  sha512Cut256 : Bytes → Bytes

namespace Hashes

/-- The functions that are computed here. -/
def own : Hashes where
  castagnoli := Castagnoli.append
  castagnoli_nil := Castagnoli.append_nil 0
  castagnoli_append := Castagnoli.append_append 0
  xxh32 := XxHash.Xxh32.digest
  xxh64 := XxHash.Xxh64.digest
  xxh3Short := XxHash.Xxh3.digest64
  xxh3Long := XxHash.Xxh3.digest128
  sha224 := Sha2.sha224
  sha256 := Sha2.sha256
  sha384 := Sha2.sha384
  sha512 := Sha2.sha512
  sha512Cut224 := Sha2.sha512Cut224
  sha512Cut256 := Sha2.sha512Cut256

def streaming (h : Hashes) : Named → Streaming
  | .crc32c => Castagnoli.streamingOf h.castagnoli
  | .adler32 => Adler32.streaming
  | .fletcher16 => Fletcher16.streaming
  | .sum8 => ByteSum.streaming 1
  | .sum16 => ByteSum.streaming 2
  | .sum24 => ByteSum.streaming 3
  | .sum32 => ByteSum.streaming 4
  | .systemV => SystemVSum.streaming
  | .bsd => BsdSum.streaming
  | .elf => ElfHash.streaming
  | .xor8 => Xor8.streaming
  | .fnv size variant => Fnv.streaming size variant
  | .xxh32 => .ofFunction h.xxh32 32 16
  | .xxh64 => .ofFunction h.xxh64 64 32
  | .xxh3Short => .ofFunction h.xxh3Short 64 64
  | .xxh3Long => .ofFunction h.xxh3Long 128 64
  | .sha224 => .ofFunction h.sha224 224 64
  | .sha256 => .ofFunction h.sha256 256 64
  | .sha384 => .ofFunction h.sha384 384 128
  | .sha512 => .ofFunction h.sha512 512 128
  | .sha512Cut224 => .ofFunction h.sha512Cut224 224 128
  | .sha512Cut256 => .ofFunction h.sha512Cut256 256 128

end Hashes

def Named.streaming (n : Named) : Streaming := Hashes.own.streaming n

/-- A CRC as a digest. -/
def Crc.Model.streaming (m : Crc.Model) : Streaming where
  State := Crc.Engine m
  start := Crc.Engine.start m
  absorb := Crc.Engine.update
  reset := Crc.Engine.reset
  result := Crc.Engine.digest
  bits := m.width

/-- What digests are made from: a CRC model, or something else of any kind. -/
inductive Factory (δ : Type u)
  | crc (model : Crc.Model)
  | named (kind : δ)
  deriving DecidableEq

/-- The digest that is made, by the given function where it is no CRC. -/
def Factory.streaming {δ : Type u} (make : δ → Streaming) : Factory δ → Streaming
  | crc model => model.streaming
  | named kind => make kind

/-- The algorithms of this library. -/
abbrev Algorithm := Factory Named

def Algorithm.streaming (a : Algorithm) : Streaming := Factory.streaming Named.streaming a

/-- The digest of a whole message. -/
def Algorithm.digest (a : Algorithm) (data : Bytes) : Bytes := a.streaming.digest data

/-- A digest under way. -/
structure Hasher where
  algorithm : Algorithm
  state : algorithm.streaming.State

namespace Hasher

def start (a : Algorithm) : Hasher := ⟨a, a.streaming.start⟩

def bits (h : Hasher) : Nat := h.algorithm.streaming.bits

def blockSize (h : Hasher) : Nat := h.algorithm.streaming.blockSize

def update (h : Hasher) (data : Bytes) : Hasher :=
  { h with state := h.algorithm.streaming.absorb h.state data }

/-- The digest of everything fed since the start or the last reset. -/
def value (h : Hasher) : Bytes := h.algorithm.streaming.result h.state

def reset (h : Hasher) : Hasher :=
  { h with state := h.algorithm.streaming.reset h.state }

/-- Start over with the given data, which stay in the state. -/
def restart (h : Hasher) (data : Bytes) : Hasher :=
  { h with state := h.algorithm.streaming.restart h.state data }

end Hasher

end DigestFinder
