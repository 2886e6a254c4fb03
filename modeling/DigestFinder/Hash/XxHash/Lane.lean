import DigestFinder.Bytes

/-! Little-endian words inside a message, and the arithmetic that the xxHash functions share. -/

namespace DigestFinder.XxHash

/-- The little-endian word of `n` bytes at a place; bytes beyond the end count as zero. -/
def word (n : Nat) (bs : Bytes) (place : Nat) : UInt64 :=
  ((bs.drop place).take n).foldr (fun b v => (v <<< 8) ||| b.toUInt64) 0

def word32 (bs : Bytes) (place : Nat) : UInt64 := word 4 bs place

def word64 (bs : Bytes) (place : Nat) : UInt64 := word 8 bs place

def rotate32 (x n : UInt32) : UInt32 := (x <<< n) ||| (x >>> (32 - n))

def rotate64 (x n : UInt64) : UInt64 := (x <<< n) ||| (x >>> (64 - n))

/-- Reverse the order of the low `n` bytes. -/
def swap (n : Nat) (x : UInt64) : UInt64 := Bytes.toWord (Bytes.ofWord n x).reverse

/-- The low and the high half of a product. -/
def product (x y : UInt64) : UInt64 × UInt64 :=
  let p := x.toNat * y.toNat
  (p.toUInt64, (p >>> 64).toUInt64)

/-- Exclusive or of the halves of a product. -/
def foldedProduct (x y : UInt64) : UInt64 :=
  let (low, high) := product x y
  low ^^^ high

def prime32_1 : UInt32 := 0x9e3779b1

def prime32_2 : UInt32 := 0x85ebca77

def prime32_3 : UInt32 := 0xc2b2ae3d

def prime32_4 : UInt32 := 0x27d4eb2f

def prime32_5 : UInt32 := 0x165667b1

def prime64_1 : UInt64 := 0x9e3779b185ebca87

def prime64_2 : UInt64 := 0xc2b2ae3d27d4eb4f

def prime64_3 : UInt64 := 0x165667b19e3779f9

def prime64_4 : UInt64 := 0x85ebca77c2b2ae63

def prime64_5 : UInt64 := 0x27d4eb2f165667c5

end DigestFinder.XxHash
