/-!
Byte strings, and the two ways a number is written as bytes: big-endian at a fixed length, and
little-endian at the least length.
-/

namespace DigestFinder

abbrev Bytes := List UInt8

namespace Bytes

/-- The low `n` bytes of a word, most significant first. -/
def ofWord : Nat → UInt64 → Bytes
  | 0, _ => []
  | n + 1, v => (v >>> (8 * n).toUInt64).toUInt8 :: ofWord n v

@[simp] theorem length_ofWord (n : Nat) (v : UInt64) : (ofWord n v).length = n := by
  induction n with
  | zero => rfl
  | succ n ih => simp [ofWord, ih]

/-- The big-endian value, as a word: bytes beyond the last eight are shifted out. -/
def toWord (bs : Bytes) : UInt64 := bs.foldl (fun v b => (v <<< 8) ||| b.toUInt64) 0

/-- The big-endian value. -/
def toNat (bs : Bytes) : Nat := bs.foldl (fun n b => n * 256 + b.toNat) 0

/-- The fewest little-endian bytes that hold `n`: none for zero. -/
def littleEndian (n : Nat) : Bytes :=
  if n = 0 then [] else n.toUInt8 :: littleEndian (n / 256)
termination_by n
decreasing_by omega

/-- Combine the leading bytes with a mask; bytes that the mask does not reach stay. -/
def xorLeading : Bytes → Bytes → Bytes
  | b :: bs, x :: xs => (b ^^^ x) :: xorLeading bs xs
  | bs, _ => bs

@[simp] theorem length_xorLeading (bs xs : Bytes) : (xorLeading bs xs).length = bs.length := by
  fun_induction xorLeading bs xs <;> simp_all

/-- The UTF-8 bytes of a text. -/
def ofText (s : String) : Bytes := s.toList.flatMap String.utf8EncodeChar

end Bytes

end DigestFinder
