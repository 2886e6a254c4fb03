import DigestFinder.Hash.XxHash.Lane

/-!
XXH32 and XXH64 with seed zero. Four lanes take the stripes of the message, what is left enters
word by word and byte by byte.
-/

namespace DigestFinder.XxHash

namespace Xxh32

@[inline] def lane (acc : UInt32) (word : UInt32) : UInt32 :=
  rotate32 (acc + word * prime32_2) 13 * prime32_1

/-- Take `n` stripes of sixteen bytes and join the lanes. -/
def stripes (v w x y : UInt32) : Nat → Bytes → UInt32
  | 0, _ => rotate32 v 1 + rotate32 w 7 + rotate32 x 12 + rotate32 y 18
  | n + 1, bs =>
    let piece (place : Nat) := (word32 bs place).toUInt32
    stripes (lane v (piece 0)) (lane w (piece 4)) (lane x (piece 8)) (lane y (piece 12)) n
      (bs.drop 16)

def tail (h : UInt32) : Bytes → UInt32
  | a :: b :: c :: d :: rest =>
    tail (rotate32 (h + (word32 [a, b, c, d] 0).toUInt32 * prime32_3) 17 * prime32_4) rest
  | a :: rest => tail (rotate32 (h + a.toUInt32 * prime32_5) 11 * prime32_1) rest
  | [] => h

def avalanche (h : UInt32) : UInt32 :=
  let h := (h ^^^ (h >>> 15)) * prime32_2
  let h := (h ^^^ (h >>> 13)) * prime32_3
  h ^^^ (h >>> 16)

def hash (bs : Bytes) : UInt32 :=
  let n := bs.length / 16
  let h :=
    if n = 0 then prime32_5
    else stripes (prime32_1 + prime32_2) prime32_2 0 (0 - prime32_1) n bs
  avalanche (tail (h + bs.length.toUInt32) (bs.drop (16 * n)))

def digest (bs : Bytes) : Bytes := Bytes.ofWord 4 (hash bs).toUInt64

end Xxh32

namespace Xxh64

@[inline] def lane (acc word : UInt64) : UInt64 := rotate64 (acc + word * prime64_2) 31 * prime64_1

def merge (h v : UInt64) : UInt64 := (h ^^^ lane 0 v) * prime64_1 + prime64_4

/-- Take `n` stripes of 32 bytes and join the lanes. -/
def stripes (v w x y : UInt64) : Nat → Bytes → UInt64
  | 0, _ =>
    [v, w, x, y].foldl merge (rotate64 v 1 + rotate64 w 7 + rotate64 x 12 + rotate64 y 18)
  | n + 1, bs =>
    stripes (lane v (word64 bs 0)) (lane w (word64 bs 8)) (lane x (word64 bs 16))
      (lane y (word64 bs 24)) n (bs.drop 32)

/-- Words of eight bytes. -/
def longTail (h : UInt64) : Nat → Bytes → UInt64
  | 0, _ => h
  | n + 1, bs =>
    longTail (rotate64 (h ^^^ lane 0 (word64 bs 0)) 27 * prime64_1 + prime64_4) n (bs.drop 8)

/-- At most one word of four bytes, and single bytes. -/
def tail (h : UInt64) : Bytes → UInt64
  | a :: b :: c :: d :: rest =>
    tail (rotate64 (h ^^^ (word32 [a, b, c, d] 0 * prime64_1)) 23 * prime64_2 + prime64_3) rest
  | a :: rest => tail (rotate64 (h ^^^ (a.toUInt64 * prime64_5)) 11 * prime64_1) rest
  | [] => h

def avalanche (h : UInt64) : UInt64 :=
  let h := (h ^^^ (h >>> 33)) * prime64_2
  let h := (h ^^^ (h >>> 29)) * prime64_3
  h ^^^ (h >>> 32)

def hash (bs : Bytes) : UInt64 :=
  let n := bs.length / 32
  let h :=
    if n = 0 then prime64_5
    else stripes (prime64_1 + prime64_2) prime64_2 0 (0 - prime64_1) n bs
  let rest := bs.drop (32 * n)
  let words := rest.length / 8
  avalanche (tail (longTail (h + bs.length.toUInt64) words rest) (rest.drop (8 * words)))

def digest (bs : Bytes) : Bytes := Bytes.ofWord 8 (hash bs)

end Xxh64

end DigestFinder.XxHash
