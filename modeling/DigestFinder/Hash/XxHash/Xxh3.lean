import DigestFinder.Hash.XxHash.Short

/-!
XXH3 with the default secret and seed zero, with 64 and with 128 bits of output. Messages of up to
16, 128 and 240 bytes are mixed by products of their words; longer ones run through eight
accumulators.
-/

namespace DigestFinder.XxHash.Xxh3

def secret : Bytes := [
   0xb8, 0xfe, 0x6c, 0x39, 0x23, 0xa4, 0x4b, 0xbe, 0x7c, 0x01, 0x81, 0x2c, 0xf7, 0x21, 0xad, 0x1c,
   0xde, 0xd4, 0x6d, 0xe9, 0x83, 0x90, 0x97, 0xdb, 0x72, 0x40, 0xa4, 0xa4, 0xb7, 0xb3, 0x67, 0x1f,
   0xcb, 0x79, 0xe6, 0x4e, 0xcc, 0xc0, 0xe5, 0x78, 0x82, 0x5a, 0xd0, 0x7d, 0xcc, 0xff, 0x72, 0x21,
   0xb8, 0x08, 0x46, 0x74, 0xf7, 0x43, 0x24, 0x8e, 0xe0, 0x35, 0x90, 0xe6, 0x81, 0x3a, 0x26, 0x4c,
   0x3c, 0x28, 0x52, 0xbb, 0x91, 0xc3, 0x00, 0xcb, 0x88, 0xd0, 0x65, 0x8b, 0x1b, 0x53, 0x2e, 0xa3,
   0x71, 0x64, 0x48, 0x97, 0xa2, 0x0d, 0xf9, 0x4e, 0x38, 0x19, 0xef, 0x46, 0xa9, 0xde, 0xac, 0xd8,
   0xa8, 0xfa, 0x76, 0x3f, 0xe3, 0x9c, 0x34, 0x3f, 0xf9, 0xdc, 0xbb, 0xc7, 0xc7, 0x0b, 0x4f, 0x1d,
   0x8a, 0x51, 0xe0, 0x4b, 0xcd, 0xb4, 0x59, 0x31, 0xc8, 0x9f, 0x7e, 0xc9, 0xd9, 0x78, 0x73, 0x64,
   0xea, 0xc5, 0xac, 0x83, 0x34, 0xd3, 0xeb, 0xc3, 0xc5, 0x81, 0xa0, 0xff, 0xfa, 0x13, 0x63, 0xeb,
   0x17, 0x0d, 0xdd, 0x51, 0xb7, 0xf0, 0xda, 0x49, 0xd3, 0x16, 0x55, 0x26, 0x29, 0xd4, 0x68, 0x9e,
   0x2b, 0x16, 0xbe, 0x58, 0x7d, 0x47, 0xa1, 0xfc, 0x8f, 0xf8, 0xb8, 0xd1, 0x7a, 0xd0, 0x31, 0xce,
   0x45, 0xcb, 0x3a, 0x8f, 0x95, 0x16, 0x04, 0x28, 0xaf, 0xd7, 0xfb, 0xca, 0xbb, 0x4b, 0x40, 0x7e]

/-- A 64-bit word of the secret. -/
def key (place : Nat) : UInt64 := word64 secret place

/-- Two words of the secret, joined. -/
def flip (place : Nat) : UInt64 := key place ^^^ key (place + 8)

/-- Two half words of the secret, joined. -/
def flip32 (place : Nat) : UInt64 := word32 secret place ^^^ word32 secret (place + 4)

def shiftXor (h n : UInt64) : UInt64 := h ^^^ (h >>> n)

def avalanche (h : UInt64) : UInt64 := shiftXor (shiftXor h 37 * 0x165667919e3779f9) 32

def mixingPrime : UInt64 := 0x9fb21c651e98df25

/-- Sixteen bytes of the message with as many of the secret. -/
def mix16 (bs : Bytes) (place keyPlace : Nat) : UInt64 :=
  foldedProduct (word64 bs place ^^^ key keyPlace) (word64 bs (place + 8) ^^^ key (keyPlace + 8))

/-- The first, middle and last byte of a message of one to three, and its length. -/
def combined (bs : Bytes) : UInt64 :=
  let len := bs.length
  (word 1 bs 0 <<< 16) ||| (word 1 bs (len / 2) <<< 24) ||| word 1 bs (len - 1) |||
    (len.toUInt64 <<< 8)

/-- The two words of the longer output. -/
structure Pair where
  low : UInt64
  high : UInt64
  deriving Repr, DecidableEq

def Pair.avalanche (p : Pair) : Pair := ⟨Xxh3.avalanche p.low, Xxh3.avalanche p.high⟩

/-- Sixteen bytes at each of two places enter the pair. -/
def Pair.mix32 (bs : Bytes) (p : Pair) (place place2 keyPlace : Nat) : Pair where
  low := (p.low + mix16 bs place keyPlace) ^^^ (word64 bs place2 + word64 bs (place2 + 8))
  high := (p.high + mix16 bs place2 (keyPlace + 16)) ^^^ (word64 bs place + word64 bs (place + 8))

/-- The pair of a message of 17 to 240 bytes, brought together. -/
def Pair.finish (p : Pair) (len : Nat) : Pair :=
  let q := Pair.avalanche ⟨p.low + p.high,
    p.low * prime64_1 + p.high * prime64_4 + len.toUInt64 * prime64_2⟩
  ⟨q.low, 0 - q.high⟩

/-- A message of up to 128 bytes is taken from both ends at once; these are the steps from the
ends, the innermost first. -/
def inwardSteps (len : Nat) : List Nat :=
  if 96 < len then [3, 2, 1, 0]
  else if 64 < len then [2, 1, 0]
  else if 32 < len then [1, 0]
  else [0]

abbrev Accumulators := Vector UInt64 8

def initialAccumulators : Accumulators :=
  #v[prime32_3.toUInt64, prime64_1, prime64_2, prime64_3, prime64_4, prime32_2.toUInt64, prime64_5,
    prime32_1.toUInt64]

/-- A stripe of 64 bytes: each word enters its neighbour, and keyed its own accumulator. -/
def accumulate (acc : Accumulators) (stripe : Bytes) (keyPlace : Nat) : Accumulators :=
  let words : Accumulators := Vector.ofFn fun i => word64 stripe (8 * i.val)
  Vector.ofFn fun i =>
    let keyed := words.get i ^^^ key (keyPlace + 8 * i.val)
    let low := keyed &&& 0xffffffff
    acc.get i + words.get (i ^^^ 1) + low * (keyed >>> 32)

def scramble (acc : Accumulators) : Accumulators :=
  Vector.ofFn fun i => (shiftXor (acc.get i) 47 ^^^ key (128 + 8 * i.val)) * prime32_1.toUInt64

/-- Take `n` stripes; a scramble follows the one of index 15, and the count starts again. -/
def stripes (acc : Accumulators) (index : Nat) : Nat → Bytes → Accumulators
  | 0, _ => acc
  | n + 1, bs =>
    let acc := accumulate acc bs (8 * index)
    if index = 15 then stripes (scramble acc) 0 n (bs.drop 64)
    else stripes acc (index + 1) n (bs.drop 64)

/-- The accumulators after a message of more than 240 bytes. Its last 64 bytes are a stripe of
their own. -/
def accumulators (bs : Bytes) : Accumulators :=
  let acc := stripes initialAccumulators 0 ((bs.length - 1) / 64) bs
  accumulate acc (bs.drop (bs.length - 64)) 121

def mergeAccumulators (acc : Accumulators) (keyPlace : Nat) (start : UInt64) : UInt64 :=
  let keyed (i : Fin 8) : UInt64 := acc.get i ^^^ key (keyPlace + 8 * i.val)
  avalanche (start + foldedProduct (keyed 0) (keyed 1) + foldedProduct (keyed 2) (keyed 3) +
    foldedProduct (keyed 4) (keyed 5) + foldedProduct (keyed 6) (keyed 7))

def hash64 (bs : Bytes) : UInt64 :=
  let len := bs.length
  let start := len.toUInt64 * prime64_1
  if len = 0 then Xxh64.avalanche (flip 56)
  else if len ≤ 3 then Xxh64.avalanche (combined bs ^^^ flip32 0)
  else if len ≤ 8 then
    let h := (word32 bs (len - 4) + (word32 bs 0 <<< 32)) ^^^ flip 8
    let h := (h ^^^ rotate64 h 49 ^^^ rotate64 h 24) * mixingPrime
    let h := (h ^^^ ((h >>> 35) + len.toUInt64)) * mixingPrime
    shiftXor h 28
  else if len ≤ 16 then
    let low := word64 bs 0 ^^^ flip 24
    let high := word64 bs (len - 8) ^^^ flip 40
    avalanche (len.toUInt64 + swap 8 low + high + foldedProduct low high)
  else if len ≤ 128 then
    avalanche ((inwardSteps len).foldl (fun acc i => acc + mix16 bs (16 * i) (32 * i) +
      mix16 bs (len - 16 * (i + 1)) (32 * i + 16)) start)
  else if len ≤ 240 then
    let acc := (List.range 8).foldl (fun acc i => acc + mix16 bs (16 * i) (16 * i)) start
    let acc := (List.range (len / 16 - 8)).foldl
      (fun acc i => acc + mix16 bs (16 * (i + 8)) (16 * i + 3)) (avalanche acc)
    avalanche (acc + mix16 bs (len - 16) 119)
  else mergeAccumulators (accumulators bs) 11 start

def hash128 (bs : Bytes) : Pair :=
  let len := bs.length
  let start := len.toUInt64 * prime64_1
  if len = 0 then ⟨Xxh64.avalanche (flip 64), Xxh64.avalanche (flip 80)⟩
  else if len ≤ 3 then
    let low := combined bs
    let high := rotate32 (swap 4 low).toUInt32 13
    ⟨Xxh64.avalanche (low ^^^ flip32 0), Xxh64.avalanche (high.toUInt64 ^^^ flip32 8)⟩
  else if len ≤ 8 then
    let keyed := (word32 bs 0 + (word32 bs (len - 4) <<< 32)) ^^^ flip 16
    let (low, high) := product keyed (prime64_1 + (len.toUInt64 <<< 2))
    let high := high + (low <<< 1)
    let low := low ^^^ (high >>> 3)
    ⟨shiftXor (shiftXor low 35 * mixingPrime) 28, avalanche high⟩
  else if len ≤ 16 then
    let last := word64 bs (len - 8)
    let (low, high) := product (word64 bs 0 ^^^ last ^^^ flip 32) prime64_1
    let low := low + ((len.toUInt64 - 1) <<< 54)
    let last := last ^^^ flip 48
    let lastLow := last &&& 0xffffffff
    let high := high + last + lastLow * (prime32_2 - 1).toUInt64
    let low := low ^^^ swap 8 high
    let (l, h) := product low prime64_2
    Pair.avalanche ⟨l, h + high * prime64_2⟩
  else if len ≤ 128 then
    ((inwardSteps len).foldl
      (fun p i => p.mix32 bs (16 * i) (len - 16 * (i + 1)) (32 * i)) (Pair.mk start 0)).finish len
  else if len ≤ 240 then
    let p := (List.range 4).foldl
      (fun p i => p.mix32 bs (32 * i) (32 * i + 16) (32 * i)) (Pair.mk start 0)
    let p := (List.range (len / 32 - 4)).foldl
      (fun p i => p.mix32 bs (32 * (i + 4)) (32 * (i + 4) + 16) (32 * i + 3)) p.avalanche
    (p.mix32 bs (len - 16) (len - 32) 103).finish len
  else
    let acc := accumulators bs
    ⟨mergeAccumulators acc 11 start, mergeAccumulators acc 117 (~~~(len.toUInt64 * prime64_2))⟩

def digest64 (bs : Bytes) : Bytes := Bytes.ofWord 8 (hash64 bs)

/-- The high word comes first. -/
def digest128 (bs : Bytes) : Bytes :=
  let p := hash128 bs
  Bytes.ofWord 8 p.high ++ Bytes.ofWord 8 p.low

end DigestFinder.XxHash.Xxh3
