import DigestFinder.Checksum.Streaming

/-! Fletcher-16: the sum of the bytes and the sum of these sums, modulo 255. -/

namespace DigestFinder.Fletcher16

structure State where
  c0 : UInt16
  c1 : UInt16
  deriving Repr, DecidableEq

@[inline] def add (s : State) (byte : UInt8) : State :=
  let c0 := (s.c0 + byte.toUInt16) % 255
  ⟨c0, (s.c1 + c0) % 255⟩

def start : State := ⟨0, 0⟩

def result (s : State) : Bytes := Bytes.ofWord 2 ((s.c1 <<< 8) ||| s.c0).toUInt64

def streaming : Streaming where
  State := State
  start := start
  absorb := List.foldl add
  reset _ := start
  result := result
  bits := 16

end DigestFinder.Fletcher16
