import DigestFinder.Checksum.Streaming

/-! Adler-32: the sum of the bytes and the sum of these sums, modulo 65521. -/

namespace DigestFinder.Adler32

structure State where
  a : UInt32
  b : UInt32
  deriving Repr, DecidableEq

def start : State := ⟨1, 0⟩

def modulus : UInt32 := 65521

/-- The most bytes that can be added to reduced sums without passing 2 ^ 32. -/
def run : Nat := 5552

@[inline] def add (s : State) (byte : UInt8) : State :=
  let a := s.a + byte.toUInt32
  ⟨a, s.b + a⟩

def reduce (s : State) : State := ⟨s.a % modulus, s.b % modulus⟩

/-- Sums are reduced after each run of bytes. -/
def absorb (s : State) (data : Bytes) : State :=
  if data = [] then s
  else absorb (reduce ((data.take run).foldl add s)) (data.drop run)
termination_by data.length
decreasing_by
  have : 0 < data.length := List.length_pos_iff.mpr ‹_›
  simp [run]
  omega

def result (s : State) : Bytes := Bytes.ofWord 4 ((s.b <<< 16) ||| s.a).toUInt64

def streaming : Streaming where
  State := State
  start := start
  absorb := absorb
  reset _ := start
  result := result
  bits := 32

end DigestFinder.Adler32
