import DigestFinder.Bytes

/-!
Digests that take their message in pieces. A result can be asked for at any time and does not
disturb the state; a reset makes room for another message.
-/

namespace DigestFinder

structure Streaming where
  State : Type
  start : State
  absorb : State → Bytes → State
  /-- Forget what has been absorbed. -/
  reset : State → State
  result : State → Bytes
  bits : Nat
  /-- The number of bytes that are processed together. -/
  blockSize : Nat := 1

/-- The digest of a whole message. -/
def Streaming.digest (s : Streaming) (data : Bytes) : Bytes := s.result (s.absorb s.start data)

/-- Start over with the given data, which stay in the state. -/
def Streaming.restart (s : Streaming) (state : s.State) (data : Bytes) : s.State :=
  s.absorb (s.reset state) data

/-- A digest that keeps the whole message and computes at the end. -/
def Streaming.ofFunction (digest : Bytes → Bytes) (bits blockSize : Nat) : Streaming where
  State := Bytes
  start := []
  absorb seen data := seen ++ data
  reset _ := []
  result := digest
  bits := bits
  blockSize := blockSize

end DigestFinder
