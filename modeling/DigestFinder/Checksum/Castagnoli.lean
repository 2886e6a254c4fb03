import DigestFinder.Checksum.Streaming

/-!
CRC-32C on its own: a right-shifting register over the reflected Castagnoli polynomial. The state
between pieces is the finished value, which is inverted before and after each piece.
-/

namespace DigestFinder.Castagnoli

def poly : UInt32 := 0x82f63b78

@[inline] def step (register : UInt32) : UInt32 :=
  if register &&& 1 != 0 then (register >>> 1) ^^^ poly else register >>> 1

/-- The eight bits of a byte enter at the low end, least significant first. -/
def absorbByte (register : UInt32) (b : UInt8) : UInt32 :=
  step (step (step (step (step (step (step (step (register ^^^ b.toUInt32))))))))

def append (value : UInt32) (data : Bytes) : UInt32 := ~~~(data.foldl absorbByte (~~~value))

theorem append_nil (value : UInt32) : append value [] = value := UInt32.not_not

theorem append_append (value : UInt32) (x y : Bytes) :
    append (append value x) y = append value (x ++ y) := by
  simp only [append, UInt32.not_not, List.foldl_append]

/-- The digest that keeps the finished value and has it continued with each piece. -/
def streamingOf (append : UInt32 → Bytes → UInt32) : Streaming where
  State := UInt32
  start := 0
  absorb := append
  reset _ := 0
  result value := Bytes.ofWord 4 value.toUInt64
  bits := 32

def streaming : Streaming := streamingOf append

end DigestFinder.Castagnoli
