import DigestFinder.Bytes

/-!
Z85: four bytes as five digits of base 85. A byte string that does not fill its frames is padded
with zero bytes on the left, so the digits keep its value.
-/

namespace DigestFinder.Text.Z85

def alphabet : List Char :=
  "0123456789abcdefghijklmnopqrstuvwxyzABCDEFGHIJKLMNOPQRSTUVWXYZ.-:+=^!/*?&<>()[]\x7b\x7d@%$#".toList

/-- The digit of a value below 85. -/
def digit (v : Nat) : Char := alphabet[v]?.getD '0'

/-- The five digits of a number below 2 ^ 32, most significant first. -/
def frame (n : Nat) : List Char :=
  [digit (n / 85 / 85 / 85 / 85 % 85), digit (n / 85 / 85 / 85 % 85), digit (n / 85 / 85 % 85),
   digit (n / 85 % 85), digit (n % 85)]

def encodeFrames : Bytes → List Char
  | a :: b :: c :: d :: rest => frame (Bytes.toNat [a, b, c, d]) ++ encodeFrames rest
  | _ => []

/-- Zero bytes in front, up to a multiple of four. -/
def padded (bs : Bytes) : Bytes := List.replicate ((4 - bs.length % 4) % 4) 0 ++ bs

def encode (bs : Bytes) : List Char := encodeFrames (padded bs)

end DigestFinder.Text.Z85
