import DigestFinder.Text.Base64
import DigestFinder.Text.Field
import DigestFinder.Text.Hex
import DigestFinder.Text.Numeral
import DigestFinder.Text.Radix
import DigestFinder.Text.Z85

/-! The written forms of a digest. -/

namespace DigestFinder

inductive Encoding
  | hex
  | hexUpper
  | decimal
  | octal
  | binary
  | base64
  | base64NoPadding
  | base64Url
  | z85
  deriving Repr, DecidableEq

namespace Encoding

/-- Every encoding, in the order in which they are shown. -/
def all : List Encoding :=
  [hex, hexUpper, decimal, octal, binary, base64, base64NoPadding, base64Url, z85]

theorem mem_all (e : Encoding) : e ∈ all := by cases e <;> decide

def name : Encoding → String
  | hex => "hex"
  | hexUpper => "hexup"
  | decimal => "dec"
  | octal => "oct"
  | binary => "bin"
  | base64 => "base64"
  | base64NoPadding => "base64-nopad"
  | base64Url => "base64url"
  | z85 => "z85"

/-- The other name by which an encoding can be asked for. -/
def alias? : Encoding → Option String
  | hex => "hexlc"
  | hexUpper => "hexuc"
  | decimal => "decimal"
  | octal => "octal"
  | binary => "binary"
  | base64 => "b64"
  | base64NoPadding => "base64-nopadding"
  | base64Url => "base64-url"
  | z85 => none

/-- The encoding of a name or alias, in any letter case. -/
def ofName? (s : String) : Option Encoding :=
  all.find? fun e => Text.sameLetters s e.name || e.alias?.any (Text.sameLetters s)

/-- How an unknown name is reported. -/
def unknownMessage (name : String) : String := s!"unknown encoding: {name}"

/-- Both cases are digits of their own in Base64 and Z85. -/
def caseSensitive : Encoding → Bool
  | base64 | base64NoPadding | base64Url | z85 => true
  | _ => false

/-- The eight bits of each byte, most significant first. -/
def bits (bs : Bytes) : List Char :=
  bs.flatMap fun (b : UInt8) =>
    [7, 6, 5, 4, 3, 2, 1, 0].map fun (i : UInt8) => if (b >>> i) &&& 1 = 1 then '1' else '0'

/-- The characters that stand for a digest. -/
def symbols : Encoding → Bytes → List Char
  | hex => Text.Hex.encode false
  | hexUpper => Text.Hex.encode true
  | decimal => fun bs => Text.digits 10 bs.toNat
  | octal => fun bs => Text.digits 8 bs.toNat
  | binary => bits
  | base64 => Text.Base64.encode .standard true
  | base64NoPadding => Text.Base64.encode .standard false
  | base64Url => Text.Base64.encode .urlSafe false
  | z85 => Text.Z85.encode

def encode (e : Encoding) (digest : Bytes) : String := String.ofList (e.symbols digest)

end Encoding

end DigestFinder
