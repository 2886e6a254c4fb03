import DigestFinder.Encoding
import DigestFinder.Text.Blank

/-! A digest that is looked for, as bytes or as written in some encoding. -/

namespace DigestFinder

inductive Expected
  | bytes (digest : Bytes)
  | text (value : String) (encoding : Encoding)
  deriving DecidableEq

namespace Expected

/-- A written digest; white space around it does not count. -/
def ofText (value : String) (encoding : Encoding) : Expected :=
  .text (Text.trimText value) encoding

/-- Whether two written digests are the same. -/
def sameText (expected computed : String) (encoding : Encoding) : Bool :=
  if encoding.caseSensitive then expected == computed else Text.sameLetters expected computed

/-- Bytes are compared as they are, a written digest with the digest in the same encoding. -/
def accepts : Expected → Bytes → Bool
  | .bytes digest, computed => digest == computed
  | .text value encoding, computed => sameText value (encoding.encode computed) encoding

def display : Expected → String
  | .bytes digest => Text.Hex.text digest
  | .text value encoding => s!"{value} ({encoding.name})"

end Expected

end DigestFinder
