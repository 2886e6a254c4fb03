import DigestFinder.Text.Numeral
import DigestFinder.Text.Printable

/-!
Quoted texts and characters, as messages show them: the delimiter and the backslash are escaped,
and so is every character that does not stand for itself.
-/

namespace DigestFinder.Text

/-- One character inside quotes of the kind `delimiter`. -/
def escape (delimiter c : Char) : String :=
  if c = '\x00' then "\\0"
  else if c = '\t' then "\\t"
  else if c = '\r' then "\\r"
  else if c = '\n' then "\\n"
  else if c = delimiter ∨ c = '\\' then "\\" ++ c.toString
  else if ' ' ≤ c ∧ c ≤ '~' then c.toString
  else if standsAlone c then c.toString
  else "\\u\x7b" ++ numeral 16 c.toNat ++ "\x7d"

def quote (s : String) : String := "\"" ++ String.join (s.toList.map (escape '"')) ++ "\""

def quoteChar (c : Char) : String := "'" ++ escape '\'' c ++ "'"

end DigestFinder.Text
