import DigestFinder.Text.Numeral
import DigestFinder.Text.Shortest

/-! JSON values, and their text with one item a line. -/

namespace DigestFinder.Text

inductive Json
  | null
  | bool (b : Bool)
  | integer (n : Int)
  /-- A floating-point number, by its bits. -/
  | real (bits : UInt64)
  | string (s : String)
  | array (items : List Json)
  | object (fields : List (String × Json))
  deriving Repr, Inhabited

namespace Json

/-- Whole numbers keep a decimal place; an exponent is written with its sign, from 17 digits in front
of the point and from five zeros behind it. -/
def realFormat : DecimalFormat := ⟨16, 4, "e", "+"⟩

/-- One character of a string. Control characters are escaped, all others stand for themselves. -/
def escape (c : Char) : String :=
  match c with
  | '"' => "\\\""
  | '\\' => "\\\\"
  | '\n' => "\\n"
  | '\r' => "\\r"
  | '\t' => "\\t"
  | '\x08' => "\\b"
  | '\x0c' => "\\f"
  | c =>
    if c.toNat < 32 then
      let digits := Nat.toDigits 16 c.toNat
      "\\u" ++ String.ofList (List.replicate (4 - digits.length) '0' ++ digits)
    else c.toString

def quoted (s : String) : String := "\"" ++ String.join (s.toList.map escape) ++ "\""

/-- Put the lines of items between brackets, each item indented. -/
def bracket (opening closing indent : String) : List String → String
  | [] => opening ++ closing
  | items =>
    let inner := indent ++ "  "
    opening ++ "\n" ++ inner ++ String.intercalate (",\n" ++ inner) items ++ "\n" ++ indent ++
      closing

mutual

def pretty (indent : String) : Json → String
  | null => "null"
  | bool b => if b then "true" else "false"
  | integer n => toString n
  | real bits => realFormat.writeBits bits
  | string s => quoted s
  | array items => bracket "[" "]" indent (prettyItems (indent ++ "  ") items)
  | object fields => bracket "\x7b" "\x7d" indent (prettyFields (indent ++ "  ") fields)

def prettyItems (indent : String) : List Json → List String
  | [] => []
  | item :: rest => pretty indent item :: prettyItems indent rest

def prettyFields (indent : String) : List (String × Json) → List String
  | [] => []
  | (key, value) :: rest =>
    (quoted key ++ ": " ++ pretty indent value) :: prettyFields indent rest

end

end Json

end DigestFinder.Text
