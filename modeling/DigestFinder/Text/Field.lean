/-!
Texts made of fields: cutting at a separator and at line ends, filling a column, and comparing
without regard to the case of ASCII letters.
-/

namespace DigestFinder.Text

/-- The fields between separators; a text without separators is one field. -/
def splitAt (sep : Char) : List Char → List (List Char)
  | [] => [[]]
  | c :: cs =>
    if c = sep then [] :: splitAt sep cs
    else match splitAt sep cs with
      | [] => [[c]]
      | field :: fields => (c :: field) :: fields

/-- The parts before and after the first separator, if there is one. -/
def splitOnce (sep : Char) : List Char → Option (List Char × List Char)
  | [] => none
  | c :: cs =>
    if c = sep then some ([], cs)
    else (splitOnce sep cs).map fun (before, after) => (c :: before, after)

/-- Remove a leading word, if the text starts with it. -/
def dropPrefix? : List Char → List Char → Option (List Char)
  | [], cs => some cs
  | p :: ps, c :: cs => if p = c then dropPrefix? ps cs else none
  | _ :: _, [] => none

/-- The lines of a text: each ends at a line feed, with a carriage return before it taken off.
What follows the last line feed counts if it is not empty. -/
def lines (cs : List Char) : List (List Char) :=
  let parts := splitAt '\n' cs
  let ended := parts.dropLast.map fun l => if l.getLast? = some '\r' then l.dropLast else l
  match parts.getLast? with
  | some [] | none => ended
  | some rest => ended ++ [rest]

/-- Fill up with blanks on the right to at least `n` characters. -/
def column (n : Nat) (s : String) : String :=
  s ++ String.ofList (List.replicate (n - s.length) ' ')

/-- A text with the letters of ASCII in capitals. -/
def capitals (s : String) : String := String.ofList (s.toList.map Char.toUpper)

/-- Equality up to the case of ASCII letters. -/
def sameLetters (a b : String) : Bool := a.toList.map Char.toLower == b.toList.map Char.toLower

end DigestFinder.Text
