import DigestFinder.Crc.ModelText
import DigestFinder.Expected
import DigestFinder.Registry
import DigestFinder.Search.Strategy

/-! What is searched for, and what a search yields. -/

namespace DigestFinder.Search

/-- A message, the digest that it is known to have, and the width of the digest in bits. -/
structure Request where
  width : Nat
  target : Bytes
  expected : Expected

/-- An algorithm under a name, or a parameter set, that has the expected digest. -/
inductive Match
  | named (id description : String)
  | parameters (model : Crc.Model)
  deriving DecidableEq

namespace Match

def id : Match → String
  | named id _ => id
  | parameters model => "crc:" ++ model.text

def description : Match → String
  | named _ description => description
  | parameters m =>
    let word := Crc.Model.wordText m.width
    s!"CRC-{m.width} poly=0x{word m.poly} init=0x{word m.init} " ++
      s!"refIn={Crc.Model.boolText m.refIn} refOut={Crc.Model.boolText m.refOut} " ++
      s!"xorOut=0x{word m.xorOut}"

end Match

/-- What one strategy found, or several together. -/
structure Result where
  /-- The number of matches, as a 64-bit counter. -/
  found : UInt64 := 0
  /-- The number of candidates tried. -/
  searched : Nat := 0
  kept : List Match := []
  /-- Whether matches are missing from `kept`. -/
  truncated : Bool := false
  deriving DecidableEq

namespace Result

/-- Count a candidate that did not match. -/
def miss (r : Result) : Result := { r with searched := r.searched + 1 }

/-- Count a candidate that matched, and keep it. -/
def hit (r : Result) (m : Match) : Result :=
  { r with searched := r.searched + 1, found := r.found + 1, kept := r.kept ++ [m] }

/-- Counts are added, and the matches of the second follow those of the first. -/
def merge (r s : Result) : Result where
  found := r.found + s.found
  searched := r.searched + s.searched
  kept := r.kept ++ s.kept
  truncated := r.truncated || s.truncated

def isFound (r : Result) : Bool := 0 < r.found

end Result

/-- Why a strategy yields no result. -/
inductive Error
  | parameter (strategy : Strategy) (width min max : Nat)
  | internal (id : String) (cause : DigestError)
  | cancelled
  deriving Repr, DecidableEq

def Error.message : Error → String
  | parameter strategy width min max =>
    s!"{strategy.name}: {(Crc.Error.unsupportedWidth width min max).message}"
  | internal id cause =>
    s!"internal error: algorithm {id} is listed but cannot be created: {cause.message}"
  | cancelled => "search cancelled"

end DigestFinder.Search
