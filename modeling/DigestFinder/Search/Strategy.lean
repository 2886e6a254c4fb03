import DigestFinder.Text.Field
import DigestFinder.Text.Quoted

/-! The ways of searching, in the order in which they run. -/

namespace DigestFinder.Search

inductive Strategy
  /-- Published CRC models. -/
  | catalogue
  /-- Algorithms that a provider lists. -/
  | documented
  /-- All CRC models with conventional initial and final values. -/
  | bruteForce
  deriving Repr, DecidableEq

namespace Strategy

def all : List Strategy := [catalogue, documented, bruteForce]

def name : Strategy → String
  | catalogue => "catalogue"
  | documented => "documented"
  | bruteForce => "brute-force"

/-- A name in small letters, with hyphens for low lines. -/
def normalize (s : String) : String :=
  String.ofList (s.toList.map fun c => if c = '_' then '-' else c.toLower)

/-- The strategy of a name, or the normal form of a name that is unknown. -/
def ofName (s : String) : Except String Strategy :=
  match normalize s with
  | "catalogue" | "catalog" | "known" => .ok catalogue
  | "documented" => .ok documented
  | "brute-force" | "bruteforce" | "brute" => .ok bruteForce
  | other => .error other

/-- How an unknown name is reported. -/
def unknownMessage (name : String) : String := s!"unknown strategy {Text.quote name}"

def minWidth : Strategy → Nat
  | _ => 8

def maxWidth : Strategy → Nat
  | bruteForce => 63
  | _ => 64

end Strategy

end DigestFinder.Search
