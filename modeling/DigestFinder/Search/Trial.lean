import DigestFinder.Search.Result

/-!
The parameter sets that brute force tries: every polynomial with the conventional initial and final
values and all reflections. The register after the data serves four of them.
-/

namespace DigestFinder.Search

structure Params where
  poly : UInt64
  init : UInt64
  refIn : Bool
  refOut : Bool
  xorOut : UInt64
  deriving Repr, DecidableEq

namespace Params

/-- The order in which parameter sets are tried and kept. -/
def precedes (p q : Params) : Bool :=
  if p.poly ≠ q.poly then p.poly < q.poly
  else if p.init ≠ q.init then p.init < q.init
  else if p.refIn ≠ q.refIn then q.refIn
  else if p.refOut ≠ q.refOut then q.refOut
  else p.xorOut < q.xorOut

def model (p : Params) (width : Nat) (valid : Crc.ValidWidth width) : Crc.Model :=
  .masked width valid p.poly p.init p.refIn p.refOut p.xorOut

end Params

/-- The expected digest, prepared for comparison with a register value. -/
inductive Matcher
  | exactly (value : UInt64)
  /-- Bytes of a length that no digest of the width has. -/
  | never
  | written (value : String) (encoding : Encoding) (width : Nat)

namespace Matcher

def ofExpected (width : Nat) : Expected → Matcher
  | .bytes digest => if digest.length = Crc.byteLength width then .exactly digest.toWord else .never
  | .text value encoding => .written value encoding width

def accepts (m : Matcher) (register : UInt64) : Bool :=
  match m with
  | exactly value => value == register
  | never => false
  | written value encoding width =>
    (Expected.text value encoding).accepts (Crc.toBytes register width)

end Matcher

/-- What all trials have in common. -/
structure Setting where
  width : Nat
  valid : Crc.ValidWidth width
  data : Bytes
  matcher : Matcher
  /-- Whether the data are long enough to make a table worth its while. -/
  tabled : Bool

namespace Setting

/-- Shorter data are not worth a table. -/
def tableThreshold : Nat := 256

def ofRequest (r : Request) (valid : Crc.ValidWidth r.width) : Setting where
  width := r.width
  valid := valid
  data := r.target
  matcher := .ofExpected r.width r.expected
  tabled := tableThreshold ≤ r.target.length

/-- All bits of the register set, which is also the last polynomial. -/
def ones (c : Setting) : UInt64 := Crc.mask c.width

/-- The register after the data. -/
def register (c : Setting) (poly init : UInt64) (refIn : Bool) : UInt64 :=
  let model := Crc.Model.masked c.width c.valid poly init refIn false 0
  if c.tabled then (Crc.Engine.start model).checksum c.data else model.crc c.data

/-- Of the four parameter sets that share a register, those that match. -/
def hitsOf (c : Setting) (poly init : UInt64) (refIn : Bool) : List Params :=
  let register := c.register poly init refIn
  [false, true].flatMap fun refOut =>
    let out := if refOut then Crc.reflect register c.width else register
    [0, c.ones].filterMap fun xorOut =>
      if c.matcher.accepts (out ^^^ xorOut) then some ⟨poly, init, refIn, refOut, xorOut⟩ else none

/-- The parameter sets of a polynomial that match, in ascending order. -/
def hits (c : Setting) (poly : UInt64) : List Params :=
  [0, c.ones].flatMap fun init => [false, true].flatMap fun refIn => c.hitsOf poly init refIn

end Setting

/-- The number of parameter sets for each polynomial. -/
def trialsPerPoly : Nat := 16

end DigestFinder.Search
