import DigestFinder.Search.Session
import DigestFinder.Search.Trial

/-!
Brute force. Each polynomial is a task of atomic actions on a common board; the tasks are run in
ascending order of the polynomials. The board keeps the lowest matches up to a limit and counts
all of them.
-/

namespace DigestFinder.Search

/-- The lowest parameter sets so far, the highest of them first, and the room left for more. -/
structure Kept where
  items : List Params
  room : Nat

namespace Kept

def ofLimit (limit : Nat) : Kept := ⟨[], limit⟩

/-- Insert into a list in descending order. -/
def place (p : Params) : List Params → List Params
  | [] => [p]
  | q :: rest => if q.precedes p then p :: q :: rest else q :: place p rest

/-- Add a parameter set; without room the highest one goes. -/
def push (k : Kept) (p : Params) : Kept :=
  match k.room with
  | 0 => { k with items := (place p k.items).tail }
  | room + 1 => ⟨place p k.items, room⟩

end Kept

structure Board where
  session : Session
  found : UInt64
  finished : UInt64
  kept : Kept

/-- The atomic actions of a task. -/
inductive Action
  | count
  | report (p : Params)
  | keep (p : Params)
  | finish
  | announce (done : UInt64)
  deriving Repr, DecidableEq

/-- Polynomials between two progress reports. -/
def progressBlock : UInt64 := 4096

namespace Setting

/-- The number of polynomials. -/
def total (c : Setting) : UInt64 := c.ones + 1

/-- Whether progress is due when so many polynomials are done. -/
def isDue (c : Setting) (done : UInt64) : Bool := done % progressBlock == 0 || done == c.total

/-- The report of a match. -/
def event (c : Setting) (p : Params) : Event :=
  .matched .bruteForce (.parameters (p.model c.width c.valid))

/-- Perform an action. The action that it calls for comes next in the same task. -/
def perform (c : Setting) (b : Board) : Action → Board × Option Action
  | .count => ({ b with found := b.found + 1 }, none)
  | .report p => ({ b with session := b.session.emit (c.event p) }, none)
  | .keep p => ({ b with kept := b.kept.push p }, none)
  | .finish =>
    let done := b.finished + 1
    ({ b with finished := done },
      if b.session.wantsProgress && c.isDue done then some (.announce done) else none)
  | .announce done => ({ b with session := b.session.emit (.progress done c.total) }, none)

/-- What is to be done for a polynomial, once it has been started. -/
def task (c : Setting) (poly : UInt64) : List Action :=
  (c.hits poly).flatMap (fun p => [.count, .report p, .keep p]) ++ [.finish]

/-- Perform an action and the one that it calls for. -/
def performBoth (c : Setting) (b : Board) (a : Action) : Board :=
  match c.perform b a with
  | (b, none) => b
  | (b, some a) => (c.perform b a).1

/-- Perform the actions of a task. -/
def performAll (c : Setting) (b : Board) (actions : List Action) : Board :=
  actions.foldl c.performBoth b

/-- Run the tasks of `n` polynomials from `poly` on, each after a look at the request to stop. -/
def runFrom (c : Setting) (b : Board) : Nat → UInt64 → Except Error Board × Session
  | 0, _ => (.ok b, b.session)
  | n + 1, poly =>
    if b.session.cancelled then (.error .cancelled, b.session)
    else runFrom c (c.performAll b (c.task poly)) n (poly + 1)

/-- The result that a board shows at the end. -/
def resultOf (c : Setting) (b : Board) : Result where
  found := b.found
  searched := b.finished.toNat * trialsPerPoly
  kept := b.kept.items.reverse.map fun p => .parameters (p.model c.width c.valid)
  truncated := b.kept.items.length.toUInt64 < b.found

/-- Try all polynomials and keep at most `limit` matches. -/
def run (c : Setting) (limit : Nat) (s : Session) : Except Error Result × Session :=
  match c.runFrom ⟨s, 0, 0, .ofLimit limit⟩ (1 <<< c.width) 0 with
  | (.ok b, s) => (.ok (c.resultOf b), s)
  | (.error e, s) => (.error e, s)

end Setting

end DigestFinder.Search
