import DigestFinder.Search.Result

/-!
A search as it is watched: the events so far, and whether it has been asked to stop. The request to
stop comes before the start, or right after some event.
-/

namespace DigestFinder.Search

inductive Event
  | started (strategy : Strategy)
  | candidate (strategy : Strategy) (id : String)
  | matched (strategy : Strategy) (found : Match)
  /-- So many polynomials of so many are done. -/
  | progress (done total : UInt64)
  | finished (strategy : Strategy) (found : UInt64)
  | skipped (strategy : Strategy) (reason : String)
  deriving DecidableEq

inductive EventKind
  | started
  | candidate
  | matched
  | progress
  | finished
  | skipped
  deriving Repr, DecidableEq

namespace EventKind

def all : List EventKind := [started, candidate, matched, progress, finished, skipped]

def name : EventKind → String
  | started => "started"
  | candidate => "candidate"
  | matched => "matched"
  | progress => "progress"
  | finished => "finished"
  | skipped => "skipped"

end EventKind

namespace Event

def kind : Event → EventKind
  | started _ => .started
  | candidate _ _ => .candidate
  | matched _ _ => .matched
  | progress _ _ => .progress
  | finished _ _ => .finished
  | skipped _ _ => .skipped

def strategy : Event → Strategy
  | started s | candidate s _ | matched s _ | finished s _ | skipped s _ => s
  | progress _ _ => .bruteForce

end Event

/-- When a search is asked to stop. -/
inductive Cancellation
  | never
  | atStart
  /-- Right after the event of this kind that has this number, counted from one. -/
  | after (kind : EventKind) (number : Nat)
  deriving Repr, DecidableEq

structure Session where
  /-- Whether events tell about every candidate. -/
  verbose : Bool
  /-- Whether events tell how far brute force has come. -/
  wantsProgress : Bool
  trace : Array Event
  cancelled : Bool
  /-- What is still to come before the request to stop. -/
  pending : Option (EventKind × Nat)

namespace Session

def start (verbose wantsProgress : Bool) : Cancellation → Session
  | .never => ⟨verbose, wantsProgress, #[], false, none⟩
  | .atStart => ⟨verbose, wantsProgress, #[], true, none⟩
  | .after kind number => ⟨verbose, wantsProgress, #[], false, some (kind, number)⟩

def emit (s : Session) (e : Event) : Session :=
  let s := { s with trace := s.trace.push e }
  match s.pending with
  | some (kind, number) =>
    if e.kind = kind then
      { s with cancelled := s.cancelled || number = 1, pending := some (kind, number - 1) }
    else s
  | none => s

end Session

end DigestFinder.Search
