import DigestFinder.Search.BruteForce
import DigestFinder.Search.Sweep

/-!
A whole search: the strategies that are asked for, one after the other. One that does not serve
the width is skipped with a warning; any other error ends the search.
-/

namespace DigestFinder.Search

structure Options where
  /-- The number of workers for brute force. The report does not depend on it. -/
  threads : Option Nat := none
  strategies : List Strategy := Strategy.all
  verbose : Bool := false
  /-- The number of matches that brute force keeps. -/
  maxMatches : Nat := 1000
  deriving Repr, DecidableEq

/-- Leave a strategy out. -/
def Options.without (o : Options) (strategy : Strategy) : Options :=
  { o with strategies := o.strategies.filter (· ≠ strategy) }

/-- Where a search looks. -/
structure Sources where
  provider : Provider
  catalogue : Catalogue

/-- The published catalogue, and the algorithms of the registry with the given hashes. -/
def Sources.ofHashes (hashes : Hashes) : Sources :=
  ⟨.ofRegistry hashes.streaming .builtin, .published⟩

def Sources.builtin : Sources := .ofHashes .own

theorem validWidth {strategy : Strategy} {width : Nat}
    (h : strategy.minWidth ≤ width ∧ width ≤ strategy.maxWidth) : Crc.ValidWidth width := by
  cases strategy <;> simp only [Strategy.minWidth, Strategy.maxWidth] at h <;>
    exact ⟨by simp only [Crc.minWidth]; omega, by simp only [Crc.maxWidth]; omega⟩

/-- Run one strategy by itself. -/
def find (sources : Sources) (maxMatches : Nat) (request : Request) (s : Session)
    (strategy : Strategy) : Except Error Result × Session :=
  if h : strategy.minWidth ≤ request.width ∧ request.width ≤ strategy.maxWidth then
    match strategy, h with
    | .catalogue, _ =>
      sweep .catalogue request {} s (catalogueCandidates sources.catalogue request.width)
    | .documented, _ =>
      sweep .documented request {} s (documentedCandidates sources.provider request.width)
    | .bruteForce, h => (Setting.ofRequest request (validWidth h)).run maxMatches s
  else (.error (.parameter strategy request.width strategy.minWidth strategy.maxWidth), s)

/-- What became of a strategy. -/
inductive Contribution
  | finished (found : UInt64) (searched : Nat)
  | skipped (reason : String)
  deriving DecidableEq

structure Summary where
  strategy : Strategy
  contribution : Contribution
  deriving DecidableEq

structure Report where
  width : Nat
  total : Result
  summaries : List Summary
  deriving DecidableEq

namespace Report

def isFound (r : Report) : Bool := r.total.isFound

/-- The strategies that were skipped, with the reasons. -/
def warnings (r : Report) : List (Strategy × String) :=
  r.summaries.filterMap fun s => match s.contribution with
    | .skipped reason => some (s.strategy, reason)
    | .finished _ _ => none

/-- The result of one more strategy. -/
def add (r : Report) (strategy : Strategy) (result : Result) : Report :=
  { r with
    total := r.total.merge result
    summaries := r.summaries ++ [⟨strategy, .finished result.found result.searched⟩] }

def skip (r : Report) (strategy : Strategy) (reason : String) : Report :=
  { r with summaries := r.summaries ++ [⟨strategy, .skipped reason⟩] }

end Report

/-- Run strategies in order on top of a report. -/
def runAll (sources : Sources) (maxMatches : Nat) (request : Request) (r : Report) (s : Session) :
    List Strategy → Except Error Report × Session
  | [] => (.ok r, s)
  | strategy :: rest =>
    match find sources maxMatches request (s.emit (.started strategy)) strategy with
    | (.ok result, s) =>
      runAll sources maxMatches request (r.add strategy result)
        (s.emit (.finished strategy result.found)) rest
    | (.error e, s) =>
      match e with
      | .parameter .. =>
        runAll sources maxMatches request (r.skip strategy e.message)
          (s.emit (.skipped strategy e.message)) rest
      | _ => (.error e, s)

/-- The strategies of the options in the order in which they run, each once. -/
def Options.enabled (o : Options) : List Strategy := Strategy.all.filter (· ∈ o.strategies)

/-- Search, watched if progress is wanted and stopped as `cancellation` says. -/
def search (sources : Sources) (options : Options) (request : Request) (wantsProgress : Bool)
    (cancellation : Cancellation) : Except Error Report × Session :=
  runAll sources options.maxMatches request ⟨request.width, {}, []⟩
    (.start options.verbose wantsProgress cancellation) options.enabled

end DigestFinder.Search
