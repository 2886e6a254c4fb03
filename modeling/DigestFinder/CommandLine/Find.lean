import DigestFinder.CommandLine.Command
import DigestFinder.CommandLine.Reply
import DigestFinder.Text.Json

/-! Searching from the command line: events, report and summary. -/

namespace DigestFinder.CommandLine

open Search (Event Report Session Strategy Summary)
open Text (Json)

/-! ### Events -/

/-- The lines for events. From the first progress event to the end of brute force a progress bar is
up, and lines for matches go to it; it is hidden, so they are not seen. -/
def eventLines (verbose barUp : Bool) : List Event → List String
  | [] => []
  | .started strategy :: rest =>
    if verbose then s!"Running {strategy.name}" :: eventLines verbose barUp rest
    else eventLines verbose barUp rest
  | .candidate _ id :: rest => s!"  trying {id}" :: eventLines verbose barUp rest
  | .matched strategy m :: rest =>
    if verbose && !barUp then
      s!"  [{strategy.name}] match: {m.id} ({m.description})" :: eventLines verbose barUp rest
    else eventLines verbose barUp rest
  | .progress _ _ :: rest => eventLines verbose true rest
  | .finished .bruteForce _ :: rest => eventLines verbose false rest
  | .finished _ _ :: rest => eventLines verbose barUp rest
  | .skipped strategy reason :: rest =>
    s!"Warning: skipping {strategy.name}: {reason}" :: eventLines verbose barUp rest

/-! ### Report -/

def summaryJson (s : Summary) : Json :=
  .object <| ("strategy", .string s.strategy.name) :: match s.contribution with
    | .finished found searched =>
      [("found", .integer found.toNat), ("searched", .string (toString searched))]
    | .skipped reason =>
      [("found", .null), ("searched", .string "0"), ("skipped", .string reason)]

/-- Counts that may exceed the numbers of other programs are strings. -/
def reportJson (r : Report) : Json :=
  .object [
    ("width", .integer r.width),
    ("outcome", .string (if r.isFound then "found" else "not-found")),
    ("found", .integer r.total.found.toNat),
    ("searched", .string (toString r.total.searched)),
    ("matches", .array (r.total.kept.map fun m =>
      .object [("id", .string m.id), ("description", .string m.description)])),
    ("truncated", .bool r.total.truncated),
    ("strategies", .array (r.summaries.map summaryJson))]

def summaryLine (s : Summary) : String :=
  Text.column 12 s.strategy.name ++ match s.contribution with
    | .finished found searched => s!" searched {searched}, found {found.toNat}"
    | .skipped reason => s!" skipped: {reason}"

/-- What follows the events when the report is not written as JSON. -/
def reportLines (verbose : Bool) (r : Report) : List Line :=
  let cut := if r.total.truncated then
      [.text (s!"Showing {r.total.kept.length} of {r.total.found.toNat} matches " ++
        "(raise --max-matches to keep more)")]
    else []
  let summary := if verbose then
      r.summaries.map (.text ∘ summaryLine) ++
        [.timed s!"Searched {r.total.searched} candidates in " s!", found {r.total.found.toNat}"]
    else []
  let none := if r.isFound then [] else [.text s!"No algorithm found for width {r.width}"]
  cut ++ summary ++ none

/-! ### Command -/

namespace FindCommand

/-- The expected digest; the hexadecimal form goes before the written one. -/
def expectedValue (c : FindCommand) : Except Sequence.Error Expected :=
  match c.expectedHex with
  | some hex => (Sequence.read ("hex:" ++ hex)).map .bytes
  | none => .ok (.ofText (c.expected.getD "") c.encoding)

def options (c : FindCommand) : Search.Options :=
  c.skip.foldl Search.Options.without
    { threads := c.threads, verbose := c.verbose, maxMatches := c.maxMatches }

/-- A search without any time is asked to stop at once. When a longer limit runs out is not for the
command to say: it is run as a search that is done by then. -/
def cancellation (c : FindCommand) : Search.Cancellation :=
  if c.timeout = some 0 then .atStart else .never

def reply (c : FindCommand) (r : Report) (events : List Line) : Reply :=
  let status := if r.isFound then 0 else 1
  if c.json then ⟨status, [(reportJson r).pretty ""], events⟩
  else
    ⟨status, r.total.kept.map (fun m => s!"{m.id}  {m.description}"),
      events ++ reportLines c.verbose r⟩

def timeoutMessage (seconds : Nat) : String := s!"Search cancelled after {seconds}s"

/-- Search the given sources. -/
def runWith (sources : Search.Sources) (c : FindCommand) : Reply :=
  match c.expectedValue with
  | .error e => .failure [] [] ("Invalid --expected-hex" :: e.message :: e.cause?.toList)
  | .ok expected =>
    let request : Search.Request := ⟨c.width, c.sequence, expected⟩
    let (outcome, session) := Search.search sources c.options request (!c.json) c.cancellation
    let events := (eventLines c.verbose false session.trace.toList).map .text
    match outcome, c.timeout with
    | .ok r, _ => c.reply r events
    | .error .cancelled, some seconds => .failure [] events [timeoutMessage seconds]
    | .error e, _ => .failure [] events [e.message]

def run (c : FindCommand) : Reply := c.runWith .builtin

end FindCommand

end DigestFinder.CommandLine
