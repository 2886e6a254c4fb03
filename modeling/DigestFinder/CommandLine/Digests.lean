import DigestFinder.CommandLine.Command
import DigestFinder.CommandLine.Reply

/-!
Computing and checking digests of a sequence, of files or of the standard input, and the list of
algorithms.
-/

namespace DigestFinder.CommandLine

universe u

/-- A digest and what it is the digest of. -/
def digestLine (encoding : Encoding) (digest : Bytes) (source : String) : String :=
  s!"{encoding.encode digest}  {source}"

/-- Digest a file. One of which no size is reported is not mapped, since that may fail. -/
def digestFile (inputs : Inputs) (s : Streaming) (state : s.State) (path : String) :
    Except FileError s.State := do
  let file ← inputs.openFile path
  if file.size = 0 then return s.restart state []
  else return s.restart state (← file.mapped)

/-- Digest files one after the other with one digest, up to the first that cannot be read. -/
def computeFiles (inputs : Inputs) (encoding : Encoding) (s : Streaming) (state : s.State)
    (output : List String) : List String → Reply
  | [] => ⟨0, output, []⟩
  | path :: rest =>
    match digestFile inputs s state path with
    | .error e => .failure output [] (e.causes path)
    | .ok next =>
      computeFiles inputs encoding s next (output ++ [digestLine encoding (s.result next) path])
        rest

section

variable {δ : Type u} (make : δ → Streaming) (r : Registry δ) (inputs : Inputs)

/-- Compute with the algorithms of a registry. -/
def ComputeCommand.runWith (c : ComputeCommand) : Reply :=
  match r.instantiate make c.algorithm with
  | .error e => .failure [] [] (unknownAlgorithm c.algorithm e)
  | .ok s =>
    match c.sequence, c.files with
    | some data, _ =>
      ⟨0, [digestLine c.encoding (s.result (s.restart s.start data)) (Sequence.display data)], []⟩
    | none, [] =>
      ⟨0, [digestLine c.encoding (s.result (s.restart s.start inputs.standard)) "-"], []⟩
    | none, files => computeFiles inputs c.encoding s s.start [] files

/-- Digest the message of a check: the sequence, else the file, else the standard input. -/
def CheckCommand.digest (c : CheckCommand) (s : Streaming) : Except (List String) s.State :=
  match c.sequence, c.file with
  | some data, _ => .ok (s.restart s.start data)
  | none, some path => (digestFile inputs s s.start path).mapError (·.causes path)
  | none, none => .ok (s.restart s.start inputs.standard)

/-- Check with the algorithms of a registry. -/
def CheckCommand.runWith (c : CheckCommand) : Reply :=
  match r.instantiate make c.algorithm with
  | .error e => .failure [] [] (unknownAlgorithm c.algorithm e)
  | .ok s =>
    match c.digest inputs s with
    | .error causes => .failure [] [] causes
    | .ok state =>
      if (Expected.ofText c.expected c.encoding).accepts (s.result state) then ⟨0, ["OK"], []⟩
      else ⟨1, [s!"MISMATCH: computed {c.encoding.encode (s.result state)}"], []⟩

end

/-- Compute with the built-in registry and the given hashes. -/
def ComputeCommand.run (hashes : Hashes) (inputs : Inputs) (c : ComputeCommand) : Reply :=
  c.runWith hashes.streaming .builtin inputs

def CheckCommand.run (hashes : Hashes) (inputs : Inputs) (c : CheckCommand) : Reply :=
  c.runWith hashes.streaming .builtin inputs

def ListCommand.run (c : ListCommand) : Reply :=
  let listed := (Registry.builtin.list c.width).entries
  let entries :=
    if !c.catalogue then []
    else match c.width with
      | some width => Registry.builtin.catalogue.withWidth width
      | none => Registry.builtin.catalogue.entries
  ⟨0, listed.map (fun (id, description) => s!"{Text.column 16 id} {description}") ++
    entries.map (fun e => s!"{Text.column 20 e.id} crc:{e.model.text}  {e.description}") ++
    ["", s!"Total: {listed.length + entries.length} algorithms"], []⟩

end DigestFinder.CommandLine
