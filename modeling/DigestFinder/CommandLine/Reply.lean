import DigestFinder.Registry
import DigestFinder.Sequence

/-! What a command writes, and the status with which it ends. -/

namespace DigestFinder.CommandLine

/-- A line of diagnostics. -/
inductive Line
  | text (s : String)
  /-- The time that has passed stands between two texts. -/
  | timed (before after : String)
  deriving Repr, DecidableEq

def Line.render (elapsed : String) : Line → String
  | text s => s
  | timed before after => before ++ elapsed ++ after

structure Reply where
  status : Nat
  output : List String
  diagnostics : List Line
  deriving Repr, DecidableEq

/-- The lines of the output as one text. -/
def Reply.outputText (r : Reply) : String := String.join (r.output.map (· ++ "\n"))

/-- The diagnostics as one text, with the time that has passed. -/
def Reply.diagnosticText (elapsed : String) (r : Reply) : String :=
  String.join (r.diagnostics.map fun line => line.render elapsed ++ "\n")

/-- An error with its causes, the outermost first. -/
def errorLine (causes : List String) : Line := .text ("Error: " ++ String.intercalate ": " causes)

/-- The end of a command that fails after some output. -/
def Reply.failure (output : List String) (diagnostics : List Line) (causes : List String) : Reply :=
  ⟨2, output, diagnostics ++ [errorLine causes]⟩

/-- An unknown algorithm. What is wrong with a model is said by the algorithm and by the model. -/
def unknownAlgorithm (name : String) (e : DigestError) : List String :=
  s!"Unknown algorithm {Text.quote name}" :: e.message :: match e with
    | .unknown _ => []
    | .crc cause => [cause.message]

/-- Why a file cannot be read. -/
inductive FileError
  | missing
  | notDirectory
  | denied
  | nameTooLong
  | unmappable
  | other (text : String)
  deriving Repr, DecidableEq

/-- All but the last of the known errors arise when a file is opened. -/
def FileError.causes (path : String) : FileError → List String
  | missing => [s!"Failed to open {path}", "No such file or directory (os error 2)"]
  | notDirectory => [s!"Failed to open {path}", "Not a directory (os error 20)"]
  | denied => [s!"Failed to open {path}", "Permission denied (os error 13)"]
  | nameTooLong => [s!"Failed to open {path}", "File name too long (os error 36)"]
  | unmappable => [s!"Failed to map {path}", "No such device (os error 19)"]
  | other text => [s!"Failed to open {path}", text]

/-- An open file: the size that the system reports of it, the bytes that it holds, and whether they
can be mapped. The size of a pipe or of a file about the system is reported as zero, whatever it
holds; a directory has a size and cannot be mapped. -/
structure OpenFile where
  size : Nat
  bytes : Bytes
  mappable : Bool
  deriving Repr, DecidableEq

/-- Map a file over its reported size. -/
def OpenFile.mapped (f : OpenFile) : Except FileError Bytes :=
  if f.mappable then .ok (f.bytes.take f.size) else .error .unmappable

/-- What a command can read. -/
structure Inputs where
  standard : Bytes
  openFile : String → Except FileError OpenFile

end DigestFinder.CommandLine
