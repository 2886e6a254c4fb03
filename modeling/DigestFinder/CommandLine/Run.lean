import DigestFinder.CommandLine.Digests
import DigestFinder.CommandLine.Find

/-! What each command does, and what is answered where there is none. -/

namespace DigestFinder.CommandLine

namespace Command

/-- The files that a command may read. -/
def files : Command → List String
  | compute c => if c.sequence.isSome then [] else c.files
  | check c => if c.sequence.isSome then [] else c.file.toList
  | _ => []

/-- Whether a command reads the standard input. -/
def usesStandardInput : Command → Bool
  | compute c => c.sequence.isNone && c.files.isEmpty
  | check c => c.sequence.isNone && c.file.isNone
  | _ => false

def run (inputs : Inputs) : Command → Reply
  | find c => c.run
  | compute c => c.run .own inputs
  | check c => c.run .own inputs
  | list c => c.run

end Command

def usageText : List String := [
  "Usage: hashsleuth <COMMAND>",
  "",
  "Commands:",
  "  find     Find which algorithm turns a message into a known digest",
  "  compute  Compute a digest of a sequence, files, or standard input",
  "  check    Check a digest against an expected value",
  "  list     List available algorithms"]

/-- The answer where no command is run. -/
def Refusal.reply : Refusal → Reply
  | usage => ⟨2, [], usageText.map .text⟩
  | help => ⟨0, usageText, []⟩
  | version => ⟨0, ["hashsleuth 0.1.0"], []⟩

end DigestFinder.CommandLine
