import DigestFinder.CommandLine.Elapsed
import DigestFinder.CommandLine.Run

/-! The program: arguments, environment and bytes in, two streams and a status out. -/

namespace DigestFinder.CommandLine

def variableNames : List String :=
  ["HASHSLEUTH_ENCODING", "HASHSLEUTH_THREADS", "HASHSLEUTH_MAX_MATCHES", "HASHSLEUTH_TIMEOUT"]

def fileError : IO.Error → FileError
  | .noFileOrDirectory .. => .missing
  | .inappropriateType .. => .notDirectory
  | .permissionDenied .. => .denied
  | .invalidArgument _ code _ => if code = 36 then .nameTooLong else .missing
  | e => .other e.toString

/-- Open a file. Only a regular file that has a size is mapped. What others hold is not read. -/
def openFile (path : String) : IO (Except FileError OpenFile) := do
  try
    let handle ← IO.FS.Handle.mk path .read
    let info ← ((← IO.currentDir) / path).metadata
    let regular := info.type == .file
    let content ← if regular && info.byteSize ≠ 0 then handle.readBinToEnd else pure .empty
    return .ok ⟨info.byteSize.toNat, content.toList, regular⟩
  catch e => return .error (fileError e)

partial def readAll (stream : IO.FS.Stream) (seen : ByteArray) : IO ByteArray := do
  let chunk ← stream.read 65536
  if chunk.isEmpty then return seen else readAll stream (seen ++ chunk)

/-- Read what a command may need. -/
def gather (c : Command) : IO Inputs := do
  let standard ←
    if c.usesStandardInput then pure (← readAll (← IO.getStdin) .empty).toList else pure []
  let files ← c.files.mapM fun path => do return (path, ← openFile path)
  return ⟨standard, fun path => (files.lookup path).getD (.error .missing)⟩

def write (r : Reply) (elapsed : String) : IO UInt32 := do
  (← IO.getStdout).putStr r.outputText
  (← IO.getStderr).putStr (r.diagnosticText elapsed)
  return r.status.toUInt32

end DigestFinder.CommandLine

open DigestFinder.CommandLine in
def main (args : List String) : IO UInt32 := do
  let start ← IO.monoNanosNow
  let environment ← variableNames.mapM fun name => do return (name, ← IO.getEnv name)
  match Command.read (fun name => (environment.lookup name).bind id) args with
  | .error refusal => write refusal.reply ""
  | .ok command =>
    let inputs ← gather command
    let reply ← IO.lazyPure fun _ => command.run inputs
    let finish ← IO.monoNanosNow
    write reply (elapsedText (finish - start))
