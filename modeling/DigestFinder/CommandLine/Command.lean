import DigestFinder.CommandLine.Option
import DigestFinder.Search.Report
import DigestFinder.Sequence

/-! The commands, their options, and how arguments and environment give a command. -/

namespace DigestFinder.CommandLine

structure FindCommand where
  width : Nat
  sequence : Bytes
  /-- The expected digest as it is written. -/
  expected : Option String
  /-- The expected digest in hexadecimal. -/
  expectedHex : Option String
  encoding : Encoding
  threads : Option Nat
  skip : List Search.Strategy
  maxMatches : Nat
  /-- The seconds that the search may take. -/
  timeout : Option Nat
  json : Bool
  verbose : Bool

structure ComputeCommand where
  algorithm : String
  sequence : Option Bytes
  files : List String
  encoding : Encoding

structure CheckCommand where
  algorithm : String
  expected : String
  sequence : Option Bytes
  file : Option String
  encoding : Encoding

structure ListCommand where
  width : Option Nat
  catalogue : Bool

inductive Command
  | find (c : FindCommand)
  | compute (c : ComputeCommand)
  | check (c : CheckCommand)
  | list (c : ListCommand)

/-! ### Values -/

/-- A count below 2 ^ 64. -/
def readCount (s : String) : Option Nat := (Text.readNumeral 10 UInt64.size s.toList).toOption

/-- A width below 2 ^ 32; zero may carry a minus sign. -/
def readWidth (s : String) : Option Nat :=
  match s.toList with
  | '-' :: digits => if digits ≠ [] && digits.all (· == '0') then some 0 else none
  | cs => (Text.readNumeral 10 UInt32.size cs).toOption

def readSequence (s : String) : Option Bytes := (Sequence.read s).toOption

/-- Names of strategies with commas between them. -/
def readSkip (s : String) : Option (List Search.Strategy) :=
  (Text.splitAt ',' s.toList).mapM fun name =>
    (Search.Strategy.ofName (String.ofList name)).toOption

/-! ### Grammars -/

/-- The kind of an option whose value must be readable. -/
def valueOf {α : Type} (read : String → Option α) : OptionKind :=
  .value (fun s => (read s).isSome) false

def anyValue : OptionKind := .value (fun _ => true) false

def helpOption : OptionSpec where
  long := "help"
  short := some 'h'
  kind := .request .help

def versionOption : OptionSpec where
  long := "version"
  short := some 'V'
  kind := .request .version

def widthOption : OptionSpec where
  long := "width"
  short := some 'w'
  kind := valueOf readWidth

def sequenceOption : OptionSpec where
  long := "sequence"
  short := some 'q'
  kind := valueOf readSequence

def expectedOption : OptionSpec where
  long := "expected"
  short := some 'e'
  kind := anyValue

def algorithmOption : OptionSpec where
  long := "algorithm"
  short := some 'a'
  kind := anyValue

def encodingOption : OptionSpec where
  long := "encoding"
  short := some 'E'
  kind := valueOf Encoding.ofName?
  variableName := some "HASHSLEUTH_ENCODING"

def findGrammar : Grammar where
  maxPlain := some 0
  options := [
    helpOption, widthOption, sequenceOption, expectedOption, encodingOption,
    { long := "expected-hex", kind := anyValue },
    { long := "threads", short := some 't', kind := valueOf readCount,
      variableName := some "HASHSLEUTH_THREADS" },
    { long := "skip", kind := .value (fun s => (readSkip s).isSome) true },
    { long := "max-matches", kind := valueOf readCount,
      variableName := some "HASHSLEUTH_MAX_MATCHES" },
    { long := "timeout", kind := valueOf readCount, variableName := some "HASHSLEUTH_TIMEOUT" },
    { long := "json", kind := .flag },
    { long := "verbose", short := some 'v', kind := .flag }]

def computeGrammar : Grammar where
  maxPlain := none
  options := [helpOption, algorithmOption, sequenceOption, encodingOption]

def checkGrammar : Grammar where
  maxPlain := some 1
  options := [helpOption, algorithmOption, expectedOption, sequenceOption, encodingOption]

def listGrammar : Grammar where
  maxPlain := some 0
  options := [helpOption, widthOption,
    { long := "catalogue", short := some 'c', kind := .flag }]

/-! ### Commands -/

/-- A value that must be there. -/
def require {α : Type} : Option α → Except Refusal α
  | some a => .ok a
  | none => .error .usage

def encodingOf (g : Given) : Encoding :=
  ((g.value? "encoding").bind Encoding.ofName?).getD .hex

/-- Exactly one form of the expected digest is needed. -/
def readFind (g : Given) : Except Refusal FindCommand := do
  let width ← require ((g.value? "width").bind readWidth)
  let sequence ← require ((g.value? "sequence").bind readSequence)
  if g.has "expected" = g.has "expected-hex" then .error .usage
  else return {
    width := width
    sequence := sequence
    expected := g.value? "expected"
    expectedHex := g.value? "expected-hex"
    encoding := encodingOf g
    threads := (g.value? "threads").bind readCount
    skip := (g.values "skip").flatMap fun s => (readSkip s).getD []
    maxMatches := ((g.value? "max-matches").bind readCount).getD 1000
    timeout := (g.value? "timeout").bind readCount
    json := g.has "json"
    verbose := g.has "verbose" }

/-- A sequence and files exclude each other. -/
def readCompute (g : Given) : Except Refusal ComputeCommand := do
  let algorithm ← require (g.value? "algorithm")
  if g.has "sequence" && g.plain ≠ [] then .error .usage
  else return ⟨algorithm, (g.value? "sequence").bind readSequence, g.plain, encodingOf g⟩

def readCheck (g : Given) : Except Refusal CheckCommand := do
  let algorithm ← require (g.value? "algorithm")
  let expected ← require (g.value? "expected")
  if g.has "sequence" && g.plain ≠ [] then .error .usage
  else return ⟨algorithm, expected, (g.value? "sequence").bind readSequence, g.plain.head?,
    encodingOf g⟩

def readList (g : Given) : ListCommand := ⟨(g.value? "width").bind readWidth, g.has "catalogue"⟩

/-- What the arguments say that stand before a command. -/
def refuseOption (arg : String) : Refusal :=
  let options : Grammar := ⟨[helpOption, versionOption], some 0⟩
  match options.read (fun _ => none) [arg] with
  | .error refusal => refusal
  | .ok _ => .usage

/-- Help on the commands, or on one that exists. -/
def helpOn : List String → Refusal
  | [] => .help
  | [name] => if name ∈ ["find", "compute", "check", "list", "help"] then .help else .usage
  | _ => .usage

/-- The command that arguments and environment give. -/
def Command.read (environment : String → Option String) : List String → Except Refusal Command
  | [] => .error .usage
  | "find" :: args => do return .find (← readFind (← findGrammar.read environment args))
  | "compute" :: args => do
    return .compute (← readCompute (← computeGrammar.read environment args))
  | "check" :: args => do return .check (← readCheck (← checkGrammar.read environment args))
  | "list" :: args => do return .list (readList (← listGrammar.read environment args))
  | "help" :: args => .error (helpOn args)
  | arg :: _ => .error (refuseOption arg)

end DigestFinder.CommandLine
