/-!
Options as a shell passes them: long ones with `--`, short ones behind `-` and in clusters, values
attached or in the next argument, and `--` before arguments that are no options. Arguments are taken
from left to right, and the first one that is refused or asks for help decides.
-/

namespace DigestFinder.CommandLine

/-- Why arguments do not give a command. -/
inductive Refusal
  | usage
  | help
  | version
  deriving Repr, DecidableEq

inductive OptionKind
  | flag
  /-- Asks for help or for the version, whatever else is given. -/
  | request (answer : Refusal)
  /-- Takes a value that passes a test; `repeats` tells whether it may be given more than once. -/
  | value (accepts : String → Bool) (repeats : Bool)

structure OptionSpec where
  long : String
  short : Option Char := none
  kind : OptionKind
  /-- The environment variable that gives the value where no argument does. -/
  variableName : Option String := none

structure Grammar where
  options : List OptionSpec
  /-- The most arguments that are no options; none if there is no limit. -/
  maxPlain : Option Nat

/-- What arguments say: options with their values, a flag without one, and the other arguments. -/
structure Given where
  options : List (String × Option String) := []
  plain : List String := []
  deriving Repr, DecidableEq

namespace Given

def has (g : Given) (long : String) : Bool := g.options.any (·.1 == long)

/-- The values of an option in the order in which they are given. -/
def values (g : Given) (long : String) : List String :=
  g.options.filterMap fun (name, value) => if name = long then value else none

def value? (g : Given) (long : String) : Option String := (g.values long).head?

end Given

/-- One option as it stands in an argument. -/
inductive Piece
  | alone (o : OptionSpec)
  | attached (o : OptionSpec) (value : String)
  /-- The value is the next argument. -/
  | open (o : OptionSpec)

namespace Grammar

def findLong (g : Grammar) (name : String) : Option OptionSpec :=
  g.options.find? (·.long == name)

def findShort (g : Grammar) (c : Char) : Option OptionSpec :=
  g.options.find? (·.short == some c)

/-- An option without an attached value. -/
def bare (o : OptionSpec) : Piece :=
  match o.kind with
  | .value .. => .open o
  | _ => .alone o

/-- The option in an argument after `--`. -/
def longPiece (g : Grammar) (body : List Char) : Except Refusal (List Piece) :=
  match g.findLong (String.ofList (body.takeWhile (· ≠ '='))) with
  | none => .error .usage
  | some o =>
    match body.dropWhile (· ≠ '='), o.kind with
    | [], _ => .ok [bare o]
    | _ :: value, .value .. => .ok [.attached o (String.ofList value)]
    | _ :: _, _ => .error .usage

/-- The options in an argument after `-`. The first that takes a value takes the rest for it, and
one that asks for an answer is the last that counts. -/
def cluster (g : Grammar) : List Char → Except Refusal (List Piece)
  | [] => .ok []
  | c :: rest =>
    match g.findShort c with
    | none => .error .usage
    | some o =>
      match o.kind, rest with
      | .value .., [] => .ok [.open o]
      | .value .., '=' :: value => .ok [.attached o (String.ofList value)]
      | .value .., value => .ok [.attached o (String.ofList value)]
      | .request _, _ => .ok [.alone o]
      | .flag, _ => return .alone o :: (← g.cluster rest)

/-- Add an option. Only one that repeats may be there already. -/
def add (given : Given) (o : OptionSpec) (value : Option String) : Except Refusal Given :=
  match o.kind, value with
  | .request answer, _ => .error answer
  | .flag, none =>
    if given.has o.long then .error .usage
    else .ok { given with options := given.options ++ [(o.long, none)] }
  | .value accepts repeats, some v =>
    if accepts v && (repeats || !given.has o.long) then
      .ok { given with options := given.options ++ [(o.long, some v)] }
    else .error .usage
  | _, _ => .error .usage

/-- Add an argument that is no option; it must not be empty. -/
def addPlain (g : Grammar) (given : Given) (arg : String) : Except Refusal Given :=
  if arg ≠ "" && g.maxPlain.all (given.plain.length < ·) then
    .ok { given with plain := given.plain ++ [arg] }
  else .error .usage

/-- Whether an argument begins like an option. A single hyphen does not. -/
def looksLikeOption : List Char → Bool
  | '-' :: _ :: _ => true
  | _ => false

/-- Add the pieces of an argument, the option that waits for its value excepted. -/
def addPieces (given : Given) : List Piece → Except Refusal (Given × Option OptionSpec)
  | [] => .ok (given, none)
  | .alone o :: rest => do addPieces (← add given o none) rest
  | .attached o v :: rest => do addPieces (← add given o (some v)) rest
  | .open o :: _ => .ok (given, some o)

/-- Read arguments behind those that are given already. `waiting` is an option whose value comes
next. -/
def readFrom (g : Grammar) (given : Given) (waiting : Option OptionSpec) :
    List String → Except Refusal Given
  | [] => if waiting.isNone then .ok given else .error .usage
  | arg :: rest => do
    match waiting with
    | some o =>
      if looksLikeOption arg.toList then .error .usage
      else g.readFrom (← add given o (some arg)) none rest
    | none =>
      match arg.toList with
      | ['-', '-'] => rest.foldlM g.addPlain given
      | '-' :: c :: body =>
        let pieces ← if c = '-' then g.longPiece body else g.cluster (c :: body)
        let (given, waiting) ← addPieces given pieces
        g.readFrom given waiting rest
      | _ => g.readFrom (← g.addPlain given arg) none rest

/-- Take values from the environment for options that are not given. -/
def fill (environment : String → Option String) (given : Given) :
    List OptionSpec → Except Refusal Given
  | [] => .ok given
  | o :: rest => do
    match if given.has o.long then none else o.variableName.bind environment with
    | some v => fill environment (← add given o (some v)) rest
    | none => fill environment given rest

def read (g : Grammar) (environment : String → Option String) (args : List String) :
    Except Refusal Given := do
  fill environment (← g.readFrom {} none args) g.options

end Grammar

end DigestFinder.CommandLine
