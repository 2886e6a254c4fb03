import DigestFinder.Crc.ModelText

/-! Named CRC models with their check values, and the text form of such a list. -/

namespace DigestFinder

structure Entry where
  id : String
  model : Crc.Model
  /-- The CRC of `Catalogue.checkInput`. -/
  check : UInt64
  description : String
  deriving DecidableEq

structure Catalogue where
  entries : List Entry
  deriving DecidableEq

namespace Catalogue

/-- The digits from one to nine. -/
def checkInput : Bytes := [0x31, 0x32, 0x33, 0x34, 0x35, 0x36, 0x37, 0x38, 0x39]

def withWidth (c : Catalogue) (width : Nat) : List Entry :=
  c.entries.filter (·.model.width == width)

/-- The entry of a name, in any letter case. -/
def get? (c : Catalogue) (id : String) : Option Entry :=
  c.entries.find? (Text.sameLetters ·.id id)

/-- Why a line is no entry. -/
inductive LineDefect
  | fieldCount (count : Nat)
  | emptyId
  | model (cause : Crc.Error)
  | notHex (check : String)
  | tooWide (check width : Nat)
  | duplicate
  deriving Repr, DecidableEq

def LineDefect.message : LineDefect → String
  | fieldCount count => s!"expected 4 '|' separated fields, got {count}"
  | emptyId => "empty id"
  | model cause => cause.message
  | notHex check => s!"check {Text.quote check} is not hex"
  | tooWide check width => s!"check 0x{Text.numeral 16 check} does not fit in {width} bits"
  | duplicate => "duplicate id"

/-- The first defective line, counted from one, with the name that it gives. -/
structure Error where
  line : Nat
  entry : String
  defect : LineDefect
  deriving Repr, DecidableEq

def Error.message (e : Error) : String :=
  s!"embedded CRC catalogue is corrupt at line {e.line} ({e.entry}): {e.defect.message} " ++
    "(this is a packaging defect)"

def readCheck (model : Crc.Model) (field : List Char) : Except LineDefect UInt64 :=
  match Text.readNumeral 16 UInt64.size field with
  | .error _ => .error (.notHex (String.ofList field))
  | .ok n =>
    if n.toUInt64 &&& ~~~ model.mask = 0 then .ok n.toUInt64 else .error (.tooWide n model.width)

/-- Read `id|model|check|description`. -/
def readEntry (line : List Char) : Except LineDefect Entry :=
  let fields := (Text.splitAt '|' line).map Text.trim
  match fields with
  | [id, model, check, description] =>
    if id = [] then .error .emptyId
    else do
      let model ← (Crc.Model.read (String.ofList model)).mapError .model
      let check ← readCheck model check
      return ⟨String.ofList id, model, check, String.ofList description⟩
  | _ => .error (.fieldCount fields.length)

/-- A line that holds no entry: blank, or a comment. -/
def isSkipped (line : List Char) : Bool := line.head?.all (· == '#')

/-- What stands in front of the first bar. -/
def firstField (line : List Char) : String := String.ofList (line.takeWhile (· != '|'))

/-- Read lines from number `n` on, behind the entries that are known, the last one first, whose
names in capitals have been seen. -/
def readLines (known : List Entry) (seen : List String) (n : Nat) :
    List (List Char) → Except Error (List Entry)
  | [] => .ok known.reverse
  | line :: rest =>
    let line := Text.trim line
    if isSkipped line then readLines known seen (n + 1) rest
    else match readEntry line with
      | .error defect => .error ⟨n, firstField line, defect⟩
      | .ok entry =>
        let name := Text.capitals entry.id
        if name ∈ seen then .error ⟨n, entry.id, .duplicate⟩
        else readLines (entry :: known) (name :: seen) (n + 1) rest

/-- Read a list of entries, one a line. -/
def read (text : String) : Except Error Catalogue :=
  (readLines [] [] 1 (Text.lines text.toList)).map Catalogue.mk

end Catalogue

end DigestFinder
