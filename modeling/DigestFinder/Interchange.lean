import DigestFinder.Crc.ModelText
import DigestFinder.Encoding
import DigestFinder.Text.Json

/-!
Models and encodings as JSON values: a model is its text, an encoding the name of its variant, alone
or as the only key of an object that holds null.
-/

namespace DigestFinder.Interchange

open Text (Json)

/-- Why a value is not what was expected. -/
inductive Error
  | invalidType (unexpected expected : String)
  | invalidValue (unexpected expected : String)
  | unknownVariant (name : String) (known : List String)
  | model (cause : Crc.Error)
  deriving Repr, DecidableEq

def Error.message : Error → String
  | invalidType unexpected expected => s!"invalid type: {unexpected}, expected {expected}"
  | invalidValue unexpected expected => s!"invalid value: {unexpected}, expected {expected}"
  | unknownVariant name known =>
    s!"unknown variant \x60{name}\x60, expected one of " ++
      String.intercalate ", " (known.map fun k => s!"\x60{k}\x60")
  | model cause => cause.message

/-- What a value is, in the words of a message. -/
def kindOf : Json → String
  | .null => "null"
  | .bool b => s!"boolean \x60{Crc.Model.boolText b}\x60"
  | .integer n => s!"integer \x60{n}\x60"
  | .real bits => s!"floating point \x60{Json.realFormat.writeBits bits}\x60"
  | .string s => s!"string {Text.quote s}"
  | .array _ => "sequence"
  | .object _ => "map"

def readModel : Json → Except Error Crc.Model
  | .string s => (Crc.Model.read s).mapError .model
  | other => .error (.invalidType (kindOf other) "a string")

/-- The name under which an encoding is exchanged. -/
def variantName : Encoding → String
  | .hex => "Hex"
  | .hexUpper => "HexUpper"
  | .decimal => "Decimal"
  | .octal => "Octal"
  | .binary => "Binary"
  | .base64 => "Base64"
  | .base64NoPadding => "Base64NoPadding"
  | .base64Url => "Base64Url"
  | .z85 => "Z85"

def readVariant (name : String) : Except Error Encoding :=
  match Encoding.all.find? (variantName · == name) with
  | some e => .ok e
  | none => .error (.unknownVariant name (Encoding.all.map variantName))

def readEncoding : Json → Except Error Encoding
  | .string name => readVariant name
  | .object [(name, content)] => do
    let e ← readVariant name
    match content with
    | .null => return e
    | other => .error (.invalidType (kindOf other) "unit")
  | .object _ => .error (.invalidValue "map" "map with a single key")
  | other => .error (.invalidType (kindOf other) "string or map")

end DigestFinder.Interchange
