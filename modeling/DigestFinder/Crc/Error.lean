import DigestFinder.Text.Quoted

/-! What can be wrong with a width or with the text of a model. -/

namespace DigestFinder.Crc

/-- The first defect in the text of a model. A field is shown without white space around it. -/
inductive ModelDefect
  | fieldCount (spec : String) (count : Nat)
  | notNumber (field : String)
  | notHex (name field : String)
  | tooWide (name field : String) (width : Nat)
  | notBool (name field : String)
  | oddMask (field : String)
  | maskNotHex (field : String)
  deriving Repr, DecidableEq

def ModelDefect.message : ModelDefect → String
  | fieldCount spec count =>
    s!"expected 6, 8 or 9 comma separated fields in {Text.quote spec}, got {count}"
  | notNumber field => s!"width {Text.quote field} is not a number"
  | notHex name field => s!"{name} {Text.quote field} is not a hex number"
  | tooWide name field width => s!"{name} {Text.quote field} does not fit in {width} bits"
  | notBool name field => s!"{name} {Text.quote field} is not true or false"
  | oddMask field => s!"xorLength {Text.quote field} has an odd number of digits"
  | maskNotHex field => s!"xorLength {Text.quote field} is not hex"

inductive Error
  | unsupportedWidth (width min max : Nat)
  | invalidModel (defect : ModelDefect)
  deriving Repr, DecidableEq

def Error.message : Error → String
  | unsupportedWidth width min max => s!"unsupported CRC width {width}: expected {min}..={max}"
  | invalidModel defect => s!"invalid CRC model: {defect.message}"

/-- Accept the widths from `min` to `max`. -/
def checkWidth (width min max : Nat) : Except Error Unit :=
  if min ≤ width ∧ width ≤ max then .ok () else .error (.unsupportedWidth width min max)

end DigestFinder.Crc
