import DigestFinder.Crc.Error
import DigestFinder.Crc.Model
import DigestFinder.Text.Blank
import DigestFinder.Text.Field
import DigestFinder.Text.Hex

/-!
The text of a model: `width,poly,init,refIn,refOut,xorOut`, with values in hexadecimal, and behind
it `includeLength,lengthMsoFirst` and `xorLength` where the length is mixed in.
-/

namespace DigestFinder.Crc.Model

/-- A value with all the digits of its width. -/
def wordText (width : Nat) (v : UInt64) : String := Text.Hex.text (toBytes v width)

def boolText (b : Bool) : String := if b then "true" else "false"

def lengthText : Option LengthInclusion → String
  | none => ""
  | some l =>
    s!",true,{boolText l.msFirst}" ++ if l.xor.isEmpty then "" else "," ++ Text.Hex.text l.xor

def text (m : Model) : String :=
  String.intercalate "," [toString m.width, wordText m.width m.poly, wordText m.width m.init,
    boolText m.refIn, boolText m.refOut, wordText m.width m.xorOut] ++ lengthText m.length

/-- The model with the given values, cut to the width if that is supported. -/
def ofParts (width : Nat) (poly init : UInt64) (refIn refOut : Bool) (xorOut : UInt64) :
    Except Error Model :=
  if h : ValidWidth width then .ok (masked width h poly init refIn refOut xorOut)
  else .error (.unsupportedWidth width minWidth maxWidth)

/-- Take off one of two leading words, if one is there. -/
def dropEither (a b : String) (cs : List Char) : List Char :=
  ((Text.dropPrefix? a.toList cs).or (Text.dropPrefix? b.toList cs)).getD cs

def readWidth (field : List Char) : Except Error Nat :=
  match Text.readNumeral 10 UInt32.size field with
  | .error _ => .error (.invalidModel (.notNumber (String.ofList field)))
  | .ok width => do
    checkWidth width minWidth maxWidth
    return width

/-- A hexadecimal value that fits the width. -/
def readWord (name : String) (width : Nat) (field : List Char) : Except Error UInt64 :=
  match Text.readNumeral 16 UInt64.size (dropEither "0x" "0X" field) with
  | .error _ => .error (.invalidModel (.notHex name (String.ofList field)))
  | .ok n =>
    let v := n.toUInt64
    if v &&& ~~~ Crc.mask width = 0 then .ok v
    else .error (.invalidModel (.tooWide name (String.ofList field) width))

def readBool (name : String) (field : List Char) : Except Error Bool :=
  match String.ofList (field.map Char.toLower) with
  | "true" => .ok true
  | "false" => .ok false
  | _ => .error (.invalidModel (.notBool name (String.ofList field)))

/-- The bytes of pairs of digits. -/
def readPairs? : Bytes → Option Bytes
  | high :: low :: rest => do
    let pair := [high, low].map fun (b : UInt8) => Char.ofNat b.toNat
    let n ← (Text.readNumeral 16 UInt8.size pair).toOption
    return n.toUInt8 :: (← readPairs? rest)
  | _ => some []

/-- The mask on the length. -/
def readMask (field : List Char) : Except Error Bytes :=
  let digits := Bytes.ofText (String.ofList field)
  if digits.length % 2 ≠ 0 then .error (.invalidModel (.oddMask (String.ofList field)))
  else match readPairs? digits with
    | some bs => .ok bs
    | none => .error (.invalidModel (.maskNotHex (String.ofList field)))

/-- The fields that tell how the length is mixed in. Only the first is read if it says no. -/
def readLength : List (List Char) → Except Error (Option LengthInclusion)
  | includeLength :: msFirst :: rest => do
    if !(← readBool "includeLength" includeLength) then return none
    let msFirst ← readBool "lengthMsoFirst" msFirst
    let xor ← match rest with
      | mask :: _ => readMask mask
      | [] => pure []
    return some ⟨msFirst, xor⟩
  | _ => .ok none

/-- Read the text of a model. `crc:` may stand in front of it and white space around each field. -/
def read (spec : String) : Except Error Model :=
  let body := dropEither "crc:" "CRC:" (Text.trim spec.toList)
  let fields := (Text.splitAt ',' body).map Text.trim
  match fields with
  | width :: poly :: init :: refIn :: refOut :: xorOut :: rest =>
    if rest.length = 0 ∨ rest.length = 2 ∨ rest.length = 3 then do
      let width ← readWidth width
      let poly ← readWord "poly" width poly
      let init ← readWord "init" width init
      let refIn ← readBool "refIn" refIn
      let refOut ← readBool "refOut" refOut
      let xorOut ← readWord "xorOut" width xorOut
      let model ← ofParts width poly init refIn refOut xorOut
      return { model with length := ← readLength rest }
    else .error (.invalidModel (.fieldCount spec fields.length))
  | _ => .error (.invalidModel (.fieldCount spec fields.length))

end DigestFinder.Crc.Model
