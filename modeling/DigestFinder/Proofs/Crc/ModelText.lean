import DigestFinder.Crc.ModelText
import DigestFinder.Proofs.BigEndian
import DigestFinder.Proofs.Crc.Bits
import DigestFinder.Proofs.Text.Reading

/-!
The fields in the text of a model, and how each of them is read from its digits.
-/

namespace DigestFinder.Crc

theorem toNat_toBytes {width : Nat} (valid : ValidWidth width) {v : UInt64}
    (h : v ≤ mask width) : (toBytes v width).toNat = v.toNat := by
  have hv : v.toNat < 2 ^ width := (le_mask_iff_lt valid v).mp h
  rw [toBytes, Bytes.toNat_ofWord (byteLength_le valid)]
  exact Nat.mod_eq_of_lt (hv.trans_le (two_pow_le_byteLength width))

theorem toBytes_inj {width : Nat} (valid : ValidWidth width) {v u : UInt64} (hv : v ≤ mask width)
    (hu : u ≤ mask width) (h : toBytes v width = toBytes u width) : v = u := by
  rw [← UInt64.toNat_inj, ← toNat_toBytes valid hv, h, toNat_toBytes valid hu]

theorem toBytes_ne_nil {width : Nat} (valid : ValidWidth width) (v : UInt64) :
    toBytes v width ≠ [] := by
  have hw := valid.1
  simp only [minWidth] at hw
  rw [ne_eq, ← List.length_eq_zero_iff, length_toBytes]
  unfold byteLength
  omega

theorem and_complement_mask {width : Nat} (valid : ValidWidth width) {v : UInt64}
    (h : v ≤ mask width) : v &&& ~~~ mask width = 0 := by
  rw [← and_mask_of_le valid h, UInt64.and_assoc]
  simp

namespace Model

/-- The fields that tell how the length is mixed in. -/
def lengthFields : Option LengthInclusion → List (List Char)
  | none => []
  | some l => ["true".toList, (boolText l.msFirst).toList] ++
      if l.xor.isEmpty then [] else [(Text.Hex.text l.xor).toList]

/-- The fields of the text of a model. -/
def fields (m : Model) : List (List Char) :=
  (toString m.width).toList :: (wordText m.width m.poly).toList ::
    (wordText m.width m.init).toList :: (boolText m.refIn).toList :: (boolText m.refOut).toList ::
    (wordText m.width m.xorOut).toList :: lengthFields m.length

theorem toList_text (m : Model) : m.text.toList = [','].intercalate m.fields := by
  have ht : ",true,".toList = ',' :: "true".toList ++ [','] := by decide
  cases hl : m.length with
  | none => simp [text, fields, lengthFields, lengthText, hl]
  | some l =>
    cases he : l.xor.isEmpty <;>
      simp [text, fields, lengthFields, lengthText, hl, he, ht, List.intercalate_cons_cons,
        toString]

theorem readWidth_of_digits {width : Nat} (valid : ValidWidth width) {cs : List Char}
    {ds : List Nat} (hd : cs.map (Text.digit? 10) = ds.map some)
    (hv : Text.digitsValue 10 0 ds = width) : readWidth cs = .ok width := by
  obtain ⟨low, high⟩ := valid
  have hne : ds ≠ [] := by
    rintro rfl
    rw [← hv] at low
    exact absurd low (by decide)
  have hl : Text.digitsValue 10 0 ds < UInt32.size := hv ▸ high.trans_lt (by decide)
  rw [readWidth, Text.readNumeral_of_digits (by decide) hd hne hl, hv]
  simp [checkWidth, low, high]

/-- The digits of a width in decimal notation. -/
theorem exists_digits_toString {width : Nat} (valid : ValidWidth width) : ∃ ds,
    (toString width).toList.map (Text.digit? 10) = ds.map some ∧
      Text.digitsValue 10 0 ds = width := by
  let value (c : Char) := c.toNat - 48
  have all : ∀ w ≤ 64, 1 ≤ w →
      (toString w).toList.map (Text.digit? 10) = ((toString w).toList.map value).map some ∧
        Text.digitsValue 10 0 ((toString w).toList.map value) = w := by
    decide
  exact ⟨_, all width valid.2 valid.1⟩

theorem toList_hexText (bs : Bytes) : (Text.Hex.text bs).toList = Text.Hex.encode false bs :=
  String.toList_ofList

theorem map_digit?_hexText (bs : Bytes) :
    (Text.Hex.text bs).toList.map (Text.digit? 16) = (Text.Hex.nibbles bs).map some := by
  rw [toList_hexText]
  exact Text.Hex.map_digit?_encode false bs

theorem dropEither_of_not_mem {a b : String} {cs : List Char} {p q : Char} (ha : p ∈ a.toList)
    (hb : q ∈ b.toList) (hp : p ∉ cs) (hq : q ∉ cs) : dropEither a b cs = cs := by
  rw [dropEither, Text.dropPrefix?_of_not_mem ha hp, Text.dropPrefix?_of_not_mem hb hq]
  rfl

/-- The marks of a hexadecimal value. -/
def hexMarks : List String := ["", "0x", "0X"]

theorem dropEither_hexMark {mark : String} (hm : mark ∈ hexMarks) {cs : List Char} {ds : List Nat}
    (hd : cs.map (Text.digit? 16) = ds.map some) :
    dropEither "0x" "0X" (mark.toList ++ cs) = cs := by
  simp only [hexMarks, List.mem_cons, List.not_mem_nil, or_false] at hm
  rcases hm with rfl | rfl | rfl
  · exact dropEither_of_not_mem (p := 'x') (q := 'X') (by decide) (by decide)
      (Text.not_mem_of_digits hd (by decide)) (Text.not_mem_of_digits hd (by decide))
  · rw [dropEither, Text.dropPrefix?_append]
    rfl
  · have other : Text.dropPrefix? "0x".toList ("0X".toList ++ cs) = none := rfl
    rw [dropEither, other, Text.dropPrefix?_append]
    rfl

/-- A value is read from its digits, whatever mark is in front of them. -/
theorem readWord_of_digits (name : String) {width : Nat} (valid : ValidWidth width) {v : UInt64}
    (h : v ≤ Crc.mask width) {mark : String} (hm : mark ∈ hexMarks) {cs : List Char}
    {ds : List Nat} (hne : ds ≠ []) (hd : cs.map (Text.digit? 16) = ds.map some)
    (hv : Text.digitsValue 16 0 ds = v.toNat) :
    readWord name width (mark.toList ++ cs) = .ok v := by
  have hl : Text.digitsValue 16 0 ds < UInt64.size := hv ▸ v.toNat_lt
  rw [readWord, dropEither_hexMark hm hd, Text.readNumeral_of_digits (by decide) hd hne hl, hv]
  simp [and_complement_mask valid h]

theorem nibbles_toBytes_ne_nil {width : Nat} (valid : ValidWidth width) (v : UInt64) :
    Text.Hex.nibbles (toBytes v width) ≠ [] := by
  obtain ⟨b, bs, hb⟩ := List.exists_cons_of_ne_nil (toBytes_ne_nil valid v)
  rw [hb]
  simp [Text.Hex.nibbles]

theorem digitsValue_toBytes {width : Nat} (valid : ValidWidth width) {v : UInt64}
    (h : v ≤ Crc.mask width) :
    Text.digitsValue 16 0 (Text.Hex.nibbles (toBytes v width)) = v.toNat := by
  rw [Text.Hex.digitsValue_nibbles, toNat_toBytes valid h]

theorem readBool_of_lower (name : String) {b : Bool} {cs : List Char}
    (h : cs.map Char.toLower = (boolText b).toList.map Char.toLower) :
    readBool name cs = .ok b := by
  rw [readBool, h]
  cases b <;> rfl

theorem readPairs?_of_digits {cs : List Char} {bs : Bytes}
    (hd : cs.map (Text.digit? 16) = (Text.Hex.nibbles bs).map some) :
    readPairs? (cs.map fun c => c.toNat.toUInt8) = some bs := by
  have back {c : Char} {d : Nat} (hc : Text.digit? 16 c = some d) :
      Char.ofNat c.toNat.toUInt8.toNat = c :=
    (Text.visible_of_isAlphanum (Text.isAlphanum_of_digit? hc)).ofNat_byte
  induction bs generalizing cs with
  | nil =>
    obtain rfl : cs = [] := List.map_eq_nil_iff.mp hd
    rfl
  | cons b bs ih =>
    have hb := b.toNat_lt
    obtain ⟨high, low, rest, rfl, hh, hl, hr⟩ : ∃ high low rest, cs = high :: low :: rest ∧
        Text.digit? 16 high = some (b.toNat / 16) ∧ Text.digit? 16 low = some (b.toNat % 16) ∧
        rest.map (Text.digit? 16) = (Text.Hex.nibbles bs).map some := by
      have two : (Text.Hex.nibbles (b :: bs)).map some =
          some (b.toNat / 16) :: some (b.toNat % 16) :: (Text.Hex.nibbles bs).map some := rfl
      rw [two] at hd
      obtain ⟨high, tail, rfl, hh, ht⟩ := List.map_eq_cons_iff.mp hd
      obtain ⟨low, rest, rfl, hl, hr⟩ := List.map_eq_cons_iff.mp ht
      exact ⟨high, low, rest, rfl, hh, hl, hr⟩
    have value : Text.digitsValue 16 0 [b.toNat / 16, b.toNat % 16] = b.toNat := by
      simp [Text.digitsValue]
      omega
    have digits : [high, low].map (Text.digit? 16) =
        [b.toNat / 16, b.toNat % 16].map some := by
      simp [hh, hl]
    have pair : Text.readNumeral 16 UInt8.size [high, low] = .ok b.toNat := by
      rw [Text.readNumeral_of_digits (by decide) digits (by simp) (by rw [value]; exact hb), value]
    rw [List.map_cons, List.map_cons, readPairs?, List.map_cons, List.map_cons, List.map_nil,
      back hh, back hl, pair, ih hr]
    simp [Except.toOption]

/-- The mask on a length is read from its digits. -/
theorem readMask_of_digits {cs : List Char} {bs : Bytes}
    (hd : cs.map (Text.digit? 16) = (Text.Hex.nibbles bs).map some) : readMask cs = .ok bs := by
  have visible : ∀ c ∈ cs, Text.Visible c := fun c hc =>
    Text.visible_of_isAlphanum (Text.isAlphanum_of_digits hd c hc)
  have size : cs.length % 2 = 0 := by
    have hl := congrArg List.length hd
    rw [List.length_map, List.length_map] at hl
    rw [hl]
    simp [Text.Hex.nibbles, List.length_flatMap]
  rw [readMask, Text.ofText_of_visible visible, readPairs?_of_digits hd, List.length_map]
  simp [size]

/-- A text is read as a model if its fields are read as the parts of the model. -/
theorem read_of_parts {spec : String} {m : Model}
    {width poly init refIn refOut xorOut : List Char} {rest : List (List Char)}
    (fields : (Text.splitAt ',' (dropEither "crc:" "CRC:" (Text.trim spec.toList))).map Text.trim =
      width :: poly :: init :: refIn :: refOut :: xorOut :: rest)
    (count : rest.length = 0 ∨ rest.length = 2 ∨ rest.length = 3)
    (hwidth : readWidth width = .ok m.width) (hpoly : readWord "poly" m.width poly = .ok m.poly)
    (hinit : readWord "init" m.width init = .ok m.init)
    (hrefIn : readBool "refIn" refIn = .ok m.refIn)
    (hrefOut : readBool "refOut" refOut = .ok m.refOut)
    (hxorOut : readWord "xorOut" m.width xorOut = .ok m.xorOut)
    (hlength : readLength rest = .ok m.length) : read spec = .ok m := by
  unfold read
  dsimp only
  rw [fields]
  simp only [if_pos count, hwidth, hpoly, hinit, hrefIn, hrefOut, hxorOut, hlength, ofParts,
    dif_pos m.validWidth, bind, Except.bind, pure, Except.pure, masked,
    and_mask_of_le m.validWidth m.poly_le, and_mask_of_le m.validWidth m.init_le,
    and_mask_of_le m.validWidth m.xorOut_le]

end Model

end DigestFinder.Crc
