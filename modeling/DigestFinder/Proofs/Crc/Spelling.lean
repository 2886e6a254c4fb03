import DigestFinder.Proofs.Crc.ModelText
import DigestFinder.Proofs.Lists

/-!
The spellings of a model. Its own text is read back as the model, and so is every text that differs
from it in what does not count: blanks, the case of letters, marks in front of the values and of
the whole.
-/

namespace DigestFinder.Crc.Model

/-- A field as it may be written: blanks around it, letters in any case, and a mark in front if it
is a value. -/
def Restyled (value : Bool) (field : List Char) (written : String) : Prop :=
  ∃ mark ∈ hexMarks, (mark = "" ∨ value) ∧ ∃ core, Text.Recased core (String.ofList field) ∧
    Text.Padded written (mark ++ core)

/-- Which fields are values. -/
def valueFields : List Bool := [false, true, true, false, false, true, false, false, false]

/-- The words that may stand in front of the fields. -/
def leads : List String := ["", "crc:", "CRC:"]

/-- A text that gives the fields of a model, each as it may be written. -/
def Spells (spec : String) (m : Model) : Prop :=
  ∃ lead ∈ leads, ∃ written : List String, Text.Padded spec (lead ++ ",".intercalate written) ∧
    List.Forall₂ (fun part w => Restyled part.1 part.2 w) (valueFields.zip m.fields) written

theorem Restyled.refl (value : Bool) (field : List Char) :
    Restyled value field (String.ofList field) :=
  ⟨"", by decide, .inl rfl, _, Text.Recased.refl _, by simpa using Text.Padded.refl _⟩

section

variable {value : Bool} {field : List Char} {written : String}

theorem restyled_of_core (mark core : String) (before after : List Char)
    (hm : mark ∈ hexMarks ∧ (mark = "" ∨ value))
    (recased : core.toList.map Char.toLower = field.map Char.toLower)
    (hw : written.toList = before ++ (mark ++ core).toList ++ after)
    (blank : (before ++ after).all Text.isBlank) : Restyled value field written := by
  have blanks := List.all_eq_true.mp blank
  exact ⟨mark, hm.1, hm.2, core, Text.recased_iff.mpr (by simpa using recased), before, after, hw,
    fun c hc => blanks c (List.mem_append_left _ hc),
    fun c hc => blanks c (List.mem_append_right _ hc)⟩

/-- What is left of a field without the blanks. -/
theorem Restyled.trim (h : Restyled value field written) (plain : ∀ c ∈ field, c.isAlphanum) :
    ∃ mark ∈ hexMarks, (mark = "" ∨ value) ∧ ∃ core, Text.Recased core (String.ofList field) ∧
      Text.trim written.toList = mark.toList ++ core.toList ∧
      ∀ c ∈ written.toList, Text.isBlank c ∨ c.isAlphanum := by
  obtain ⟨mark, hm, hv, core, recased, before, after, hw, blank, blank'⟩ := h
  have alphanum : ∀ c ∈ (mark ++ core).toList, c.isAlphanum := by
    have marks : ∀ mark ∈ hexMarks, mark.toList.all Char.isAlphanum := by decide
    intro c hc
    rw [String.toList_append, List.mem_append] at hc
    rcases hc with hc | hc
    · exact List.all_eq_true.mp (marks mark hm) c hc
    · exact recased.isAlphanum (by simpa using plain) c hc
  refine ⟨mark, hm, hv, core, recased, ?_, ?_⟩
  · rw [hw, Text.trim_surrounded blank (fun c hc => (Text.visible_of_isAlphanum
      (alphanum c hc)).not_blank) blank', String.toList_append]
  · intro c hc
    rw [hw, List.mem_append, List.mem_append] at hc
    rcases hc with (hc | hc) | hc
    · exact .inl (blank c hc)
    · exact .inr (alphanum c hc)
    · exact .inl (blank' c hc)

/-- A field that is no value is left in some case. -/
theorem Restyled.recased (h : Restyled false field written) (plain : ∀ c ∈ field, c.isAlphanum) :
    ∃ core, Text.Recased core (String.ofList field) ∧
      Text.trim written.toList = core.toList := by
  obtain ⟨mark, -, hv, core, recased, ht, -⟩ := h.trim plain
  obtain rfl : mark = "" := by simpa using hv
  exact ⟨core, recased, by simpa using ht⟩

end

theorem isAlphanum_toString (width : Nat) : ∀ c ∈ (toString width).toList, c.isAlphanum := by
  intro c hc
  have hd := Nat.isDigit_of_mem_toDigits (b := 10) (n := width) (c := c) (by decide) (by decide)
    (by simpa using hc)
  simp [Char.isAlphanum, hd]

theorem isAlphanum_hexText (bs : Bytes) : ∀ c ∈ (Text.Hex.text bs).toList, c.isAlphanum :=
  Text.isAlphanum_of_digits (map_digit?_hexText bs)

theorem isAlphanum_boolText (b : Bool) : ∀ c ∈ (boolText b).toList, c.isAlphanum :=
  List.all_eq_true.mp (by cases b <;> decide)

theorem Restyled.readWidth {width : Nat} (valid : ValidWidth width) {written : String}
    (h : Restyled false (toString width).toList written) :
    Model.readWidth (Text.trim written.toList) = .ok width := by
  obtain ⟨core, recased, ht⟩ := h.recased (isAlphanum_toString width)
  obtain ⟨ds, hd, hv⟩ := exists_digits_toString valid
  rw [ht]
  refine readWidth_of_digits valid ?_ hv
  rw [recased.map_digit? 10, String.toList_ofList, hd]

theorem Restyled.readWord (name : String) {width : Nat} (valid : ValidWidth width) {v : UInt64}
    (hv : v ≤ Crc.mask width) {written : String}
    (h : Restyled true (wordText width v).toList written) :
    Model.readWord name width (Text.trim written.toList) = .ok v := by
  obtain ⟨mark, hm, -, core, recased, ht, -⟩ := h.trim (isAlphanum_hexText _)
  rw [ht]
  refine readWord_of_digits name valid hv hm (nibbles_toBytes_ne_nil valid v) ?_
    (digitsValue_toBytes valid hv)
  rw [recased.map_digit? 16, String.toList_ofList]
  exact map_digit?_hexText _

theorem Restyled.readBool (name : String) {b : Bool} {written : String}
    (h : Restyled false (boolText b).toList written) :
    Model.readBool name (Text.trim written.toList) = .ok b := by
  obtain ⟨core, recased, ht⟩ := h.recased (isAlphanum_boolText b)
  rw [ht]
  apply readBool_of_lower
  simpa using Text.recased_iff.mp recased

theorem Restyled.readMask {bs : Bytes} {written : String}
    (h : Restyled false (Text.Hex.text bs).toList written) :
    Model.readMask (Text.trim written.toList) = .ok bs := by
  obtain ⟨core, recased, ht⟩ := h.recased (isAlphanum_hexText bs)
  rw [ht]
  apply readMask_of_digits
  rw [recased.map_digit? 16, String.toList_ofList, map_digit?_hexText]

/-- The fields on the length are read back. -/
theorem readLength_of_restyled {l : Option LengthInclusion} {written : List String}
    (h : List.Forall₂ (fun part w => Restyled part.1 part.2 w)
      ([false, false, false].zip (lengthFields l)) written) :
    readLength (written.map fun w => Text.trim w.toList) = .ok l ∧
      (written.length = 0 ∨ written.length = 2 ∨ written.length = 3) := by
  cases l with
  | none =>
    obtain rfl : written = [] := List.forall₂_nil_left_iff.mp h
    exact ⟨rfl, .inl rfl⟩
  | some l =>
    obtain ⟨msFirst, xor⟩ := l
    obtain ⟨_, _, included, more, rfl⟩ := List.forall₂_cons_left_iff.mp h
    obtain ⟨_, _, order, last, rfl⟩ := List.forall₂_cons_left_iff.mp more
    have hi := Restyled.readBool "includeLength" (b := true) included
    have ho := Restyled.readBool "lengthMsoFirst" order
    cases xor with
    | nil =>
      obtain rfl := List.forall₂_nil_left_iff.mp last
      refine ⟨?_, .inr (.inl rfl)⟩
      simp only [List.map_cons, List.map_nil, readLength, hi, ho]
      rfl
    | cons x xs =>
      obtain ⟨_, _, mask, none, rfl⟩ := List.forall₂_cons_left_iff.mp last
      obtain rfl := List.forall₂_nil_left_iff.mp none
      refine ⟨?_, .inr (.inr rfl)⟩
      simp only [List.map_cons, List.map_nil, readLength, hi, ho, Restyled.readMask mask]
      rfl

theorem isAlphanum_of_mem_fields {m : Model} {field : List Char} (h : field ∈ m.fields) :
    ∀ c ∈ field, c.isAlphanum := by
  have length (l : Option LengthInclusion) : ∀ f ∈ lengthFields l, ∀ c ∈ f, c.isAlphanum := by
    cases l with
    | none => simp [lengthFields]
    | some l =>
      intro f hf
      simp only [lengthFields, List.cons_append, List.nil_append, List.mem_cons] at hf
      rcases hf with rfl | rfl | hf
      · exact isAlphanum_boolText true
      · exact isAlphanum_boolText _
      · cases he : l.xor.isEmpty with
        | true => simp [he] at hf
        | false =>
          obtain rfl : f = (Text.Hex.text l.xor).toList := by simpa [he] using hf
          exact isAlphanum_hexText _
  simp only [fields, List.mem_cons] at h
  rcases h with rfl | rfl | rfl | rfl | rfl | rfl | h
  · exact isAlphanum_toString _
  · exact isAlphanum_hexText _
  · exact isAlphanum_hexText _
  · exact isAlphanum_boolText _
  · exact isAlphanum_boolText _
  · exact isAlphanum_hexText _
  · exact length _ _ h

/-- Without white space and the word in front, a text comes apart into its fields. -/
theorem splitAt_spelling {lead : String} (hl : lead ∈ leads) {spec : String}
    {written : List String} (padded : Text.Padded spec (lead ++ ",".intercalate written))
    (hne : written ≠ [])
    (plain : ∀ w ∈ written, ∀ c ∈ w.toList, Text.isBlank c ∨ c.isAlphanum) :
    (Text.splitAt ',' (dropEither "crc:" "CRC:" (Text.trim spec.toList))).map Text.trim =
      written.map fun w => Text.trim w.toList := by
  obtain ⟨before, after, hs, blank, blank'⟩ := padded
  have absent {x : Char} (hb : Text.isBlank x = false) (ha : x.isAlphanum = false) :
      ∀ w ∈ written.map String.toList, x ∉ w := by
    intro w hw hx
    obtain ⟨w, hm, rfl⟩ := List.mem_map.mp hw
    rcases plain w hm x hx with h | h
    · rw [hb] at h
      cases h
    · rw [ha] at h
      cases h
  have joined : (",".intercalate written).toList =
      [','].intercalate (written.map String.toList) := by
    simp
  have split : (Text.splitAt ',' ([','].intercalate (written.map String.toList))).map Text.trim =
      written.map fun w => Text.trim w.toList := by
    rw [Text.splitAt_intercalate (by simpa using hne)
      (absent (x := ',') (by decide) (by decide)), List.map_map]
    rfl
  have noColon : ':' ∉ [','].intercalate (written.map String.toList) := by
    intro hm
    rcases List.mem_intercalate hm with h | ⟨w, hw, h⟩
    · cases h
    · exact absent (x := ':') (by decide) (by decide) w hw h
  rw [hs, Text.trim_padded blank blank', String.toList_append, joined, ← split]
  simp only [leads, List.mem_cons, List.not_mem_nil, or_false] at hl
  generalize [','].intercalate (written.map String.toList) = text at noColon ⊢
  have behind {word : String} (hne : word.toList ≠ [])
      (visible : word.toList.all (!Text.isBlank ·))
      (hd : ∀ cs, dropEither "crc:" "CRC:" (word.toList ++ cs) = cs) :
      (Text.splitAt ',' (dropEither "crc:" "CRC:" (Text.trim (word.toList ++ text)))).map
        Text.trim = (Text.splitAt ',' text).map Text.trim := by
    obtain ⟨rest, last, hr, hb, ht⟩ := Text.exists_trim_behind hne (by simpa using visible) text
    have hp := @Text.splitAt_padded ',' (by decide) [] last (by simp) hb rest
    rw [ht, hd, hr]
    simpa using hp.symm
  rcases hl with rfl | rfl | rfl
  · have kept : dropEither "crc:" "CRC:" (Text.trim text) = Text.trim text :=
      dropEither_of_not_mem (p := ':') (q := ':') (by decide) (by decide)
        (fun h => noColon (Text.mem_of_mem_trim h)) (fun h => noColon (Text.mem_of_mem_trim h))
    rw [String.toList_empty, List.nil_append, kept, Text.splitAt_trim (by decide)]
  · apply behind (by decide) (by decide)
    intro cs
    rw [dropEither, Text.dropPrefix?_append]
    rfl
  · apply behind (by decide) (by decide)
    intro cs
    have other : Text.dropPrefix? "crc:".toList ("CRC:".toList ++ cs) = none := rfl
    rw [dropEither, other, Text.dropPrefix?_append]
    rfl

theorem length_fields_le (m : Model) : m.fields.length ≤ valueFields.length := by
  cases hl : m.length with
  | none => simp [fields, lengthFields, valueFields, hl]
  | some l => cases he : l.xor.isEmpty <;> simp [fields, lengthFields, valueFields, hl, he]

/-- Every text that gives the fields of a model is read as the model. -/
theorem read_of_spells {spec : String} {m : Model} (h : Spells spec m) : read spec = .ok m := by
  obtain ⟨lead, hl, written, padded, fields⟩ := h
  have plain : ∀ w ∈ written, ∀ c ∈ w.toList, Text.isBlank c ∨ c.isAlphanum := by
    intro w hw
    obtain ⟨part, hp, restyled⟩ := fields.exists_left hw
    have hf : part.2 ∈ m.fields := (List.of_mem_zip hp).2
    obtain ⟨-, -, -, -, -, -, hc⟩ := restyled.trim (isAlphanum_of_mem_fields hf)
    exact hc
  obtain ⟨w, t1, width, h1, rfl⟩ := List.forall₂_cons_left_iff.mp fields
  obtain ⟨p, t2, poly, h2, rfl⟩ := List.forall₂_cons_left_iff.mp h1
  obtain ⟨i, t3, init, h3, rfl⟩ := List.forall₂_cons_left_iff.mp h2
  obtain ⟨ri, t4, refIn, h4, rfl⟩ := List.forall₂_cons_left_iff.mp h3
  obtain ⟨ro, t5, refOut, h5, rfl⟩ := List.forall₂_cons_left_iff.mp h4
  obtain ⟨x, rest, xorOut, h6, rfl⟩ := List.forall₂_cons_left_iff.mp h5
  obtain ⟨length, count⟩ := readLength_of_restyled h6
  apply read_of_parts (splitAt_spelling hl padded (by simp) plain)
  · simpa using count
  · exact Restyled.readWidth m.validWidth width
  · exact Restyled.readWord "poly" m.validWidth m.poly_le poly
  · exact Restyled.readWord "init" m.validWidth m.init_le init
  · exact Restyled.readBool "refIn" refIn
  · exact Restyled.readBool "refOut" refOut
  · exact Restyled.readWord "xorOut" m.validWidth m.xorOut_le xorOut
  · exact length

/-- The text of a model, behind any of the words, gives its fields. -/
theorem spells_text (m : Model) {lead : String} (hl : lead ∈ leads) :
    Spells (lead ++ m.text) m := by
  refine ⟨lead, hl, m.fields.map String.ofList, ?_, ?_⟩
  · have joined : ",".intercalate (m.fields.map String.ofList) = m.text := by
      rw [← String.toList_inj, toList_text]
      simp [Function.comp_def]
    rw [joined]
    exact Text.Padded.refl _
  · have names : m.fields.map String.ofList =
        (valueFields.zip m.fields).map fun part => String.ofList part.2 := by
      rw [← Function.comp_def, ← List.map_map]
      exact congrArg _ (List.map_snd_zip m.length_fields_le).symm
    rw [names, List.forall₂_map_right_iff, List.forall₂_same]
    exact fun part _ => Restyled.refl part.1 part.2

theorem read_prefixed_text (m : Model) : read ("crc:" ++ m.text) = .ok m :=
  read_of_spells (m.spells_text (by decide))

/-- Every combination of parameters gives a model, and every spelling of a model is read as it: its
own text too, so that two models never share one, and whatever is read has a text that is read the
same. -/
theorem read_spelling :
    (∀ width poly init refIn refOut xorOut, ValidWidth width →
      ∃ m, ofParts width poly init refIn refOut xorOut = .ok m ∧ read m.text = .ok m ∧
        ∀ l, read (m.withLength l).text = .ok (m.withLength l)) ∧
    (∀ m, ∀ lead ∈ leads, read (lead ++ m.text) = .ok m) ∧
    (∀ spec m, Spells spec m → read spec = .ok m) ∧
    Function.Injective text ∧
    ∀ spec m, read spec = .ok m → read m.text = .ok m := by
  have behind (m : Model) (lead : String) (hl : lead ∈ leads) : read (lead ++ m.text) = .ok m :=
    read_of_spells (m.spells_text hl)
  have own (m : Model) : read m.text = .ok m := by
    simpa using behind m "" (by decide)
  refine ⟨?_, behind, fun _ _ => read_of_spells, ?_, fun _ m _ => own m⟩
  · intro width poly init refIn refOut xorOut valid
    exact ⟨_, dif_pos valid, own _, fun l => own _⟩
  · intro m n h
    have same := own m
    rw [h, own n] at same
    exact (Except.ok.inj same).symm

/-- The parameters of CRC-32 with capitals, marks and blanks. -/
theorem read_spelling_of_crc32 :
    ∃ m, ofParts 32 0x04c11db7 0xffffffff true true 0xffffffff = .ok m ∧
      read "CRC: 32, 0X04c11dB7 ,FFFFFFFF,TRUE,true,\t0xffffffff " = .ok m := by
  obtain ⟨m, hm, -⟩ :=
    read_spelling.1 32 0x04c11db7 0xffffffff true true 0xffffffff (by decide)
  refine ⟨m, hm, read_spelling.2.2.1 _ m ?_⟩
  obtain rfl := Except.ok.inj hm
  refine ⟨"CRC:", by decide,
    [" 32", " 0X04c11dB7 ", "FFFFFFFF", "TRUE", "true", "\t0xffffffff"], ?_, ?_⟩
  · exact ⟨[], [' '], by decide, List.forall_mem_nil _, List.forall_mem_singleton.mpr rfl⟩
  · refine .cons (restyled_of_core "" "32" [' '] [] (by decide) (by decide) (by decide)
      (by decide)) ?_
    refine .cons (restyled_of_core "0X" "04c11dB7" [' '] [' '] (by decide) (by decide)
      (by decide) (by decide)) ?_
    refine .cons (restyled_of_core "" "FFFFFFFF" [] [] (by decide) (by decide) (by decide)
      (by decide)) ?_
    refine .cons (restyled_of_core "" "TRUE" [] [] (by decide) (by decide) (by decide)
      (by decide)) ?_
    refine .cons (restyled_of_core "" "true" [] [] (by decide) (by decide) (by decide)
      (by decide)) ?_
    exact .cons (restyled_of_core "0x" "ffffffff" ['\t'] [] (by decide) (by decide) (by decide)
      (by decide)) .nil

end DigestFinder.Crc.Model
