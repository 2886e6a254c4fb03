import DigestFinder.Proofs.Crc.Grammar

/-!
Reading accepts the texts of the grammar, and gives the model that they stand for.

Each reader of a field accepts just the fields that the grammar describes, where the digits of a
number may follow a plus sign. The grammar in full is narrower in two ways: it has no such sign,
and it wants a length to be described even where it is left out.
-/

namespace DigestFinder

namespace Crc.Model

theorem exists_dropEither (a b : String) (cs : List Char) :
    ∃ word ∈ ["", a, b], cs = word.toList ++ dropEither a b cs := by
  unfold dropEither
  cases ha : Text.dropPrefix? a.toList cs with
  | some rest => exact ⟨a, by simp, Text.eq_append_of_dropPrefix? ha⟩
  | none =>
    cases hb : Text.dropPrefix? b.toList cs with
    | some rest => exact ⟨b, by simp, Text.eq_append_of_dropPrefix? hb⟩
    | none => exact ⟨"", by simp, rfl⟩

/-- One of the two words is taken off, or none if there is none. -/
theorem dropEither_append {a b word : String} {cs : List Char} (hw : word ∈ ["", a, b])
    (other : Text.dropPrefix? a.toList (b.toList ++ cs) = none)
    (bare : word = "" → dropEither a b cs = cs) : dropEither a b (word.toList ++ cs) = cs := by
  simp only [List.mem_cons, List.not_mem_nil, or_false] at hw
  rcases hw with rfl | rfl | rfl
  · exact bare rfl
  · rw [dropEither, Text.dropPrefix?_append]
    rfl
  · rw [dropEither, other, Text.dropPrefix?_append]
    rfl

theorem readWidth_eq_ok_iff {field : List Char} {width : Nat} : readWidth field = .ok width ↔
    Text.Signed ["", "+"] 10 field width ∧ ValidWidth width := by
  have number (n : Nat) : Text.readNumeral 10 UInt32.size field = .ok n ↔
      Text.Signed ["", "+"] 10 field n ∧ n < UInt32.size :=
    Text.readNumeral_eq_ok_iff (by decide) (by decide)
  rw [readWidth]
  constructor
  · intro h
    cases hn : Text.readNumeral 10 UInt32.size field with
    | error defect => simp [hn] at h
    | ok n =>
      simp only [hn, checkWidth] at h
      split at h
      · next valid =>
        obtain rfl : n = width := Except.ok.inj h
        exact ⟨((number n).mp hn).1, valid⟩
      · cases h
  · rintro ⟨written, valid⟩
    have below : width < UInt32.size := valid.2.trans_lt (by decide)
    simp only [(number width).mpr ⟨written, below⟩, checkWidth, if_pos valid]
    rfl

theorem readBool_eq_ok_iff {name : String} {field : List Char} {b : Bool} :
    readBool name field = .ok b ↔ TruthField field b := by
  have lower (b : Bool) : (boolText b).toList.map Char.toLower = (boolText b).toList := by
    cases b <;> decide
  rw [TruthField, Text.recased_iff, String.toList_ofList]
  refine ⟨fun h => ?_, readBool_of_lower name⟩
  rw [lower]
  unfold readBool at h
  split at h
  · next text =>
    obtain rfl := Except.ok.inj h
    exact String.ofList_inj.mp (text.trans String.ofList_toList.symm)
  · next text =>
    obtain rfl := Except.ok.inj h
    exact String.ofList_inj.mp (text.trans String.ofList_toList.symm)
  · cases h

/-- A value has no bits above a width if it is below the next power of two. -/
theorem and_complement_mask_iff {width : Nat} (valid : ValidWidth width) {v : UInt64} :
    v &&& ~~~ Crc.mask width = 0 ↔ v.toNat < 2 ^ width := by
  rw [← le_mask_iff_lt valid]
  refine ⟨fun h => (le_mask_iff valid v).mpr fun i hi => ?_, and_complement_mask valid⟩
  by_cases h64 : i < 64
  · have inside : bit (Crc.mask width) i = false := by
      rw [bit_mask valid]
      simpa using hi
    have outside : bit (~~~ Crc.mask width) i = true := by
      simpa [bit, h64] using inside
    have none := congrArg (bit · i) h
    simpa [outside] using none
  · exact bit_of_ge v (by omega)

theorem readWord_eq_ok_iff {name : String} {width : Nat} (valid : ValidWidth width)
    {field : List Char} {v : UInt64} :
    readWord name width field = .ok v ↔ ValueField .signed width field v := by
  rw [readWord]
  constructor
  · intro h
    obtain ⟨mark, hm, hf⟩ := exists_dropEither "0x" "0X" field
    cases hn : Text.readNumeral 16 UInt64.size (dropEither "0x" "0X" field) with
    | error defect => simp [hn] at h
    | ok n =>
      obtain ⟨w, rfl, written⟩ := Text.readNumeral_word_iff.mp hn
      simp only [hn, Nat.toUInt64_eq, UInt64.ofNat_toNat] at h
      split at h
      · next fits =>
        obtain rfl := Except.ok.inj h
        exact ⟨(and_complement_mask_iff valid).mp fits, mark, hm, _, hf, written⟩
      · cases h
  · rintro ⟨below, mark, hm, digits, rfl, written⟩
    have fits := (and_complement_mask_iff valid).mpr below
    have bare : dropEither "0x" "0X" digits = digits :=
      dropEither_of_not_mem (p := 'x') (q := 'X') (by decide) (by decide)
        (written.not_mem (by decide) (by decide)) (written.not_mem (by decide) (by decide))
    rw [dropEither_append hm rfl fun _ => bare, Text.readNumeral_word_iff.mpr ⟨v, rfl, written⟩]
    simp [fits]

theorem MaskField.visible {field : List Char} {bs : Bytes} (h : MaskField .signed field bs) :
    ∀ c ∈ field, Text.Visible c := by
  obtain ⟨pairs, rfl, hp⟩ := h
  intro c hc
  obtain ⟨pair, hm, hc⟩ := List.mem_flatten.mp hc
  obtain ⟨b, -, -, number⟩ := hp.flip.exists_left hm
  exact number.visible hc

theorem maskField_of_readPairs? : ∀ {digits bs : Bytes}, digits.length % 2 = 0 →
    readPairs? digits = some bs →
    MaskField .signed (digits.map fun b => Char.ofNat b.toNat) bs
  | [], bs, _, h => by
    obtain rfl : [] = bs := Option.some.inj h
    exact ⟨[], rfl, .nil⟩
  | [_], _, even, _ => by cases even
  | high :: low :: rest, bs, even, h => by
    simp only [readPairs?, Option.bind_eq_bind, Option.bind_eq_some_iff, Option.pure_def,
      Option.some.injEq] at h
    obtain ⟨n, hn, tail, ht, rfl⟩ := h
    simp only [List.length_cons] at even
    obtain ⟨pairs, hp, hf⟩ := maskField_of_readPairs? (by omega) ht
    obtain ⟨number, below⟩ :=
      (Text.readNumeral_eq_ok_iff (by decide) (by decide)).mp (Except.eq_ok_of_toOption hn)
    have value : n.toUInt8.toNat = n := UInt8.toNat_ofNat_of_lt below
    refine ⟨[Char.ofNat high.toNat, Char.ofNat low.toNat] :: pairs, ?_, .cons ⟨rfl, ?_⟩ hf⟩
    · rw [List.map_cons, List.map_cons, hp]
      rfl
    · rw [value]
      exact number

theorem readPairs?_of_maskField {field : List Char} {bs : Bytes} (h : MaskField .signed field bs) :
    readPairs? (field.map fun c => c.toNat.toUInt8) = some bs ∧ field.length % 2 = 0 := by
  have visible := h.visible
  obtain ⟨pairs, rfl, hp⟩ := h
  induction hp with
  | nil => exact ⟨rfl, rfl⟩
  | @cons pair b pairs bs first _ ih =>
    obtain ⟨size, number⟩ := first
    obtain ⟨high, low, rfl⟩ := List.length_eq_two.mp size
    have back {c : Char} (hc : c ∈ [high, low]) : Char.ofNat c.toNat.toUInt8.toNat = c :=
      (number.visible hc).ofNat_byte
    have read : Text.readNumeral 16 UInt8.size [high, low] = .ok b.toNat :=
      (Text.readNumeral_eq_ok_iff (by decide) (by decide)).mpr ⟨number, b.toNat_lt⟩
    rw [List.flatten_cons, List.forall_mem_append] at visible
    obtain ⟨rest, even⟩ := ih visible.2
    constructor
    · rw [List.flatten_cons, List.cons_append, List.cons_append, List.nil_append, List.map_cons,
        List.map_cons, readPairs?, List.map_cons, List.map_cons, List.map_nil,
        back List.mem_cons_self, back (by simp), read, rest]
      simp [Except.toOption]
    · simp only [List.flatten_cons, List.length_append, size]
      omega

theorem readMask_eq_ok_iff {field : List Char} {bs : Bytes} :
    readMask field = .ok bs ↔ MaskField .signed field bs := by
  constructor
  · intro h
    simp only [readMask] at h
    split at h
    · cases h
    · next even =>
      split at h
      · next read =>
        obtain rfl := Except.ok.inj h
        -- pairs are taken from the bytes of the text, which are its characters as they are digits
        have mask := maskField_of_readPairs? (by omega) read
        have ascii : ∀ b ∈ Bytes.ofText (String.ofList field), b.toNat < 128 := by
          intro b hb
          have small := (mask.visible _ (List.mem_map_of_mem hb)).2
          rw [Text.toNat_ofNat_of_lt b.toNat_lt] at small
          omega
        rwa [Text.map_ofNat_ofText ascii, String.toList_ofList] at mask
      · cases h
  · intro h
    obtain ⟨read, even⟩ := readPairs?_of_maskField h
    rw [readMask, Text.ofText_of_visible h.visible, List.length_map, read]
    simp [even]

theorem LengthFields.count {s : Strictness} {fields : List (List Char)}
    {l : Option LengthInclusion} (h : LengthFields s fields l) :
    fields.length = 0 ∨ fields.length = 2 ∨ fields.length = 3 := by
  cases h with
  | absent => exact .inl rfl
  | excluded _ count _ =>
    rw [List.length_cons]
    omega
  | included _ described => cases described <;> simp

theorem readLength_eq_ok_iff {fields : List (List Char)} {l : Option LengthInclusion} :
    readLength fields = .ok l ∧
      (fields.length = 0 ∨ fields.length = 2 ∨ fields.length = 3) ↔
      LengthFields .signed fields l := by
  constructor
  · rintro ⟨h, count⟩
    rcases fields with _ | ⟨included, _ | ⟨order, rest⟩⟩
    · obtain rfl : none = l := Except.ok.inj h
      exact .absent
    · simp at count
    · rw [readLength, Except.bind_eq_ok_iff] at h
      obtain ⟨b, hb, h⟩ := h
      rw [readBool_eq_ok_iff] at hb
      cases b with
      | false =>
        obtain rfl : none = l := Except.ok.inj h
        exact .excluded hb (by simpa using count) (fun whole => by cases whole)
      | true =>
        rw [if_neg (by decide), Except.bind_eq_ok_iff] at h
        obtain ⟨msFirst, ho, h⟩ := h
        rw [readBool_eq_ok_iff] at ho
        rcases rest with _ | ⟨mask, _ | ⟨more, rest⟩⟩
        · obtain rfl := Except.ok.inj h
          exact .included hb (.unmasked ho)
        · obtain ⟨xor, hm, h⟩ := Except.bind_eq_ok_iff.mp h
          obtain rfl := Except.ok.inj h
          exact .included hb (.masked ho (readMask_eq_ok_iff.mp hm))
        · simp at count
  · intro h
    refine ⟨?_, h.count⟩
    have truth {name : String} {field : List Char} {b : Bool} (h : TruthField field b) :
        readBool name field = .ok b :=
      readBool_eq_ok_iff.mpr h
    cases h with
    | absent => rfl
    | @excluded included rest no count _ =>
      obtain ⟨order, rest, rfl⟩ : ∃ order more, rest = order :: more :=
        List.exists_cons_of_ne_nil (by rintro rfl; simp at count)
      rw [readLength, truth no]
      rfl
    | included yes described =>
      cases described with
      | unmasked order =>
        rw [readLength, truth yes, truth order]
        rfl
      | masked order mask =>
        simp only [readLength, truth yes, truth order, readMask_eq_ok_iff.mpr mask]
        rfl

/-- The fields of a text. -/
def fieldsOf (spec : String) : List (List Char) :=
  (Text.splitAt ',' (dropEither "crc:" "CRC:" (Text.trim spec.toList))).map Text.trim

theorem read_eq_ok_iff_denotes {spec : String} {m : Model} :
    read spec = .ok m ↔ Denotes .signed m (fieldsOf spec) := by
  constructor
  · intro h
    unfold read at h
    dsimp only at h
    split at h
    · next width poly init refIn refOut xorOut rest fields =>
      rw [fieldsOf, fields]
      split at h
      · next count =>
        obtain ⟨w, hw, h⟩ := Except.bind_eq_ok_iff.mp h
        obtain ⟨p, hp, h⟩ := Except.bind_eq_ok_iff.mp h
        obtain ⟨i, hi, h⟩ := Except.bind_eq_ok_iff.mp h
        obtain ⟨ri, hri, h⟩ := Except.bind_eq_ok_iff.mp h
        obtain ⟨ro, hro, h⟩ := Except.bind_eq_ok_iff.mp h
        obtain ⟨x, hx, h⟩ := Except.bind_eq_ok_iff.mp h
        obtain ⟨n, hn, h⟩ := Except.bind_eq_ok_iff.mp h
        obtain ⟨l, hl, h⟩ := Except.bind_eq_ok_iff.mp h
        obtain rfl := Except.ok.inj h
        obtain ⟨written, valid⟩ := readWidth_eq_ok_iff.mp hw
        obtain rfl := Except.ok.inj ((dif_pos valid).symm.trans hn)
        rw [readWord_eq_ok_iff valid] at hp hi hx
        -- values that fit are not changed where the model is built
        have whole {v : UInt64} (hv : v.toNat < 2 ^ w) : v &&& Crc.mask w = v :=
          and_mask_of_le valid ((le_mask_iff_lt valid v).mpr hv)
        simp only [Denotes, masked, whole hp.1, whole hi.1, whole hx.1]
        exact ⟨written, hp, hi, readBool_eq_ok_iff.mp hri, readBool_eq_ok_iff.mp hro, hx,
          readLength_eq_ok_iff.mp ⟨hl, count⟩⟩
      · cases h
    · cases h
  · intro h
    unfold Denotes at h
    split at h
    · next fields =>
      obtain ⟨width, poly, init, refIn, refOut, xorOut, length⟩ := h
      have valid := m.validWidth
      obtain ⟨hl, count⟩ := readLength_eq_ok_iff.mpr length
      exact read_of_parts fields count (readWidth_eq_ok_iff.mpr ⟨width, valid⟩)
        ((readWord_eq_ok_iff valid).mpr poly) ((readWord_eq_ok_iff valid).mpr init)
        (readBool_eq_ok_iff.mpr refIn) (readBool_eq_ok_iff.mpr refOut)
        ((readWord_eq_ok_iff valid).mpr xorOut) hl
    · exact h.elim

theorem Denotes.exists_width {s : Strictness} {m : Model} {fields : List (List Char)}
    (h : Denotes s m fields) : ∃ width rest, fields = width :: rest ∧
      Text.Signed s.signs 10 width m.width := by
  unfold Denotes at h
  split at h
  · exact ⟨_, _, rfl, h.1⟩
  · exact h.elim

section

variable {s : Strictness} (signs : s.signs ⊆ ["", "+"])

include signs

/-- A width does not look like the end of a leading word. -/
theorem dropEither_of_denotes {m : Model} {fields : List (List Char)}
    (absent : ∀ field ∈ fields, ',' ∉ field) (h : Denotes s m (fields.map Text.trim)) :
    dropEither "crc:" "CRC:" ([','].intercalate fields) = [','].intercalate fields := by
  obtain ⟨width, rest, hf, written⟩ := h.exists_width
  have number := written.mono signs
  obtain ⟨first, more, rfl, rfl, -⟩ := List.map_eq_cons_iff.mp hf
  have none {word : String} {c : Char} (hc : c ∈ word.toList) (hw : ',' ∉ word.toList)
      (visible : Text.isBlank c = false) (hd : Text.digit? 10 c = none) (hp : c ≠ '+') :
      Text.dropPrefix? word.toList ([','].intercalate (first :: more)) = none := by
    rw [Option.eq_none_iff_forall_ne_some]
    intro text starts
    -- the word has no comma, so all of it would be in the first field
    obtain ⟨field, others, -, split⟩ := Text.exists_splitAt_front hw text
    rw [← Text.eq_append_of_dropPrefix? starts, Text.splitAt_intercalate (by simp) absent] at split
    obtain ⟨rfl, -⟩ := List.cons.inj split
    exact number.not_mem hd hp (Text.mem_trim (List.mem_append_left _ hc) visible)
  rw [dropEither, none (c := 'c') (by decide) (by decide) (by decide) (by decide) (by decide),
    none (c := 'C') (by decide) (by decide) (by decide) (by decide) (by decide)]
  rfl

theorem writes_iff {spec : String} {m : Model} : Writes s spec m ↔ Denotes s m (fieldsOf spec) := by
  constructor
  · rintro ⟨lead, hl, fields, ht, absent, h⟩
    have hne : fields ≠ [] := by
      rintro rfl
      exact h
    rw [fieldsOf, ht, dropEither_append hl rfl fun _ => dropEither_of_denotes signs absent h,
      Text.splitAt_intercalate hne absent]
    exact h
  · intro h
    obtain ⟨lead, hl, ht⟩ := exists_dropEither "crc:" "CRC:" (Text.trim spec.toList)
    obtain ⟨-, absent, joined⟩ := Text.splitAt_eq_iff.mp
      (rfl : Text.splitAt ',' (dropEither "crc:" "CRC:" (Text.trim spec.toList)) = _)
    refine ⟨lead, hl, _, ?_, absent, h⟩
    rw [joined]
    exact ht

end

/-- Reading accepts what the grammar describes if plus signs are let through. -/
theorem read_eq_ok_iff {spec : String} {m : Model} : read spec = .ok m ↔ Writes .signed spec m :=
  read_eq_ok_iff_denotes.trans (writes_iff (List.Subset.refl _)).symm

theorem Writes.signed {spec : String} {m : Model} (h : Writes .plain spec m) :
    Writes .signed spec m := by
  refine h.imp (C := fun _ => True) ?_ (fun whole => by cases whole) fun _ _ => trivial
  intro radix cs n _ number
  exact number.mono (by decide)

/-- Without a plus sign there is no more than digits. -/
theorem Writes.plain {spec : String} {m : Model} (h : Writes .signed spec m)
    (bare : '+' ∉ spec.toList) : Writes .plain spec m := by
  refine h.imp (C := (· ≠ '+')) ?_ (fun whole => by cases whole) fun c hc he => bare (he ▸ hc)
  intro radix cs n hC number
  rcases Text.signed_iff.mp number with digits | ⟨digits, rfl, -⟩
  · exact Text.signed_bare_iff.mpr digits
  · exact absurd rfl (hC '+' List.mem_cons_self)

/-- A text of the grammar is read as the model that it stands for, and what is read at all is such
a text, except that a plus sign may stand in front of the digits of a number. -/
theorem read_recognizes :
    (∀ spec m, Writes .plain spec m → read spec = .ok m) ∧
      (∀ spec m, read spec = .ok m → Writes .signed spec m) ∧
      ∀ spec : String, '+' ∉ spec.toList → ∀ m, read spec = .ok m ↔ Writes .plain spec m := by
  have accepts (spec : String) (m : Model) (h : Writes .plain spec m) : read spec = .ok m :=
    read_eq_ok_iff.mpr h.signed
  refine ⟨accepts, fun spec m => read_eq_ok_iff.mp, fun spec bare m => ⟨fun h => ?_, accepts spec m⟩⟩
  exact (read_eq_ok_iff.mp h).plain bare

theorem read_recognizes_masked_length : ∃ m : Model,
    m.text = "16,1021,0000,false,true,0000,true,true,00ff" ∧
      Writes .plain " CRC:16,0x01021, 0 ,FALSE,true,0,true,True,00Ff" m ∧
      read " CRC:16,0x01021, 0 ,FALSE,true,0,true,True,00Ff" = .ok m := by
  let m := (masked 16 (by decide) 0x1021 0 false true 0).withLength ⟨true, [0, 0xff]⟩
  have reads : read " CRC:16,0x01021, 0 ,FALSE,true,0,true,True,00Ff" = .ok m := by decide
  have written : Writes .plain " CRC:16,0x01021, 0 ,FALSE,true,0,true,True,00Ff" m :=
    (read_recognizes.2.2 _ (by decide) m).mp reads
  exact ⟨m, by decide, written, read_recognizes.1 _ m written⟩

/-- The grammar in full has neither a length that is left out with a description that is none, nor
a sign in front of digits. -/
theorem read_exceeds_full_grammar :
    (∃ m, read "8,07,00,false,false,00,false,maybe" = .ok m) ∧
      (∀ m, ¬ Writes .full "8,07,00,false,false,00,false,maybe" m) ∧
      (∃ m, read "8,+7,00,false,false,00" = .ok m) ∧
      ∀ m, ¬ Writes .full "8,+7,00,false,false,00" m := by
  let read8 := masked 8 (by decide) 7 0 false false 0
  have truth {field : String} {b : Bool} (h : TruthField field.toList b) :
      readBool "" field.toList = .ok b :=
    readBool_eq_ok_iff.mpr h
  refine ⟨⟨read8, by decide⟩, fun m h => ?_, ⟨read8, by decide⟩, fun m h => ?_⟩
  · have fields : fieldsOf "8,07,00,false,false,00,false,maybe" =
        ["8".toList, "07".toList, "00".toList, "false".toList, "false".toList, "00".toList,
          "false".toList, "maybe".toList] := by
      decide
    rw [writes_iff (by decide), fields] at h
    obtain ⟨-, -, -, -, -, -, length⟩ := h
    generalize m.length = l at length
    cases length with
    | excluded _ _ described =>
      obtain ⟨l, order⟩ := described rfl
      cases order with
      | unmasked order => cases truth order
    | included yes _ => cases truth yes
  · have fields : fieldsOf "8,+7,00,false,false,00" =
        ["8".toList, "+7".toList, "00".toList, "false".toList, "false".toList, "00".toList] := by
      decide
    rw [writes_iff (by decide), fields] at h
    obtain ⟨-, ⟨-, mark, hm, digits, hd, number⟩, -⟩ := h
    have numeral := Text.signed_bare_iff.mp number
    have plus : '+' ∈ digits := by
      have marks : ∀ mark ∈ hexMarks, '+' ∉ mark.toList := by decide
      have both : '+' ∈ mark.toList ++ digits := hd ▸ by decide
      exact (List.mem_append.mp both).resolve_left (marks mark hm)
    obtain ⟨d, value⟩ := numeral.exists_digit plus
    cases value

end Crc.Model

end DigestFinder
