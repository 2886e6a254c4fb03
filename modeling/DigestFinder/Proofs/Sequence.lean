import DigestFinder.Proofs.Lists
import DigestFinder.Proofs.Text.Decoding
import DigestFinder.Proofs.Text.Numerals
import DigestFinder.Sequence

/-!
The forms in which bytes can be given. Main statement: whatever is written from bytes in one of the
formats is read as these bytes, with blanks wherever the format allows them.
-/

namespace DigestFinder

/-- The bytes of a text are its UTF-8. -/
theorem Bytes.ofText_eq_toUTF8 (s : String) : ofText s = s.toUTF8.data.toList := by
  have whole : s.toUTF8 = (s.toList.flatMap String.utf8EncodeChar).toByteArray := by
    rw [← List.utf8Encode, ← String.toByteArray_ofList, String.ofList_toList]
    rfl
  rw [whole, List.toList_data_toByteArray, ofText]

namespace Sequence

open Text

section Items

variable {radix : Nat} (two_le : 1 < radix) (small : radix ≤ 16)

include two_le small

/-- An item has no separator inside, and without its blanks it is the numeral. -/
theorem item_of_padded {item : String} {b : UInt8} (h : Padded item (numeral radix b.toNat)) :
    ',' ∉ item.toList ∧ trim item.toList = Nat.toDigits radix b.toNat := by
  have digits : (numeral radix b.toNat).toList = Nat.toDigits radix b.toNat :=
    String.toList_ofList
  have number : Signed ["", "+"] radix (Nat.toDigits radix b.toNat) b.toNat :=
    signed_iff.mpr (.inl (numeral_toDigits two_le small b.toNat))
  have core : trim item.toList = Nat.toDigits radix b.toNat := by
    rw [h.trim_eq fun c hc => (number.visible (digits ▸ hc)).not_blank, digits]
  refine ⟨fun comma => ?_, core⟩
  have inside : ',' ∈ Nat.toDigits radix b.toNat := core ▸ mem_trim comma (by decide)
  exact number.not_mem rfl (by decide) inside

/-- Bytes as numerals, with blanks around each of them and around the whole. -/
theorem readItems_of_padded {bs : Bytes} {items : List String} {value : String}
    (each : List.Forall₂ (fun item (b : UInt8) => Padded item (numeral radix b.toNat)) items bs)
    (around : Padded value (",".intercalate items)) :
    readItems radix value.toList = .ok bs := by
  obtain ⟨before, after, hv, blank, blank'⟩ := around
  have joined : (",".intercalate items).toList = [','].intercalate (items.map String.toList) := by
    simp
  rw [joined] at hv
  obtain ⟨absent, cores⟩ := (List.forall₂_and_left (p := fun item : String => ',' ∉ item.toList)
    items bs).mp (each.imp fun _ _ => item_of_padded two_le small)
  rw [readItems]
  cases cores with
  | nil =>
    have empty : trim value.toList = [] := by
      rw [hv]
      exact @trim_surrounded before [] after blank (by simp) blank'
    rw [if_pos empty]
  | @cons item b items bs first rest =>
    have comma : isBlank ',' = false := by decide
    have apart : splitAt ',' ([','].intercalate ((item :: items).map String.toList)) =
        (item :: items).map String.toList :=
      splitAt_intercalate (by simp) (by simpa using absent)
    have fields : (splitAt ',' value.toList).map trim =
        (item :: items).map fun item => trim item.toList := by
      rw [hv, splitAt_padded comma blank blank', apart, List.map_map]
      rfl
    have visible : trim value.toList ≠ [] := by
      intro he
      have single := splitAt_trim comma value.toList
      rw [he, fields] at single
      have empty : Nat.toDigits radix b.toNat = [] := first ▸ (List.cons.inj single).1.symm
      exact (numeral_toDigits two_le small b.toNat).1 empty
    have numerals : List.Forall₂ (fun field (b : UInt8) => trim field = Nat.toDigits radix b.toNat)
        (splitAt ',' value.toList) (b :: bs) := by
      rw [← List.forall₂_map_left_iff (f := trim) (R := fun core (b : UInt8) =>
        core = Nat.toDigits radix b.toNat), fields, List.forall₂_map_left_iff]
      exact .cons first rest
    rw [if_neg visible]
    refine List.mapM_eq_ok (numerals.imp fun field b core => ?_)
    rw [core, readNumeral_toDigits two_le small b.toNat_lt]
    simp

end Items

/-- The bits of one group are read to the byte that comes of pushing them. -/
theorem readBits_group {b c : UInt8} {n : Nat} {group : Bytes} (size : n + group.length = 8)
    (hne : group ≠ []) (pushed : group.foldlM pushBit b = .ok c) (rest : Bytes) :
    readBits b n (group ++ rest) = (readBits 0 0 rest).map (c :: ·) := by
  induction group generalizing b n with
  | nil => exact absurd rfl hne
  | cons bit group ih =>
    rw [List.foldlM_cons] at pushed
    rw [List.cons_append, readBits]
    cases hp : pushBit b bit with
    | error defect =>
      rw [hp] at pushed
      cases pushed
    | ok next =>
      rw [hp] at pushed
      rw [List.length_cons] at size
      change (if n = 7 then _ else _) = _
      cases group with
      | nil =>
        obtain rfl : next = c := Except.ok.inj pushed
        rw [if_pos (by simpa using size), List.nil_append]
        cases readBits 0 0 rest <;> rfl
      | cons bit' group =>
        rw [List.length_cons] at size
        rw [if_neg (by omega)]
        exact ih (by rw [List.length_cons]; omega) (List.cons_ne_nil bit' group) pushed

theorem readBits_bits (bs : Bytes) : readBits 0 0 ((Encoding.bits bs).map codeOf) = .ok bs := by
  have all : ∀ n < 256, ((Encoding.bits [UInt8.ofNat n]).map codeOf).foldlM pushBit 0 =
      .ok (UInt8.ofNat n) := by
    decide +kernel
  induction bs with
  | nil => rfl
  | cons b bs ih =>
    have one : ((Encoding.bits [b]).map codeOf).foldlM pushBit 0 = .ok b := by
      simpa using all b.toNat b.toNat_lt
    have size : 0 + ((Encoding.bits [b]).map codeOf).length = 8 := by
      rw [List.length_map, Encoding.length_flatMap_bits]
    have parts : (Encoding.bits (b :: bs)).map codeOf =
        (Encoding.bits [b]).map codeOf ++ (Encoding.bits bs).map codeOf := by
      rw [← List.map_append]
      simp [Encoding.bits]
    rw [parts, readBits_group size (by simp [Encoding.bits]) one, ih]
    rfl

/-- The names of formats. -/
def formats : List String := ["txt", "text", "hex", "dec", "oct", "bin", "base64", "b64"]

/-- What may stand behind the name of a format for given bytes. -/
inductive Writes (bs : Bytes) : String → String → Prop
  | text {name value} : name ∈ ["txt", "text"] → value.toUTF8.data.toList = bs →
      Writes bs name value
  | hex {e value} : e ∈ [Encoding.hex, .hexUpper] →
      Spaced value.toList (e.encode bs).toList → Writes bs "hex" value
  | bits {value} : Spaced value.toList (Encoding.binary.encode bs).toList → Writes bs "bin" value
  | base64 {name value} : name ∈ ["base64", "b64"] →
      Padded value (Encoding.base64.encode bs) → Writes bs name value
  | items {name radix items value} : (name, radix) ∈ [("dec", 10), ("oct", 8)] →
      List.Forall₂ (fun item (b : UInt8) => Padded item (numeral radix b.toNat)) items bs →
      Padded value (",".intercalate items) → Writes bs name value

theorem Writes.mem_formats {bs : Bytes} {name value : String} (h : Writes bs name value) :
    name ∈ formats := by
  cases h with
  | hex | bits => decide
  | text hn | base64 hn =>
    rcases List.mem_pair.mp hn with rfl | rfl <;> decide
  | items hn =>
    rcases List.mem_pair.mp hn with hn | hn <;> cases hn <;> decide

/-- The name of a format in any case is found. -/
theorem splitOnce_format {format name : String} (known : name ∈ formats)
    (recased : Recased format name) (value : String) :
    splitOnce ':' (format ++ ":" ++ value).toList = some (format.toList, value.toList) ∧
      String.ofList (format.toList.map Char.toLower) = name := by
  have small : ∀ name ∈ formats, name.toList.map Char.toLower = name.toList ∧
      name.toList.all Char.isAlphanum := by
    decide
  obtain ⟨lower, plain⟩ := small name known
  rw [List.all_eq_true] at plain
  have colon : ':' ∉ format.toList := by
    intro h
    exact absurd (recased.isAlphanum plain ':' h) (by decide)
  constructor
  · rw [String.append_assoc, String.toList_append, String.toList_append]
    exact splitOnce_append colon value.toList
  · rw [recased_iff.mp recased, lower, String.ofList_toList]

/-- Without the blanks put in, an encoding is the codes of its symbols. -/
theorem ofText_strip {e : Encoding} {bs : Bytes} {cs : List Char}
    (h : Spaced cs (e.encode bs).toList) :
    Bytes.ofText (String.ofList (strip cs)) = (e.symbols bs).map codeOf := by
  rw [e.toList_encode] at h
  rw [h.strip_eq fun c hc => (e.visible_of_mem_symbols hc).not_blank,
    ofText_of_visible fun c hc => e.visible_of_mem_symbols hc]
  rfl

theorem ofText_trim {e : Encoding} {bs : Bytes} {text : String} (h : Padded text (e.encode bs)) :
    Bytes.ofText (String.ofList (trim text.toList)) = (e.symbols bs).map codeOf := by
  have visible : ∀ c ∈ (e.encode bs).toList, isBlank c = false := by
    intro c hc
    rw [e.toList_encode] at hc
    exact (e.visible_of_mem_symbols hc).not_blank
  rw [h.trim_eq visible, e.toList_encode,
    ofText_of_visible fun c hc => e.visible_of_mem_symbols hc]
  rfl

theorem readBinary_of_spaced {bs : Bytes} {cs : List Char}
    (h : Spaced cs (Encoding.binary.encode bs).toList) : readBinary cs = .ok bs := by
  have whole : ((Encoding.bits bs).map codeOf).length % 8 = 0 := by
    rw [List.length_map, Encoding.bits, List.length_flatMap]
    simp
  have symbols : Bytes.ofText (String.ofList (strip cs)) = (Encoding.bits bs).map codeOf :=
    ofText_strip h
  rw [readBinary, symbols, if_pos whole, readBits_bits]

/-- Bytes written in a format are read as these bytes, in whatever case the format is named. -/
theorem read_of_writes {bs : Bytes} {name value format : String} (written : Writes bs name value)
    (recased : Recased format name) : read (format ++ ":" ++ value) = .ok bs := by
  obtain ⟨split, named⟩ := splitOnce_format written.mem_formats recased value
  rw [read, split]
  dsimp only
  rw [named]
  cases written with
  | text hn hv =>
    rw [← hv, ← Bytes.ofText_eq_toUTF8]
    rcases List.mem_pair.mp hn with rfl | rfl <;>
      exact congrArg (fun s => Except.ok (Bytes.ofText s)) String.ofList_toList
  | hex he spaced =>
    have decoded (upper : Bool) := congrArg (Except.mapError Error.hex) (Hex.decode_encode upper bs)
    change (Hex.decode _).mapError _ = _
    rw [ofText_strip spaced]
    rcases List.mem_pair.mp he with rfl | rfl
    · exact decoded false
    · exact decoded true
  | bits spaced =>
    change (readBinary _).mapError _ = _
    rw [readBinary_of_spaced spaced]
    rfl
  | base64 hn padded =>
    have decoded := congrArg (Except.mapError Error.base64) (Base64.decode_encode bs)
    rcases List.mem_pair.mp hn with rfl | rfl <;>
    · change (Base64.decode _).mapError _ = _
      rw [ofText_trim padded]
      exact decoded
  | items hn each around =>
    rcases List.mem_pair.mp hn with hn | hn <;> cases hn <;>
    · change (readItems _ _).mapError _ = _
      rw [readItems_of_padded (by decide) (by decide) each around]
      rfl

/-- Bytes are read from what is shown for them, and from their text in every format: its name in any
case, and blanks anywhere among hexadecimal digits and bits, around the items of a list, and around
Base64. -/
theorem read_written :
    (∀ bs, read (display bs) = .ok bs) ∧
      ∀ bs name value, Writes bs name value → ∀ format, Recased format name →
        read (format ++ ":" ++ value) = .ok bs := by
  constructor
  · intro bs
    have shown : Writes bs "hex" (Encoding.hex.encode bs) :=
      .hex List.mem_cons_self (Spaced.refl _)
    have name : "hex:" = "hex" ++ ":" := by decide
    rw [display, name]
    exact read_of_writes shown (Recased.refl "hex")
  · intro bs name value written format recased
    exact read_of_writes written recased

/-- Seven and eight in octal. -/
theorem read_octal_seven_eight : Writes [7, 8] "oct" " 7 ,10" ∧ Recased "OcT" "oct" ∧
    read ("OcT" ++ ":" ++ " 7 ,10") = .ok [7, 8] := by
  have blank : ∀ c ∈ [' '], isBlank c := List.all_eq_true.mp (by decide)
  have padded : Padded " 7 " (numeral 8 7) := ⟨[' '], [' '], rfl, blank, blank⟩
  have items : Writes [7, 8] "oct" " 7 ,10" :=
    .items (by decide) (.cons padded (.cons (Padded.refl "10") .nil)) (Padded.refl _)
  have recased : Recased "OcT" "oct" := sameLetters_iff.mp (by decide)
  exact ⟨items, recased, read_written.2 [7, 8] "oct" " 7 ,10" items "OcT" recased⟩

end Sequence

end DigestFinder
