import Mathlib.Data.List.Basic
import DigestFinder.Proofs.Text.Blank
import DigestFinder.Text.Field

/-!
Texts read back: fields between separators, leading words, and numerals. A numeral is read digit by
digit, and its value is below a limit as soon as the whole of it is.
-/

namespace DigestFinder.Text

theorem splitAt_of_not_mem {sep : Char} {field : List Char} (h : sep ∉ field) :
    splitAt sep field = [field] := by
  induction field with
  | nil => rfl
  | cons c cs ih =>
    rw [List.mem_cons, not_or] at h
    obtain ⟨hc, hcs⟩ := h
    rw [splitAt, if_neg (Ne.symm hc), ih hcs]

theorem splitAt_append {sep : Char} {field : List Char} (h : sep ∉ field) (rest : List Char) :
    splitAt sep (field ++ sep :: rest) = field :: splitAt sep rest := by
  induction field with
  | nil => simp [splitAt]
  | cons c cs ih =>
    rw [List.mem_cons, not_or] at h
    obtain ⟨hc, hcs⟩ := h
    rw [List.cons_append, splitAt, if_neg (Ne.symm hc), ih hcs]

/-- What stands in front of the first separator, and what behind it. -/
theorem splitOnce_append {sep : Char} {front : List Char} (h : sep ∉ front) (rest : List Char) :
    splitOnce sep (front ++ sep :: rest) = some (front, rest) := by
  induction front with
  | nil => simp [splitOnce]
  | cons c cs ih =>
    rw [List.mem_cons, not_or] at h
    obtain ⟨hc, hcs⟩ := h
    rw [List.cons_append, splitOnce, if_neg (Ne.symm hc), ih hcs, Option.map_some]

/-- Fields that are put together come apart again. -/
theorem splitAt_intercalate {sep : Char} {fields : List (List Char)} (hne : fields ≠ [])
    (h : ∀ field ∈ fields, sep ∉ field) : splitAt sep ([sep].intercalate fields) = fields := by
  induction fields with
  | nil => exact absurd rfl hne
  | cons field fields ih =>
    cases fields with
    | nil => simpa using splitAt_of_not_mem (h field (by simp))
    | cons next fields =>
      rw [List.intercalate_cons_cons, List.append_assoc, List.singleton_append,
        splitAt_append (h field (by simp)),
        ih (by simp) fun f hf => h f (List.mem_cons_of_mem _ hf)]

/-- The fields of a text are those that give it when they are put together. -/
theorem splitAt_eq_iff {sep : Char} {cs : List Char} {fields : List (List Char)} :
    splitAt sep cs = fields ↔
      fields ≠ [] ∧ (∀ field ∈ fields, sep ∉ field) ∧ [sep].intercalate fields = cs := by
  constructor
  · rintro rfl
    induction cs with
    | nil => simp [splitAt]
    | cons c cs ih =>
      obtain ⟨hne, absent, joined⟩ := ih
      obtain ⟨field, fields, hs⟩ := List.exists_cons_of_ne_nil hne
      rw [hs] at absent joined
      rw [splitAt, hs]
      split
      · next h =>
        refine ⟨by simp, by simpa using absent, ?_⟩
        rw [List.intercalate_cons_cons, joined, h]
        rfl
      · next h =>
        refine ⟨by simp, ?_, ?_⟩
        · simpa [Ne.symm h] using absent
        · rw [← joined]
          cases fields <;> simp [List.intercalate_cons_cons]
  · rintro ⟨hne, absent, rfl⟩
    exact splitAt_intercalate hne absent

/-- Each separator is a character of the text, and so is something in the last field, unless it is
empty. -/
theorem length_splitAt_le (sep : Char) (cs : List Char) :
    (splitAt sep cs).length ≤ cs.length + 1 ∧
      ((splitAt sep cs).getLast? ≠ some [] → (splitAt sep cs).length ≤ cs.length) := by
  induction cs with
  | nil => exact ⟨Nat.le_refl 1, fun h => absurd rfl h⟩
  | cons c cs ih =>
    obtain ⟨field, fields, hs⟩ := List.exists_cons_of_ne_nil
      (splitAt_eq_iff.mp (rfl : splitAt sep cs = _)).1
    rw [hs] at ih
    simp only [splitAt, hs, List.length_cons] at ih ⊢
    obtain ⟨all, ended⟩ := ih
    split
    · refine ⟨Nat.succ_le_succ all, fun last => Nat.succ_le_succ (ended ?_)⟩
      rwa [List.getLast?_cons_cons] at last
    · exact ⟨by simp only [List.length_cons]; omega, fun _ => all⟩

/-- Each line has a character of its own: its end, or what stands on it. -/
theorem length_lines_le (cs : List Char) : (lines cs).length ≤ cs.length := by
  obtain ⟨all, ended⟩ := length_splitAt_le '\n' cs
  unfold lines
  dsimp only
  split
  · rw [List.length_map, List.length_dropLast]
    omega
  · rw [List.length_map, List.length_dropLast]
    omega
  · next rest filled last =>
    have fits := ended (by simpa [last] using filled)
    have one := List.length_pos_of_mem (List.mem_of_getLast? last)
    rw [List.length_append, List.length_map, List.length_dropLast, List.length_singleton]
    omega

/-- What is put in front of a text goes to its first field. -/
theorem exists_splitAt_front {sep : Char} {pre : List Char} (h : sep ∉ pre) (cs : List Char) :
    ∃ field rest, splitAt sep cs = field :: rest ∧
      splitAt sep (pre ++ cs) = (pre ++ field) :: rest := by
  induction pre with
  | nil =>
    cases hs : splitAt sep cs with
    | nil =>
      cases cs with
      | nil => simp [splitAt] at hs
      | cons c cs =>
        rw [splitAt] at hs
        split at hs
        · cases hs
        · split at hs <;> cases hs
    | cons field rest => exact ⟨field, rest, rfl, hs⟩
  | cons p pre ih =>
    rw [List.mem_cons, not_or] at h
    obtain ⟨hp, hpre⟩ := h
    obtain ⟨field, rest, hs, hf⟩ := ih hpre
    refine ⟨field, rest, hs, ?_⟩
    rw [List.cons_append, splitAt, if_neg (Ne.symm hp), hf]
    rfl

/-- What is put behind a text goes to its last field. -/
theorem exists_splitAt_back {sep : Char} {post : List Char} (h : sep ∉ post) (cs : List Char) :
    ∃ front last, splitAt sep cs = front ++ [last] ∧
      splitAt sep (cs ++ post) = front ++ [last ++ post] := by
  induction cs with
  | nil => exact ⟨[], [], rfl, splitAt_of_not_mem h⟩
  | cons c cs ih =>
    obtain ⟨front, last, hs, hp⟩ := ih
    rw [List.cons_append, splitAt, splitAt, hs, hp]
    split
    · exact ⟨[] :: front, last, rfl, rfl⟩
    · cases front with
      | nil => exact ⟨[], c :: last, rfl, rfl⟩
      | cons field front => exact ⟨(c :: field) :: front, last, rfl, rfl⟩

/-- Blanks around a text do not count if its fields are trimmed. -/
theorem splitAt_padded {sep : Char} (hs : isBlank sep = false) {pre post : List Char}
    (before : ∀ c ∈ pre, isBlank c) (after : ∀ c ∈ post, isBlank c) (cs : List Char) :
    (splitAt sep (pre ++ cs ++ post)).map trim = (splitAt sep cs).map trim := by
  have absent {blanks : List Char} (h : ∀ c ∈ blanks, isBlank c) : sep ∉ blanks := by
    intro hm
    rw [h sep hm] at hs
    cases hs
  obtain ⟨front, last, hc, hb⟩ := exists_splitAt_back (absent after) (pre ++ cs)
  obtain ⟨field, rest, hf, hp⟩ := exists_splitAt_front (absent before) cs
  have trimBack : trim (last ++ post) = trim last := by
    simpa using @trim_padded [] post (by simp) after last
  have trimFront : trim (pre ++ field) = trim field := by
    simpa using @trim_padded pre [] before (by simp) field
  calc
    (splitAt sep (pre ++ cs ++ post)).map trim = (front ++ [last]).map trim := by
      rw [hb, List.map_append, List.map_append, List.map_singleton, List.map_singleton, trimBack]
    _ = ((pre ++ field) :: rest).map trim := by rw [← hc, hp]
    _ = (splitAt sep cs).map trim := by rw [hf, List.map_cons, List.map_cons, trimFront]

theorem splitAt_trim {sep : Char} (hs : isBlank sep = false) (cs : List Char) :
    (splitAt sep (trim cs)).map trim = (splitAt sep cs).map trim := by
  obtain ⟨before, after, hc, blank, blank'⟩ := exists_trim cs
  conv_rhs => rw [hc]
  exact (splitAt_padded hs blank blank' _).symm

theorem dropPrefix?_append (ps cs : List Char) : dropPrefix? ps (ps ++ cs) = some cs := by
  induction ps with
  | nil => cases cs <;> rfl
  | cons p ps ih => simpa [dropPrefix?] using ih

theorem eq_append_of_dropPrefix? {ps cs rest : List Char} (h : dropPrefix? ps cs = some rest) :
    cs = ps ++ rest := by
  induction ps generalizing cs with
  | nil =>
    cases cs <;> simpa [dropPrefix?] using h
  | cons p ps ih =>
    cases cs with
    | nil => cases h
    | cons c cs =>
      rw [dropPrefix?, Option.ite_none_right_eq_some] at h
      rw [h.1, ih h.2, List.cons_append]

/-- A text that lacks one of its characters does not start with a word. -/
theorem dropPrefix?_of_not_mem {ps cs : List Char} {p : Char} (hp : p ∈ ps) (hc : p ∉ cs) :
    dropPrefix? ps cs = none := by
  rw [Option.eq_none_iff_forall_ne_some]
  intro rest h
  rw [eq_append_of_dropPrefix? h] at hc
  exact hc (List.mem_append_left _ hp)

theorem visible_of_isAlphanum {c : Char} (h : c.isAlphanum) : Visible c := by
  rw [isAlphanum_iff] at h
  constructor <;> omega

theorem ofText_of_visible {cs : List Char} (h : ∀ c ∈ cs, Visible c) :
    Bytes.ofText (String.ofList cs) = cs.map fun c => c.toNat.toUInt8 := by
  have one {c : Char} (hc : Visible c) : String.utf8EncodeChar c = [c.toNat.toUInt8] := by
    have hv : c.val.toNat ≤ 0x7f := hc.2.trans (by decide)
    rw [String.utf8EncodeChar, if_pos hv]
    rfl
  rw [Bytes.ofText, String.toList_ofList]
  induction cs with
  | nil => rfl
  | cons c cs ih =>
    rw [List.flatMap_cons, one (h c (by simp)), ih fun d hd => h d (List.mem_cons_of_mem _ hd)]
    rfl

/-- Bytes of ASCII are the codes of the characters. -/
theorem map_ofNat_ofText {s : String} (h : ∀ b ∈ Bytes.ofText s, b.toNat < 128) :
    (Bytes.ofText s).map (fun b => Char.ofNat b.toNat) = s.toList := by
  have one {c : Char} (hc : ∀ b ∈ String.utf8EncodeChar c, b.toNat < 128) :
      (String.utf8EncodeChar c).map (fun b => Char.ofNat b.toNat) = [c] := by
    have back : Char.ofNat c.val.toNat = c := Char.ofNat_toNat c
    unfold String.utf8EncodeChar at hc ⊢
    dsimp only at hc ⊢
    generalize c.val.toNat = n at hc back ⊢
    split_ifs at hc ⊢
    · have small : (UInt8.ofNat n).toNat = n := UInt8.toNat_ofNat_of_lt (show n < 256 by omega)
      rw [List.map_singleton, small, back]
    all_goals
      have first := hc _ List.mem_cons_self
      rw [UInt8.toNat_ofNat'] at first
      omega
  unfold Bytes.ofText at h ⊢
  generalize s.toList = cs at h ⊢
  induction cs with
  | nil => rfl
  | cons c cs ih =>
    rw [List.flatMap_cons, List.forall_mem_append] at h
    rw [List.flatMap_cons, List.map_append, one h.1, ih h.2]
    rfl

/-- The value of digits after those worth `value`. -/
def digitsValue (radix value : Nat) (ds : List Nat) : Nat :=
  ds.foldl (fun n d => n * radix + d) value

theorem le_digitsValue {radix : Nat} (hr : 0 < radix) (value : Nat) (ds : List Nat) :
    value ≤ digitsValue radix value ds := by
  induction ds generalizing value with
  | nil => exact Nat.le_refl _
  | cons d ds ih =>
    have hv : value ≤ value * radix := Nat.le_mul_of_pos_right _ hr
    exact (Nat.le_add_right_of_le hv).trans (ih _)

theorem readDigits_of_digits {radix limit : Nat} (hr : 0 < radix) {cs : List Char} {ds : List Nat}
    (hd : cs.map (digit? radix) = ds.map some) {value : Nat}
    (hl : digitsValue radix value ds < limit) :
    readDigits radix limit value cs = .ok (digitsValue radix value ds) := by
  induction ds generalizing cs value with
  | nil =>
    obtain rfl : cs = [] := by simpa using hd
    rfl
  | cons d ds ih =>
    obtain ⟨c, cs, rfl, hc, hcs⟩ : ∃ c cs', cs = c :: cs' ∧ digit? radix c = some d ∧
        cs'.map (digit? radix) = ds.map some := by
      simpa [List.map_eq_cons_iff] using hd
    have hlt : value * radix + d < limit := (le_digitsValue hr _ ds).trans_lt hl
    rw [readDigits, hc]
    simp only [hlt, if_true]
    exact ih hcs hl

/-- A text of digits has no other characters. -/
theorem not_mem_of_digits {radix : Nat} {cs : List Char} {ds : List Nat}
    (hd : cs.map (digit? radix) = ds.map some) {c : Char} (h : digit? radix c = none) : c ∉ cs := by
  intro hm
  have hn : digit? radix c ∈ ds.map some := hd ▸ List.mem_map_of_mem hm
  simp [h] at hn

theorem isAlphanum_of_digits {radix : Nat} {cs : List Char} {ds : List Nat}
    (hd : cs.map (digit? radix) = ds.map some) : ∀ c ∈ cs, c.isAlphanum := by
  intro c hc
  have hm : digit? radix c ∈ ds.map some := hd ▸ List.mem_map_of_mem hc
  obtain ⟨d, -, h⟩ := List.mem_map.mp hm
  exact isAlphanum_of_digit? h.symm

theorem readNumeral_of_digits {radix limit : Nat} (hr : 0 < radix) {cs : List Char}
    {ds : List Nat} (hd : cs.map (digit? radix) = ds.map some) (hne : ds ≠ [])
    (hl : digitsValue radix 0 ds < limit) :
    readNumeral radix limit cs = .ok (digitsValue radix 0 ds) := by
  have hp : '+' ∉ cs := not_mem_of_digits hd rfl
  unfold readNumeral
  split
  · exact absurd (List.map_eq_nil_iff.mp hd.symm) hne
  · simp at hp
  · simp at hp
  · exact readDigits_of_digits hr hd hl

namespace Hex

theorem digit?_digit (upper : Bool) {v : UInt8} (h : v.toNat < 16) :
    digit? 16 (digit upper v) = some v.toNat := by
  have all : ∀ upper, ∀ n < 16, digit? 16 (digit upper (UInt8.ofNat n)) = some n := by
    decide
  simpa using all upper v.toNat h

/-- The values of the digits of a byte string. -/
def nibbles (bs : Bytes) : List Nat := bs.flatMap fun b => [b.toNat / 16, b.toNat % 16]

theorem map_digit?_encode (upper : Bool) (bs : Bytes) :
    (encode upper bs).map (digit? 16) = (nibbles bs).map some := by
  induction bs with
  | nil => rfl
  | cons b bs ih =>
    have hb := b.toNat_lt
    have high : digit? 16 (digit upper (b >>> 4)) = some (b.toNat / 16) := by
      rw [digit?_digit upper (by rw [toNat_high]; omega), toNat_high]
    have low : digit? 16 (digit upper (b &&& 15)) = some (b.toNat % 16) := by
      rw [digit?_digit upper (by rw [toNat_low]; omega), toNat_low]
    simpa [encode, nibbles, high, low] using ih

theorem digitsValue_nibbles (bs : Bytes) : digitsValue 16 0 (nibbles bs) = bs.toNat := by
  have general (value : Nat) : digitsValue 16 value (nibbles bs) =
      bs.foldl (fun n b => n * 256 + b.toNat) value := by
    induction bs generalizing value with
    | nil => rfl
    | cons b bs ih =>
      have hb : (value * 16 + b.toNat / 16) * 16 + b.toNat % 16 = value * 256 + b.toNat := by
        omega
      rw [List.foldl_cons, ← ih, ← hb]
      rfl
  exact general 0

end Hex

end DigestFinder.Text
