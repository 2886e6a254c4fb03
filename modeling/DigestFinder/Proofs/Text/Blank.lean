import Mathlib.Data.Bool.AllAny
import Mathlib.Data.List.DropRight
import Mathlib.Data.List.TakeWhile
import DigestFinder.Proofs.Text.Codes
import DigestFinder.Text.Blank

/-!
White space around a text. The characters of written digests are visible ones, so that trimming
takes away just what was put around them.
-/

namespace DigestFinder.Text

/-- The characters of ASCII that leave a mark. -/
def Visible (c : Char) : Prop := 33 ≤ c.toNat ∧ c.toNat ≤ 126

instance (c : Char) : Decidable (Visible c) := inferInstanceAs (Decidable (_ ∧ _))

theorem Visible.not_blank {c : Char} (h : Visible c) : isBlank c = false := by
  obtain ⟨hl, hu⟩ := h
  rw [isBlank, List.any_eq_false]
  rintro ⟨first, last⟩ hr
  simp only [blankRanges, List.mem_cons, List.not_mem_nil, or_false, Prod.mk.injEq] at hr
  simp only [Bool.and_eq_true, decide_eq_true_eq]
  omega

/-- A visible character is one byte. -/
theorem Visible.ofNat_byte {c : Char} (h : Visible c) : Char.ofNat c.toNat.toUInt8.toNat = c := by
  have last := h.2
  have byte : c.toNat.toUInt8.toNat = c.toNat := UInt8.toNat_ofNat_of_lt (show _ < 256 by omega)
  rw [byte, Char.ofNat_toNat]

/-- No blank is a letter. -/
theorem not_blank_of_visible_toLower {c : Char} (h : Visible c.toLower) : isBlank c = false := by
  by_cases hc : c.toNat < 65 ∨ 90 < c.toNat
  · rw [toLower_of_toNat hc] at h
    exact h.not_blank
  · apply Visible.not_blank
    constructor <;> omega

theorem Visible.toLower {c : Char} (h : Visible c) : Visible c.toLower := by
  unfold Visible at h ⊢
  rw [toNat_toLower]
  split_ifs <;> omega

/-- A text with blanks put around it. -/
def Padded (text core : String) : Prop :=
  ∃ before after : List Char, text.toList = before ++ core.toList ++ after ∧
    (∀ c ∈ before, isBlank c) ∧ ∀ c ∈ after, isBlank c

theorem Padded.refl (text : String) : Padded text text :=
  ⟨[], [], by simp, by simp, by simp⟩

/-- Blanks put around a text are taken away with those that it has. -/
theorem trim_padded {pre post : List Char} (before : ∀ c ∈ pre, isBlank c)
    (after : ∀ c ∈ post, isBlank c) (cs : List Char) : trim (pre ++ cs ++ post) = trim cs := by
  have front : (pre ++ cs ++ post).dropWhile isBlank =
      if (cs.dropWhile isBlank).isEmpty then [] else cs.dropWhile isBlank ++ post := by
    have none : post.dropWhile isBlank = [] := List.dropWhile_eq_nil_iff.mpr after
    rw [List.append_assoc, List.dropWhile_append_of_pos before, List.dropWhile_append, none]
  rw [trim, trim, front]
  split
  · next empty => rw [List.isEmpty_iff.mp empty]
  · rw [List.reverse_append, List.dropWhile_append_of_pos (by simpa using after)]

/-- Behind a word only the blanks at the end are taken away. -/
theorem exists_trim_behind {word : List Char} (hne : word ≠ [])
    (visible : ∀ c ∈ word, isBlank c = false) (cs : List Char) : ∃ rest after : List Char,
    cs = rest ++ after ∧ (∀ c ∈ after, isBlank c) ∧ trim (word ++ cs) = word ++ rest := by
  refine ⟨cs.rdropWhile isBlank, cs.rtakeWhile isBlank, ?_, ?_, ?_⟩
  · exact List.rdropWhile_append_rtakeWhile.symm
  · exact fun c hc => List.mem_rtakeWhile_imp hc
  · have stays {ds : List Char} (h : ds ≠ []) (hd : ∀ c ∈ ds, isBlank c = false)
        (more : List Char) : (ds ++ more).dropWhile isBlank = ds ++ more := by
      cases ds with
      | nil => exact absurd rfl h
      | cons d ds => simp [hd]
    have back : (cs.reverse ++ word.reverse).dropWhile isBlank =
        cs.reverse.dropWhile isBlank ++ word.reverse := by
      have last := stays (List.reverse_ne_nil_iff.mpr hne) (by simpa using visible) []
      rw [List.append_nil] at last
      rw [List.dropWhile_append, last]
      split
      · next empty => rw [List.isEmpty_iff.mp empty, List.nil_append]
      · rfl
    rw [trim, stays hne visible, List.reverse_append, back, List.reverse_append,
      List.reverse_reverse]
    rfl

/-- Trimming takes away blanks only. -/
theorem exists_trim (cs : List Char) : ∃ before after : List Char,
    cs = before ++ trim cs ++ after ∧ (∀ c ∈ before, isBlank c) ∧ ∀ c ∈ after, isBlank c := by
  let rest := (cs.dropWhile isBlank).reverse
  refine ⟨cs.takeWhile isBlank, (rest.takeWhile isBlank).reverse, ?_, ?_, ?_⟩
  · have back : trim cs ++ (rest.takeWhile isBlank).reverse = cs.dropWhile isBlank := by
      rw [trim, ← List.reverse_append, List.takeWhile_append_dropWhile, List.reverse_reverse]
    rw [List.append_assoc, back, List.takeWhile_append_dropWhile]
  · exact fun c hc => List.mem_takeWhile_imp hc
  · exact fun c hc => List.mem_takeWhile_imp (List.mem_reverse.mp hc)

theorem mem_of_mem_trim {c : Char} {cs : List Char} (h : c ∈ trim cs) : c ∈ cs := by
  obtain ⟨before, after, hc, -, -⟩ := exists_trim cs
  rw [hc]
  simp [h]

theorem mem_trim {c : Char} {cs : List Char} (hc : c ∈ cs) (hb : isBlank c = false) :
    c ∈ trim cs := by
  obtain ⟨before, after, h, blank, blank'⟩ := exists_trim cs
  rw [h, List.mem_append, List.mem_append] at hc
  rcases hc with (hc | hc) | hc
  · simp [blank c hc] at hb
  · exact hc
  · simp [blank' c hc] at hb

/-- A text without blanks stays as it is. -/
theorem trim_of_not_blank {cs : List Char} (h : ∀ c ∈ cs, isBlank c = false) : trim cs = cs := by
  have stays {ds : List Char} (hd : ∀ c ∈ ds, isBlank c = false) : ds.dropWhile isBlank = ds := by
    cases ds with
    | nil => rfl
    | cons d ds => simp [hd]
  rw [trim, stays h, stays (by simpa using h), List.reverse_reverse]

theorem trim_surrounded {pre cs post : List Char} (before : ∀ c ∈ pre, isBlank c)
    (visible : ∀ c ∈ cs, isBlank c = false) (after : ∀ c ∈ post, isBlank c) :
    trim (pre ++ cs ++ post) = cs := by
  rw [trim_padded before after, trim_of_not_blank visible]

theorem Padded.trim_eq {text core : String} (h : Padded text core)
    (visible : ∀ c ∈ core.toList, isBlank c = false) : trim text.toList = core.toList := by
  obtain ⟨before, after, ht, blank, blank'⟩ := h
  rw [ht, trim_surrounded blank visible blank']

/-- A text with blanks put in anywhere. -/
inductive Spaced : List Char → List Char → Prop
  | nil : Spaced [] []
  | keep (c) {text core} : Spaced text core → Spaced (c :: text) (c :: core)
  | blank {c text core} : isBlank c → Spaced text core → Spaced (c :: text) core

theorem Spaced.refl (cs : List Char) : Spaced cs cs := by
  induction cs with
  | nil => exact .nil
  | cons c cs ih => exact .keep c ih

/-- Without its blanks a text is the one that they were put in. -/
theorem Spaced.strip_eq {text core : List Char} (h : Spaced text core)
    (visible : ∀ c ∈ core, isBlank c = false) : strip text = core := by
  induction h with
  | nil => rfl
  | keep c _ ih =>
    rw [List.forall_mem_cons] at visible
    obtain ⟨hc, rest⟩ := visible
    rw [strip, List.filter_cons_of_pos (by simp [hc]), ← strip, ih rest]
  | blank hb _ ih => rw [strip, List.filter_cons_of_neg (by simp [hb]), ← strip, ih visible]

theorem visible_of_isDigit {c : Char} (h : c.isDigit) : Visible c := by
  rw [Char.isDigit_iff_toNat] at h
  obtain ⟨h0, h9⟩ := h
  change 48 ≤ c.toNat at h0
  change c.toNat ≤ 57 at h9
  constructor <;> omega

theorem Hex.exists_digit_of_mem_encode {upper : Bool} {bs : Bytes} {c : Char}
    (h : c ∈ encode upper bs) : ∃ n < 16, c = digit upper (UInt8.ofNat n) := by
  obtain ⟨b, -, hc⟩ := List.mem_flatMap.mp h
  have hb := b.toNat_lt
  simp only [List.mem_cons, List.not_mem_nil, or_false] at hc
  rcases hc with rfl | rfl
  · exact ⟨(b >>> 4).toNat, by rw [toNat_high]; omega, by rw [UInt8.ofNat_toNat]⟩
  · exact ⟨(b &&& 15).toNat, by rw [toNat_low]; omega, by rw [UInt8.ofNat_toNat]⟩

theorem Hex.visible_of_mem_encode {upper : Bool} {bs : Bytes} {c : Char}
    (h : c ∈ encode upper bs) : Visible c := by
  have all : ∀ upper, ∀ n < 16, Visible (digit upper (UInt8.ofNat n)) := by decide
  obtain ⟨n, hn, rfl⟩ := exists_digit_of_mem_encode h
  exact all upper n hn

theorem Base64.visible_symbol {a : Alphabet} (ha : a = .standard ∨ a = .urlSafe) (v : UInt8) :
    Visible (a.symbol v) := by
  have last := toNat_last ha
  unfold Visible
  rw [toNat_symbol]
  split_ifs <;> omega

theorem Base64.visible_of_mem_encode {a : Alphabet} (ha : a = .standard ∨ a = .urlSafe)
    {padded : Bool} {bs : Bytes} {c : Char} (h : c ∈ encode a padded bs) : Visible c := by
  have pad : Visible '=' := by decide
  fun_induction encode a padded bs with
  | case1 x y z rest ih =>
    simp only [List.mem_cons] at h
    rcases h with rfl | rfl | rfl | rfl | h
    iterate 4 exact visible_symbol ha _
    exact ih h
  | case2 x y =>
    simp only [List.mem_cons] at h
    rcases h with rfl | rfl | rfl | h
    iterate 3 exact visible_symbol ha _
    split at h <;> simp_all
  | case3 x =>
    simp only [List.mem_cons] at h
    rcases h with rfl | rfl | h
    iterate 2 exact visible_symbol ha _
    split at h <;> simp_all
  | case4 => simp at h

theorem Z85.visible_digit (v : Nat) : Visible (digit v) := by
  have all : ∀ c ∈ alphabet, Visible c := List.all_iff_forall_prop.mp (by decide)
  unfold digit
  cases h : alphabet[v]? with
  | none => exact (by decide : Visible '0')
  | some c => exact all c (List.mem_of_getElem? h)

theorem Z85.visible_of_mem_encodeFrames {bs : Bytes} {c : Char} (h : c ∈ encodeFrames bs) :
    Visible c := by
  fun_induction encodeFrames bs with
  | case1 x y z w rest ih =>
    rcases List.mem_append.mp h with h | h
    · simp only [frame, List.mem_cons, List.not_mem_nil, or_false] at h
      rcases h with rfl | rfl | rfl | rfl | rfl <;> exact visible_digit _
    · exact ih h
  | case2 => simp at h

end DigestFinder.Text

namespace DigestFinder.Encoding

open Text

theorem toList_encode (e : Encoding) (digest : Bytes) :
    (e.encode digest).toList = e.symbols digest :=
  String.toList_ofList

theorem visible_of_mem_symbols (e : Encoding) {bs : Bytes} {c : Char} (h : c ∈ e.symbols bs) :
    Visible c := by
  cases e with
  | hex => exact Hex.visible_of_mem_encode h
  | hexUpper => exact Hex.visible_of_mem_encode h
  | decimal => exact visible_of_isDigit (isDigit_of_mem_digits (by decide) (by decide) h)
  | octal => exact visible_of_isDigit (isDigit_of_mem_digits (by decide) (by decide) h)
  | binary => exact visible_of_isDigit (isDigit_of_mem_bits h)
  | base64 => exact Base64.visible_of_mem_encode (.inl rfl) h
  | base64NoPadding => exact Base64.visible_of_mem_encode (.inl rfl) h
  | base64Url => exact Base64.visible_of_mem_encode (.inr rfl) h
  | z85 => exact Z85.visible_of_mem_encodeFrames h

end DigestFinder.Encoding
