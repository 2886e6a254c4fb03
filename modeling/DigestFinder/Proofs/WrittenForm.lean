import DigestFinder.Proofs.Comparison
import DigestFinder.Proofs.Text.LetterCase

/-!
What a written digest stands for. Among the byte strings of one length it stands for one only,
whatever blanks are put around it. In the encodings with a single case of letters it may be written
in any case; in the others a change of case makes it the form of something else.
-/

namespace DigestFinder

variable {e : Encoding} {digest computed : Bytes} {form core : String}

/-- A change of case changes the letters that count just in the encodings that use both cases. -/
theorem Encoding.letters_eq_iff_of_recased {original : String}
    (recased : Text.Recased core original) :
    e.letters core.toList = e.letters original.toList ↔
      e.caseSensitive = false ∨ core = original := by
  unfold letters
  cases e.caseSensitive with
  | true => simp [String.toList_inj]
  | false => simpa using Text.recased_iff.mp recased

/-- Blanks around a form in any case do not count. -/
theorem Expected.accepts_recased (recased : Text.Recased core (e.encode digest))
    (padded : Text.Padded form core) :
    (ofText form e).accepts computed = true ↔
      e.letters core.toList = e.letters (e.symbols computed) := by
  obtain ⟨before, after, hs, blank, blank'⟩ := padded
  have lower : core.toList.map Char.toLower = (e.symbols digest).map Char.toLower := by
    rw [← e.toList_encode]
    exact Text.recased_iff.mp recased
  have trimmed : Text.trimText form = core := by
    rw [Text.trimText, hs, Text.trim_surrounded blank (not_blank_of_lower lower) blank',
      String.ofList_toList]
  rw [ofText, trimmed, accepts_text_iff]

/-- Whether a text is that of a digest, but for blanks around it and, in the encodings with a single
case of letters, for the case. -/
def Encoding.WrittenAs (e : Encoding) (text original : String) : Prop :=
  ∃ core, Text.Padded text core ∧
    (core = original ∨ e.caseSensitive = false ∧ Text.Recased core original)

theorem Encoding.writtenAs_self (e : Encoding) (text : String) : e.WrittenAs text text :=
  ⟨text, Text.Padded.refl text, .inl rfl⟩

theorem Expected.accepts_iff_writtenAs {text : String} :
    (ofText text e).accepts digest = true ↔ e.WrittenAs text (e.encode digest) := by
  constructor
  · intro h
    rw [ofText, accepts_text_iff, ← e.toList_encode] at h
    refine ⟨Text.trimText text, ?_, ?_⟩
    · obtain ⟨before, after, hs, blank, blank'⟩ := Text.exists_trim text.toList
      exact ⟨before, after, by simpa [Text.trimText] using hs, blank, blank'⟩
    · unfold Encoding.letters at h
      cases hc : e.caseSensitive with
      | true => exact .inl (by simpa [hc, String.toList_inj] using h)
      | false => exact .inr ⟨rfl, Text.recased_iff.mpr (by simpa [hc] using h)⟩
  · rintro ⟨core, padded, same⟩
    have recased : Text.Recased core (e.encode digest) := by
      rcases same with rfl | ⟨-, recased⟩
      · exact Text.Recased.refl _
      · exact recased
    rw [accepts_recased recased padded, ← e.toList_encode,
      Encoding.letters_eq_iff_of_recased recased]
    exact same.symm.imp And.left id

/-- In an encoding that uses both cases some digest has a form that is another one in small
letters. -/
theorem Encoding.exists_recased (h : e.caseSensitive = true) :
    ∃ core, Text.Recased core (e.encode [0, 0, 0, 46]) ∧ core ≠ e.encode [0, 0, 0, 46] := by
  refine ⟨String.ofList ((e.symbols [0, 0, 0, 46]).map Char.toLower), ?_, ?_⟩
  · rw [Text.recased_iff, String.toList_ofList, toList_encode, List.map_map]
    refine List.map_congr_left fun c _ => ?_
    exact Text.toLower_eq_iff.mpr (.inr (.inr rfl))
  · rw [← String.toList_inj.ne, String.toList_ofList, toList_encode]
    revert h
    cases e <;> decide

/-- A form that does not differ in what counts accepts the digest that it is a form of, and no
other of its length. -/
theorem Expected.accepts_form_iff (hl : digest.length = computed.length)
    (recased : Text.Recased core (e.encode digest)) (padded : Text.Padded form core)
    (same : e.caseSensitive = false ∨ core = e.encode digest) :
    (ofText form e).accepts computed = true ↔ digest = computed := by
  have letters : e.letters core.toList = e.letters (e.symbols digest) := by
    rw [← e.toList_encode]
    exact (Encoding.letters_eq_iff_of_recased recased).mpr same
  rw [accepts_recased recased padded, letters]
  constructor
  · exact e.symbols_cancel hl
  · rintro rfl
    rfl

theorem Expected.not_accepts_recased (both : e.caseSensitive = true)
    (recased : Text.Recased core (e.encode digest)) (padded : Text.Padded form core)
    (differs : core ≠ e.encode digest) : (ofText form e).accepts digest = false := by
  rw [← Bool.not_eq_true, accepts_recased recased padded, ← e.toList_encode,
    Encoding.letters_eq_iff_of_recased recased]
  simp [both, differs]

/-- A written digest stands for one byte string among those of its length, with any blanks around
it. Just in the encodings with a single case it may be written in any case; in the others a form in
another case is not accepted. -/
theorem written_form_identifies_digest (e : Encoding) :
    (∀ digest computed : Bytes, digest.length = computed.length →
      ∀ form, Text.Padded form (e.encode digest) →
        ((Expected.ofText form e).accepts computed = true ↔ digest = computed)) ∧
    (e.caseSensitive = false ↔
      ∀ digest computed : Bytes, digest.length = computed.length →
        ∀ core form, Text.Recased core (e.encode digest) → Text.Padded form core →
          ((Expected.ofText form e).accepts computed = true ↔ digest = computed)) ∧
    (e.caseSensitive = true ↔ e ∈ [.base64, .base64NoPadding, .base64Url, .z85]) ∧
    (e.caseSensitive = true → ∀ digest core form, Text.Recased core (e.encode digest) →
      core ≠ e.encode digest → Text.Padded form core →
        (Expected.ofText form e).accepts digest = false) := by
  refine ⟨fun digest computed hl form padded => ?_, ⟨fun single => ?_, fun any => ?_⟩, ?_, ?_⟩
  · exact Expected.accepts_form_iff hl (Text.Recased.refl _) padded (.inr rfl)
  · intro digest computed hl core form recased padded
    exact Expected.accepts_form_iff hl recased padded (.inl single)
  · -- A change of case would go unnoticed, but a case-sensitive encoding has one that does not.
    rw [← Bool.not_eq_true]
    intro both
    obtain ⟨core, recased, differs⟩ := Encoding.exists_recased both
    have refused := Expected.not_accepts_recased both recased (Text.Padded.refl core) differs
    have accepted := (any _ _ rfl core core recased (Text.Padded.refl core)).mpr rfl
    rw [refused] at accepted
    cases accepted
  · cases e <;> decide
  · intro both digest core form recased differs padded
    exact Expected.not_accepts_recased both recased padded differs

/-- A check value in mixed case between blanks is accepted in hexadecimal digits, and not in
Base64. -/
theorem written_form_of_check_value :
    (Expected.ofText " CbF43926\n" .hex).accepts [0xcb, 0xf4, 0x39, 0x26] = true ∧
      (Expected.ofText " Y/q5jG==\n" .base64).accepts [0xcb, 0xf4, 0x39, 0x26] = false := by
  have blank : ∀ c ∈ [' '], Text.isBlank c := List.all_eq_true.mp (by decide)
  have blank' : ∀ c ∈ ['\n'], Text.isBlank c := List.all_eq_true.mp (by decide)
  obtain ⟨-, hex, -, -⟩ := written_form_identifies_digest .hex
  obtain ⟨-, -, -, base64⟩ := written_form_identifies_digest .base64
  constructor
  · exact (hex.mp rfl [0xcb, 0xf4, 0x39, 0x26] _ rfl "CbF43926" _
      (Text.recased_iff.mpr (by decide)) ⟨[' '], ['\n'], by decide, blank, blank'⟩).mpr rfl
  · exact base64 rfl _ "Y/q5jG==" _ (Text.recased_iff.mpr (by decide)) (by decide)
      ⟨[' '], ['\n'], by decide, blank, blank'⟩

end DigestFinder
