import DigestFinder.Expected
import DigestFinder.Proofs.Text.Blank

/-!
Comparison with an expected digest. At most one digest of each length is accepted, and a written
digest accepts the bytes that it is the form of.
-/

namespace DigestFinder

/-- Whether a text is a form of a digest: white space around it does not count, nor does the case
of letters where the encoding has just one. -/
def Encoding.Spells (e : Encoding) (text : String) (digest : Bytes) : Prop :=
  ∃ before core after : List Char, text.toList = before ++ core ++ after ∧
    (∀ c ∈ before, Text.isBlank c) ∧ (∀ c ∈ after, Text.isBlank c) ∧
    e.letters core = e.letters (e.symbols digest)

theorem Encoding.spells_encode (e : Encoding) (digest : Bytes) :
    e.Spells (e.encode digest) digest :=
  ⟨[], e.symbols digest, [], by simp [encode], by simp, by simp, rfl⟩

namespace Expected

theorem sameText_iff (e : Encoding) (a b : String) :
    sameText a b e = true ↔ e.letters a.toList = e.letters b.toList := by
  unfold sameText Encoding.letters Text.sameLetters
  split
  · rw [beq_iff_eq, ← String.toList_inj]
  · exact beq_iff_eq

theorem accepts_text_iff {e : Encoding} {value : String} {digest : Bytes} :
    (text value e).accepts digest = true ↔
      e.letters value.toList = e.letters (e.symbols digest) := by
  rw [accepts, sameText_iff, Encoding.toList_encode]

theorem accepts_bytes_iff {known digest : Bytes} :
    (bytes known).accepts digest = true ↔ known = digest :=
  beq_iff_eq

/-- Of the digests of one length, no two are accepted. -/
theorem accepts_unique {expected : Expected} {x y : Bytes} (hl : x.length = y.length)
    (hx : expected.accepts x = true) (hy : expected.accepts y = true) : x = y := by
  cases expected with
  | bytes known =>
    rw [accepts_bytes_iff] at hx hy
    exact hx.symm.trans hy
  | text value e =>
    rw [accepts_text_iff] at hx hy
    exact e.symbols_cancel hl (hx.symm.trans hy)

/-- A character of a written digest is visible, whatever its case. -/
theorem not_blank_of_lower {e : Encoding} {core : List Char} {digest : Bytes}
    (h : core.map Char.toLower = (e.symbols digest).map Char.toLower) :
    ∀ c ∈ core, Text.isBlank c = false := by
  intro c hc
  have hm : c.toLower ∈ (e.symbols digest).map Char.toLower := h ▸ List.mem_map_of_mem hc
  obtain ⟨d, hd, he⟩ := List.mem_map.mp hm
  apply Text.not_blank_of_visible_toLower
  rw [← he]
  exact (e.visible_of_mem_symbols hd).toLower

theorem not_blank_of_letters {e : Encoding} {core : List Char} {digest : Bytes}
    (h : e.letters core = e.letters (e.symbols digest)) :
    ∀ c ∈ core, Text.isBlank c = false := by
  unfold Encoding.letters at h
  split at h
  · rw [h]
    exact not_blank_of_lower rfl
  · exact not_blank_of_lower h

/-- A text that is a form of a digest accepts that digest only. -/
theorem accepts_ofText {e : Encoding} {form : String} {digest : Bytes}
    (spells : e.Spells form digest) {x : Bytes} (hl : x.length = digest.length) :
    (ofText form e).accepts x = (bytes digest).accepts x := by
  obtain ⟨before, core, after, hs, blank, blank', hc⟩ := spells
  have trimmed : Text.trimText form = String.ofList core := by
    rw [Text.trimText, hs, Text.trim_surrounded blank (not_blank_of_letters hc) blank']
  rw [Bool.eq_iff_iff, ofText, trimmed, accepts_text_iff, String.toList_ofList, hc,
    accepts_bytes_iff]
  constructor
  · exact e.symbols_cancel hl.symm
  · rintro rfl
    rfl

end Expected

end DigestFinder
