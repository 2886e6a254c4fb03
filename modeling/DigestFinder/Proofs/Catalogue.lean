import Mathlib.Data.List.Nodup
import Mathlib.Data.List.Perm.Basic
import DigestFinder.Catalogue
import DigestFinder.Proofs.Crc.Recognition

/-!
Reading a list of entries. All the lines that count give the entries, in their order, or the first
that is wrong is named.

What has been read of a text is a front of its lines with the entries found there. One more line
that counts either adds its entry or is the first defect.
-/

namespace DigestFinder.Catalogue

/-- Blank, or a comment. -/
def Skipped (line : List Char) : Prop :=
  Text.trim line = [] ∨ ∃ comment, Text.trim line = '#' :: comment

/-- What stands between the bars of a line that counts, without the blanks around it. -/
def Fields (line : List Char) (fields : List (List Char)) : Prop :=
  ¬ Skipped line ∧ ∃ raw : List (List Char), raw ≠ [] ∧ (∀ field ∈ raw, '|' ∉ field) ∧
    ['|'].intercalate raw = Text.trim line ∧ raw.map Text.trim = fields

/-- The entry that a line gives. -/
def Holds (line : List Char) (e : Entry) : Prop :=
  ∃ id model check description, Fields line [id, model, check, description] ∧
    (id ≠ [] ∧ String.ofList id = e.id) ∧ Crc.Model.read (String.ofList model) = .ok e.model ∧
    (Text.Signed ["", "+"] 16 check e.check.toNat ∧ e.check.toNat < 2 ^ e.model.width) ∧
    String.ofList description = e.description

/-- The first thing that is wrong with a line that should give an entry. -/
inductive Wrong (line : List Char) : LineDefect → Prop
  | fieldCount {fields} : Fields line fields → fields.length ≠ 4 →
      Wrong line (.fieldCount fields.length)
  | emptyId {model check description} : Fields line [[], model, check, description] →
      Wrong line .emptyId
  | model {id model check description cause} : Fields line [id, model, check, description] →
      id ≠ [] → Crc.Model.read (String.ofList model) = .error cause → Wrong line (.model cause)
  | notHex {id model check description m} : Fields line [id, model, check, description] →
      id ≠ [] → Crc.Model.read (String.ofList model) = .ok m →
      (∀ n < UInt64.size, ¬ Text.Signed ["", "+"] 16 check n) →
      Wrong line (.notHex (String.ofList check))
  | tooWide {id model check description m n} : Fields line [id, model, check, description] →
      id ≠ [] → Crc.Model.read (String.ofList model) = .ok m →
      Text.Signed ["", "+"] 16 check n → n < UInt64.size → 2 ^ m.width ≤ n →
      Wrong line (.tooWide n m.width)

/-- A line behind others that cannot be read, with the name that it goes by: it is wrong, or its
entry has the name of an earlier one. -/
inductive Defective (front : List (List Char)) (line : List Char) : String → LineDefect → Prop
  | wrong {defect} : Wrong line defect → Defective front line (firstField (Text.trim line)) defect
  | repeated {e earlier e'} : Holds line e → earlier ∈ front → Holds earlier e' →
      Text.Recased e.id e'.id → Defective front line e.id .duplicate

/-- The first line that cannot be read. -/
def FirstDefect (lines : List (List Char)) (err : Error) : Prop :=
  ∃ front line rest, lines = front ++ line :: rest ∧ err.line = front.length + 1 ∧
    Defective front line err.entry err.defect ∧
    ∀ before earlier after, front = before ++ earlier :: after →
      ∀ name defect, ¬ Defective before earlier name defect

theorem isSkipped_iff {line : List Char} : isSkipped (Text.trim line) ↔ Skipped line := by
  unfold isSkipped Skipped
  cases Text.trim line with
  | nil => simp
  | cons c rest => simp

instance (line : List Char) : Decidable (Skipped line) :=
  decidable_of_iff _ isSkipped_iff

/-- The lines have been read to the entries. -/
structure Reads (lines : List (List Char)) (es : List Entry) : Prop where
  holds : List.Forall₂ Holds (lines.filter fun line => ¬ Skipped line) es
  distinct : es.Pairwise fun e e' => ¬ Text.Recased e.id e'.id

/-- What may come of reading lines. -/
inductive Outcome (lines : List (List Char)) : Except Error (List Entry) → Prop
  | read {es} : Reads lines es → Outcome lines (.ok es)
  | failed {err} : FirstDefect lines err → Outcome lines (.error err)

theorem fields_iff {line : List Char} (counts : ¬ Skipped line) {fields : List (List Char)} :
    Fields line fields ↔ (Text.splitAt '|' (Text.trim line)).map Text.trim = fields := by
  constructor
  · rintro ⟨-, raw, hne, absent, joined, rfl⟩
    rw [← joined, Text.splitAt_intercalate hne absent]
  · rintro rfl
    obtain ⟨hne, absent, joined⟩ := Text.splitAt_eq_iff.mp
      (rfl : Text.splitAt '|' (Text.trim line) = _)
    exact ⟨counts, _, hne, absent, joined, rfl⟩

theorem readCheck_eq_ok_iff {m : Crc.Model} {field : List Char} {v : UInt64} :
    readCheck m field = .ok v ↔
      Text.Signed ["", "+"] 16 field v.toNat ∧ v.toNat < 2 ^ m.width := by
  have fits (v : UInt64) : v &&& ~~~ m.mask = 0 ↔ v.toNat < 2 ^ m.width :=
    Crc.Model.and_complement_mask_iff m.validWidth
  rw [readCheck]
  constructor
  · intro h
    cases hn : Text.readNumeral 16 UInt64.size field with
    | error defect => simp [hn] at h
    | ok n =>
      obtain ⟨w, rfl, written⟩ := Text.readNumeral_word_iff.mp hn
      simp only [hn, Nat.toUInt64_eq, UInt64.ofNat_toNat] at h
      split at h
      · next zero =>
        obtain rfl := Except.ok.inj h
        exact ⟨written, (fits w).mp zero⟩
      · cases h
  · rintro ⟨written, below⟩
    rw [Text.readNumeral_word_iff.mpr ⟨v, rfl, written⟩]
    simp [(fits v).mpr below]

theorem readCheck_eq_error_iff {m : Crc.Model} {field : List Char} {defect : LineDefect} :
    readCheck m field = .error defect ↔
      (∀ n < UInt64.size, ¬ Text.Signed ["", "+"] 16 field n) ∧
          .notHex (String.ofList field) = defect ∨
        ∃ n < UInt64.size, Text.Signed ["", "+"] 16 field n ∧ 2 ^ m.width ≤ n ∧
          .tooWide n m.width = defect := by
  have number (n : Nat) : Text.readNumeral 16 UInt64.size field = .ok n ↔
      Text.Signed ["", "+"] 16 field n ∧ n < UInt64.size :=
    Text.readNumeral_eq_ok_iff (by decide) (by decide)
  have fits (v : UInt64) : v &&& ~~~ m.mask = 0 ↔ v.toNat < 2 ^ m.width :=
    Crc.Model.and_complement_mask_iff m.validWidth
  rw [readCheck]
  cases hn : Text.readNumeral 16 UInt64.size field with
  | error cause =>
    have none (n : Nat) (below : n < UInt64.size) : ¬ Text.Signed ["", "+"] 16 field n := by
      intro written
      have read := (number n).mpr ⟨written, below⟩
      rw [hn] at read
      cases read
    constructor
    · intro h
      exact .inl ⟨none, Except.error.inj h⟩
    · rintro (⟨-, rfl⟩ | ⟨n, below, written, -⟩)
      · rfl
      · exact absurd written (none n below)
  | ok n =>
    obtain ⟨w, rfl, written⟩ := Text.readNumeral_word_iff.mp hn
    have only {k : Nat} (below : k < UInt64.size) (hk : Text.Signed ["", "+"] 16 field k) :
        k = w.toNat := by
      have read := (number k).mpr ⟨hk, below⟩
      rw [hn] at read
      exact (Except.ok.inj read).symm
    simp only [Nat.toUInt64_eq, UInt64.ofNat_toNat]
    constructor
    · intro h
      split at h
      · cases h
      · next wide =>
        rw [fits, Nat.not_lt] at wide
        exact .inr ⟨_, w.toNat_lt, written, wide, Except.error.inj h⟩
    · rintro (⟨none, -⟩ | ⟨k, below, hk, wide, rfl⟩)
      · exact absurd written (none _ w.toNat_lt)
      · obtain rfl := only below hk
        rw [if_neg]
        rw [fits, Nat.not_lt]
        exact wide

theorem readEntry_of_fields {line id model check description : List Char}
    (h : Fields line [id, model, check, description]) (named : id ≠ []) :
    readEntry (Text.trim line) =
      ((Crc.Model.read (String.ofList model)).mapError LineDefect.model).bind fun m =>
        (readCheck m check).map fun v => ⟨String.ofList id, m, v, String.ofList description⟩ := by
  rw [readEntry, (fields_iff h.1).mp h]
  simp only [if_neg named]
  rfl

theorem readEntry_of_holds {line : List Char} {e : Entry} (h : Holds line e) :
    readEntry (Text.trim line) = .ok e := by
  obtain ⟨id, model, check, description, fields, ⟨named, hid⟩, hm, hc, hd⟩ := h
  rw [readEntry_of_fields fields named, hm, hid, hd]
  simp only [Except.mapError, Except.bind, readCheck_eq_ok_iff.mpr hc, Except.map]

theorem readEntry_of_wrong {line : List Char} {defect : LineDefect} (h : Wrong line defect) :
    readEntry (Text.trim line) = .error defect := by
  cases h with
  | @fieldCount fields hf count =>
    rw [readEntry]
    simp only [(fields_iff hf.1).mp hf]
    split
    · exact absurd rfl count
    · rfl
  | emptyId fields =>
    rw [readEntry, (fields_iff fields.1).mp fields]
    rfl
  | model fields named rejected =>
    rw [readEntry_of_fields fields named, rejected]
    rfl
  | notHex fields named hm none =>
    rw [readEntry_of_fields fields named, hm]
    simp only [Except.mapError, Except.bind, readCheck_eq_error_iff.mpr (.inl ⟨none, rfl⟩),
      Except.map]
  | tooWide fields named hm written below wide =>
    rw [readEntry_of_fields fields named, hm]
    simp only [Except.mapError, Except.bind,
      readCheck_eq_error_iff.mpr (.inr ⟨_, below, written, wide, rfl⟩), Except.map]

/-- Each line that counts gives an entry, or something is wrong with it. -/
theorem holds_or_wrong {line : List Char} (counts : ¬ Skipped line) :
    (∃ e, Holds line e) ∨ ∃ defect, Wrong line defect := by
  generalize hf : (Text.splitAt '|' (Text.trim line)).map Text.trim = fields
  have given := (fields_iff counts).mpr hf
  by_cases four : fields.length = 4
  · obtain ⟨id, model, check, description, rfl⟩ : ∃ a b c d, fields = [a, b, c, d] := by
      match fields, four with
      | [a, b, c, d], _ => exact ⟨a, b, c, d, rfl⟩
    by_cases named : id = []
    · subst named
      exact .inr ⟨_, .emptyId given⟩
    cases hm : Crc.Model.read (String.ofList model) with
    | error cause => exact .inr ⟨_, .model given named hm⟩
    | ok m =>
      cases hc : readCheck m check with
      | error defect =>
        rcases readCheck_eq_error_iff.mp hc with ⟨none, -⟩ | ⟨n, below, written, wide, -⟩
        · exact .inr ⟨_, .notHex given named hm none⟩
        · exact .inr ⟨_, .tooWide given named hm written below wide⟩
      | ok v =>
        exact .inl ⟨⟨String.ofList id, m, v, String.ofList description⟩, _, _, _, _, given,
          ⟨named, rfl⟩, hm, readCheck_eq_ok_iff.mp hc, rfl⟩
  · exact .inr ⟨_, .fieldCount given four⟩

theorem readEntry_eq_ok_iff {line : List Char} (counts : ¬ Skipped line) {e : Entry} :
    readEntry (Text.trim line) = .ok e ↔ Holds line e := by
  refine ⟨fun h => ?_, readEntry_of_holds⟩
  rcases holds_or_wrong counts with ⟨e', holds⟩ | ⟨defect, wrong⟩
  · have same := (readEntry_of_holds holds).symm.trans h
    exact Except.ok.inj same ▸ holds
  · cases (readEntry_of_wrong wrong).symm.trans h

theorem readEntry_eq_error_iff {line : List Char} (counts : ¬ Skipped line) {defect : LineDefect} :
    readEntry (Text.trim line) = .error defect ↔ Wrong line defect := by
  refine ⟨fun h => ?_, readEntry_of_wrong⟩
  rcases holds_or_wrong counts with ⟨e, holds⟩ | ⟨cause, wrong⟩
  · cases (readEntry_of_holds holds).symm.trans h
  · have same := (readEntry_of_wrong wrong).symm.trans h
    exact Except.error.inj same ▸ wrong

theorem Holds.counts {line : List Char} {e : Entry} (h : Holds line e) : ¬ Skipped line := by
  obtain ⟨id, model, check, description, fields, -⟩ := h
  exact fields.1

theorem Wrong.counts {line : List Char} {defect : LineDefect} (h : Wrong line defect) :
    ¬ Skipped line := by
  cases h with
  | fieldCount fields _ => exact fields.1
  | emptyId fields => exact fields.1
  | model fields _ _ => exact fields.1
  | notHex fields _ _ _ => exact fields.1
  | tooWide fields _ _ _ _ _ => exact fields.1

theorem Holds.unique {line : List Char} {e e' : Entry} (h : Holds line e) (h' : Holds line e') :
    e = e' :=
  Except.ok.inj ((readEntry_of_holds h).symm.trans (readEntry_of_holds h'))

theorem Wrong.not_holds {line : List Char} {defect : LineDefect} (h : Wrong line defect)
    (e : Entry) : ¬ Holds line e := by
  intro holds
  cases (readEntry_of_wrong h).symm.trans (readEntry_of_holds holds)

namespace Reads

variable {front : List (List Char)} {line : List Char} {es : List Entry}

theorem nil : Reads [] [] := ⟨.nil, .nil⟩

theorem skip (h : Reads front es) (skipped : Skipped line) : Reads (front ++ [line]) es := by
  refine ⟨?_, h.distinct⟩
  rw [List.filter_append, List.filter_cons_of_neg (by simpa using skipped), List.filter_nil,
    List.append_nil]
  exact h.holds

theorem snoc {e : Entry} (h : Reads front es) (holds : Holds line e)
    (new : ∀ e' ∈ es, ¬ Text.Recased e.id e'.id) : Reads (front ++ [line]) (es ++ [e]) where
  holds := by
    rw [List.filter_append, List.filter_cons_of_pos (by simpa using holds.counts), List.filter_nil]
    exact List.rel_append h.holds (.cons holds .nil)
  distinct := by
    refine List.pairwise_append.mpr ⟨h.distinct, List.pairwise_singleton _ _, ?_⟩
    intro e' he last hl same
    obtain rfl := List.mem_singleton.mp hl
    exact new e' he same.symm

theorem exists_line {e : Entry} (h : Reads front es) (he : e ∈ es) :
    ∃ earlier ∈ front, Holds earlier e := by
  obtain ⟨earlier, hm, holds⟩ := h.holds.exists_left he
  exact ⟨earlier, List.mem_of_mem_filter hm, holds⟩

theorem mem_of_holds {e : Entry} (h : Reads front es) (hm : line ∈ front) (holds : Holds line e) :
    e ∈ es := by
  have kept : line ∈ front.filter fun line => ¬ Skipped line :=
    List.mem_filter.mpr ⟨hm, by simpa using holds.counts⟩
  obtain ⟨e', he, holds'⟩ := h.holds.flip.exists_left kept
  exact holds.unique holds' ▸ he

/-- The entries of a front come first. -/
theorem split {rest : List (List Char)} (h : Reads (front ++ rest) es) : ∃ old new,
    es = old ++ new ∧ Reads front old ∧
      List.Forall₂ Holds (rest.filter fun line => ¬ Skipped line) new ∧
      ∀ e ∈ old, ∀ e' ∈ new, ¬ Text.Recased e.id e'.id := by
  have both := h.holds
  rw [List.filter_append] at both
  let size := (front.filter fun line => ¬ Skipped line).length
  have parts : es.take size ++ es.drop size = es := List.take_append_drop size es
  have apart := h.distinct
  rw [← parts, List.pairwise_append] at apart
  obtain ⟨distinct, -, apart⟩ := apart
  exact ⟨es.take size, es.drop size, parts.symm,
    ⟨(List.forall₂_take_append _ _ _ both.flip).flip, distinct⟩,
    (List.forall₂_drop_append _ _ _ both.flip).flip, apart⟩

/-- Where lines have been read none of them is defective. -/
theorem not_defective {after : List (List Char)} {name : String} {defect : LineDefect}
    (h : Reads (front ++ line :: after) es) : ¬ Defective front line name defect := by
  intro defective
  obtain ⟨old, new, rfl, reads, behind, apart⟩ := h.split
  have counts : ¬ Skipped line := by
    cases defective with
    | wrong wrong => exact wrong.counts
    | repeated holds _ _ _ => exact holds.counts
  rw [List.filter_cons_of_pos (by simpa using counts)] at behind
  obtain ⟨e, rest, holds, -, rfl⟩ := List.forall₂_cons_left_iff.mp behind
  cases defective with
  | wrong wrong => exact wrong.not_holds e holds
  | @repeated e' _ earlier holds' hm he same =>
    obtain rfl := holds.unique holds'
    exact apart earlier (reads.mem_of_holds hm he) e List.mem_cons_self same.symm

end Reads

/-- Lines behind those that have been read are read, too, or one of them is the first defect. -/
theorem outcome_readLines {front : List (List Char)} {es : List Entry} (h : Reads front es)
    (rest : List (List Char)) : Outcome (front ++ rest)
      (readLines es.reverse (es.reverse.map (Text.capitals ·.id)) (front.length + 1) rest) := by
  -- one more line goes over to the front; the front and its entries are the loop's state
  induction rest generalizing front es with
  | nil =>
    rw [List.append_nil, readLines, List.reverse_reverse]
    exact .read h
  | cons line rest ih =>
    have whole : front ++ line :: rest = (front ++ [line]) ++ rest := by simp
    have size : front.length + 1 + 1 = (front ++ [line]).length + 1 := by simp
    have sound : ∀ before earlier after, front = before ++ earlier :: after →
        ∀ name defect, ¬ Defective before earlier name defect := by
      rintro before earlier after rfl name defect
      exact h.not_defective
    rw [readLines]
    dsimp only
    by_cases skipped : Skipped line
    · rw [if_pos (isSkipped_iff.mpr skipped), whole, size]
      exact ih (h.skip skipped)
    rw [if_neg (mt isSkipped_iff.mp skipped)]
    cases he : readEntry (Text.trim line) with
    | error defect =>
      have wrong := (readEntry_eq_error_iff skipped).mp he
      exact .failed ⟨front, line, rest, rfl, rfl, .wrong wrong, sound⟩
    | ok e =>
      have holds := (readEntry_eq_ok_iff skipped).mp he
      have known : Text.capitals e.id ∈ es.reverse.map (Text.capitals ·.id) ↔
          ∃ e' ∈ es, Text.Recased e.id e'.id := by
        simp only [List.mem_map, List.mem_reverse, eq_comm, Text.capitals_eq_iff]
      dsimp only
      by_cases seen : ∃ e' ∈ es, Text.Recased e.id e'.id
      · rw [if_pos (known.mpr seen)]
        obtain ⟨e', hm, same⟩ := seen
        obtain ⟨earlier, hf, holds'⟩ := h.exists_line hm
        exact .failed ⟨front, line, rest, rfl, rfl, .repeated holds hf holds' same, sound⟩
      · rw [if_neg (mt known.mp seen), whole, size]
        have more := ih (h.snoc holds fun e' hm same => seen ⟨e', hm, same⟩)
        rw [List.reverse_append] at more
        exact more

/-- A catalogue read from lines: the entries that they give, one name once, each check value within
its width, found by name in any letter case, and parted by width. -/
structure Represents (c : Catalogue) (lines : List (List Char)) : Prop
    extends Reads lines c.entries where
  check_lt : ∀ e ∈ c.entries, e.check.toNat < 2 ^ e.model.width
  get?_of_recased : ∀ e ∈ c.entries, ∀ id, Text.Recased id e.id → c.get? id = some e
  get?_eq_none : ∀ id, (∀ e ∈ c.entries, ¬ Text.Recased id e.id) → c.get? id = none
  mem_withWidth : ∀ width e, e ∈ c.withWidth width ↔ e ∈ c.entries ∧ e.model.width = width
  withWidth_sublist : ∀ width, List.Sublist (c.withWidth width) c.entries
  withWidth_perm : ((List.range' 1 64).flatMap c.withWidth).Perm c.entries

/-- Where no name is there twice an entry is found by its name, in any letter case. -/
theorem get?_of_recased {c : Catalogue}
    (distinct : c.entries.Pairwise fun e e' => ¬ Text.Recased e.id e'.id) {e : Entry}
    (h : e ∈ c.entries) {id : String} (same : Text.Recased id e.id) : c.get? id = some e := by
  obtain ⟨front, rest, split⟩ := List.append_of_mem h
  rw [split] at distinct
  have apart := (List.pairwise_append.mp distinct).2.2
  refine List.find?_eq_some_iff_append.mpr
    ⟨Text.sameLetters_iff.mpr same.symm, front, rest, split, ?_⟩
  intro e' hm
  rw [Bool.not_eq_true', ← Bool.not_eq_true, Text.sameLetters_iff]
  intro same'
  exact apart e' hm e List.mem_cons_self (same'.trans same)

theorem get?_eq_none_iff {c : Catalogue} {id : String} :
    c.get? id = none ↔ ∀ e ∈ c.entries, ¬ Text.Recased id e.id := by
  rw [get?, List.find?_eq_none]
  refine forall₂_congr fun e _ => not_congr ?_
  rw [Text.sameLetters_iff]
  exact ⟨Text.Recased.symm, Text.Recased.symm⟩

theorem mem_withWidth_iff {c : Catalogue} {width : Nat} {e : Entry} :
    e ∈ c.withWidth width ↔ e ∈ c.entries ∧ e.model.width = width := by
  rw [withWidth, List.mem_filter, beq_iff_eq]

theorem Reads.represents {lines : List (List Char)} {es : List Entry} (h : Reads lines es) :
    Represents ⟨es⟩ lines where
  toReads := h
  check_lt := by
    intro e he
    obtain ⟨_, -, _, _, _, _, -, -, -, check, -⟩ := h.exists_line he
    exact check.2
  get?_of_recased _ he _ same := get?_of_recased h.distinct he same
  get?_eq_none _ := get?_eq_none_iff.mpr
  mem_withWidth := fun _ _ => mem_withWidth_iff
  withWidth_sublist := fun width => List.filter_sublist
  withWidth_perm := by
    have nodup : es.Nodup := by
      refine h.distinct.imp ?_
      rintro e _ differ rfl
      exact differ (Text.Recased.refl e.id)
    have parts : ((List.range' 1 64).flatMap (withWidth ⟨es⟩)).Nodup := by
      refine List.nodup_flatMap.mpr ⟨fun width _ => nodup.filter _, ?_⟩
      refine (List.nodup_range' : (List.range' 1 64).Nodup).imp ?_
      intro width width' differ e he he'
      rw [mem_withWidth_iff] at he he'
      exact differ (he.2.symm.trans he'.2)
    -- no entry is twice on either side, so it is enough to compare what is there
    refine (List.perm_ext_iff_of_nodup parts nodup).mpr fun e => ?_
    simp only [List.mem_flatMap, mem_withWidth_iff, List.mem_range'_1]
    constructor
    · rintro ⟨width, -, he, -⟩
      exact he
    · intro he
      have low : 1 ≤ e.model.width := e.model.validWidth.1
      have high : e.model.width ≤ 64 := e.model.validWidth.2
      exact ⟨_, ⟨low, by omega⟩, he, rfl⟩

theorem outcome_read (text : String) : ∃ entries : Except Error (List Entry),
    read text = entries.map Catalogue.mk ∧ Outcome (Text.lines text.toList) entries :=
  ⟨_, rfl, outcome_readLines .nil _⟩

theorem reads_of_read {text : String} {c : Catalogue} (h : read text = .ok c) :
    Reads (Text.lines text.toList) c.entries := by
  obtain ⟨entries, hr, outcome⟩ := outcome_read text
  rw [hr] at h
  cases outcome with
  | read reads =>
    obtain rfl := Except.ok.inj h
    exact reads
  | failed => cases h

theorem length_entries_le {text : String} {c : Catalogue} (h : read text = .ok c) :
    c.entries.length ≤ text.length := by
  have holds := (reads_of_read h).holds
  calc c.entries.length
      = ((Text.lines text.toList).filter fun line => ¬ Skipped line).length :=
        holds.length_eq.symm
    _ ≤ (Text.lines text.toList).length := List.length_filter_le ..
    _ ≤ text.toList.length := Text.length_lines_le _
    _ = text.length := String.length_toList

theorem Reads.nodup_ids {lines : List (List Char)} {es : List Entry} (h : Reads lines es) :
    (es.map Entry.id).Nodup := by
  refine List.pairwise_map.mpr (h.distinct.imp ?_)
  intro e e' differ same
  exact differ (same ▸ Text.Recased.refl e.id)

/-- A text is read as a whole or not at all. It is refused just if one of its lines is defective,
and then the first that is gets named. -/
theorem read_whole_or_first_defect (text : String) :
    (∀ c, read text = .ok c → Represents c (Text.lines text.toList)) ∧
      (∀ err, read text = .error err → FirstDefect (Text.lines text.toList) err) ∧
      ((∃ err, read text = .error err) ↔
        ∃ front line rest name defect, Text.lines text.toList = front ++ line :: rest ∧
          Defective front line name defect) := by
  obtain ⟨entries, hr, outcome⟩ := outcome_read text
  rw [hr]
  cases outcome with
  | read reads =>
    refine ⟨?_, ?_, ?_⟩
    · intro c hc
      obtain rfl := Except.ok.inj hc
      exact reads.represents
    · intro err h
      cases h
    · refine iff_of_false (by rintro ⟨err, h⟩; cases h) ?_
      rintro ⟨front, line, rest, name, defect, hl, defective⟩
      rw [hl] at reads
      exact reads.not_defective defective
  | @failed err first =>
    refine ⟨?_, ?_, ?_⟩
    · intro c hc
      cases hc
    · intro err' h
      obtain rfl := Except.error.inj h
      exact first
    · obtain ⟨front, line, rest, hl, -, defective, -⟩ := first
      exact iff_of_true ⟨err, rfl⟩ ⟨front, line, rest, _, _, hl, defective⟩

theorem read_of_repeated_name : ∃ c err,
    read "# models\n A |8,07,00,false,false,00| F4 |x\n" = .ok c ∧
      Represents c (Text.lines "# models\n A |8,07,00,false,false,00| F4 |x\n".toList) ∧
      read "A|8,07,00,false,false,00|f4|x\n\na|8,07,00,false,false,00|f4|y" = .error err ∧
      err.line = 3 ∧
      FirstDefect (Text.lines
        "A|8,07,00,false,false,00|f4|x\n\na|8,07,00,false,false,00|f4|y".toList) err := by
  let c : Catalogue := ⟨[⟨"A", .masked 8 (by decide) 7 0 false false 0, 0xf4, "x"⟩]⟩
  have whole : read "# models\n A |8,07,00,false,false,00| F4 |x\n" = .ok c := by decide
  have refused : read "A|8,07,00,false,false,00|f4|x\n\na|8,07,00,false,false,00|f4|y" =
      .error ⟨3, "a", .duplicate⟩ := by
    decide
  exact ⟨c, _, whole, (read_whole_or_first_defect _).1 c whole, refused, rfl,
    (read_whole_or_first_defect _).2.1 _ refused⟩

end DigestFinder.Catalogue
