import DigestFinder.Proofs.Crc.Spelling
import DigestFinder.Proofs.Text.Numerals

/-!
The grammar of model texts: fields between commas, what each of them may hold, and the model that
they stand for. It comes in degrees of strictness, and where a stricter one admits a field for a
value, a laxer one does so, too.
-/

namespace DigestFinder

namespace Crc.Model

/-- How strictly the text of a model is taken. -/
structure Strictness where
  /-- What may stand in front of the digits of a number. -/
  signs : List String
  /-- Whether the description of a length that is left out counts. -/
  whole : Bool

namespace Strictness

/-- Numbers are digits, and no field may be anything else than described. -/
def full : Strictness := ⟨[""], true⟩

/-- Numbers are digits. Behind `false` for the length its description does not count. -/
def plain : Strictness := ⟨[""], false⟩

/-- A plus sign may stand in front of the digits of a number, too. -/
def signed : Strictness := ⟨["", "+"], false⟩

end Strictness

section

variable (s : Strictness)

/-- A value below the next power of two, in hexadecimal digits behind a mark or none. -/
def ValueField (width : Nat) (field : List Char) (v : UInt64) : Prop :=
  v.toNat < 2 ^ width ∧ ∃ mark ∈ hexMarks, ∃ digits, field = mark.toList ++ digits ∧
    Text.Signed s.signs 16 digits v.toNat

def TruthField (field : List Char) (b : Bool) : Prop :=
  Text.Recased (String.ofList field) (boolText b)

/-- Two digits for each byte. -/
def MaskField (field : List Char) (bs : Bytes) : Prop :=
  ∃ pairs : List (List Char), field = pairs.flatten ∧
    List.Forall₂ (fun pair b => pair.length = 2 ∧ Text.Signed s.signs 16 pair b.toNat) pairs bs

/-- The fields that describe how a length is mixed in. -/
inductive Describes : List (List Char) → LengthInclusion → Prop
  | unmasked {order msFirst} : TruthField order msFirst → Describes [order] ⟨msFirst, []⟩
  | masked {order mask msFirst xor} : TruthField order msFirst → MaskField s mask xor →
      Describes [order, mask] ⟨msFirst, xor⟩

/-- The fields behind the sixth: none, or first whether there is a length and then one or two that
describe it. -/
inductive LengthFields : List (List Char) → Option LengthInclusion → Prop
  | absent : LengthFields [] none
  | excluded {included rest} : TruthField included false → rest.length = 1 ∨ rest.length = 2 →
      (s.whole → ∃ l, Describes s rest l) → LengthFields (included :: rest) none
  | included {included rest l} : TruthField included true → Describes s rest l →
      LengthFields (included :: rest) (some l)

/-- The fields that stand for a model. -/
def Denotes (m : Model) : List (List Char) → Prop
  | width :: poly :: init :: refIn :: refOut :: xorOut :: rest =>
    Text.Signed s.signs 10 width m.width ∧ ValueField s m.width poly m.poly ∧
      ValueField s m.width init m.init ∧ TruthField refIn m.refIn ∧ TruthField refOut m.refOut ∧
      ValueField s m.width xorOut m.xorOut ∧ LengthFields s rest m.length
  | _ => False

/-- A text that stands for a model: fields between commas, behind one of the words or none, with
blanks around the text and each field. -/
def Writes (spec : String) (m : Model) : Prop :=
  ∃ lead ∈ leads, ∃ fields : List (List Char),
    Text.trim spec.toList = lead.toList ++ [','].intercalate fields ∧
      (∀ field ∈ fields, ',' ∉ field) ∧ Denotes s m (fields.map Text.trim)

end

section

variable {s t : Strictness} {C : Char → Prop}
  (number : ∀ {radix cs n}, (∀ c ∈ cs, C c) → Text.Signed s.signs radix cs n →
    Text.Signed t.signs radix cs n)

include number

theorem ValueField.imp {width : Nat} {field : List Char} {v : UInt64} (hC : ∀ c ∈ field, C c)
    (h : ValueField s width field v) : ValueField t width field v := by
  obtain ⟨below, mark, hm, digits, rfl, hd⟩ := h
  exact ⟨below, mark, hm, digits, rfl,
    number (fun c hc => hC c (List.mem_append_right _ hc)) hd⟩

theorem MaskField.imp {field : List Char} {bs : Bytes} (hC : ∀ c ∈ field, C c)
    (h : MaskField s field bs) : MaskField t field bs := by
  obtain ⟨pairs, rfl, hp⟩ := h
  refine ⟨pairs, rfl, ?_⟩
  have inside : ∀ pair ∈ pairs, ∀ c ∈ pair, C c := fun pair hm c hc =>
    hC c (List.mem_flatten_of_mem hm hc)
  induction hp with
  | nil => exact .nil
  | cons first _ ih =>
    rw [List.forall_mem_cons] at inside
    refine .cons ⟨first.1, number inside.1 first.2⟩ (ih (fun c hc => hC c ?_) inside.2)
    rw [List.flatten_cons]
    exact List.mem_append_right _ hc

theorem Describes.imp {fields : List (List Char)} {l : LengthInclusion}
    (hC : ∀ field ∈ fields, ∀ c ∈ field, C c) (h : Describes s fields l) :
    Describes t fields l := by
  cases h with
  | unmasked order => exact .unmasked order
  | masked order mask => exact .masked order (mask.imp number (hC _ (by simp)))

variable (whole : t.whole → s.whole)

include whole

theorem LengthFields.imp {fields : List (List Char)} {l : Option LengthInclusion}
    (hC : ∀ field ∈ fields, ∀ c ∈ field, C c) (h : LengthFields s fields l) :
    LengthFields t fields l := by
  cases h with
  | absent => exact .absent
  | excluded no count described =>
    rw [List.forall_mem_cons] at hC
    refine .excluded no count fun ht => ?_
    obtain ⟨l, hl⟩ := described (whole ht)
    exact ⟨l, hl.imp number hC.2⟩
  | included yes described =>
    rw [List.forall_mem_cons] at hC
    exact .included yes (described.imp number hC.2)

theorem Denotes.imp {m : Model} {fields : List (List Char)}
    (hC : ∀ field ∈ fields, ∀ c ∈ field, C c) (h : Denotes s m fields) : Denotes t m fields := by
  unfold Denotes at h
  split at h
  · obtain ⟨width, poly, init, refIn, refOut, xorOut, length⟩ := h
    simp only [List.forall_mem_cons] at hC
    obtain ⟨cw, cp, ci, -, -, cx, cl⟩ := hC
    exact ⟨number cw width, poly.imp number cp, init.imp number ci, refIn, refOut,
      xorOut.imp number cx, length.imp number whole cl⟩
  · exact h.elim

theorem Writes.imp {spec : String} {m : Model} (hC : ∀ c ∈ spec.toList, C c)
    (h : Writes s spec m) : Writes t spec m := by
  obtain ⟨lead, hl, fields, ht, absent, hd⟩ := h
  refine ⟨lead, hl, fields, ht, absent, hd.imp number whole ?_⟩
  intro field hf c hc
  obtain ⟨f, hm, rfl⟩ := List.mem_map.mp hf
  apply hC c (Text.mem_of_mem_trim _)
  rw [ht]
  exact List.mem_append_right _ (List.mem_intercalate_of_mem hm (Text.mem_of_mem_trim hc))

end

end Crc.Model

end DigestFinder
