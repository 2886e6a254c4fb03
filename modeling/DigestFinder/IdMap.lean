/-! Finite maps from identifiers, held in ascending order of the identifiers. -/

namespace DigestFinder

universe u v

structure IdMap (α : Type u) where
  entries : List (String × α)
  sorted : entries.Pairwise (·.1 < ·.1)

namespace IdMap

variable {α : Type u} {β : Type v}

def empty : IdMap α := ⟨[], .nil⟩

/-- Set a value in a list in ascending order. -/
def put (id : String) (v : α) : List (String × α) → List (String × α)
  | [] => [(id, v)]
  | (k, w) :: rest =>
    if id < k then (id, v) :: (k, w) :: rest
    else if id = k then (id, v) :: rest
    else (k, w) :: put id v rest

theorem mem_put {id : String} {v : α} {es : List (String × α)} {e : String × α}
    (h : e ∈ put id v es) : e.1 = id ∨ e ∈ es := by
  induction es with
  | nil => simp_all [put]
  | cons head rest ih =>
    simp only [put] at h
    split at h
    · simp_all
      rcases h with rfl | h <;> simp_all
    · split at h
      · rcases List.mem_cons.mp h with rfl | h <;> simp_all
      · rcases List.mem_cons.mp h with rfl | h
        · simp
        · rcases ih h with h | h <;> simp_all

theorem sorted_put {id : String} {v : α} {es : List (String × α)}
    (h : es.Pairwise (·.1 < ·.1)) : (put id v es).Pairwise (·.1 < ·.1) := by
  induction es with
  | nil => simp [put]
  | cons head rest ih =>
    obtain ⟨above, tail⟩ := List.pairwise_cons.mp h
    simp only [put]
    split
    · refine List.pairwise_cons.mpr ⟨fun e he => ?_, h⟩
      rcases List.mem_cons.mp he with rfl | he
      · assumption
      · exact String.lt_trans ‹_› (above e he)
    · split
      · subst_vars
        exact List.pairwise_cons.mpr ⟨above, tail⟩
      · refine List.pairwise_cons.mpr ⟨fun e he => ?_, ih tail⟩
        rcases mem_put he with he | he
        · exact he ▸ Std.lt_of_le_of_ne (Std.not_lt.mp ‹_›) (Ne.symm ‹_›)
        · exact above e he

def insert (m : IdMap α) (id : String) (v : α) : IdMap α :=
  ⟨put id v m.entries, sorted_put m.sorted⟩

def find? (m : IdMap α) (id : String) : Option α :=
  (m.entries.find? (·.1 == id)).map (·.2)

def size (m : IdMap α) : Nat := m.entries.length

def map (f : α → β) (m : IdMap α) : IdMap β where
  entries := m.entries.map fun e => (e.1, f e.2)
  sorted := by simpa [List.pairwise_map] using m.sorted

def filter (p : α → Bool) (m : IdMap α) : IdMap α where
  entries := m.entries.filter fun e => p e.2
  sorted := m.sorted.filter _

end IdMap

end DigestFinder
