import Mathlib.Data.Finset.Sort
import Mathlib.Data.List.Forall2
import Mathlib.Data.List.Nodup

/-!
General lemmas on lists, on values that may be missing and on results: lists that are related place
by place, loops over lists that can fail, lists put together, and places in ascending order.
-/

section

universe u v w

section Related

variable {α : Type u} {β : Type v} {R : α → β → Prop}

/-- To what is in the one list something in the other is related. -/
theorem List.Forall₂.exists_left {as : List α} {bs : List β} (h : List.Forall₂ R as bs) {b : β}
    (hb : b ∈ bs) : ∃ a ∈ as, R a b := by
  induction h with
  | nil => cases hb
  | cons first _ ih =>
    rcases List.mem_cons.mp hb with rfl | hb
    · exact ⟨_, List.mem_cons_self, first⟩
    · obtain ⟨a, ha, hr⟩ := ih hb
      exact ⟨a, List.mem_cons_of_mem _ ha, hr⟩

theorem List.Forall₂.modify {as : List α} {bs : List β} (h : List.Forall₂ R as bs) {f : α → α}
    {g : β → β} (hfg : ∀ {a b}, R a b → R (f a) (g b)) (i : Nat) :
    List.Forall₂ R (as.modify i f) (bs.modify i g) := by
  induction h generalizing i with
  | nil => simp
  | cons hab h ih =>
    cases i with
    | zero => exact .cons (hfg hab) h
    | succ i => exact .cons hab (ih i)

theorem List.Forall₂.getElem? {as : List α} {bs : List β} (h : List.Forall₂ R as bs) (i : Nat) :
    Option.Rel R as[i]? bs[i]? := by
  induction h generalizing i with
  | nil => exact .none
  | cons hab h ih =>
    cases i with
    | zero => exact .some hab
    | succ i => exact ih i

theorem Option.Rel.map_eq_map {a : Option α} {b : Option β} (h : Option.Rel R a b) {γ : Type w}
    {f : α → γ} {g : β → γ} (hfg : ∀ {a b}, R a b → f a = g b) : a.map f = b.map g := by
  cases h with
  | none => rfl
  | some hab => simp [hfg hab]

theorem Option.Rel.forall₂_toList {a : Option α} {b : Option β} (h : Option.Rel R a b) :
    List.Forall₂ R a.toList b.toList := by
  cases h with
  | none => exact .nil
  | some hab => exact .cons hab .nil

end Related

section Failing

variable {ε σ α β : Type}

theorem Except.bind_eq_ok_iff {x : Except ε α} {f : α → Except ε β} {r : β} :
    x >>= f = .ok r ↔ ∃ a, x = .ok a ∧ f a = .ok r := by
  cases x with
  | error e => simp [bind, Except.bind]
  | ok a => simp [bind, Except.bind]

theorem Except.eq_ok_of_toOption {x : Except ε α} {a : α} (h : x.toOption = some a) :
    x = .ok a := by
  cases x with
  | error e => cases h
  | ok b => exact congrArg Except.ok (Option.some.inj h)

/-- A list is read if each of its items is. -/
theorem List.mapM_eq_ok {f : α → Except ε β} {as : List α} {bs : List β}
    (h : List.Forall₂ (fun a b => f a = .ok b) as bs) : as.mapM f = .ok bs := by
  induction h with
  | nil => rfl
  | cons first _ ih => rw [List.mapM_cons, first, ih]; rfl

/-- Steps that never fail where an invariant holds, and keep it, do not fail one after the other. -/
theorem List.foldlM_eq_some_foldl (P : σ → Prop) {check : σ → α → Option σ}
    {step : σ → α → σ} (succeeds : ∀ s a, P s → check s a = some (step s a))
    (keeps : ∀ s a, P s → P (step s a)) {s : σ} (h : P s) (as : List α) :
    as.foldlM check s = some (as.foldl step s) ∧ P (as.foldl step s) := by
  induction as generalizing s with
  | nil => exact ⟨rfl, h⟩
  | cons a as ih =>
    rw [List.foldlM_cons, succeeds s a h, Option.bind_eq_bind, Option.bind_some]
    exact ih (keeps s a h)

end Failing

section Joined

variable {α : Type u} {β : Type v}

/-- Rows of one length can be taken apart. -/
theorem List.flatMap_cancel {f : α → List β} {n : Nat} (size : ∀ a, (f a).length = n)
    (inj : Function.Injective f) {as bs : List α} (hl : as.length = bs.length)
    (h : as.flatMap f = bs.flatMap f) : as = bs := by
  induction as generalizing bs with
  | nil => exact (List.length_eq_zero_iff.mp hl.symm).symm
  | cons a as ih =>
    obtain ⟨b, bs, rfl⟩ : ∃ b bs', bs = b :: bs' := List.exists_cons_of_length_eq_add_one hl.symm
    rw [List.flatMap_cons, List.flatMap_cons] at h
    obtain ⟨hh, ht⟩ := List.append_inj h ((size a).trans (size b).symm)
    rw [inj hh, ih (by simpa using hl) ht]

/-- Rows that show what they belong to have nothing in common. -/
theorem List.nodup_flatMap_of_field {as : List α} {f : α → List β} {g : β → α}
    (has : as.Nodup) (hf : ∀ a ∈ as, (f a).Nodup) (hg : ∀ a ∈ as, ∀ b ∈ f a, g b = a) :
    (as.flatMap f).Nodup := by
  rw [List.nodup_flatMap]
  refine ⟨hf, has.pairwise_of_forall_ne ?_⟩
  intro a ha a' ha' hne b hb hb'
  exact hne ((hg a ha b hb).symm.trans (hg a' ha' b hb'))

/-- Lists that differ in one place have the same elsewhere. -/
theorem List.flatten_set_perm {ws : List (List α)} {i : Nat} {w : List α} (h : ws[i]? = some w)
    (w' : List α) : (w ++ (ws.set i w').flatten).Perm (w' ++ ws.flatten) := by
  induction ws generalizing i with
  | nil => simp at h
  | cons v ws ih =>
    cases i with
    | zero =>
      obtain rfl : v = w := by simpa using h
      simpa using List.perm_append_comm_assoc v w' ws.flatten
    | succ i =>
      have hp := ih (i := i) (by simpa using h)
      calc (w ++ (v ++ (ws.set i w').flatten)).Perm (v ++ (w ++ (ws.set i w').flatten)) :=
            List.perm_append_comm_assoc ..
        List.Perm _ (v ++ (w' ++ ws.flatten)) := hp.append_left v
        List.Perm _ (w' ++ (v ++ ws.flatten)) := List.perm_append_comm_assoc ..

theorem List.mem_intercalate {sep c : α} {fields : List (List α)}
    (h : c ∈ [sep].intercalate fields) : c = sep ∨ ∃ field ∈ fields, c ∈ field := by
  induction fields with
  | nil => simp at h
  | cons field fields ih =>
    cases fields with
    | nil => exact .inr ⟨field, by simp, by simpa using h⟩
    | cons next fields =>
      rw [List.intercalate_cons_cons, List.append_assoc, List.singleton_append, List.mem_append,
        List.mem_cons] at h
      rcases h with h | h | h
      · exact .inr ⟨field, by simp, h⟩
      · exact .inl h
      · rcases ih h with h | ⟨f, hf, h⟩
        · exact .inl h
        · exact .inr ⟨f, List.mem_cons_of_mem _ hf, h⟩

theorem List.mem_intercalate_of_mem {sep c : α} {field : List α} {fields : List (List α)}
    (hf : field ∈ fields) (hc : c ∈ field) : c ∈ [sep].intercalate fields := by
  induction fields with
  | nil => cases hf
  | cons first fields ih =>
    cases fields with
    | nil => simpa using List.mem_singleton.mp hf ▸ hc
    | cons next fields =>
      rw [List.intercalate_cons_cons, List.append_assoc, List.mem_append]
      rcases List.mem_cons.mp hf with rfl | hf
      · exact .inl hc
      · exact .inr (List.mem_append_right _ (ih hf))

end Joined

section Ascending

variable {α : Type u} [LinearOrder α]

/-- The place of an element in an ascending list is the number of smaller ones. -/
theorem List.idxOf_of_ascending {l : List α} (ascending : l.Pairwise (· < ·)) {a : α}
    (h : a ∈ l) : l.idxOf a = l.countP (· < a) := by
  induction l with
  | nil => cases h
  | cons b l ih =>
    obtain ⟨above, rest⟩ := List.pairwise_cons.mp ascending
    rcases List.mem_cons.mp h with rfl | h
    · have none : (a :: l).countP (· < a) = 0 := by
        rw [List.countP_eq_zero]
        intro c hc
        rw [decide_eq_true_eq, not_lt]
        rcases List.mem_cons.mp hc with rfl | hc
        · exact le_rfl
        · exact (above c hc).le
      rw [none, List.idxOf_cons_self]
    · have less : b < a := above a h
      rw [List.idxOf_cons_ne _ less.ne, ih rest h, List.countP_cons_of_pos (by simpa using less)]

/-- An element is among the lowest unless enough others are smaller. -/
theorem Finset.mem_take_sort_iff {s : Finset α} {a : α} (h : a ∈ s) (limit : Nat) :
    a ∈ s.sort.take limit ↔ (s.filter (· < a)).card < limit := by
  have listed : a ∈ s.sort := (Finset.mem_sort _).mpr h
  have count : s.sort.countP (· < a) = (s.filter (· < a)).card := by
    rw [← Finset.card_val, Finset.filter_val, ← Multiset.countP_eq_card_filter, ← s.sort_eq (· ≤ ·),
      Multiset.coe_countP]
  rw [List.mem_take_iff_idxOf_lt listed,
    List.idxOf_of_ascending (Finset.sortedLT_sort s).pairwise listed, count]

end Ascending

end
