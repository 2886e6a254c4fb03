import DigestFinder.Proofs.Search.Matches

/-!
The report of a search as the sum of what its strategies contribute. A strategy that is skipped
contributes nothing; with the algorithms of a registry no strategy fails.
-/

namespace DigestFinder.Search

/-- Whether a candidate has the digest that is looked for. -/
def Candidate.hits (c : Candidate) (request : Request) : Bool :=
  match c.verdict request with
  | .ok hit => hit
  | .error _ => false

/-- A sweep in which no candidate fails counts and keeps the candidates that match. -/
theorem sweepOutcome_ok {request : Request} {cs : List Candidate}
    (h : ∀ c ∈ cs, c.verdict request = .ok (c.hits request)) (total : Result) :
    sweepOutcome request total cs = .ok {
      found := total.found + (cs.countP (·.hits request)).toUInt64
      searched := total.searched + cs.length
      kept := total.kept ++ (cs.filter (·.hits request)).map Candidate.found
      truncated := total.truncated } := by
  induction cs generalizing total with
  | nil => simp [sweepOutcome]
  | cons c rest ih =>
    have hr := ih fun d hd => h d (List.mem_cons_of_mem _ hd)
    have hs (n k : Nat) : n + 1 + k = n + (k + 1) := by omega
    rw [sweepOutcome, h c (List.mem_cons_self ..)]
    cases hc : c.hits request with
    | true =>
      have hf : total.found + 1 + (rest.countP (·.hits request)).toUInt64 =
          total.found + (rest.countP (·.hits request) + 1).toUInt64 := by
        rw [UInt64.add_assoc, Nat.add_comm]
        exact congrArg _ (UInt64.ofNat_add 1 _).symm
      dsimp only
      rw [hr, Result.hit, hf]
      simp [hc, hs]
    | false =>
      dsimp only
      rw [hr, Result.miss]
      simp [hc, hs]

/-- The result of a sweep in which no candidate fails. -/
def tally (request : Request) (cs : List Candidate) : Result where
  found := (cs.countP (·.hits request)).toUInt64
  searched := cs.length
  kept := (cs.filter (·.hits request)).map Candidate.found

theorem sweepOutcome_eq_tally {request : Request} {cs : List Candidate}
    (h : ∀ c ∈ cs, c.verdict request = .ok (c.hits request)) :
    sweepOutcome request {} cs = .ok (tally request cs) := by
  simp [sweepOutcome_ok h, tally]

section

variable (sources : Sources) (limit : Nat) (request : Request)

/-- What a strategy adds to a report. -/
def contribution (strategy : Strategy) : Result :=
  (findOutcome sources limit request strategy).toOption.getD {}

/-- Whether every strategy finishes, or is skipped. -/
def Unfailing : Prop :=
  ∀ strategy e, findOutcome sources limit request strategy = .error e → e.skips = true

theorem Result.merge_empty (r : Result) : r.merge {} = r := by
  simp [merge]

end

theorem toNat_found_foldl_merge (total : Result) (results : List Result) :
    (results.foldl .merge total).found.toNat =
      (total.found.toNat + (results.map fun r => r.found.toNat).sum) % 2 ^ 64 := by
  induction results generalizing total with
  | nil =>
    have hf := total.found.toNat_lt
    simp [Nat.mod_eq_of_lt hf]
  | cons r results ih =>
    have hm : (total.merge r).found.toNat = (total.found.toNat + r.found.toNat) % 2 ^ 64 :=
      UInt64.toNat_add ..
    rw [List.foldl_cons, ih, hm, Nat.mod_add_mod, List.map_cons, List.sum_cons, Nat.add_assoc]

theorem searched_foldl_merge (total : Result) (results : List Result) :
    (results.foldl Result.merge total).searched =
      total.searched + (results.map Result.searched).sum := by
  induction results generalizing total with
  | nil => rfl
  | cons r results ih =>
    rw [List.foldl_cons, ih, List.map_cons, List.sum_cons, ← Nat.add_assoc]
    rfl

theorem kept_foldl_merge (total : Result) (results : List Result) :
    (results.foldl Result.merge total).kept = total.kept ++ results.flatMap Result.kept := by
  induction results generalizing total with
  | nil => simp
  | cons r results ih =>
    rw [List.foldl_cons, ih, List.flatMap_cons, ← List.append_assoc]
    rfl

theorem truncated_foldl_merge (total : Result) (results : List Result) :
    (results.foldl Result.merge total).truncated =
      (total.truncated || results.any Result.truncated) := by
  induction results generalizing total with
  | nil => simp
  | cons r results ih =>
    rw [List.foldl_cons, ih, List.any_cons, ← Bool.or_assoc]
    rfl

end DigestFinder.Search
