import DigestFinder.CommandLine.Find
import DigestFinder.Proofs.Search.AscendingEvents
import DigestFinder.Proofs.Search.Blocks

/-!
The lines for the events of a search. The line for a match goes to the progress bar where one is up,
and is lost there since the bar is hidden. So matches are lost just from the first report on
progress to the end of brute force, and none where progress is not reported.
-/

namespace DigestFinder.CommandLine

open Search

/-- The lines for an event where no bar is up. -/
def linesOf (verbose : Bool) (e : Event) : List String := eventLines verbose false [e]

/-- Whether a bar is up after an event. -/
def barAfter (up : Bool) : Event → Bool
  | .progress _ _ => true
  | .finished .bruteForce _ => false
  | _ => up

/-- Progress was reported, and brute force has not ended since. -/
def BarUp (events : List Event) : Prop :=
  ∃ earlier done total later, events = earlier ++ .progress done total :: later ∧
    ∀ found, .finished .bruteForce found ∉ later

/-- A match comes while a bar is up. -/
def HidesMatch (events : List Event) : Prop :=
  ∃ before strategy m after, events = before ++ .matched strategy m :: after ∧ BarUp before

section

variable (verbose up : Bool)

theorem eventLines_cons (e : Event) (rest : List Event) :
    eventLines verbose up (e :: rest) =
      (if up && e.kind = .matched then [] else linesOf verbose e) ++
        eventLines verbose (barAfter up e) rest := by
  cases e with
  | started strategy => cases verbose <;> simp [eventLines, linesOf, barAfter, Event.kind]
  | matched strategy m =>
    cases verbose <;> cases up <;> simp [eventLines, linesOf, barAfter, Event.kind]
  | finished strategy found =>
    cases strategy <;> simp [eventLines, linesOf, barAfter, Event.kind]
  | _ => simp [eventLines, linesOf, barAfter, Event.kind]

theorem eventLines_append (before after : List Event) :
    eventLines verbose up (before ++ after) =
      eventLines verbose up before ++ eventLines verbose (before.foldl barAfter up) after := by
  induction before generalizing up with
  | nil => rfl
  | cons e before ih =>
    rw [List.cons_append, eventLines_cons, eventLines_cons _ _ e before, ih, List.append_assoc]
    rfl

theorem bar_iff {events : List Event} :
    events.foldl barAfter false = true ↔ BarUp events := by
  constructor
  · intro h
    induction events using List.reverseRecOn with
    | nil => cases h
    | append_singleton events e ih =>
      rw [List.foldl_concat] at h
      have before (stays : barAfter (events.foldl barAfter false) e =
          events.foldl barAfter false) (other : ∀ found, e ≠ .finished .bruteForce found) :
          BarUp (events ++ [e]) := by
        obtain ⟨earlier, done, total, later, rfl, none⟩ := ih (stays ▸ h)
        exact ⟨earlier, done, total, later ++ [e], by simp, fun found => by
          simpa [none found] using (other found).symm⟩
      cases e with
      | progress done total => exact ⟨events, done, total, [], rfl, by simp⟩
      | finished strategy found =>
        cases strategy with
        | bruteForce => cases h
        | _ => exact before rfl (by simp)
      | _ => exact before rfl (by simp)
  · rintro ⟨earlier, done, total, later, rfl, none⟩
    rw [List.foldl_append, List.foldl_cons]
    induction later using List.reverseRecOn with
    | nil => rfl
    | append_singleton later e ih =>
      have up := ih fun found hm => none found (List.mem_append_left _ hm)
      rw [List.foldl_concat, up]
      cases e with
      | finished strategy found =>
        cases strategy with
        | bruteForce => exact absurd (by simp) (none found)
        | _ => rfl
      | _ => rfl

instance (events : List Event) : Decidable (BarUp events) := decidable_of_iff _ bar_iff

theorem bar_of_no_progress {events : List Event} (h : ∀ e ∈ events, e.kind ≠ .progress) :
    events.foldl barAfter false = false := by
  rw [← Bool.not_eq_true, bar_iff]
  rintro ⟨earlier, done, total, later, rfl, -⟩
  exact h (.progress done total) (by simp) rfl

/-- Each event has its lines if no match comes while a bar is up. -/
theorem eventLines_of_not_hidesMatch {events : List Event} (h : ¬ HidesMatch events) :
    eventLines verbose false events = events.flatMap (linesOf verbose) := by
  induction events using List.reverseRecOn with
  | nil => rfl
  | append_singleton events e ih =>
    have fewer : ¬ HidesMatch events := by
      rintro ⟨before, strategy, m, after, rfl, up⟩
      exact h ⟨before, strategy, m, after ++ [e], by simp, up⟩
    have seen : ¬ ((events.foldl barAfter false && e.kind = .matched) = true) := by
      intro hidden
      obtain ⟨bar, kind⟩ := (Bool.and_eq_true _ _).mp hidden
      cases e with
      | matched strategy m => exact h ⟨events, strategy, m, [], rfl, bar_iff.mp bar⟩
      | _ => cases kind
    rw [eventLines_append, ih fewer, eventLines_cons, if_neg seen]
    simp [eventLines]

theorem eventLines_of_no_progress {events : List Event} (h : ∀ e ∈ events, e.kind ≠ .progress) :
    eventLines verbose false events = events.flatMap (linesOf verbose) := by
  apply eventLines_of_not_hidesMatch
  rintro ⟨before, strategy, m, after, rfl, up⟩
  have down := bar_of_no_progress fun e he => h e (List.mem_append_left _ he)
  rw [bar_iff.mpr up] at down
  cases down

/-- The lines for matches are there or not all together. -/
theorem eventLines_of_matched {events : List Event}
    (h : ∀ e ∈ events, e.kind = .matched) : events.foldl barAfter up = up ∧
      eventLines verbose up events = if up then [] else events.flatMap (linesOf verbose) := by
  induction events with
  | nil => cases up <;> exact ⟨rfl, rfl⟩
  | cons e events ih =>
    obtain ⟨he, hr⟩ := List.forall_mem_cons.mp h
    obtain ⟨bar, lines⟩ := ih hr
    have stays : barAfter up e = up := by
      cases e with
      | matched strategy m => rfl
      | _ => cases he
    rw [List.foldl_cons, stays, eventLines_cons, stays, lines]
    refine ⟨bar, ?_⟩
    cases up <;> simp [he]

theorem eventLines_sublist (events : List Event) :
    (eventLines verbose up events).Sublist (events.flatMap (linesOf verbose)) := by
  induction events generalizing up with
  | nil => exact .slnil
  | cons e events ih =>
    rw [eventLines_cons, List.flatMap_cons]
    refine List.Sublist.append ?_ (ih _)
    split
    · exact List.nil_sublist _
    · exact List.Sublist.refl _

end

/-- What becomes of the line for a match. -/
theorem eventLines_split (before after : List Event) (strategy : Strategy) (m : Match) :
    eventLines true false (before ++ .matched strategy m :: after) =
      eventLines true false before ++
        (if BarUp before then [] else [s!"  [{strategy.name}] match: {m.id} ({m.description})"]) ++
        eventLines true (BarUp before) after := by
  have line : linesOf true (.matched strategy m) =
      [s!"  [{strategy.name}] match: {m.id} ({m.description})"] := rfl
  have stays : barAfter (before.foldl barAfter false) (.matched strategy m) =
      decide (BarUp before) := by
    rw [Bool.eq_iff_iff, decide_eq_true_eq]
    exact bar_iff
  rw [eventLines_append, eventLines_cons, stays, line, List.append_assoc]
  by_cases up : BarUp before
  · simp [up, bar_iff.mpr up, Event.kind]
  · simp [up, Bool.eq_false_of_not_eq_true (mt bar_iff.mp up)]

/-- No line is lost just when no match comes while a bar is up. -/
theorem eventLines_eq_iff {events : List Event} :
    eventLines true false events = events.flatMap (linesOf true) ↔ ¬ HidesMatch events := by
  constructor
  · rintro whole ⟨before, strategy, m, after, rfl, up⟩
    have line : (linesOf true (.matched strategy m)).length = 1 := rfl
    have behind := (eventLines_sublist true (BarUp before) after).length_le
    have front := (eventLines_sublist true false before).length_le
    have same := congrArg List.length whole
    rw [eventLines_split, if_pos up] at same
    simp only [List.append_nil, List.flatMap_append, List.flatMap_cons, List.length_append,
      line] at same
    omega
  · exact eventLines_of_not_hidesMatch true

/-! ### Brute force in ascending order -/

/-- Whether an event is no match of brute force with a polynomial that is tried only after progress
has been reported. -/
def comesEarly : Event → Bool
  | .matched .bruteForce (.parameters m) => m.poly < progressBlock
  | _ => true

/-- Lines are lost with the matches that do not come early. -/
theorem flatMap_filter_comesEarly_iff {events : List Event} :
    (events.filter comesEarly).flatMap (linesOf true) = events.flatMap (linesOf true) ↔
      ∀ e ∈ events, comesEarly e = true := by
  rw [← List.filter_eq_self]
  refine ⟨fun same => ?_, congrArg _⟩
  induction events with
  | nil => rfl
  | cons e events ih =>
    cases early : comesEarly e with
    | true =>
      rw [List.filter_cons_of_pos early, List.flatMap_cons, List.flatMap_cons,
        List.append_cancel_left_eq] at same
      rw [List.filter_cons_of_pos early, ih same]
    | false =>
      -- The event is a match, and no other event makes up for its line.
      have fewer : ((events.filter comesEarly).flatMap (linesOf true)).length ≤
          (events.flatMap (linesOf true)).length :=
        (List.Sublist.flatMap List.filter_sublist _).length_le
      have line : 0 < (linesOf true e).length := by
        cases e with
        | matched strategy m => exact Nat.one_pos
        | _ => cases early
      have lengths := congrArg List.length same
      rw [List.filter_cons_of_neg (by simp [early]), List.flatMap_cons, List.length_append]
        at lengths
      omega

theorem filter_comesEarly_hits (c : Setting) {poly : UInt64} (h : poly ≤ Crc.mask c.width) :
    ((c.hits poly).map c.event).filter comesEarly =
      if progressBlock ≤ poly then [] else (c.hits poly).map c.event := by
  have same : ∀ e ∈ (c.hits poly).map c.event, comesEarly e = decide (poly < progressBlock) := by
    intro e he
    obtain ⟨p, hp, rfl⟩ := List.mem_map.mp he
    simp only [comesEarly, Setting.event, Params.model, Crc.Model.masked,
      Setting.poly_of_mem_hits hp, Crc.and_mask_of_le c.valid h]
  rw [List.filter_congr same]
  split
  · next late => simp [UInt64.not_lt.mpr late]
  · next early => simp [UInt64.not_le.mp early]

/-- Progress is first reported after a block of polynomials. -/
theorem bar_isDue (c : Setting) (hw : c.width ≤ 63) {poly : UInt64}
    (next : (poly + 1).toNat = poly.toNat + 1) (h : poly.toNat + 1 < 2 ^ c.width) :
    (decide (progressBlock ≤ poly) || c.isDue (poly + 1)) = decide (progressBlock ≤ poly + 1) := by
  have block : progressBlock.toNat = 4096 := rfl
  have zero : (0 : UInt64).toNat = 0 := rfl
  rw [Bool.eq_iff_iff]
  simp only [Setting.isDue, Bool.or_eq_true, decide_eq_true_eq, beq_iff_eq,
    UInt64.le_iff_toNat_le, ← UInt64.toNat_inj, UInt64.toNat_mod, next, c.toNat_total hw, block,
    zero]
  omega

/-- A bar is up before a polynomial just when a block of polynomials is done. -/
theorem eventLines_toldFrom (verbose : Bool) (c : Setting) (hw : c.width ≤ 63) (n : Nat)
    (poly : UInt64) (h : poly.toNat + n = 2 ^ c.width) :
    eventLines verbose (progressBlock ≤ poly) (c.toldFrom true n poly) =
      ((c.toldFrom false n poly).filter comesEarly).flatMap (linesOf verbose) := by
  induction n generalizing poly with
  | zero => rfl
  | succ n ih =>
    have inside : poly ≤ Crc.mask c.width := by
      rw [Crc.le_mask_iff_lt c.valid]
      omega
    have matched : ∀ e ∈ (c.hits poly).map c.event, e.kind = .matched := by
      simp [Setting.event, Event.kind]
    obtain ⟨bar, lines⟩ := eventLines_of_matched verbose (progressBlock ≤ poly) matched
    have nothing : c.announcement? false (poly + 1) = none := by
      simp [Setting.announcement?]
    have silent (up : Bool) :
        eventLines verbose up (c.announcement? true (poly + 1)).toList = [] ∧
          (c.announcement? true (poly + 1)).toList.foldl barAfter up =
            (up || c.isDue (poly + 1)) := by
      unfold Setting.announcement?
      cases c.isDue (poly + 1) <;> simp [eventLines, barAfter]
    rw [Setting.toldFrom, Setting.toldFrom, nothing, Option.toList_none, List.append_nil,
      eventLines_append, eventLines_append, List.foldl_append, bar, lines, (silent _).1,
      (silent _).2, List.append_nil, List.filter_append, List.flatMap_append,
      filter_comesEarly_hits c inside]
    congr 1
    · by_cases late : progressBlock ≤ poly <;> simp [late]
    · cases n with
      | zero => rfl
      | succ n =>
        have bound : 2 ^ c.width ≤ 2 ^ 63 := Nat.pow_le_pow_right (by decide) hw
        have next : (poly + 1).toNat = poly.toNat + 1 := toNat_succ (by omega)
        rw [bar_isDue c hw next (by omega)]
        exact ih (poly + 1) (by omega)

/-! ### Searches -/

theorem comesEarly_of_ne {e : Event} (h : e.strategy ≠ .bruteForce) : comesEarly e = true := by
  cases e with
  | matched strategy m =>
    cases strategy with
    | bruteForce => exact absurd rfl h
    | _ => rfl
  | _ => rfl

@[simp] theorem comesEarly_started (strategy : Strategy) :
    comesEarly (.started strategy) = true := rfl

variable (sources : Sources) (limit : Nat) (request : Request) (verbose shown : Bool)

/-- A strategy that goes through a list tells the same whether progress is wanted or not. -/
theorem findTold_of_ne {strategy : Strategy} (h : strategy ≠ .bruteForce) :
    findTold sources request verbose true strategy =
        findTold sources request verbose false strategy ∧
      Telling strategy verbose (findTold sources request verbose false strategy) := by
  by_cases serves : strategy.Serves request.width
  · simp only [findTold, dif_pos serves]
    cases strategy with
    | bruteForce => exact absurd rfl h
    | catalogue => exact ⟨rfl, telling_sweepEvents h _⟩
    | documented => exact ⟨rfl, telling_sweepEvents h _⟩
  · rw [findTold_of_not_serves _ _ _ _ serves, findTold_of_not_serves _ _ _ _ serves]
    exact ⟨rfl, telling_nil ..⟩

theorem kind_of_mem_findTold (strategy : Strategy) :
    ∀ e ∈ findTold sources request verbose false strategy, e.kind ≠ .progress := by
  intro e he
  by_cases h : strategy = .bruteForce
  · subst h
    by_cases serves : Strategy.bruteForce.Serves request.width
    · rw [findTold_of_serves _ _ _ _ serves] at he
      simp [kind_of_mem_toldFrom _ _ _ e he]
    · rw [findTold_of_not_serves _ _ _ _ serves] at he
      cases he
  · rcases (findTold_of_ne sources request verbose h).2.kinds e he with matched | listed
    · simp [matched]
    · rw [if_neg h] at listed
      simp [listed.1]

/-- What is shown of one strategy. -/
theorem eventLines_findTold (strategy : Strategy) :
    eventLines shown false (findTold sources request verbose true strategy) =
      ((findTold sources request verbose false strategy).filter comesEarly).flatMap
        (linesOf shown) := by
  by_cases h : strategy = .bruteForce
  · subst h
    by_cases serves : Strategy.bruteForce.Serves request.width
    · rw [findTold_of_serves _ _ _ _ serves, findTold_of_serves _ _ _ _ serves]
      exact eventLines_toldFrom shown (Setting.ofRequest request (request.valid serves)) serves.2
        _ 0 (Nat.zero_add _)
    · rw [findTold_of_not_serves _ _ _ _ serves, findTold_of_not_serves _ _ _ _ serves]
      rfl
  · obtain ⟨same, telling⟩ := findTold_of_ne sources request verbose h
    have all : ∀ e ∈ findTold sources request verbose false strategy, comesEarly e = true :=
      fun e he => comesEarly_of_ne (telling.own e he ▸ h)
    rw [same, List.filter_eq_self.mpr all,
      eventLines_of_no_progress _ (kind_of_mem_findTold _ _ _ _)]

/-- How the block of a strategy ends that does not end the search. -/
def EndsBlock (strategy : Strategy) (e : Event) : Prop :=
  (∃ found, e = .finished strategy found) ∨
    (∃ reason, e = .skipped strategy reason) ∧
      ∃ error, findOutcome sources limit request strategy = .error error

variable {sources limit request} {strategy : Strategy}

/-- No strategy leaves a bar up. -/
theorem EndsBlock.bar {e : Event} (ends : EndsBlock sources limit request strategy e) :
    barAfter ((findTold sources request verbose true strategy).foldl barAfter false) e =
      false := by
  by_cases h : strategy = .bruteForce
  · subst h
    rcases ends with ⟨found, rfl⟩ | ⟨⟨reason, rfl⟩, error, failed⟩
    · rfl
    · have unserved : ¬ Strategy.bruteForce.Serves request.width := by
        intro serves
        rw [findOutcome, dif_pos serves] at failed
        cases failed
      rw [findTold_of_not_serves _ _ _ _ unserved]
      rfl
  · rw [(findTold_of_ne _ _ _ h).1, bar_of_no_progress (kind_of_mem_findTold _ _ _ _)]
    rcases ends with ⟨found, rfl⟩ | ⟨⟨reason, rfl⟩, -⟩
    · cases strategy <;> rfl
    · rfl

theorem EndsBlock.lines {e : Event} (ends : EndsBlock sources limit request strategy e)
    {watched unwatched : List Event} (rest : eventLines shown false watched =
      (unwatched.filter comesEarly).flatMap (linesOf shown)) :
    eventLines shown false (.started strategy ::
        findTold sources request verbose true strategy ++ e :: watched) =
      ((.started strategy :: findTold sources request verbose false strategy ++
        e :: unwatched).filter comesEarly).flatMap (linesOf shown) := by
  have early : comesEarly e = true := by
    rcases ends with ⟨found, rfl⟩ | ⟨⟨reason, rfl⟩, -⟩ <;> rfl
  have other : e.kind ≠ .matched := by
    rcases ends with ⟨found, rfl⟩ | ⟨⟨reason, rfl⟩, -⟩ <;> simp [Event.kind]
  have first : eventLines shown false (.started strategy ::
      findTold sources request verbose true strategy) =
      linesOf shown (.started strategy) ++
        eventLines shown false (findTold sources request verbose true strategy) :=
    eventLines_cons ..
  rw [eventLines_append, first, List.foldl_cons, eventLines_cons _ _ e]
  change _ ++ (_ ++ eventLines shown (barAfter (List.foldl barAfter false
    (findTold sources request verbose true strategy)) e) watched) = _
  rw [ends.bar, eventLines_findTold, rest]
  simp [other, early, List.filter_cons]

variable (sources limit request)

theorem kind_of_mem_runTold (strategies : List Strategy) :
    ∀ e ∈ runTold sources limit request verbose false strategies, e.kind ≠ .progress := by
  induction strategies with
  | nil => exact List.forall_mem_nil _
  | cons strategy rest ih =>
    rw [runTold, List.forall_mem_append, List.forall_mem_cons]
    refine ⟨⟨by simp [Event.kind], kind_of_mem_findTold _ _ _ _⟩, ?_⟩
    split
    · exact List.forall_mem_cons.mpr ⟨by simp [Event.kind], ih⟩
    · split
      · exact List.forall_mem_cons.mpr ⟨by simp [Event.kind], ih⟩
      · exact List.forall_mem_nil _

/-- What is shown of a search that nobody stops. -/
theorem eventLines_runTold (strategies : List Strategy) :
    eventLines shown false (runTold sources limit request verbose true strategies) =
      ((runTold sources limit request verbose false strategies).filter comesEarly).flatMap
        (linesOf shown) := by
  induction strategies with
  | nil => rfl
  | cons strategy rest ih =>
    rw [runTold, runTold]
    cases outcome : findOutcome sources limit request strategy with
    | ok result => exact EndsBlock.lines verbose shown (.inl ⟨_, rfl⟩ : EndsBlock _ limit _ _ _) ih
    | error e =>
      cases skips : e.skips with
      | true =>
        simp only [skips, if_true]
        exact EndsBlock.lines verbose shown (.inr ⟨⟨_, rfl⟩, e, outcome⟩) ih
      | false =>
        simp only [skips, List.append_nil, Bool.false_eq_true, if_false]
        rw [eventLines_cons]
        simp [barAfter, Event.kind, eventLines_findTold, List.filter_cons]

/-- What a search tells that nobody stops, with progress and without. -/
theorem eventLines_search (options : Options) :
    let told := (search sources options request false .never).2.trace.toList
    (∀ e ∈ told, e.kind ≠ .progress) ∧
      eventLines shown false (search sources options request true .never).2.trace.toList =
        (told.filter comesEarly).flatMap (linesOf shown) := by
  intro told
  simp only [told, trace_search]
  exact ⟨kind_of_mem_runTold _ _ _ _ _, eventLines_runTold ..⟩

/-! ### The command -/

namespace FindCommand

/-- What follows the lines for the events. -/
def closing (c : FindCommand) : Except Error Report → List Line
  | .ok r => if c.json then [] else reportLines c.verbose r
  | .error e => [errorLine [e.message]]

theorem diagnostics_runWith (sources : Sources) (c : FindCommand) {expected : Expected}
    (h : c.expectedValue = .ok expected) (untimed : c.timeout = none) {verbose : Bool}
    (hv : c.verbose = verbose) :
    let out := search sources c.options ⟨c.width, c.sequence, expected⟩ (!c.json) .never
    (c.runWith sources).diagnostics =
      (eventLines verbose false out.2.trace.toList).map .text ++ c.closing out.1 := by
  have never : c.cancellation = .never := by
    rw [cancellation, untimed]
    rfl
  dsimp only [runWith]
  rw [h, ← hv, never, untimed]
  dsimp only
  generalize search sources c.options ⟨c.width, c.sequence, expected⟩ (!c.json) .never = out
  obtain ⟨outcome, session⟩ := out
  unfold closing
  cases outcome with
  | ok r => cases json : c.json <;> simp [reply, json]
  | error e => cases e <;> rfl

end FindCommand

/-- All matches of a stream have their lines just when none comes while a bar is up. Of a search
from the command line that has no limit of time they have them in JSON; otherwise just those have
them that are not found by brute force with a polynomial that is tried after the first report on
progress. -/
theorem match_lines_shown (events : List Event) (sources : Sources) (c : FindCommand)
    {expected : Expected} (verbose : c.verbose = true) (h : c.expectedValue = .ok expected) :
    (eventLines true false events = events.flatMap (linesOf true) ↔ ¬ HidesMatch events) ∧
    (∀ before strategy m after, events = before ++ .matched strategy m :: after →
      eventLines true false events = eventLines true false before ++
        (if BarUp before then [] else [s!"  [{strategy.name}] match: {m.id} ({m.description})"]) ++
        eventLines true (BarUp before) after) ∧
    let request : Request := ⟨c.width, c.sequence, expected⟩
    let unwatched := search sources c.options request false .never
    let watched := search sources c.options request true .never
    let told := unwatched.2.trace.toList
    let early := told.filter comesEarly
    (c.timeout = none →
      ({ c with json := true }.runWith sources).diagnostics =
          (told.flatMap (linesOf true)).map .text ++ { c with json := true }.closing unwatched.1 ∧
        ({ c with json := false }.runWith sources).diagnostics =
          (early.flatMap (linesOf true)).map .text ++ { c with json := false }.closing watched.1) ∧
      (early.flatMap (linesOf true) = told.flatMap (linesOf true) ↔
        ∀ e ∈ told, comesEarly e = true) ∧
      ∀ workers log out, 0 < workers →
        Searches sources c.options request workers false .never log out →
        out.2.trace.toList.Perm told ∧
          eventLines true false out.2.trace.toList =
            out.2.trace.toList.flatMap (linesOf true) := by
  refine ⟨eventLines_eq_iff, ?_, ?_⟩
  · rintro before strategy m after rfl
    exact eventLines_split ..
  intro request unwatched watched told early
  obtain ⟨silent, shown⟩ := eventLines_search sources request true c.options
  have all : eventLines true false told = told.flatMap (linesOf true) :=
    eventLines_of_no_progress true silent
  refine ⟨fun untimed => ⟨?_, ?_⟩, flatMap_filter_comesEarly_iff, ?_⟩
  · rw [← all]
    exact FindCommand.diagnostics_runWith sources { c with json := true } h untimed verbose
  · rw [← shown]
    exact FindCommand.diagnostics_runWith sources { c with json := false } h untimed verbose
  · intro workers log out hw run
    have same := run.trace_perm hw
    exact ⟨same, eventLines_of_no_progress true fun e he => silent e (same.mem_iff.mp he)⟩

/-- A search whose matches do not all come before the first report. -/
def longSearch (json : Bool) : FindCommand where
  width := 13
  sequence := "123456789".toUTF8.toList
  expected := some "0555"
  expectedHex := none
  encoding := .hex
  threads := some 1
  skip := [.catalogue, .documented]
  maxMatches := 100
  timeout := none
  json := json
  verbose := true

/-- A solution whose polynomial is tried after the first report. -/
def lateSolution : Params := ⟨0x13ed, 0, true, false, 0x1fff⟩

/-- The match is shown in JSON and lost otherwise. Nothing is lost in JSON with two workers. -/
theorem match_lines_shown_of_longSearch :
    let late : Event := .matched .bruteForce (.parameters (lateSolution.model 13 (by decide)))
    let events := [.started .bruteForce, .progress 4096 8192, late]
    eventLines true false events ≠ events.flatMap (linesOf true) ∧
    (∃ told : List Event, late ∈ told ∧ comesEarly late = false ∧
      (∃ rest, ((longSearch true).runWith .builtin).diagnostics =
        (told.flatMap (linesOf true)).map .text ++ rest) ∧
      (∃ rest, ((longSearch false).runWith .builtin).diagnostics =
        ((told.filter comesEarly).flatMap (linesOf true)).map .text ++ rest) ∧
      (told.filter comesEarly).flatMap (linesOf true) ≠ told.flatMap (linesOf true)) ∧
    ∃ log out, Searches .builtin (longSearch true).options
        ⟨13, (longSearch true).sequence, .ofText "0555" .hex⟩ 2 false .never log out ∧
      eventLines true false out.2.trace.toList =
        out.2.trace.toList.flatMap (linesOf true) := by
  intro late events
  let c := longSearch true
  have alone : c.options.enabled = [.bruteForce] := by decide
  have serves : Strategy.bruteForce.Serves c.width := by decide
  have listed : late ∈ (search .builtin c.options ⟨c.width, c.sequence, .ofText "0555" .hex⟩ false
      .never).2.trace.toList := by
    refine mem_trace_search alone serves ?_
    rw [mem_solutions]
    decide +kernel +revert
  have notEarly : comesEarly late = false := by decide +kernel
  have request : c.expectedValue = .ok (.ofText "0555" .hex) := rfl
  have hides : HidesMatch events :=
    ⟨_, _, _, [], rfl, [.started .bruteForce], 4096, 8192, [], rfl, fun _ => List.not_mem_nil⟩
  obtain ⟨whole, -, replies, same, schedules⟩ := match_lines_shown events .builtin c rfl request
  obtain ⟨json, text⟩ := replies rfl
  obtain ⟨log, out, run⟩ := exists_searches .builtin c.options
    ⟨13, c.sequence, .ofText "0555" .hex⟩ 2 false .never
  have lost := mt same.mp fun allEarly => by simp [allEarly late listed] at notEarly
  exact ⟨fun shown => whole.mp shown hides,
    ⟨_, listed, notEarly, ⟨_, json⟩, ⟨_, text⟩, lost⟩,
    log, out, run, (schedules 2 log out (by decide) run).2⟩

/-- The line for a match is lost after a report on progress. -/
theorem match_line_lost : ¬ ∀ (before after : List Event) (strategy : Strategy) (m : Match),
    s!"  [{strategy.name}] match: {m.id} ({m.description})" ∈
      eventLines true false (before ++ .matched strategy m :: after) := by
  intro all
  have line := all [.started .bruteForce, .progress 4096 8192] [] .bruteForce (.named "crc" "CRC")
  exact absurd line (by decide)

end DigestFinder.CommandLine
