import DigestFinder.Proofs.Search.Schedule

/-!
What a search does in order, as far as it can be stopped or watched: looks at the request to stop,
candidates and polynomials that are begun, and events. A search that is asked to stop ends with the
first look that finds the request, and its log is that of an undisturbed search up to there.
-/

namespace DigestFinder.Search

inductive Mark
  /-- A look at the request to stop, before a candidate or a polynomial. -/
  | look (strategy : Strategy)
  /-- A candidate or a polynomial is begun. -/
  | begun (strategy : Strategy)
  | told (e : Event)

namespace Mark

def event? : Mark → Option Event
  | told e => some e
  | _ => none

def strategy : Mark → Strategy
  | look strategy => strategy
  | begun strategy => strategy
  | told e => e.strategy

def isLook : Mark → Bool
  | look _ => true
  | _ => false

def isBegun : Mark → Bool
  | begun _ => true
  | _ => false

end Mark

abbrev Log := List Mark

def Log.events (log : Log) : List Event := log.filterMap Mark.event?

@[simp] theorem Log.events_nil : Log.events [] = [] := rfl

@[simp] theorem Log.events_look (strategy : Strategy) (log : Log) :
    Log.events (.look strategy :: log) = log.events := rfl

@[simp] theorem Log.events_begun (strategy : Strategy) (log : Log) :
    Log.events (.begun strategy :: log) = log.events := rfl

@[simp] theorem Log.events_told (e : Event) (log : Log) :
    Log.events (.told e :: log) = e :: log.events := rfl

@[simp] theorem Log.events_append (first second : Log) :
    Log.events (first ++ second) = first.events ++ second.events :=
  List.filterMap_append

@[simp] theorem Log.events_map_told (es : List Event) : Log.events (es.map .told) = es := by
  induction es with
  | nil => rfl
  | cons e es ih => exact congrArg (e :: ·) ih

namespace Cancellation

/-- Whether the request to stop has been made once these events have been sent. -/
def due : Cancellation → List Event → Bool
  | never, _ => false
  | atStart, _ => true
  | after kind number, events => 0 < number && number ≤ events.countP (·.kind = kind)

/-- Whether a search that leaves this log has a strategy look at the request to stop after it was
made. -/
def Found (c : Cancellation) (log : Log) (strategy : Strategy) : Prop :=
  ∃ before rest, log = before ++ .look strategy :: rest ∧ c.due (Log.events before) = true

end Cancellation

namespace Session

@[simp] theorem verbose_emit (s : Session) (e : Event) : (s.emit e).verbose = s.verbose := by
  unfold emit
  dsimp only
  split
  · split <;> rfl
  · rfl

@[simp] theorem wantsProgress_emit (s : Session) (e : Event) :
    (s.emit e).wantsProgress = s.wantsProgress := by
  unfold emit
  dsimp only
  split
  · split <;> rfl
  · rfl

def mark (s : Session) : Mark → Session
  | .told e => s.emit e
  | _ => s

/-- The session once everything in a log has happened. -/
def after (s : Session) (log : Log) : Session := log.foldl mark s

@[simp] theorem after_nil (s : Session) : s.after [] = s := rfl

@[simp] theorem after_cons (s : Session) (m : Mark) (log : Log) :
    s.after (m :: log) = (s.mark m).after log := rfl

@[simp] theorem mark_told (s : Session) (e : Event) : s.mark (.told e) = s.emit e := rfl

@[simp] theorem mark_look (s : Session) (strategy : Strategy) : s.mark (.look strategy) = s := rfl

@[simp] theorem mark_begun (s : Session) (strategy : Strategy) :
    s.mark (.begun strategy) = s := rfl

@[simp] theorem after_append (s : Session) (first second : Log) :
    s.after (first ++ second) = (s.after first).after second :=
  List.foldl_append

@[simp] theorem verbose_after (s : Session) (log : Log) : (s.after log).verbose = s.verbose := by
  induction log generalizing s with
  | nil => rfl
  | cons m log ih => cases m <;> simp [ih]

@[simp] theorem wantsProgress_after (s : Session) (log : Log) :
    (s.after log).wantsProgress = s.wantsProgress := by
  induction log generalizing s with
  | nil => rfl
  | cons m log ih => cases m <;> simp [ih]

theorem trace_after (s : Session) (log : Log) :
    (s.after log).trace.toList = s.trace.toList ++ log.events := by
  induction log generalizing s with
  | nil => simp
  | cons m log ih => cases m <;> simp [ih, trace_emit]

theorem Calm.after {s : Session} (h : s.Calm) (log : Log) : (s.after log).Calm := by
  induction log generalizing s with
  | nil => exact h
  | cons m log ih =>
    cases m with
    | told e => exact ih (h.emit e)
    | _ => exact ih h

theorem calm_start (verbose wantsProgress : Bool) : (start verbose wantsProgress .never).Calm :=
  ⟨rfl, rfl⟩

/-- Whether the request to stop has not been made at any of the watched marks of a log. -/
def clear (watched : Mark → Bool) (s : Session) : Log → Bool
  | [] => true
  | m :: log => !(watched m && s.cancelled) && (s.mark m).clear watched log

/-- Whether no look finds the request to stop. -/
abbrev passes : Session → Log → Bool := clear Mark.isLook

/-- Whether nothing is begun after the request to stop. -/
abbrev heeds : Session → Log → Bool := clear Mark.isBegun

/-- A log up to the first look that finds the request to stop. -/
def cut (s : Session) : Log → Log
  | [] => []
  | m :: log => m :: if m.isLook && s.cancelled then [] else (s.mark m).cut log

theorem clear_append (watched : Mark → Bool) (s : Session) (first second : Log) :
    s.clear watched (first ++ second) =
      (s.clear watched first && (s.after first).clear watched second) := by
  induction first generalizing s with
  | nil => rfl
  | cons m first ih => simp [clear, ih, Bool.and_assoc]

theorem clear_iff {watched : Mark → Bool} {s : Session} {log : Log} :
    s.clear watched log ↔ ∀ before m rest, log = before ++ m :: rest → watched m →
      (s.after before).cancelled = false := by
  induction log generalizing s with
  | nil => simp [clear]
  | cons m log ih =>
    simp only [clear, Bool.and_eq_true, ih]
    constructor
    · rintro ⟨hm, hl⟩ before n rest h hn
      cases before with
      | nil =>
        obtain ⟨rfl, rfl⟩ := List.cons.inj h
        simpa [hn] using hm
      | cons k before =>
        obtain ⟨rfl, hr⟩ := List.cons.inj h
        exact hl before n rest hr hn
    · intro h
      refine ⟨?_, fun before n rest hr hn => ?_⟩
      · cases hw : watched m with
        | false => rfl
        | true => simpa using h [] m log rfl hw
      · exact h (m :: before) n rest (congrArg (m :: ·) hr) hn

theorem clear_of_unwatched {watched : Mark → Bool} (s : Session) {log : Log}
    (h : ∀ m ∈ log, watched m = false) : s.clear watched log := by
  rw [clear_iff]
  rintro before m rest rfl hm
  rw [h m (by simp)] at hm
  cases hm

theorem Calm.clear {s : Session} (h : s.Calm) (watched : Mark → Bool) (log : Log) :
    s.clear watched log :=
  clear_iff.mpr fun before _ _ _ _ => (h.after before).cancelled

theorem cut_append (s : Session) (first second : Log) :
    s.cut (first ++ second) =
      if s.passes first then first ++ (s.after first).cut second else s.cut first := by
  induction first generalizing s with
  | nil => rfl
  | cons m first ih =>
    cases hm : m.isLook && s.cancelled with
    | true => simp [cut, clear, hm]
    | false => cases hp : (s.mark m).passes first <;> simp [cut, clear, hm, ih, hp]

theorem cut_of_passes {s : Session} {log : Log} (h : s.passes log) : s.cut log = log := by
  have hc := s.cut_append log []
  simpa [h, cut] using hc

theorem cut_prefix (s : Session) (log : Log) : s.cut log <+: log := by
  induction log generalizing s with
  | nil => exact List.prefix_rfl
  | cons m log ih =>
    rw [cut]
    split
    · simp
    · exact List.prefix_cons_inj _ |>.mpr (ih _)

theorem passes_cut (s : Session) (log : Log) : s.passes (s.cut log) = s.passes log := by
  induction log generalizing s with
  | nil => rfl
  | cons m log ih => cases hm : m.isLook && s.cancelled <;> simp [cut, clear, hm, ih]

/-- A request to stop that is still to come is made right after the event that it waits for. -/
theorem cancelled_after_of_pending {s : Session} {kind : EventKind} {number : Nat}
    (hp : s.pending = some (kind, number)) (log : Log) :
    (s.after log).cancelled =
      (s.cancelled || (Cancellation.after kind number).due log.events) := by
  induction log generalizing s number with
  | nil =>
    have waits : (Cancellation.after kind number).due [] = false := by
      cases number <;> rfl
    rw [Log.events_nil, waits, Bool.or_false]
    rfl
  | cons m log ih =>
    cases m with
    | look strategy => exact ih hp
    | begun strategy => exact ih hp
    | told e =>
      rw [after_cons, mark_told]
      by_cases hk : e.kind = kind
      · have hr := @ih (s.emit e) (number - 1) (by simp [emit, hp, hk])
        have hc : (s.emit e).cancelled = (s.cancelled || number = 1) := by simp [emit, hp, hk]
        rw [hr, hc, Bool.eq_iff_iff]
        simp only [Cancellation.due, Log.events_told, List.countP_cons, hk, decide_true, if_true,
          Bool.or_eq_true, Bool.and_eq_true, decide_eq_true_eq]
        rw [or_assoc]
        exact or_congr_right (by omega)
      · rw [@ih (s.emit e) number (by simp [emit, hp, hk])]
        simp [emit, hp, hk, Cancellation.due]

theorem cancelled_after (verbose wantsProgress : Bool) (c : Cancellation) (log : Log) :
    ((start verbose wantsProgress c).after log).cancelled = c.due log.events := by
  cases c with
  | never => exact ((calm_start verbose wantsProgress).after log).cancelled
  | atStart =>
    have stays (s : Session) (hp : s.pending = none) (hc : s.cancelled = true) :
        (s.after log).cancelled = true := by
      induction log generalizing s with
      | nil => exact hc
      | cons m log ih => cases m <;> exact ih _ (by simp [emit, hp]) (by simp [emit, hp, hc])
    exact stays _ rfl rfl
  | after kind number => exact cancelled_after_of_pending rfl log

theorem passes_start_eq_false {verbose wantsProgress : Bool} {c : Cancellation} {log : Log} :
    (start verbose wantsProgress c).passes log = false ↔ ∃ strategy, c.Found log strategy := by
  rw [← Bool.not_eq_true, clear_iff]
  simp only [cancelled_after, not_forall, Bool.not_eq_false]
  constructor
  · rintro ⟨before, m, rest, h, hm, hd⟩
    cases m with
    | look strategy => exact ⟨strategy, before, rest, h, hd⟩
    | _ => cases hm
  · rintro ⟨strategy, before, rest, h, hd⟩
    exact ⟨before, .look strategy, rest, h, rfl, hd⟩

end Session

end DigestFinder.Search
