import DigestFinder.Proofs.Search.Events

/-!
The events of a search that nobody stops, in the order in which they are sent when brute force goes
through the polynomials in ascending order: the matches of a polynomial, and after them the
announcement if one is due.
-/

namespace DigestFinder.Search

namespace Setting

variable (c : Setting)

theorem toNat_total (hw : c.width ≤ 63) : c.total.toNat = 2 ^ c.width := by
  have bound : 2 ^ c.width ≤ 2 ^ 63 := Nat.pow_le_pow_right (by decide) hw
  have positive := Nat.two_pow_pos c.width
  have one : (1 : UInt64).toNat = 1 := rfl
  rw [total, ones, UInt64.toNat_add, Crc.toNat_mask c.valid, one]
  omega

/-- What brute force tells of `n` polynomials from `poly` on. -/
def toldFrom (wantsProgress : Bool) : Nat → UInt64 → List Event
  | 0, _ => []
  | n + 1, poly =>
    (c.hits poly).map c.event ++ (c.announcement? wantsProgress (poly + 1)).toList ++
      toldFrom wantsProgress n (poly + 1)

/-- A task reports its matches, and last it announces what is due. -/
theorem eventsOf_eq (b : Board) (poly : UInt64) :
    c.eventsOf b poly = (c.hits poly).map c.event ++
      (c.announcement? b.session.wantsProgress (b.finished + 1)).toList := by
  unfold eventsOf task
  induction c.hits poly generalizing b with
  | nil => simpa [unrolled, List.filterMap_cons, sent?] using c.sent_finish b
  | cons p ps ih =>
    have more := ih (c.performBoth (c.performBoth (c.performBoth b .count) (.report p)) (.keep p))
    simpa [unrolled, performBoth, perform, List.filterMap_cons, sent?] using more

theorem finished_performAll (b : Board) (poly : UInt64) :
    (c.performAll b (c.task poly)).finished = b.finished + 1 := by
  have once : (c.unrolled b (c.task poly)).count .finish = 1 := by
    rw [← List.count_filter (p := Action.planned) rfl, filter_planned_unrolled,
      filter_planned_task, count_task_finish]
  rw [performAll_unrolled, finished_performed, once]
  rfl

theorem events_runLog {b : Board} (hb : b.session.Calm) (n : Nat) :
    (c.runLog b n b.finished).events =
      c.toldFrom b.session.wantsProgress n b.finished := by
  induction n generalizing b with
  | zero => rfl
  | succ n ih =>
    have session := c.session_performAll b b.finished
    have calm : (c.performAll b (c.task b.finished)).session.Calm := session ▸ hb.after _
    have rest := ih calm
    rw [finished_performAll, session, Session.wantsProgress_after] at rest
    rw [runLog, hb.cancelled, if_neg (by decide), Log.events_append, events_beginning, rest,
      eventsOf_eq, toldFrom]

end Setting

variable (sources : Sources) (limit : Nat) (request : Request)

/-- What one strategy tells, in order. -/
def findTold (verbose wantsProgress : Bool) (strategy : Strategy) : List Event :=
  if h : strategy.Serves request.width then
    match strategy, h with
    | .catalogue, _ => sweepEvents .catalogue request verbose
        (catalogueCandidates sources.catalogue request.width)
    | .documented, _ => sweepEvents .documented request verbose
        (documentedCandidates sources.provider request.width)
    | .bruteForce, h =>
      (Setting.ofRequest request (request.valid h)).toldFrom wantsProgress (1 <<< request.width) 0
  else []

/-- What strategies in order tell, in order. -/
def runTold (verbose wantsProgress : Bool) : List Strategy → List Event
  | [] => []
  | strategy :: rest =>
    .started strategy :: findTold sources request verbose wantsProgress strategy ++
      match findOutcome sources limit request strategy with
      | .ok result =>
        .finished strategy result.found :: runTold verbose wantsProgress rest
      | .error e =>
        if e.skips then .skipped strategy e.message :: runTold verbose wantsProgress rest else []

theorem findTold_of_serves (verbose wantsProgress : Bool)
    (h : Strategy.bruteForce.Serves request.width) :
    findTold sources request verbose wantsProgress .bruteForce =
      (Setting.ofRequest request (request.valid h)).toldFrom wantsProgress
        (2 ^ request.width) 0 := by
  rw [findTold, dif_pos h, Nat.one_shiftLeft]

theorem findTold_of_not_serves (verbose wantsProgress : Bool) {strategy : Strategy}
    (h : ¬ strategy.Serves request.width) :
    findTold sources request verbose wantsProgress strategy = [] := by
  rw [findTold, dif_neg h]

theorem kind_of_mem_toldFrom (c : Setting) (n : Nat) (poly : UInt64) :
    ∀ e ∈ c.toldFrom false n poly, e.kind = .matched := by
  induction n generalizing poly with
  | zero => exact List.forall_mem_nil _
  | succ n ih =>
    have nothing : c.announcement? false (poly + 1) = none := by
      simp [Setting.announcement?]
    have own : ∀ e ∈ (c.hits poly).map c.event, e.kind = .matched := by
      simp [Setting.event, Event.kind]
    rw [Setting.toldFrom, nothing, Option.toList_none, List.append_nil]
    exact List.forall_mem_append.mpr ⟨own, ih _⟩

theorem events_findLog {s : Session} (hs : s.Calm) (strategy : Strategy) :
    (findLog sources limit request s strategy).events =
      findTold sources request s.verbose s.wantsProgress strategy := by
  unfold findLog findTold
  by_cases h : strategy.Serves request.width
  · rw [dif_pos h, dif_pos h]
    cases strategy with
    | catalogue => exact events_sweepLog hs _
    | documented => exact events_sweepLog hs _
    | bruteForce =>
      let c := Setting.ofRequest request (request.valid h)
      exact c.events_runLog (b := .fresh limit s) hs _
  · rw [dif_neg h, dif_neg h]
    rfl

theorem events_runAllLog {s : Session} (hs : s.Calm) (strategies : List Strategy) :
    (runAllLog sources limit request s strategies).events =
      runTold sources limit request s.verbose s.wantsProgress strategies := by
  induction strategies generalizing s with
  | nil => rfl
  | cons strategy rest ih =>
    have started := hs.emit (.started strategy)
    have passes := started.clear Mark.isLook
    rw [runAllLog, find_eq sources limit request started rfl rfl, if_pos (passes _),
      Session.cut_of_passes (passes _), runTold]
    have told := events_findLog sources limit request started strategy
    rw [Session.verbose_emit, Session.wantsProgress_emit] at told
    have more (e : Event) := ih ((started.after
      (findLog sources limit request (s.emit (.started strategy)) strategy)).emit e)
    simp only [Session.verbose_emit, Session.wantsProgress_emit, Session.verbose_after,
      Session.wantsProgress_after] at more
    rw [Log.events_append, Log.events_told, told]
    cases findOutcome sources limit request strategy with
    | ok result => simp [more]
    | error e => cases he : e.skips <;> simp [he, more]

section

variable {sources request} {options : Options} {workers : Nat} {wantsProgress : Bool} {log : Log}
  {out : Except Error Report × Session}

/-- All schedules of a search that nobody stops tell the same in some order. -/
theorem Searches.trace_perm (hw : 0 < workers)
    (run : Searches sources options request workers wantsProgress .never log out) :
    out.2.trace.toList.Perm
      (search sources options request wantsProgress .never).2.trace.toList := by
  have ascending := searches_search sources options request wantsProgress .never
  rw [run.trace hw, ascending.trace Nat.one_pos, ← Multiset.coe_eq_coe, run.events hw,
    ascending.events Nat.one_pos]

/-- A search by brute force alone tells of every solution. -/
theorem mem_trace_search (alone : options.enabled = [.bruteForce])
    (serves : Strategy.bruteForce.Serves request.width) {p : Params}
    (h : p ∈ solutions request (request.valid serves)) :
    (Setting.ofRequest request (request.valid serves)).event p ∈
      (search sources options request wantsProgress .never).2.trace.toList := by
  have ascending := searches_search sources options request wantsProgress .never
  have found : (Setting.ofRequest request (request.valid serves)).event p ∈
      findEvents sources request options.verbose wantsProgress .bruteForce := by
    rw [findEvents, dif_pos serves]
    exact Multiset.mem_add.mpr (.inl (Multiset.mem_map_of_mem _ h))
  rw [ascending.trace Nat.one_pos, ← Multiset.mem_coe, ascending.events Nat.one_pos, alone,
    runEvents]
  exact Multiset.mem_add.mpr (.inl (Multiset.mem_add.mpr (.inr found)))

end

/-- The trace of a search that nobody stops. -/
theorem trace_search (options : Options) (wantsProgress : Bool) :
    (search sources options request wantsProgress .never).2.trace.toList =
      runTold sources options.maxMatches request options.verbose wantsProgress options.enabled := by
  rw [(searches_search ..).trace Nat.one_pos]
  exact events_runAllLog sources options.maxMatches request (Session.calm_start ..) options.enabled

end DigestFinder.Search
