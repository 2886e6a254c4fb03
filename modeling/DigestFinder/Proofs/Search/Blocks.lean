import DigestFinder.Proofs.Search.Events
import DigestFinder.Proofs.Search.Reports

/-!
The events of a search in order. Each strategy that is enabled tells a block: that it starts, what
it comes across, and what became of it. A search that fails breaks off in its last block.
-/

namespace DigestFinder.Search

/-- What a strategy tells, with what the report says of it. -/
structure Block where
  summary : Summary
  body : List Event

/-- The event that ends the block of a strategy. -/
def Summary.ending (s : Summary) : Event :=
  match s.contribution with
  | .finished found _ => .finished s.strategy found
  | .skipped reason => .skipped s.strategy reason

def Block.events (b : Block) : List Event :=
  .started b.summary.strategy :: b.body ++ [b.summary.ending]

/-- The candidates of a strategy that goes through a list. -/
def Strategy.listed (sources : Sources) (request : Request) : Strategy → List Candidate
  | .catalogue => catalogueCandidates sources.catalogue request.width
  | .documented => documentedCandidates sources.provider request.width
  | .bruteForce => []

/-- What a strategy may tell on its way: the matches, and besides them brute force its progress, the
others in verbose mode their candidates, each before it is reported as a match. -/
structure Telling (strategy : Strategy) (verbose : Bool) (body : List Event) : Prop where
  own : ∀ e ∈ body, e.strategy = strategy
  kinds : ∀ e ∈ body, e.kind = .matched ∨
    if strategy = .bruteForce then e.kind = .progress else e.kind = .candidate ∧ verbose = true
  named : strategy ≠ .bruteForce → verbose = true → ∀ before m after,
    body = before ++ .matched strategy m :: after →
      ∃ earlier, before = earlier ++ [.candidate strategy m.id]

/-- What is told of candidates that have all been tried. -/
structure Swept (strategy : Strategy) (request : Request) (verbose : Bool) (cs : List Candidate)
    (found : UInt64) (searched : Nat) (body : List Event) : Prop where
  tried : searched = cs.length
  candidates : body.filter (·.kind = .candidate) =
    if verbose then cs.map fun c => .candidate strategy c.found.id else []
  count_candidates : verbose = true → body.countP (·.kind = .candidate) = searched
  matched : body.filter (·.kind = .matched) =
    (cs.filter (·.hits request)).map fun c => .matched strategy c.found
  counted : found = (body.countP (·.kind = .matched)).toUInt64
  exact : searched < 2 ^ 64 → found.toNat = body.countP (·.kind = .matched)

/-- A block of a strategy that did not end the search. -/
inductive Block.Proper (sources : Sources) (request : Request) (verbose : Bool) : Block → Prop
  | swept {strategy : Strategy} {found : UInt64} {searched : Nat} {body : List Event}
      (lists : strategy ≠ .bruteForce) (serves : strategy.Serves request.width)
      (telling : Telling strategy verbose body)
      (swept : Swept strategy request verbose (strategy.listed sources request) found searched
        body) : Proper sources request verbose ⟨⟨strategy, .finished found searched⟩, body⟩
  | enumerated {found : UInt64} {searched : Nat} {body : List Event}
      (serves : Strategy.bruteForce.Serves request.width)
      (telling : Telling .bruteForce verbose body)
      (matched : (body.filter (·.kind = .matched) : Multiset Event) =
        (solutions request (request.valid serves)).val.map
          (Setting.ofRequest request (request.valid serves)).event)
      (counted : found = (body.countP (·.kind = .matched)).toUInt64) :
      Proper sources request verbose ⟨⟨.bruteForce, .finished found searched⟩, body⟩
  | skipped {strategy : Strategy} {reason : String} (unserved : ¬ strategy.Serves request.width) :
      Proper sources request verbose ⟨⟨strategy, .skipped reason⟩, []⟩

/-- What a strategy that ends the search may have told before. -/
structure Cut (sources : Sources) (request : Request) (verbose : Bool) (strategy : Strategy)
    (body : List Event) : Prop where
  telling : Telling strategy verbose body
  listed : strategy ≠ .bruteForce → body <+:
    (strategy.listed sources request).flatMap fun c => c.events strategy request verbose

/-- Events in blocks, one for each strategy, with what the report says of the strategies. -/
def InBlocks (sources : Sources) (request : Request) (verbose : Bool)
    (strategies : List Strategy) (summaries : List Summary) (events : List Event) : Prop :=
  ∃ blocks : List Block, blocks.map Block.summary = summaries ∧
    summaries.map Summary.strategy = strategies ∧
    (∀ b ∈ blocks, b.Proper sources request verbose) ∧ events = blocks.flatMap Block.events

/-- Events in blocks that break off in the block of one of the strategies. -/
def BrokenOff (sources : Sources) (request : Request) (verbose : Bool)
    (strategies : List Strategy) (events : List Event) : Prop :=
  ∃ before strategy after summaries earlier body, strategies = before ++ strategy :: after ∧
    InBlocks sources request verbose before summaries earlier ∧
    Cut sources request verbose strategy body ∧ events = earlier ++ .started strategy :: body

/-- Whether the events of a search are in blocks, and break off just when it fails. -/
def Protocol (sources : Sources) (request : Request) (verbose : Bool)
    (strategies : List Strategy) (events : List Event) : Except Error (List Summary) → Prop
  | .ok summaries => InBlocks sources request verbose strategies summaries events
  | .error _ => BrokenOff sources request verbose strategies events

section

variable {strategy : Strategy} {verbose : Bool} {request : Request} {cs : List Candidate}

theorem telling_nil (strategy : Strategy) (verbose : Bool) : Telling strategy verbose [] where
  own := by simp
  kinds := by simp
  named := by simp

theorem Telling.append {first second : List Event} (h : Telling strategy verbose first)
    (h' : Telling strategy verbose second) : Telling strategy verbose (first ++ second) where
  own e he := (List.mem_append.mp he).elim (h.own e) (h'.own e)
  kinds e he := (List.mem_append.mp he).elim (h.kinds e) (h'.kinds e)
  named listed hv before m after hs := by
    rcases List.append_eq_append_iff.mp hs with ⟨middle, rfl, hm⟩ | ⟨middle, rfl, hm⟩
    · obtain ⟨earlier, rfl⟩ := h'.named listed hv middle m after hm
      exact ⟨first ++ earlier, (List.append_assoc ..).symm⟩
    · cases middle with
      | nil =>
        obtain ⟨earlier, he⟩ := h'.named listed hv [] m after hm.symm
        simp at he
      | cons e middle =>
        obtain ⟨rfl, -⟩ := List.cons.inj hm
        exact h.named listed hv before m middle rfl

/-- A block that is broken off has told nothing else. -/
theorem Telling.of_part {body whole : List Event} (h : Telling strategy verbose whole)
    (part : body <+: whole) : Telling strategy verbose body where
  own e he := h.own e (part.subset he)
  kinds e he := h.kinds e (part.subset he)
  named listed hv before m after hs := by
    obtain ⟨rest, rfl⟩ := part
    exact h.named listed hv before m (after ++ rest) (by simp [hs])

theorem Candidate.events_eq (c : Candidate) (strategy : Strategy) (request : Request)
    (verbose : Bool) : c.events strategy request verbose =
      (if verbose then [.candidate strategy c.found.id] else []) ++
        if c.hits request then [.matched strategy c.found] else [] := by
  unfold events hits
  cases c.verdict request with
  | error e => rfl
  | ok hit => cases hit <;> rfl

theorem Candidate.telling_events (lists : strategy ≠ .bruteForce) (c : Candidate) :
    Telling strategy verbose (c.events strategy request verbose) := by
  have own : ∀ e ∈ c.events strategy request verbose, e.strategy = strategy :=
    c.strategy_of_mem_events verbose
  rw [events_eq] at own ⊢
  refine ⟨own, ?_, ?_⟩
  · cases verbose <;> cases c.hits request <;> simp [Event.kind, lists]
  · rintro - rfl before m after hs
    -- Only the second of two events can be the report.
    rcases before with _ | ⟨e, _ | ⟨e', before⟩⟩ <;> cases hh : c.hits request <;>
      simp [hh] at hs
    obtain ⟨rfl, rfl, -⟩ := hs
    exact ⟨[], rfl⟩

theorem telling_sweepEvents (lists : strategy ≠ .bruteForce) (cs : List Candidate) :
    Telling strategy verbose (sweepEvents strategy request verbose cs) := by
  induction cs with
  | nil => exact telling_nil ..
  | cons c rest ih =>
    rw [sweepEvents]
    apply (c.telling_events lists).append
    split
    · exact ih
    · exact telling_nil ..

theorem sweepEvents_eq_flatMap (all : ∀ c ∈ cs, c.verdict request = .ok (c.hits request)) :
    sweepEvents strategy request verbose cs =
      cs.flatMap fun c => c.events strategy request verbose := by
  induction cs with
  | nil => rfl
  | cons c rest ih =>
    obtain ⟨hc, hr⟩ := List.forall_mem_cons.mp all
    rw [sweepEvents, hc, List.flatMap_cons, ih hr]

theorem sweepEvents_part (cs : List Candidate) : sweepEvents strategy request verbose cs <+:
    cs.flatMap fun c => c.events strategy request verbose := by
  induction cs with
  | nil => exact List.prefix_rfl
  | cons c rest ih =>
    rw [sweepEvents, List.flatMap_cons]
    cases c.verdict request with
    | ok hit => exact (List.prefix_append_right_inj _).mpr ih
    | error e => simp

theorem flatMap_hits_eq_map (strategy : Strategy) (request : Request) (cs : List Candidate) :
    (cs.flatMap fun c => if c.hits request then [Event.matched strategy c.found] else []) =
      (cs.filter (·.hits request)).map fun c => .matched strategy c.found := by
  induction cs with
  | nil => rfl
  | cons c rest ih => cases hh : c.hits request <;> simp [hh, ih]

theorem swept_sweepEvents (all : ∀ c ∈ cs, c.verdict request = .ok (c.hits request)) :
    Swept strategy request verbose cs (tally request cs).found (tally request cs).searched
      (sweepEvents strategy request verbose cs) := by
  have candidates : (sweepEvents strategy request verbose cs).filter (·.kind = .candidate) =
      if verbose then cs.map fun c => .candidate strategy c.found.id else [] := by
    have one (c : Candidate) : (c.events strategy request verbose).filter (·.kind = .candidate) =
        if verbose then [.candidate strategy c.found.id] else [] := by
      rw [Candidate.events_eq]
      cases verbose <;> cases c.hits request <;> simp [Event.kind]
    rw [sweepEvents_eq_flatMap all, List.filter_flatMap]
    cases verbose <;> simp [one, List.map_eq_flatMap]
  have matched : (sweepEvents strategy request verbose cs).filter (·.kind = .matched) =
      (cs.filter (·.hits request)).map fun c => .matched strategy c.found := by
    have one (c : Candidate) : (c.events strategy request verbose).filter (·.kind = .matched) =
        if c.hits request then [.matched strategy c.found] else [] := by
      rw [Candidate.events_eq]
      cases verbose <;> cases c.hits request <;> simp [Event.kind]
    rw [sweepEvents_eq_flatMap all, List.filter_flatMap]
    simp only [one, flatMap_hits_eq_map]
  have count : (sweepEvents strategy request verbose cs).countP (·.kind = .matched) =
      cs.countP (·.hits request) := by
    rw [List.countP_eq_length_filter, matched, List.length_map, List.countP_eq_length_filter]
  refine ⟨rfl, candidates, ?_, matched, ?_, ?_⟩
  · rintro rfl
    rw [List.countP_eq_length_filter, candidates, if_pos rfl, List.length_map]
    rfl
  · rw [count]
    rfl
  · intro small
    rw [count]
    exact UInt64.toNat_ofNat_of_lt' (List.countP_le_length.trans_lt small)

end

section

variable {sources : Sources} {limit : Nat} {request : Request} {workers : Nat} {s : Session}
  {strategy : Strategy} {log : Log}

/-- A session in which nobody asks to stop tells the same, if it comes as far. -/
theorem sweepLog_eq_cut_calm (strategy : Strategy) (request : Request) (s : Session)
    (cs : List Candidate) : sweepLog strategy request s cs =
      s.cut (sweepLog strategy request (.start s.verbose s.wantsProgress .never) cs) :=
  sweepLog_eq_cut strategy request (s := s) (Session.calm_start _ _) rfl cs

theorem events_sweepLog_part (strategy : Strategy) (request : Request) (s : Session)
    (cs : List Candidate) :
    (sweepLog strategy request s cs).events <+: sweepEvents strategy request s.verbose cs := by
  have calm := Session.calm_start s.verbose s.wantsProgress
  have told : _ = sweepEvents strategy request s.verbose cs := events_sweepLog calm cs
  rw [sweepLog_eq_cut_calm, ← told]
  exact (s.cut_prefix _).filterMap _

theorem events_sweepLog_of_passes {cs : List Candidate}
    (h : s.passes (sweepLog strategy request s cs)) :
    (sweepLog strategy request s cs).events = sweepEvents strategy request s.verbose cs := by
  rw [sweepLog_eq_cut_calm, Session.passes_cut] at h
  rw [sweepLog_eq_cut_calm, Session.cut_of_passes h]
  exact events_sweepLog (Session.calm_start s.verbose s.wantsProgress) cs

namespace Setting

variable {c : Setting} {p q : Pool}

/-- Brute force tells what its actions send. -/
theorem Turns.sent (turns : c.Turns p log q) :
    ∀ e ∈ log.events, ∃ a, c.sent? a = some e := by
  induction turns with
  | none => simp
  | @more q r log last _ turn ih =>
    intro e he
    rw [Log.events_append] at he
    rcases List.mem_append.mp he with he | he
    · exact ih e he
    · cases turn with
      | start => simp [events_beginning] at he
      | refuse => simp at he
      | drop => simp at he
      | @act i a rest busy =>
        rw [Log.events_map_told, Option.mem_toList] at he
        exact ⟨a, he⟩

theorem Turns.telling (turns : c.Turns p log q) (verbose : Bool) :
    Telling .bruteForce verbose log.events := by
  have kinds : ∀ e ∈ log.events,
      e.strategy = .bruteForce ∧ (e.kind = .matched ∨ e.kind = .progress) := by
    intro e he
    obtain ⟨a, ha⟩ := turns.sent e he
    cases a <;> simp [sent?] at ha <;> subst ha <;> simp [event, Event.strategy, Event.kind]
  exact ⟨fun e he => (kinds e he).1, fun e he => by simpa using (kinds e he).2,
    fun h => absurd rfl h⟩

end Setting

theorem Finds.telling {out : Except Error Result × Session}
    (run : Finds sources limit request workers s strategy log out) :
    Telling strategy s.verbose log.events := by
  cases run with
  | unserved => exact telling_nil ..
  | catalogue => exact (telling_sweepEvents (by decide) _).of_part (events_sweepLog_part ..)
  | documented => exact (telling_sweepEvents (by decide) _).of_part (events_sweepLog_part ..)
  | bruteForce h turns ended => exact turns.telling _

theorem Finds.cut {out : Except Error Result × Session}
    (run : Finds sources limit request workers s strategy log out) :
    Cut sources request s.verbose strategy log.events := by
  refine ⟨run.telling, fun listed => ?_⟩
  cases run with
  | unserved => exact List.nil_prefix
  | catalogue => exact (events_sweepLog_part ..).trans (sweepEvents_part _)
  | documented => exact (events_sweepLog_part ..).trans (sweepEvents_part _)
  | bruteForce => exact absurd rfl listed

theorem proper_sweepLog (listed : strategy ≠ .bruteForce) (serves : strategy.Serves request.width)
    {result : Result} (ho : (sweep strategy request {} s (strategy.listed sources request)).1 =
      .ok result) :
    Block.Proper sources request s.verbose ⟨⟨strategy, .finished result.found result.searched⟩,
      (sweepLog strategy request s (strategy.listed sources request)).events⟩ := by
  have faithful := sweep_faithful strategy request {} s (strategy.listed sources request)
  have passes := faithful.passes_of_ne (by simp [ho])
  have calm : sweepOutcome request {} (strategy.listed sources request) = .ok result := by
    simpa [passes, ho] using faithful.result.symm
  have all := verdict_of_sweepOutcome calm
  obtain rfl : tally request (strategy.listed sources request) = result :=
    Except.ok.inj ((sweepOutcome_eq_tally all).symm.trans calm)
  rw [events_sweepLog_of_passes passes]
  exact .swept listed serves (telling_sweepEvents listed _) (swept_sweepEvents all)

namespace Setting

theorem Turns.proper (serves : Strategy.bruteForce.Serves request.width) (hw : 0 < workers)
    {p : Pool} (turns : (ofRequest request (request.valid serves)).Turns
      ((ofRequest request (request.valid serves)).pool limit s workers) log p)
    (ended : (ofRequest request (request.valid serves)).Ended p) (hr : p.refused = false)
    (searched : Nat) :
    Block.Proper sources request s.verbose
      ⟨⟨.bruteForce, .finished p.board.found searched⟩, log.events⟩ := by
  have steps := (ofRequest request (request.valid serves)).steps_iff_turns.mpr ⟨log, turns⟩
  obtain ⟨done, complete, board⟩ := complete_of_ended hw steps ended hr
  have told : log.events = done.filterMap (ofRequest request (request.valid serves)).sent? := by
    have trace := congrArg (fun s : Session => s.trace.toList) turns.recorded.session
    rw [Session.trace_after, board, trace_performed] at trace
    exact (List.append_cancel_left trace).symm
  have matched : (log.events.filter (·.kind = .matched) : Multiset Event) =
      (solutions request (request.valid serves)).val.map
        (ofRequest request (request.valid serves)).event := by
    rw [told, matched_sent, ← complete.reported, Multiset.map_coe]
  have counted : log.events.countP (·.kind = .matched) =
      (solutions request (request.valid serves)).card := by
    have card := congrArg Multiset.card matched
    rwa [Multiset.coe_card, ← List.countP_eq_length_filter, Multiset.card_map,
      Finset.card_val] at card
  refine .enumerated serves (turns.telling _) matched ?_
  rw [counted, board, complete.found]

end Setting

theorem Finds.proper (hw : 0 < workers) {out : Except Error Result × Session}
    (run : Finds sources limit request workers s strategy log out) {result : Result}
    (ho : out.1 = .ok result) : Block.Proper sources request s.verbose
      ⟨⟨strategy, .finished result.found result.searched⟩, log.events⟩ := by
  cases run with
  | unserved => cases ho
  | catalogue serves => exact proper_sweepLog (by decide) serves ho
  | documented serves => exact proper_sweepLog (by decide) serves ho
  | @bruteForce serves log p turns ended =>
    cases hr : p.refused with
    | true => simp [Setting.outcome, hr] at ho
    | false =>
      obtain rfl : _ = result := by simpa [Setting.outcome, hr] using ho
      exact turns.proper serves hw ended hr _

/-- A strategy that is skipped has told nothing. -/
theorem Finds.proper_of_skips (hw : 0 < workers) {out : Except Error Result × Session}
    (run : Finds sources limit request workers s strategy log out) {e : Error}
    (ho : out.1 = .error e) (skips : e.skips = true) :
    Block.Proper sources request s.verbose ⟨⟨strategy, .skipped e.message⟩, log.events⟩ := by
  have faithful := run.faithful hw
  have other : e ≠ .cancelled := by
    rintro rfl
    cases skips
  have passes := faithful.passes_of_ne (by simpa [ho] using other)
  have calm : findOutcome sources limit request strategy = .error e := by
    simpa [passes, ho] using faithful.result.symm
  have unserved := (skips_iff calm).mp skips
  cases run with
  | unserved => exact .skipped unserved
  | _ => contradiction

end

section

variable {sources : Sources} {limit : Nat} {request : Request} {workers : Nat}

theorem Protocol.cons {verbose : Bool} {strategies : List Strategy} {events : List Event}
    {told : Except Error (List Summary)} {b : Block} (proper : b.Proper sources request verbose)
    (h : Protocol sources request verbose strategies events told) :
    Protocol sources request verbose (b.summary.strategy :: strategies) (b.events ++ events)
      (told.map (b.summary :: ·)) := by
  have more {strategies : List Strategy} {summaries : List Summary} {events : List Event}
      (h : InBlocks sources request verbose strategies summaries events) :
      InBlocks sources request verbose (b.summary.strategy :: strategies) (b.summary :: summaries)
        (b.events ++ events) := by
    obtain ⟨blocks, rfl, rfl, all, rfl⟩ := h
    exact ⟨b :: blocks, rfl, rfl, List.forall_mem_cons.mpr ⟨proper, all⟩, rfl⟩
  cases told with
  | ok summaries => exact more h
  | error e =>
    obtain ⟨before, strategy, after, summaries, earlier, body, rfl, blocks, cut, rfl⟩ := h
    exact ⟨b.summary.strategy :: before, strategy, after, b.summary :: summaries,
      b.events ++ earlier, body, rfl, more blocks, cut, (List.append_assoc ..).symm⟩

/-- Every run of strategies keeps the protocol, however it ends. -/
theorem RunsAll.protocol (hw : 0 < workers) {r : Report} {s : Session}
    {strategies : List Strategy} {log : Log} {out : Except Error Report × Session}
    (run : RunsAll sources limit request workers r s strategies log out) :
    ∃ told : Except Error (List Summary),
      out.1.map Report.summaries = told.map (r.summaries ++ ·) ∧
      Protocol sources request s.verbose strategies log.events told := by
  induction run with
  | done => exact ⟨.ok [], by simp [Except.map], [], rfl, rfl, List.forall_mem_nil _, rfl⟩
  | @finished r s s' strategy rest result first second out run more ih =>
    obtain ⟨told, hm, protocol⟩ := ih
    have proper := run.proper hw rfl
    obtain rfl : s' = _ := (run.faithful hw).session
    simp only [Session.verbose_emit, Session.verbose_after] at protocol proper
    refine ⟨told.map (⟨strategy, .finished result.found result.searched⟩ :: ·), ?_, ?_⟩
    · rw [hm]
      cases told <;> simp [Except.map, Report.add]
    · have whole := protocol.cons proper
      simpa [Block.events, Summary.ending] using whole
  | @skipped r s s' strategy rest e first second out run skips more ih =>
    obtain ⟨told, hm, protocol⟩ := ih
    have proper := run.proper_of_skips hw rfl skips
    obtain rfl : s' = _ := (run.faithful hw).session
    simp only [Session.verbose_emit, Session.verbose_after] at protocol proper
    refine ⟨told.map (⟨strategy, .skipped e.message⟩ :: ·), ?_, ?_⟩
    · rw [hm]
      cases told <;> simp [Except.map, Report.skip]
    · have whole := protocol.cons proper
      simpa [Block.events, Summary.ending] using whole
  | @failed r s s' strategy rest e first run ends =>
    have cut := run.cut
    rw [Session.verbose_emit] at cut
    exact ⟨.error e, rfl, [], strategy, rest, [], [], first.events, rfl,
      ⟨[], rfl, rfl, List.forall_mem_nil _, rfl⟩, cut, by simp⟩

end

/-- The events of every search, watched or not and stopped or not, are in blocks: one for each
strategy that is enabled, in their order. A search that fails breaks off in the block of a
strategy. -/
theorem search_event_protocol (sources : Sources) (options : Options) (request : Request)
    (wantsProgress : Bool) (cancellation : Cancellation) (workers : Nat) (hw : 0 < workers) :
    (∀ log out, Searches sources options request workers wantsProgress cancellation log out →
      Protocol sources request options.verbose options.enabled out.2.trace.toList
        (out.1.map Report.summaries)) ∧
    let out := search sources options request wantsProgress cancellation
    Protocol sources request options.verbose options.enabled out.2.trace.toList
      (out.1.map Report.summaries) := by
  have every {workers : Nat} (hw : 0 < workers) {log : Log} {out : Except Error Report × Session}
      (run : Searches sources options request workers wantsProgress cancellation log out) :
      Protocol sources request options.verbose options.enabled out.2.trace.toList
        (out.1.map Report.summaries) := by
    obtain ⟨told, hm, protocol⟩ := RunsAll.protocol hw run
    have same : told.map (([] : List Summary) ++ ·) = told := by cases told <;> rfl
    have verbose : (Session.start options.verbose wantsProgress cancellation).verbose =
        options.verbose := by cases cancellation <;> rfl
    rwa [hm, same, run.trace hw, ← verbose]
  exact ⟨fun _ _ run => every hw run, every Nat.one_pos (searches_search ..)⟩

/-- Two workers that are asked to stop after the first match keep the protocol. -/
theorem search_events_until_first_match :
    let r : Request := ⟨8, "123456789".toUTF8.toList, .bytes [0xf4]⟩
    let options : Options := { verbose := true }
    ∃ log out, Searches .builtin options r 2 true (.after .matched 1) log out ∧
      Protocol .builtin r true Strategy.all out.2.trace.toList (out.1.map Report.summaries) := by
  intro r options
  obtain ⟨log, out, run⟩ := exists_searches .builtin options r 2 true (.after .matched 1)
  obtain ⟨every, -⟩ := search_event_protocol .builtin options r true (.after .matched 1) 2
    (by decide)
  have enabled : options.enabled = Strategy.all := by decide
  exact ⟨log, out, run, enabled ▸ every log out run⟩

end DigestFinder.Search
