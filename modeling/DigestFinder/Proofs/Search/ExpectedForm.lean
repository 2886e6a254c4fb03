import DigestFinder.Proofs.Algorithm
import DigestFinder.Proofs.Search.Counting
import DigestFinder.Proofs.Search.Events

/-!
The form in which the expected digest is given. A search reads it only to compare it with digests
of one length, so that two forms that accept the same ones have the same runs. A byte string and a
text that spells it are such forms.
-/

namespace DigestFinder

/-- Whether two forms accept the same digests of a width. -/
def Expected.Agree (width : Nat) (e e' : Expected) : Prop :=
  ∀ digest : Bytes, digest.length = Crc.byteLength width → e.accepts digest = e'.accepts digest

theorem Expected.Agree.symm {width : Nat} {e e' : Expected} (h : Agree width e e') :
    Agree width e' e :=
  fun digest hl => (h digest hl).symm

theorem Expected.agree_ofText {width : Nat} {digest : Bytes}
    (hl : digest.length = Crc.byteLength width) {encoding : Encoding} {form : String}
    (spells : encoding.Spells form digest) : Agree width (.bytes digest) (.ofText form encoding) :=
  fun _ hx => (accepts_ofText spells (hx.trans hl.symm)).symm

namespace Search

universe u

/-- Whether the candidates of a width have digests of that width. -/
def Sources.Measured (sources : Sources) (width : Nat) (target : Bytes) : Prop :=
  ∀ c, c ∈ catalogueCandidates sources.catalogue width ∨
      c ∈ documentedCandidates sources.provider width →
    ∀ digest, c.digest target = .ok digest → digest.length = Crc.byteLength width

theorem measured_registry {δ : Type u} {make : δ → Streaming}
    (made : ∀ kind message, ((make kind).digest message).length = Crc.byteLength (make kind).bits)
    {registry : Registry δ} (honest : ∀ e ∈ registry.listings.entries,
      e.2.bits = (e.2.factory.streaming make).bits) (catalogue : Catalogue) (width : Nat)
    (target : Bytes) : Sources.Measured ⟨.ofRegistry make registry, catalogue⟩ width target := by
  rintro c (hc | hc) digest hd
  · obtain ⟨e, he, rfl⟩ := List.mem_map.mp hc
    have hw : e.model.width = width := by
      simpa using List.of_mem_filter he
    obtain rfl := Except.ok.inj hd
    rw [← hw]
    apply Crc.length_toBytes
  · obtain ⟨⟨id, description⟩, he, rfl⟩ := List.mem_map.mp hc
    obtain ⟨l, hl, hw, -⟩ := Registry.mem_list.mp he
    have hb : (l.factory.streaming make).bits = width :=
      (honest _ hl).symm.trans (by simpa using hw)
    rw [digest_ofListed (Registry.resolve_of_listed hl)] at hd
    obtain rfl := Except.ok.inj hd
    rw [← hb]
    exact Factory.length_digest made _ _

section

variable {r r' : Request} {strategy : Strategy}

theorem Candidate.events_congr {c : Candidate} (h : c.verdict r = c.verdict r') (verbose : Bool) :
    c.events strategy r verbose = c.events strategy r' verbose := by
  rw [events, events, h]

theorem sweep_congr {cs : List Candidate} (h : ∀ c ∈ cs, c.verdict r = c.verdict r')
    (total : Result) (s : Session) :
    sweep strategy r total s cs = sweep strategy r' total s cs := by
  induction cs generalizing total s with
  | nil => rfl
  | cons c rest ih =>
    have hc := h c (List.mem_cons_self ..)
    have hr (total : Result) (s : Session) :=
      ih (fun c hc => h c (List.mem_cons_of_mem _ hc)) total s
    simp only [sweep_cons, Candidate.events_congr hc, hc, hr]

theorem sweepLog_congr {cs : List Candidate} (h : ∀ c ∈ cs, c.verdict r = c.verdict r')
    (s : Session) : sweepLog strategy r s cs = sweepLog strategy r' s cs := by
  induction cs generalizing s with
  | nil => rfl
  | cons c rest ih =>
    have hc := h c (List.mem_cons_self ..)
    have hr (s : Session) := ih (fun c hc => h c (List.mem_cons_of_mem _ hc)) s
    simp only [sweepLog, Candidate.events_congr hc, hc, hr]

end

variable {width : Nat} {target : Bytes} {e e' : Expected}

theorem Candidate.verdict_congr (same : e.Agree width e') {c : Candidate}
    (measured : ∀ digest, c.digest target = .ok digest → digest.length = Crc.byteLength width) :
    c.verdict ⟨width, target, e⟩ = c.verdict ⟨width, target, e'⟩ := by
  unfold verdict
  dsimp only
  cases hd : c.digest target with
  | error cause => rfl
  | ok digest => exact congrArg Except.ok (same digest (measured digest hd))

namespace Setting

variable {valid : Crc.ValidWidth width}

/-- Trials are compared with either form alike. -/
theorem matcher_congr (same : e.Agree width e') (target : Bytes) (valid : Crc.ValidWidth width)
    (p : Params) (hx : p.xorOut = 0 ∨ p.xorOut = Crc.mask width) :
    let register := (ofRequest ⟨width, target, e⟩ valid).register p.poly p.init p.refIn
    (ofRequest ⟨width, target, e⟩ valid).matcher.accepts (p.output width register) =
      (ofRequest ⟨width, target, e'⟩ valid).matcher.accepts (p.output width register) := by
  intro register
  have hle := le_mask_of_either hx
  have hl : ((p.model width valid).digest target).length = Crc.byteLength width :=
    Crc.length_toBytes _ _
  calc (ofRequest ⟨width, target, e⟩ valid).matcher.accepts (p.output width register)
      = e.accepts ((p.model width valid).digest target) := accepts_output hle
    _ = e'.accepts ((p.model width valid).digest target) := same _ hl
    _ = (ofRequest ⟨width, target, e'⟩ valid).matcher.accepts (p.output width register) :=
        (accepts_output (r := ⟨width, target, e'⟩) hle).symm

theorem hits_congr (same : e.Agree width e') (poly : UInt64) :
    (ofRequest ⟨width, target, e⟩ valid).hits poly =
      (ofRequest ⟨width, target, e'⟩ valid).hits poly := by
  refine List.flatMap_congr fun init _ => List.flatMap_congr fun refIn _ =>
    List.flatMap_congr fun refOut _ => List.filterMap_congr fun xorOut hx => ?_
  have hm := matcher_congr same target valid ⟨poly, init, refIn, refOut, xorOut⟩
    (by simpa using hx)
  exact if_congr (iff_of_eq (congrArg (· = true) hm)) rfl rfl

variable {p q : Pool} {log : Log}

theorem Turn.congr (same : e.Agree width e')
    (turn : (ofRequest ⟨width, target, e⟩ valid).Turn p log q) :
    (ofRequest ⟨width, target, e'⟩ valid).Turn p log q := by
  have task (poly : UInt64) : (ofRequest ⟨width, target, e⟩ valid).task poly =
      (ofRequest ⟨width, target, e'⟩ valid).task poly := by
    rw [Setting.task, hits_congr same]
    rfl
  have perform (b : Board) (a : Action) : (ofRequest ⟨width, target, e⟩ valid).perform b a =
      (ofRequest ⟨width, target, e'⟩ valid).perform b a := by
    cases a <;> rfl
  cases turn with
  | start idle waits go =>
    rw [task]
    exact .start idle waits go
  | refuse idle waits stop => exact .refuse idle waits stop
  | drop waits refused => exact .drop waits refused
  | act busy =>
    rw [perform]
    exact .act busy

theorem Turns.congr (same : e.Agree width e')
    (turns : (ofRequest ⟨width, target, e⟩ valid).Turns p log q) :
    (ofRequest ⟨width, target, e'⟩ valid).Turns p log q := by
  induction turns with
  | none => exact .none
  | more _ turn ih => exact ih.more (turn.congr same)

theorem Ended.congr (same : e.Agree width e')
    (ended : (ofRequest ⟨width, target, e⟩ valid).Ended p) :
    (ofRequest ⟨width, target, e'⟩ valid).Ended p := by
  intro q step
  obtain ⟨log, turn⟩ := (step_iff_turn _).mp step
  exact ended q ((step_iff_turn _).mpr ⟨log, turn.congr same.symm⟩)

end Setting

variable {sources : Sources} {limit workers : Nat} {s : Session} {strategy : Strategy} {log : Log}

theorem Finds.congr (same : e.Agree width e') (measured : sources.Measured width target)
    {out : Except Error Result × Session}
    (run : Finds sources limit ⟨width, target, e⟩ workers s strategy log out) :
    Finds sources limit ⟨width, target, e'⟩ workers s strategy log out := by
  cases run with
  | unserved h => exact .unserved h
  | catalogue h =>
    have hv : ∀ c ∈ catalogueCandidates sources.catalogue width,
        c.verdict ⟨width, target, e⟩ = c.verdict ⟨width, target, e'⟩ :=
      fun c hc => c.verdict_congr same (measured c (.inl hc))
    rw [sweepLog_congr hv, sweep_congr hv]
    exact .catalogue h
  | documented h =>
    have hv : ∀ c ∈ documentedCandidates sources.provider width,
        c.verdict ⟨width, target, e⟩ = c.verdict ⟨width, target, e'⟩ :=
      fun c hc => c.verdict_congr same (measured c (.inr hc))
    rw [sweepLog_congr hv, sweep_congr hv]
    exact .documented h
  | bruteForce h turns ended =>
    exact @Finds.bruteForce sources limit ⟨width, target, e'⟩ workers s h _ _ (turns.congr same)
      (ended.congr same)

theorem RunsAll.congr (same : e.Agree width e') (measured : sources.Measured width target)
    {r : Report} {strategies : List Strategy} {out : Except Error Report × Session}
    (run : RunsAll sources limit ⟨width, target, e⟩ workers r s strategies log out) :
    RunsAll sources limit ⟨width, target, e'⟩ workers r s strategies log out := by
  induction run with
  | done => exact .done
  | finished run _ ih => exact .finished (run.congr same measured) ih
  | skipped run skips _ ih => exact .skipped (run.congr same measured) skips ih
  | failed run ends => exact .failed (run.congr same measured) ends

/-- Searches for two forms that agree have the same runs. -/
theorem searches_iff (same : e.Agree width e') (measured : sources.Measured width target)
    {options : Options} {wantsProgress : Bool} {cancellation : Cancellation}
    {out : Except Error Report × Session} :
    Searches sources options ⟨width, target, e⟩ workers wantsProgress cancellation log out ↔
      Searches sources options ⟨width, target, e'⟩ workers wantsProgress cancellation log out :=
  ⟨fun run => RunsAll.congr same measured run, fun run => RunsAll.congr same.symm measured run⟩

/-- It does not matter whether the expected digest is given as bytes or as a text that spells
them. The runs of the search are the same, and if nobody stops it, any two of them come to the same
report and tell the same, in some order. -/
theorem expected_form_irrelevant (catalogue : Catalogue) (options : Options) {width : Nat}
    (target : Bytes) {digest : Bytes} (hl : digest.length = Crc.byteLength width)
    {encoding : Encoding} {form : String} (spells : encoding.Spells form digest)
    (wantsProgress : Bool) :
    let sources : Sources := ⟨.ofRegistry Named.streaming .builtin, catalogue⟩
    let raw : Request := ⟨width, target, .bytes digest⟩
    let written : Request := ⟨width, target, .ofText form encoding⟩
    (∀ workers cancellation log out,
      Searches sources options raw workers wantsProgress cancellation log out ↔
        Searches sources options written workers wantsProgress cancellation log out) ∧
    ∃ report,
      (search sources options raw wantsProgress .never).1 = .ok report ∧
      (search sources options written wantsProgress .never).1 = .ok report ∧
      ∀ workers workers', 0 < workers → 0 < workers' → ∀ log log' out out',
        Searches sources options raw workers wantsProgress .never log out →
        Searches sources options written workers' wantsProgress .never log' out' →
        out.1 = .ok report ∧ out'.1 = .ok report ∧
          (log.events : Multiset Event) = log'.events := by
  intro sources raw written
  have same := Expected.agree_ofText hl spells
  have measured := measured_registry Named.length_digest (fun _ => Registry.bits_of_listed)
    catalogue width target
  obtain ⟨report, hr, -⟩ := exists_report Named.streaming catalogue options raw wantsProgress
  have result {workers : Nat} (hw : 0 < workers) {log : Log} {out : Except Error Report × Session}
      (run : Searches sources options raw workers wantsProgress .never log out) :
      out.1 = .ok report := by
    rw [search_never] at hr
    exact ((run.faithful hw).of_calm (Session.calm_start ..)).trans hr
  refine ⟨fun _ _ _ _ => searches_iff same measured, report, hr, ?_, ?_⟩
  · exact result Nat.one_pos ((searches_iff same measured).mpr (searches_search ..))
  · intro workers workers' hw hw' log log' out out' run run'
    have run'' := (searches_iff same measured).mpr run'
    exact ⟨result hw run, result hw' run'', (run.events hw).trans (run''.events hw').symm⟩

/-- One worker that searches for a check value, and two that search for it in capital letters with
blanks around them. -/
theorem expected_form_of_check_value :
    let raw : Request := ⟨8, Catalogue.checkInput, .bytes [0xf4]⟩
    let written : Request := ⟨8, Catalogue.checkInput, .ofText " F4 " .hex⟩
    ∃ report,
      (search .builtin {} raw true .never).1 = .ok report ∧
      (search .builtin {} written true .never).1 = .ok report ∧
      ∀ log log' out out', Searches .builtin {} raw 1 true .never log out →
        Searches .builtin {} written 2 true .never log' out' →
        (log.events : Multiset Event) = log'.events := by
  intro raw written
  have hl : ([0xf4] : Bytes).length = Crc.byteLength 8 := by decide
  have blank : ∀ c ∈ [' '], Text.isBlank c := List.all_eq_true.mp (by decide)
  have spells : Encoding.hex.Spells " F4 " [0xf4] :=
    ⟨[' '], ['F', '4'], [' '], by decide, blank, blank, by decide⟩
  obtain ⟨-, report, hr, hw, runs⟩ :=
    expected_form_irrelevant .published {} Catalogue.checkInput hl spells true
  refine ⟨report, hr, hw, fun log log' out out' run run' => ?_⟩
  exact (runs 1 2 (by decide) (by decide) log log' out out' run run').2.2

end Search

end DigestFinder
