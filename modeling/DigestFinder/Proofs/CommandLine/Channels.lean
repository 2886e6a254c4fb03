import DigestFinder.CommandLine.Digests
import DigestFinder.Proofs.Registry
import DigestFinder.Proofs.Streaming
import DigestFinder.Proofs.WrittenForm

/-!
Messages from a sequence, from files and from the standard input. What is computed and checked
depends on the bytes alone, not on where they come from nor on what was digested before, as long as
the size that is reported of a file is the number of its bytes.
-/

namespace DigestFinder

namespace CommandLine

universe u

/-- A file that shows its bytes: their number is its size, and they can be mapped if there are
any. -/
structure OpenFile.Shows (f : OpenFile) (data : Bytes) : Prop where
  bytes : f.bytes = data
  size : f.size = data.length
  mappable : data ≠ [] → f.mappable = true

/-- What of a file is digested. -/
def OpenFile.content (f : OpenFile) : Except FileError Bytes :=
  if f.size = 0 then .ok [] else f.mapped

theorem OpenFile.Shows.content {f : OpenFile} {data : Bytes} (h : f.Shows data) :
    f.content = .ok data := by
  unfold OpenFile.content mapped
  rw [h.bytes, h.size]
  cases data with
  | nil => rfl
  | cons b bs => simp [h.mappable (List.cons_ne_nil b bs), List.take_of_length_le]

/-- A file of which no size is reported passes for empty. -/
theorem OpenFile.content_of_unsized {f : OpenFile} (h : f.size = 0) : f.content = .ok [] :=
  if_pos h

theorem OpenFile.content_of_fixed {f : OpenFile} (sized : f.size ≠ 0) (h : f.mappable = false) :
    f.content = .error .unmappable := by
  rw [content, if_neg sized, mapped, h]
  rfl

/-- What of the file at a path is digested. -/
def Inputs.content (inputs : Inputs) (path : String) : Except FileError Bytes :=
  (inputs.openFile path).bind OpenFile.content

theorem Inputs.content_of_open {inputs : Inputs} {path : String} {f : OpenFile}
    (opened : inputs.openFile path = .ok f) : inputs.content path = f.content := by
  rw [content, opened]
  rfl

/-- Where a command takes a message from. -/
inductive Channel
  | sequence (data : Bytes)
  | file (path : String)
  | standard

namespace Channel

/-- What a channel has to offer. -/
def Holds (inputs : Inputs) (data : Bytes) : Channel → Prop
  | sequence given => given = data
  | file path => ∃ f, inputs.openFile path = .ok f ∧ f.Shows data
  | standard => inputs.standard = data

/-- What is digested of it. -/
def content (inputs : Inputs) : Channel → Except FileError Bytes
  | sequence given => .ok given
  | file path => inputs.content path
  | standard => .ok inputs.standard

theorem content_of_holds {inputs : Inputs} {data : Bytes} {c : Channel} (h : c.Holds inputs data) :
    c.content inputs = .ok data := by
  cases c with
  | sequence given => exact congrArg Except.ok h
  | file path =>
    obtain ⟨f, opened, shown⟩ := h
    rw [content, Inputs.content_of_open opened, shown.content]
  | standard => exact congrArg Except.ok h

def label : Channel → String
  | sequence given => Sequence.display given
  | file path => path
  | standard => "-"

def compute (algorithm : String) (e : Encoding) : Channel → ComputeCommand
  | sequence given => ⟨algorithm, some given, [], e⟩
  | file path => ⟨algorithm, none, [path], e⟩
  | standard => ⟨algorithm, none, [], e⟩

def check (algorithm expected : String) (e : Encoding) : Channel → CheckCommand
  | sequence given => ⟨algorithm, expected, some given, none, e⟩
  | file path => ⟨algorithm, expected, none, some path, e⟩
  | standard => ⟨algorithm, expected, none, none, e⟩

end Channel

/-- Replies one after the other, up to the first that is no success. -/
def Reply.inSequence : List Reply → Reply
  | [] => ⟨0, [], []⟩
  | r :: rest =>
    if r.status = 0 then
      let later := inSequence rest
      ⟨later.status, r.output ++ later.output, r.diagnostics ++ later.diagnostics⟩
    else r

theorem Reply.inSequence_singleton (r : Reply) : inSequence [r] = r := by
  obtain ⟨status, output, diagnostics⟩ := r
  cases status <;> simp [inSequence]

variable {inputs : Inputs} {s : Streaming} {e : Encoding}

theorem digestFile_eq (inputs : Inputs) (state : s.State) (path : String) :
    digestFile inputs s state path = (inputs.content path).map (s.restart state) := by
  unfold digestFile Inputs.content
  cases inputs.openFile path with
  | error cause => rfl
  | ok f =>
    change (if f.size = 0 then _ else _) = f.content.map _
    unfold OpenFile.content
    split
    · rfl
    · cases f.mapped <;> rfl

/-- The reply to a command that computes the digest of one file. -/
def fileReply (inputs : Inputs) (s : Streaming) (e : Encoding) (path : String) : Reply :=
  match inputs.content path with
  | .ok data => ⟨0, [digestLine e (s.digest data) path], []⟩
  | .error cause => .failure [] [] (cause.causes path)

/-- The one digest digests each file as a new one would. -/
theorem computeFiles_absorb (seamless : s.Seamless) (fed : Bytes) (output : List String)
    (paths : List String) :
    computeFiles inputs e s (s.absorb s.start fed) output paths =
      let r := Reply.inSequence (paths.map (fileReply inputs s e))
      ⟨r.status, output ++ r.output, r.diagnostics⟩ := by
  induction paths generalizing fed output with
  | nil => simp [computeFiles, Reply.inSequence]
  | cons path rest ih =>
    rw [computeFiles, digestFile_eq, List.map_cons, Reply.inSequence]
    cases hf : inputs.content path with
    | error cause => simp [fileReply, hf, Except.map, Reply.failure]
    | ok data =>
      simp only [Except.map, seamless.restart_absorb, ih]
      simp [fileReply, hf, Streaming.digest]

theorem inSequence_readable {files : List (String × Bytes)}
    (readable : ∀ f ∈ files, (Channel.file f.1).Holds inputs f.2) :
    Reply.inSequence (files.map fun f => fileReply inputs s e f.1) =
      ⟨0, files.map fun f => digestLine e (s.digest f.2) f.1, []⟩ := by
  induction files with
  | nil => rfl
  | cons f rest ih =>
    have held : inputs.content f.1 = .ok f.2 :=
      Channel.content_of_holds (readable f List.mem_cons_self)
    have later := ih fun g hg => readable g (List.mem_cons_of_mem f hg)
    rw [List.map_cons, Reply.inSequence, later]
    simp [fileReply, held]

section

variable {δ : Type u} {make : δ → Streaming} {r : Registry δ} {name : String}
  (known : r.instantiate make name = .ok s)

theorem seamless_of_instantiate {hashes : Hashes} {r : Registry Named}
    (known : r.instantiate hashes.streaming name = .ok s) : s.Seamless := by
  cases resolved : r.resolve name with
  | error cause => simp [Registry.instantiate, resolved, Except.map] at known
  | ok f =>
    obtain rfl : f.streaming hashes.streaming = s := by
      simpa [Registry.instantiate, resolved, Except.map] using known
    exact f.seamless hashes.seamless

include known

variable (seamless : s.Seamless)

include seamless

/-- Files are computed as they would be by a command for each. -/
theorem compute_files {paths : List String} (hne : paths ≠ []) :
    (⟨name, none, paths, e⟩ : ComputeCommand).runWith make r inputs =
      Reply.inSequence (paths.map (fileReply inputs s e)) := by
  obtain ⟨path, rest, rfl⟩ := List.exists_cons_of_ne_nil hne
  rw [ComputeCommand.runWith, known]
  change computeFiles inputs e s s.start [] (path :: rest) = _
  rw [← seamless.absorb_nil, computeFiles_absorb seamless]
  simp

theorem compute_file (path : String) :
    (⟨name, none, [path], e⟩ : ComputeCommand).runWith make r inputs =
      fileReply inputs s e path := by
  rw [compute_files known seamless (by simp), List.map_singleton, Reply.inSequence_singleton]

variable {c : Channel} {data : Bytes} (held : c.content inputs = .ok data)

include held

theorem compute_channel :
    (c.compute name e).runWith make r inputs =
      ⟨0, [digestLine e (s.digest data) c.label], []⟩ := by
  cases c with
  | sequence given | standard =>
    obtain rfl := Except.ok.inj held
    simp only [Channel.compute, ComputeCommand.runWith, known, seamless.restart_start,
      Streaming.digest, Channel.label]
  | file path =>
    have content : inputs.content path = .ok data := held
    rw [Channel.compute, compute_file known seamless, fileReply, content, Channel.label]

theorem check_channel (expected : String) :
    (c.check name expected e).runWith make r inputs =
      if (Expected.ofText expected e).accepts (s.digest data) then ⟨0, ["OK"], []⟩
      else ⟨1, [s!"MISMATCH: computed {e.encode (s.digest data)}"], []⟩ := by
  have digested : (c.check name expected e).digest inputs s = .ok (s.absorb s.start data) := by
    rw [← seamless.restart_start data]
    cases c with
    | sequence given | standard =>
      obtain rfl := Except.ok.inj held
      rfl
    | file path =>
      have content : inputs.content path = .ok data := held
      simp only [Channel.check, CheckCommand.digest, digestFile_eq, content, Except.map,
        Except.mapError]
  have parts : (c.check name expected e).algorithm = name ∧
      (c.check name expected e).expected = expected ∧
      (c.check name expected e).encoding = e := by
    cases c <;> exact ⟨rfl, rfl, rfl⟩
  rw [CheckCommand.runWith, parts.1, known]
  dsimp only
  rw [digested, parts.2.1, parts.2.2]
  rfl

end

theorem instantiate_fletcher16 (hashes : Hashes) :
    Registry.builtin.instantiate hashes.streaming "fletcher16" = .ok Fletcher16.streaming := by
  have resolved : Registry.builtin.resolve "fletcher16" = .ok (.named .fletcher16) :=
    Registry.resolve_of_native (n := ("fletcher16", "Fletcher-16", 16, .fletcher16)) (by decide)
  rw [Registry.instantiate, resolved]
  rfl

/-- On every channel that holds the same bytes the same digest is computed; a check succeeds with
that digest, however it may be written, and with nothing else. Files are computed as one at a time,
in order, up to the first that cannot be read. A file of which no size is reported passes for empty
whatever it holds, and one with a size that cannot be mapped is refused. -/
theorem channels_agree (hashes : Hashes) (inputs : Inputs) {name : String} {s : Streaming}
    (known : Registry.builtin.instantiate hashes.streaming name = .ok s) (e : Encoding) :
    (∀ (data : Bytes) (c : Channel), c.Holds inputs data →
      (c.compute name e).run hashes inputs =
          ⟨0, [s!"{e.encode (s.digest data)}  {c.label}"], []⟩ ∧
        (c.check name (e.encode (s.digest data)) e).run hashes inputs = ⟨0, ["OK"], []⟩ ∧
        ∀ expected,
          (e.WrittenAs expected (e.encode (s.digest data)) →
            (c.check name expected e).run hashes inputs = ⟨0, ["OK"], []⟩) ∧
          (¬ e.WrittenAs expected (e.encode (s.digest data)) →
            (c.check name expected e).run hashes inputs =
              ⟨1, [s!"MISMATCH: computed {e.encode (s.digest data)}"], []⟩)) ∧
    (∀ paths, paths ≠ [] →
      (⟨name, none, paths, e⟩ : ComputeCommand).run hashes inputs =
        Reply.inSequence (paths.map fun path =>
          (⟨name, none, [path], e⟩ : ComputeCommand).run hashes inputs)) ∧
    (∀ files : List (String × Bytes), files ≠ [] →
      (∀ f ∈ files, (Channel.file f.1).Holds inputs f.2) →
        (⟨name, none, files.map Prod.fst, e⟩ : ComputeCommand).run hashes inputs =
          ⟨0, files.map fun f => s!"{e.encode (s.digest f.2)}  {f.1}", []⟩) ∧
    ∀ path f, inputs.openFile path = .ok f →
      (f.size = 0 →
        ((Channel.file path).compute name e).run hashes inputs =
            ⟨0, [s!"{e.encode (s.digest [])}  {path}"], []⟩ ∧
          ∀ expected, ((Channel.file path).check name expected e).run hashes inputs =
            ((Channel.sequence []).check name expected e).run hashes inputs) ∧
      (f.size ≠ 0 → f.mappable = false →
        ((Channel.file path).compute name e).run hashes inputs =
          .failure [] [] (FileError.unmappable.causes path)) := by
  have seamless := seamless_of_instantiate known
  refine ⟨fun data c holds => ?_, ?_, ?_, fun path f opened => ⟨fun unsized => ?_, ?_⟩⟩
  · have held := Channel.content_of_holds holds
    refine ⟨compute_channel known seamless held, ?_, fun expected => ⟨?_, ?_⟩⟩
    · rw [CheckCommand.run, check_channel known seamless held, if_pos]
      exact Expected.accepts_iff_writtenAs.mpr (e.writtenAs_self _)
    · intro same
      rw [CheckCommand.run, check_channel known seamless held,
        if_pos (Expected.accepts_iff_writtenAs.mpr same)]
    · intro other
      rw [CheckCommand.run, check_channel known seamless held,
        if_neg (mt Expected.accepts_iff_writtenAs.mp other)]
  · intro paths hne
    simp only [ComputeCommand.run, compute_file known seamless]
    exact compute_files known seamless hne
  · intro files hne readable
    rw [ComputeCommand.run, compute_files known seamless (by simpa using hne), List.map_map]
    exact inSequence_readable readable
  · have empty : (Channel.file path).content inputs = .ok [] :=
      (Inputs.content_of_open opened).trans (OpenFile.content_of_unsized unsized)
    refine ⟨compute_channel known seamless empty, fun expected => ?_⟩
    rw [CheckCommand.run, CheckCommand.run, check_channel known seamless empty,
      check_channel known seamless (c := .sequence []) rfl]
  · intro sized fixed
    have refused : inputs.content path = .error .unmappable :=
      (Inputs.content_of_open opened).trans (OpenFile.content_of_fixed sized fixed)
    rw [ComputeCommand.run, Channel.compute, compute_file known seamless, fileReply, refused]

/-- Two bytes from the standard input and in a file beside an empty one, and a pipe. -/
theorem channels_agree_for_fletcher16 :
    let inputs : Inputs :=
      ⟨[1, 2], fun path => if path = "a" then .ok ⟨2, [1, 2], true⟩
        else if path = "b" then .ok ⟨0, [], false⟩
        else if path = "/dev/stdin" then .ok ⟨0, [1, 2], false⟩
        else .error .missing⟩
    (Channel.standard.compute "fletcher16" .hexUpper).run .own inputs = ⟨0, ["0403  -"], []⟩ ∧
      ((Channel.file "a").check "fletcher16" " 0403\n" .hexUpper).run .own inputs =
        ⟨0, ["OK"], []⟩ ∧
      ((Channel.sequence []).check "fletcher16" "0001" .hexUpper).run .own inputs =
        ⟨1, ["MISMATCH: computed 0000"], []⟩ ∧
      (⟨"fletcher16", none, ["b", "a"], .hexUpper⟩ : ComputeCommand).run .own inputs =
        ⟨0, ["0000  b", "0403  a"], []⟩ ∧
      ((Channel.file "/dev/stdin").compute "fletcher16" .hexUpper).run .own inputs =
        ⟨0, ["0000  /dev/stdin"], []⟩ := by
  intro inputs
  have known := instantiate_fletcher16 .own
  obtain ⟨channel, -, readable, opened⟩ := channels_agree .own inputs known .hexUpper
  have whole : (Channel.file "a").Holds inputs [1, 2] := ⟨_, rfl, rfl, rfl, fun _ => rfl⟩
  have empty : (Channel.file "b").Holds inputs [] := ⟨_, rfl, rfl, rfl, fun h => absurd rfl h⟩
  refine ⟨?_, ?_, ?_, ?_, ?_⟩
  · exact (channel [1, 2] .standard rfl).1.trans (by decide)
  · refine ((channel [1, 2] (.file "a") whole).2.2 _).1 ⟨"0403", ?_, .inl (by decide)⟩
    exact ⟨[' '], ['\n'], by decide, List.forall_mem_singleton.mpr rfl,
      List.forall_mem_singleton.mpr rfl⟩
  · refine (((channel [] (.sequence []) rfl).2.2 "0001").2 ?_).trans (by decide)
    rw [← Expected.accepts_iff_writtenAs]
    decide
  · have both := readable [("b", []), ("a", [1, 2])] (by simp) (by simp [empty, whole])
    exact both.trans (by decide)
  · exact ((opened "/dev/stdin" _ rfl).1 rfl).1.trans (by decide)

/-- What a pipe holds is not what is digested of it: the same bytes have another digest on the
standard input. -/
theorem pipe_passes_for_empty :
    let inputs : Inputs := ⟨[0x31, 0x32, 0x33], fun _ => .ok ⟨0, [0x31, 0x32, 0x33], false⟩⟩
    (Channel.standard.compute "fletcher16" .hex).run .own inputs = ⟨0, ["2b96  -"], []⟩ ∧
      ((Channel.file "/dev/stdin").compute "fletcher16" .hex).run .own inputs =
        ⟨0, ["0000  /dev/stdin"], []⟩ ∧
      ((Channel.file "/dev/stdin").check "fletcher16" "2b96" .hex).run .own inputs =
        ⟨1, ["MISMATCH: computed 0000"], []⟩ := by
  intro inputs
  have known := instantiate_fletcher16 .own
  have seamless := seamless_of_instantiate known
  refine ⟨?_, ?_, ?_⟩
  · exact (compute_channel known seamless (c := .standard) rfl).trans (by decide)
  · exact (compute_channel known seamless (c := .file "/dev/stdin") rfl).trans (by decide)
  · exact (check_channel known seamless (c := .file "/dev/stdin") rfl "2b96").trans (by decide)

end CommandLine

end DigestFinder
