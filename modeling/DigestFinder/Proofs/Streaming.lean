import DigestFinder.Proofs.Algorithm
import DigestFinder.Proofs.Checksum.Adler

/-!
Digests under way. Whatever is done with one, its value is that of the bytes fed since it was last
reset, in one piece to a new digest. Where the pieces end cannot be seen, nor that a value was asked
for.
-/

namespace DigestFinder

universe u

/-- Pieces leave no trace, and a reset leaves nothing. -/
structure Streaming.Seamless (s : Streaming) : Prop where
  absorb_nil : s.absorb s.start [] = s.start
  absorb_append : ∀ x y, s.absorb (s.absorb s.start x) y = s.absorb s.start (x ++ y)
  reset_absorb : ∀ x, s.reset (s.absorb s.start x) = s.start

theorem Streaming.seamless_of_foldl {s : Streaming} (f : s.State → UInt8 → s.State)
    (absorb : s.absorb = List.foldl f) (reset : ∀ x, s.reset x = s.start) : s.Seamless where
  absorb_nil := by rw [absorb]; rfl
  absorb_append x y := by rw [absorb, List.foldl_append]
  reset_absorb _ := reset _

theorem Streaming.seamless_ofFunction (digest : Bytes → Bytes) (bits blockSize : Nat) :
    (ofFunction digest bits blockSize).Seamless where
  absorb_nil := rfl
  absorb_append x y := List.append_assoc [] x y
  reset_absorb _ := rfl

theorem Adler32.seamless : streaming.Seamless where
  absorb_nil := by
    change absorb start [] = start
    rw [absorb, if_pos rfl]
  absorb_append := reduced_start.absorb_append
  reset_absorb _ := rfl

theorem Castagnoli.seamless {append : UInt32 → Bytes → UInt32} (nil : append 0 [] = 0)
    (pieces : ∀ x y, append (append 0 x) y = append 0 (x ++ y)) :
    (streamingOf append).Seamless where
  absorb_nil := nil
  absorb_append := pieces
  reset_absorb _ := rfl

theorem Crc.Engine.update_append {m : Model} (e : Engine m) (x y : Bytes) :
    (e.update x).update y = e.update (x ++ y) := by
  have register : e.table.absorb m.refIn (e.table.absorb m.refIn e.register x) y =
      e.table.absorb m.refIn e.register (x ++ y) := by
    unfold Table.absorb
    cases m.refIn <;> simp [List.foldl_append]
  have length : e.length + x.length.toUInt64 + y.length.toUInt64 =
      e.length + (x ++ y).length.toUInt64 := by
    rw [UInt64.add_assoc, List.length_append]
    exact congrArg _ (UInt64.ofNat_add _ _).symm
  simp only [update, register, length]

theorem Crc.Model.seamless (m : Model) : m.streaming.Seamless where
  absorb_nil := by
    change (Engine.start m).update [] = Engine.start m
    unfold Engine.update Table.absorb
    cases m.refIn <;> simp [Engine.start]
  absorb_append := (Engine.start m).update_append
  reset_absorb _ := rfl

theorem Hashes.seamless (h : Hashes) (n : Named) : (h.streaming n).Seamless := by
  cases n with
  | crc32c => exact Castagnoli.seamless h.castagnoli_nil h.castagnoli_append
  | adler32 => exact Adler32.seamless
  | fletcher16 | sum8 | sum16 | sum24 | sum32 | systemV | bsd | elf | xor8 | fnv =>
    exact Streaming.seamless_of_foldl _ rfl fun _ => rfl
  | _ => exact Streaming.seamless_ofFunction ..

theorem Factory.seamless {δ : Type u} {make : δ → Streaming} (made : ∀ kind, (make kind).Seamless)
    (f : Factory δ) : (f.streaming make).Seamless := by
  cases f with
  | crc m => exact m.seamless
  | named kind => exact made kind

theorem Algorithm.seamless (a : Algorithm) : a.streaming.Seamless :=
  Factory.seamless Hashes.own.seamless a

/-- What can be asked of a digest under way. -/
inductive Call
  | update (data : Bytes)
  | value
  | reset
  | digest (data : Bytes)
  deriving Repr, DecidableEq

namespace Call

/-- The bytes fed since the last reset, after a call. -/
def feed (fed : Bytes) : Call → Bytes
  | update data => fed ++ data
  | value => fed
  | reset => []
  | digest data => data

variable (s : Streaming)

/-- The answer to a call by a new digest that is fed all in one piece. -/
def answer (fed : Bytes) : Call → Option Bytes
  | value => some (s.digest fed)
  | digest data => some (s.digest data)
  | update _ | reset => none

def answers (fed : Bytes) : List Call → List (Option Bytes)
  | [] => []
  | c :: rest => c.answer s fed :: answers (c.feed fed) rest

end Call

namespace Streaming

section

variable (s : Streaming)

def perform (state : s.State) : Call → s.State × Option Bytes
  | .update data => (s.absorb state data, none)
  | .value => (state, some (s.result state))
  | .reset => (s.reset state, none)
  | .digest data =>
    let next := s.restart state data
    (next, some (s.result next))

/-- Calls one after the other, with the answer to each. -/
def run (state : s.State) : List Call → s.State × List (Option Bytes)
  | [] => (state, [])
  | c :: rest =>
    let next := s.perform state c
    let final := run next.1 rest
    (final.1, next.2 :: final.2)

/-- The answers of a new digest. -/
def answers (calls : List Call) : List (Option Bytes) := (s.run s.start calls).2

theorem run_append (state : s.State) (before after : List Call) :
    s.run state (before ++ after) = ((s.run (s.run state before).1 after).1,
      (s.run state before).2 ++ (s.run (s.run state before).1 after).2) := by
  induction before generalizing state with
  | nil => rfl
  | cons c before ih => simp only [List.cons_append, run, ih]

end

namespace Seamless

variable {s : Streaming} (h : s.Seamless) (fed data : Bytes)

include h

theorem restart_absorb : s.restart (s.absorb s.start fed) data = s.absorb s.start data := by
  rw [restart, h.reset_absorb]

theorem restart_start : s.restart s.start data = s.absorb s.start data := by
  rw [← h.restart_absorb [] data, h.absorb_nil]

theorem perform (c : Call) :
    s.perform (s.absorb s.start fed) c = (s.absorb s.start (c.feed fed), c.answer s fed) := by
  cases c with
  | update data => rw [Streaming.perform, h.absorb_append]; rfl
  | value => rfl
  | reset =>
    change (s.reset (s.absorb s.start fed), none) = (s.absorb s.start [], none)
    rw [h.reset_absorb, h.absorb_nil]
  | digest data => rw [Streaming.perform, h.restart_absorb]; rfl

theorem run_absorb (calls : List Call) : s.run (s.absorb s.start fed) calls =
    (s.absorb s.start (calls.foldl Call.feed fed), Call.answers s fed calls) := by
  induction calls generalizing fed with
  | nil => rfl
  | cons c rest ih =>
    rw [run, h.perform, ih]
    rfl

theorem run_new (calls : List Call) : s.run s.start calls =
    (s.absorb s.start (calls.foldl Call.feed []), Call.answers s [] calls) := by
  rw [← h.run_absorb, h.absorb_nil]

end Seamless

end Streaming

theorem Call.length_of_mem_answers {s : Streaming} {n : Nat}
    (length : ∀ message, (s.digest message).length = n) {fed : Bytes} {calls : List Call}
    {bs : Bytes} (h : some bs ∈ answers s fed calls) : bs.length = n := by
  induction calls generalizing fed with
  | nil => cases h
  | cons c rest ih =>
    rcases List.mem_cons.mp h with here | later
    · cases c with
      | update | reset => cases here
      | value | digest =>
        obtain rfl := Option.some.inj here
        exact length _
    · exact ih later

namespace Hasher

/-- A digest under way, and answers. -/
def pack (a : Algorithm) (final : a.streaming.State × List (Option Bytes)) :
    Hasher × List (Option Bytes) :=
  (⟨a, final.1⟩, final.2)

/-- Calls one after the other, with the answer to each. -/
def run (h : Hasher) (calls : List Call) : Hasher × List (Option Bytes) :=
  pack h.algorithm (h.algorithm.streaming.run h.state calls)

/-- The calls are the operations of a digest under way. -/
theorem run_cons (h : Hasher) (c : Call) (rest : List Call) :
    h.run (c :: rest) =
      let next : Hasher × Option Bytes := match c with
        | .update data => (h.update data, none)
        | .value => (h, some h.value)
        | .reset => (h.reset, none)
        | .digest data => (h.restart data, some (h.restart data).value)
      ((next.1.run rest).1, next.2 :: (next.1.run rest).2) := by
  cases c <;> rfl

theorem run_append (h : Hasher) (before after : List Call) :
    h.run (before ++ after) =
      (((h.run before).1.run after).1, (h.run before).2 ++ ((h.run before).1.run after).2) :=
  congrArg (pack h.algorithm) (h.algorithm.streaming.run_append h.state before after)

end Hasher

/-- After any calls a digest is what a new one is after all bytes since the last reset in one
piece, and so are its answers on the way. To ask for the value changes nothing that follows. All
values have the length of the width. -/
theorem Hasher.run_start (a : Algorithm) (calls : List Call) :
    (start a).run calls =
        ((start a).update (calls.foldl Call.feed []), Call.answers a.streaming [] calls) ∧
      ((start a).run calls).1.value = a.digest (calls.foldl Call.feed []) ∧
      (∀ later,
        let before := (start a).run calls
        let after := before.1.run later
        (start a).run (calls ++ later) = (after.1, before.2 ++ after.2) ∧
          (start a).run (calls ++ .value :: later) =
            (after.1, before.2 ++ some before.1.value :: after.2)) ∧
      ((start a).run calls).1.value.length = Crc.byteLength ((start a).run calls).1.bits ∧
      ∀ answer ∈ ((start a).run calls).2, ∀ bs ∈ answer,
        bs.length = Crc.byteLength a.streaming.bits := by
  have whole : (start a).run calls =
      ((start a).update (calls.foldl Call.feed []), Call.answers a.streaming [] calls) :=
    congrArg (pack a) (a.seamless.run_new calls)
  refine ⟨whole, ?_, fun later => ⟨run_append .., run_append ..⟩, ?_, ?_⟩
  · rw [whole]
    rfl
  · rw [whole]
    exact a.length_digest _
  · rw [whole]
    rintro answer hm bs rfl
    exact Call.length_of_mem_answers a.length_digest hm

/-- The checks of a few bytes, with a value that is asked for twice and data that are forgotten. -/
theorem Hasher.run_start_fletcher16 :
    ((start (.named .fletcher16)).run
      [.update [1], .value, .value, .update [2], .value, .digest [3], .update [4], .value, .reset,
        .value]).2 =
      [none, some [1, 1], some [1, 1], none, some [4, 3], some [3, 3], none, some [10, 7], none,
        some [0, 0]] := by
  rw [(run_start _ _).1]
  decide

end DigestFinder
