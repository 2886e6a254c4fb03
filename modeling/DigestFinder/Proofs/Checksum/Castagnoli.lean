import DigestFinder.Proofs.Crc.Mirror
import DigestFinder.Proofs.Registry
import DigestFinder.Proofs.Streaming

/-!
Two digests in step. Where a relation between their states survives every call, they give the same
answers. So it is with the two ways to CRC-32C: one keeps the finished value, the other the turned
register of a published model, which is the inverted value.
-/

namespace DigestFinder

namespace Streaming

/-- A relation between the states of two digests that no call tells apart. -/
structure Simulation (s t : Streaming) where
  Rel : s.State → t.State → Prop
  start : Rel s.start t.start
  absorb : ∀ {x y}, Rel x y → ∀ data, Rel (s.absorb x data) (t.absorb y data)
  reset : ∀ {x y}, Rel x y → Rel (s.reset x) (t.reset y)
  result : ∀ {x y}, Rel x y → s.result x = t.result y

namespace Simulation

variable {s t : Streaming} (S : Simulation s t) {x : s.State} {y : t.State}

theorem perform (h : S.Rel x y) (c : Call) :
    S.Rel (s.perform x c).1 (t.perform y c).1 ∧ (s.perform x c).2 = (t.perform y c).2 := by
  cases c with
  | update data => exact ⟨S.absorb h data, rfl⟩
  | value => exact ⟨h, congrArg some (S.result h)⟩
  | reset => exact ⟨S.reset h, rfl⟩
  | digest data =>
    have next := S.absorb (S.reset h) data
    exact ⟨next, congrArg some (S.result next)⟩

theorem run (h : S.Rel x y) (calls : List Call) :
    S.Rel (s.run x calls).1 (t.run y calls).1 ∧ (s.run x calls).2 = (t.run y calls).2 := by
  induction calls generalizing x y with
  | nil => exact ⟨h, rfl⟩
  | cons c rest ih =>
    obtain ⟨related, same⟩ := S.perform h c
    obtain ⟨final, later⟩ := ih related
    exact ⟨final, congrArg₂ List.cons same later⟩

theorem answers_eq (S : Simulation s t) (calls : List Call) : s.answers calls = t.answers calls :=
  (S.run S.start calls).2

end Simulation

end Streaming

namespace Castagnoli

/-- A bit enters the register at its low end. -/
def enterBit (register : UInt32) (bit : Bool) : UInt32 :=
  if (register &&& 1 != 0) != bit then (register >>> 1) ^^^ poly else register >>> 1

/-- What the digest relies on to continue a value: the value is inverted, the bits of each byte
enter, the least significant first, and the register is inverted. -/
def Continues (append : UInt32 → Bytes → UInt32) : Prop :=
  ∀ value data, append value data =
    ~~~((data.flatMap (Crc.byteBits true)).foldl enterBit (~~~value))

theorem validWidth : Crc.ValidWidth 32 := by decide

/-- The model under which CRC-32C is published. -/
def iscsi : Crc.Model := .masked 32 validWidth 0x1edc6f41 0xffffffff true true 0xffffffff

theorem orient_iscsi : iscsi.orient iscsi.poly = poly.toUInt64 := by
  decide

theorem toUInt64_enterBit (register : UInt32) (b : Bool) :
    (enterBit register b).toUInt64 = Crc.enter true poly.toUInt64 register.toUInt64 b := by
  have lead : (register &&& 1 != 0) = Crc.bit register.toUInt64 0 := by
    rw [← Crc.Model.and_one_bne, Bool.eq_iff_iff, bne_iff_ne, bne_iff_ne,
      ← UInt32.toUInt64_inj.ne]
    rfl
  have shift : (register >>> 1).toUInt64 = register.toUInt64 >>> 1 :=
    UInt32.toUInt64_shiftRight register 1
  rw [enterBit, Crc.enter_eq, lead, Bool.bne_eq_xor]
  simp only [Crc.lead, Crc.advance, if_true]
  split
  · rw [UInt32.toUInt64_xor, shift]
  · exact shift

theorem toUInt64_foldl_enterBit (bits : List Bool) (register : UInt32) :
    (bits.foldl enterBit register).toUInt64 =
      bits.foldl (Crc.enter true poly.toUInt64) register.toUInt64 := by
  induction bits generalizing register with
  | nil => rfl
  | cons b bits ih => rw [List.foldl_cons, List.foldl_cons, ih, toUInt64_enterBit]

/-- The finished value is the inverted register. -/
def Agrees (value : UInt32) (e : Crc.Engine iscsi) : Prop := (~~~value).toUInt64 = e.register

theorem agrees_zero {e : Crc.Engine iscsi} (h : e.register = iscsi.orient iscsi.init) :
    Agrees 0 e := by
  rw [Agrees, h]
  decide

theorem Agrees.update {append : UInt32 → Bytes → UInt32} (continues : Continues append)
    {value : UInt32} {e : Crc.Engine iscsi} (h : Agrees value e) (data : Bytes) :
    Agrees (append value data) (e.update data) := by
  unfold Agrees at *
  change _ = e.table.absorb iscsi.refIn e.register data
  rw [continues, UInt32.not_not, toUInt64_foldl_enterBit, h, e.table_eq,
    Crc.Table.absorb_eq_foldl_enter, orient_iscsi]
  rfl

theorem bit_not (value : UInt32) (i : Nat) :
    Crc.bit (~~~value).toUInt64 i = (decide (i < 32) && !Crc.bit value.toUInt64 i) := by
  simp only [Crc.bit, UInt32.toBitVec_toUInt64, UInt32.toBitVec_not, BitVec.getLsbD_setWidth,
    BitVec.getLsbD_not]
  by_cases hi : i < 32
  · have word : i < 64 := by omega
    simp [hi, word]
  · simp [hi]

/-- Turned back, turned again for the output and inverted, the register is the value. -/
theorem Agrees.value_eq {value : UInt32} {e : Crc.Engine iscsi} (h : Agrees value e) :
    e.value = value.toUInt64 := by
  have ones : iscsi.xorOut = Crc.mask 32 := by decide
  have shown : e.value =
      (Crc.reflect (Crc.reflect e.register 32) 32 ^^^ iscsi.xorOut) &&& Crc.mask 32 := by
    have ended : e.table.absorb iscsi.refIn e.register (iscsi.trailer e.length) = e.register := rfl
    rw [Crc.Engine.value, ended]
    rfl
  rw [shown, Crc.reflect_reflect validWidth, ← h, ones]
  apply Crc.word_ext
  intro i _
  simp only [Crc.bit_and, Crc.bit_xor, Crc.bit_mask validWidth, bit_not]
  by_cases hi : i < 32
  · simp [hi]
  · have beyond : Crc.bit value.toUInt64 i = false := by
      rw [Crc.bit, UInt32.toBitVec_toUInt64, BitVec.getLsbD_setWidth,
        BitVec.getLsbD_of_ge _ _ (not_lt.mp hi), Bool.and_false]
    simp [hi, beyond]

/-- The digest that continues finished values is in step with the table computation. -/
def simulation {append : UInt32 → Bytes → UInt32} (continues : Continues append) :
    Streaming.Simulation (streamingOf append) iscsi.streaming where
  Rel := Agrees
  start := agrees_zero rfl
  absorb h data := h.update continues data
  reset _ := agrees_zero rfl
  result {value e} h := by
    change Bytes.ofWord 4 value.toUInt64 = Crc.toBytes e.value 32
    rw [Agrees.value_eq h]
    rfl

theorem toUInt64_step (register : UInt32) :
    (step register).toUInt64 = Crc.feed true poly.toUInt64 register.toUInt64 := by
  have still : step register = enterBit register false := by simp [step, enterBit]
  rw [still, toUInt64_enterBit, Crc.enter_false]

/-- A byte that is added in one piece does what its bits do one by one. -/
theorem absorbByte_eq_foldl (register : UInt32) (b : UInt8) :
    absorbByte register b = (Crc.byteBits true b).foldl enterBit register := by
  rw [← UInt32.toUInt64_inj, toUInt64_foldl_enterBit, ← Crc.iterate_feed_place]
  simp only [absorbByte, toUInt64_step, UInt32.toUInt64_xor]
  rfl

theorem continues_append : Continues append := by
  intro value data
  have bytes : absorbByte = fun register b => (Crc.byteBits true b).foldl enterBit register := by
    funext register b
    exact absorbByte_eq_foldl register b
  rw [append, List.foldl_flatMap, bytes]

/-- The published model is found under its name. -/
theorem resolve_iscsi : Registry.builtin.resolve "CRC-32/ISCSI" = .ok (.crc iscsi) := by
  have listed : Catalogue.entry "CRC-32/ISCSI" 32 0x1edc6f41 0xffffffff true true 0xffffffff
      0xe3069283 "iSCSI, SCTP, ext4; alias CRC-32C, CRC-32/CASTAGNOLI" ∈
        Catalogue.published.entries := by
    simp only [Catalogue.published, List.mem_cons, true_or, or_true]
  have resolved := Registry.resolve_of_published listed
  exact resolved

theorem resolve_crc32c : Registry.builtin.resolve "crc32c" = .ok (.named .crc32c) := by
  have listed : ("crc32c", "CRC-32C (Castagnoli), hardware accelerated", 32, Named.crc32c) ∈
      Registry.natives := by
    simp only [Registry.natives, List.mem_cons, true_or]
  have resolved := Registry.resolve_of_native listed
  exact resolved

end Castagnoli

/-- The digest that continues finished values, by any function that lets the bits enter as stated,
answers every sequence of calls as the table computation of the published model does; and so do the
digests that the registry has under the two names. -/
theorem castagnoli_digests_agree {append : UInt32 → Bytes → UInt32}
    (continues : Castagnoli.Continues append) :
    (∀ calls, (Castagnoli.streamingOf append).answers calls =
      Castagnoli.iscsi.streaming.answers calls) ∧
    Registry.builtin.resolve "CRC-32/ISCSI" = .ok (.crc Castagnoli.iscsi) ∧
    Registry.builtin.resolve "crc32c" = .ok (.named .crc32c) ∧
    ∀ calls, ((Hasher.start (.named .crc32c)).run calls).2 =
      ((Hasher.start (.crc Castagnoli.iscsi)).run calls).2 := by
  refine ⟨(Castagnoli.simulation continues).answers_eq, Castagnoli.resolve_iscsi,
    Castagnoli.resolve_crc32c, fun calls => ?_⟩
  exact (Castagnoli.simulation Castagnoli.continues_append).answers_eq calls

/-- The digits from one to nine in two pieces, with a value before, between and behind them, and
one after a reset. -/
theorem castagnoli_digests_agree_on_digits :
    Castagnoli.Continues Castagnoli.append ∧
      Castagnoli.iscsi.streaming.answers
        [.value, .update [0x31, 0x32, 0x33, 0x34, 0x35], .value,
          .update [0x36, 0x37, 0x38, 0x39], .value, .reset, .value] =
        [some [0x00, 0x00, 0x00, 0x00], none, some [0x18, 0xd1, 0x23, 0x35], none,
          some [0xe3, 0x06, 0x92, 0x83], none, some [0x00, 0x00, 0x00, 0x00]] := by
  have continues := Castagnoli.continues_append
  refine ⟨continues, ?_⟩
  rw [← (castagnoli_digests_agree continues).1]
  decide +kernel

end DigestFinder
