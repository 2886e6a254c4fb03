import DigestFinder.Proofs.Crc.Containment

/-!
What the entries of a table stand for. Each is the register after its byte alone, and entries add up
as their bytes do: a step is linear in the register.
-/

namespace DigestFinder.Crc

section

variable (low : Bool) (poly v u : UInt64)

theorem bit_feed (i : Nat) :
    bit (feed low poly v) i = (bit (advance low v) i ^^ (lead low v && bit poly i)) := by
  rw [← enter_false, bit_enter, Bool.xor_false]

/-- A step of a sum of registers is the sum of the steps. -/
theorem feed_add : feed low poly (v ^^^ u) = feed low poly v ^^^ feed low poly u := by
  apply word_ext
  intro i _
  simp only [bit_feed, bit_xor, advance_xor, lead_xor, Bool.and_xor_distrib_right]
  rw [Bool.xor_assoc, Bool.xor_left_comm (bit (advance low u) i), ← Bool.xor_assoc]

theorem iterate_feed_add (n : Nat) :
    (feed low poly)^[n] (v ^^^ u) = (feed low poly)^[n] v ^^^ (feed low poly)^[n] u := by
  induction n generalizing v u with
  | zero => rfl
  | succ n ih => simp only [Function.iterate_succ_apply, feed_add, ih]

theorem place_xor (a b : UInt8) : place low (a ^^^ b) = place low a ^^^ place low b := by
  cases low
  · simp [place, shiftLeft_xor]
  · simp [place]

end

namespace Model

variable (m : Model)

theorem tableEntry_xor (a b : UInt8) :
    m.tableEntry (a ^^^ b) = m.tableEntry a ^^^ m.tableEntry b := by
  rw [tableEntry_eq, tableEntry_eq, tableEntry_eq, place_xor, iterate_feed_add]

theorem unorient_tableEntry (b : UInt8) : m.unorient (m.tableEntry b) = m.absorb 0 [b] := by
  rw [tableEntry_eq_orient, m.unorient_orient (m.absorbByte_le b UInt64.zero_le)]
  rfl

/-- By the table a register in its place takes a byte as its eight bits one after the other. -/
theorem absorb_singleton {register : UInt64} (h : m.Contained register) (b : UInt8) :
    m.table.absorb m.refIn register [b] =
      m.orient ((byteBits m.refIn b).foldl m.step (m.unorient register)) := by
  conv_lhs => rw [← h.orient_unorient]
  rw [absorb_orient, absorb_cons, absorb_nil, absorbByte_eq_foldl]

end Model

/-- The entry of a byte, turned back, is the register of the reference computation after that byte
from zero; the entry of a sum of bytes is the sum of their entries; and by the table a byte moves
every register that is in its place as eight steps of the reference computation do. -/
theorem table_entries (m : Model) :
    (∀ b : UInt8, m.unorient (m.table.get b.toFin) = m.absorb 0 [b]) ∧
    (∀ a b : UInt8, m.table.get (a ^^^ b).toFin =
      m.table.get a.toFin ^^^ m.table.get b.toFin) ∧
    ∀ register, m.Contained register → ∀ b : UInt8,
      m.table.absorb m.refIn register [b] =
        m.orient ((byteBits m.refIn b).foldl m.step (m.unorient register)) := by
  refine ⟨fun b => ?_, fun a b => ?_, fun register h b => m.absorb_singleton h b⟩
  · rw [m.table_get, m.unorient_tableEntry]
  · rw [m.table_get, m.table_get, m.table_get, m.tableEntry_xor]

/-- The three bits of CRC-3/GSM stand at the top of the word. The entry of the byte one is its
polynomial, and a byte leads from one register to another. -/
theorem table_entries_of_gsm :
    let m := Model.masked 3 (by decide) 0x3 0x0 false false 0x7
    m.unorient (m.table.get (1 : UInt8).toFin) = 0x3 ∧
      m.table.get (7 : UInt8).toFin =
        m.table.get (1 : UInt8).toFin ^^^ m.table.get (6 : UInt8).toFin ∧
      m.Contained 0x6000000000000000 ∧
      m.table.absorb m.refIn 0x6000000000000000 [0x31] = 0xc000000000000000 := by
  intro m
  obtain ⟨entries, sums, bytes⟩ := table_entries m
  have place : m.Contained 0x6000000000000000 := by
    have turned : m.orient 0x3 = 0x6000000000000000 := by decide
    exact turned ▸ m.contained_orient 0x3
  refine ⟨?_, sums 1 6, place, ?_⟩
  · rw [entries 1]
    decide
  · rw [bytes _ place]
    decide

end DigestFinder.Crc
