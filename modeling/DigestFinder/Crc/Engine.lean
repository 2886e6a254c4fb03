import DigestFinder.Crc.Bitwise
import DigestFinder.Crc.ModelText

/-!
Incremental computation with a table of 256 entries, a byte at a time. Where the input is
reflected the register is reflected too and shifts right; elsewhere it shifts left and is aligned
to the top of the word, so that the same table serves widths below eight.
-/

namespace DigestFinder.Crc

@[inline] def eightTimes (f : UInt64 → UInt64) (v : UInt64) : UInt64 :=
  f (f (f (f (f (f (f (f v)))))))

abbrev Table := Vector UInt64 256

namespace Model

/-- One step of the right-shifting register. -/
@[inline] def stepRight (poly v : UInt64) : UInt64 :=
  if v &&& 1 != 0 then (v >>> 1) ^^^ poly else v >>> 1

/-- One step of the register that is aligned to the top. -/
@[inline] def stepLeft (poly v : UInt64) : UInt64 :=
  if v >>> 63 != 0 then (v <<< 1) ^^^ poly else v <<< 1

/-- The distance from the top of a register to the top of the word. -/
@[inline] def gap (m : Model) : UInt64 := (64 - m.width).toUInt64

/-- What eight steps make of a byte that is about to leave the register. -/
def tableEntry (m : Model) (b : UInt8) : UInt64 :=
  if m.refIn then
    let poly := reflect m.poly m.width
    eightTimes (stepRight poly) b.toUInt64
  else
    let poly := m.poly <<< m.gap
    eightTimes (stepLeft poly) (b.toUInt64 <<< 56)

def table (m : Model) : Table := Vector.ofFn fun i => m.tableEntry (UInt8.ofFin i)

/-- Turn a register of the reference computation into the orientation of the table. -/
def orient (m : Model) (register : UInt64) : UInt64 :=
  if m.refIn then reflect register m.width else register <<< m.gap

/-- Turn the register back. -/
def unorient (m : Model) (register : UInt64) : UInt64 :=
  if m.refIn then reflect register m.width else register >>> m.gap

end Model

/-- One byte enters a right-shifting register. -/
@[inline] def Table.stepRight (t : Table) (register : UInt64) (b : UInt8) : UInt64 :=
  (register >>> 8) ^^^ t.get (register.toUInt8 ^^^ b).toFin

/-- One byte enters a register that is aligned to the top. -/
@[inline] def Table.stepLeft (t : Table) (register : UInt64) (b : UInt8) : UInt64 :=
  (register <<< 8) ^^^ t.get ((register >>> 56).toUInt8 ^^^ b).toFin

def Table.absorb (t : Table) (refIn : Bool) (register : UInt64) (data : Bytes) : UInt64 :=
  if refIn then data.foldl t.stepRight register else data.foldl t.stepLeft register

/-- A computation under way. -/
structure Engine (m : Model) where
  table : Table
  register : UInt64
  length : UInt64
  table_eq : table = m.table

namespace Engine

variable {m : Model}

def start (m : Model) : Engine m := ⟨m.table, m.orient m.init, 0, rfl⟩

def update (e : Engine m) (data : Bytes) : Engine m :=
  { e with
    register := e.table.absorb m.refIn e.register data
    length := e.length + data.length.toUInt64 }

/-- The CRC of everything fed since the start. -/
def value (e : Engine m) : UInt64 :=
  m.finish (m.unorient (e.table.absorb m.refIn e.register (m.trailer e.length)))

def digest (e : Engine m) : Bytes := toBytes e.value m.width

def reset (e : Engine m) : Engine m := { e with register := m.orient m.init, length := 0 }

/-- The CRC of some other data, with the same table. -/
def checksum (e : Engine m) (data : Bytes) : UInt64 := (e.reset.update data).value

/-- The state in words; the register is shown as the reference computation holds it. -/
def display (e : Engine m) : String :=
  let register := Text.numeral 16 (m.unorient e.register).toNat
  s!"Crc \x7b model: {Text.quote m.text}, register: 0x{register}, length: {e.length.toNat} \x7d"

end Engine

end DigestFinder.Crc
