import DigestFinder.Algorithm
import DigestFinder.Catalogue.Published
import DigestFinder.IdMap

/-!
Algorithms under identifiers. A name that is not listed may still be the name of a catalogue entry
or the text of a CRC model.
-/

namespace DigestFinder

universe u

/-- A listed algorithm, with the width under which it is listed. -/
structure Listing (δ : Type u) where
  description : String
  bits : Nat
  factory : Factory δ
  deriving DecidableEq

/-- Why there is no algorithm of some name. -/
inductive DigestError
  | unknown (id : String)
  | crc (cause : Crc.Error)
  deriving Repr, DecidableEq

def DigestError.message : DigestError → String
  | unknown id => s!"unknown algorithm: {id}"
  | crc cause => cause.message

structure Registry (δ : Type u) where
  listings : IdMap (Listing δ)
  catalogue : Catalogue

namespace Registry

variable {δ : Type u}

def insert (r : Registry δ) (id description : String) (bits : Nat) (kind : δ) : Registry δ :=
  { r with listings := r.listings.insert id ⟨description, bits, .named kind⟩ }

/-- A CRC is listed under the width of its model. -/
def insertCrc (r : Registry δ) (id description : String) (model : Crc.Model) : Registry δ :=
  { r with listings := r.listings.insert id ⟨description, model.width, .crc model⟩ }

def size (r : Registry δ) : Nat := r.listings.size

/-- Identifiers and descriptions, of all algorithms or of those of one width. -/
def list (r : Registry δ) (bits : Option Nat) : IdMap String :=
  (r.listings.filter fun l => bits.all (l.bits == ·)).map (·.description)

/-- Find the algorithm of a name: listings first, then catalogue entries in any letter case, then
models behind `crc:`. -/
def resolve (r : Registry δ) (id : String) : Except DigestError (Factory δ) :=
  match r.listings.find? id with
  | some l => .ok l.factory
  | none =>
    match r.catalogue.get? id with
    | some e => .ok (.crc e.model)
    | none =>
      if "crc:".toList.isPrefixOf id.toList || "CRC:".toList.isPrefixOf id.toList then
        match Crc.Model.read id with
        | .ok model => .ok (.crc model)
        | .error cause => .error (.crc cause)
      else .error (.unknown id)

/-- A new digest of a name. -/
def instantiate (make : δ → Streaming) (r : Registry δ) (id : String) :
    Except DigestError Streaming :=
  (r.resolve id).map (Factory.streaming make)

/-- Short names of well-known CRCs. -/
def aliases : List (String × String) := [
  ("crc8", "CRC-8/SMBUS"),
  ("crc16", "CRC-16/ARC"),
  ("crc16_x25", "CRC-16/IBM-SDLC"),
  ("crc16_xmodem", "CRC-16/XMODEM"),
  ("crc24", "CRC-24/OPENPGP"),
  ("crc32", "CRC-32/ISO-HDLC"),
  ("crc32_bzip2", "CRC-32/BZIP2"),
  ("crc32_mpeg2", "CRC-32/MPEG-2"),
  ("crc64", "CRC-64/ECMA-182"),
  ("crc64_xz", "CRC-64/XZ"),
  ("cksum", "POSIX-CKSUM")]

/-- The algorithms without parameters, with the widths of their digests. -/
def natives : List (String × String × Nat × Named) := [
  ("crc32c", "CRC-32C (Castagnoli), hardware accelerated", 32, .crc32c),
  ("adler32", "Adler-32, RFC 1950", 32, .adler32),
  ("fletcher16", "Fletcher-16", 16, .fletcher16),
  ("sum8", "Byte sum modulo 2^8", 8, .sum8),
  ("sum16", "Byte sum modulo 2^16", 16, .sum16),
  ("sum24", "Byte sum modulo 2^24", 24, .sum24),
  ("sum32", "Byte sum modulo 2^32", 32, .sum32),
  ("sysv", "UNIX System V sum", 16, .systemV),
  ("bsd", "BSD sum", 16, .bsd),
  ("elf", "ELF symbol hash", 32, .elf),
  ("xor8", "XOR of all bytes", 8, .xor8),
  ("fnv-0_32", "FNV-0, 32 bit", 32, .fnv .bits32 .fnv0),
  ("fnv-1_32", "FNV-1, 32 bit", 32, .fnv .bits32 .fnv1),
  ("fnv-1a_32", "FNV-1a, 32 bit", 32, .fnv .bits32 .fnv1a),
  ("fnv-0_64", "FNV-0, 64 bit", 64, .fnv .bits64 .fnv0),
  ("fnv-1_64", "FNV-1, 64 bit", 64, .fnv .bits64 .fnv1),
  ("fnv-1a_64", "FNV-1a, 64 bit", 64, .fnv .bits64 .fnv1a),
  ("xxh32", "xxHash XXH32, seed 0", 32, .xxh32),
  ("xxh64", "xxHash XXH64, seed 0", 64, .xxh64),
  ("xxh3_64", "xxHash XXH3, 64 bit", 64, .xxh3Short),
  ("xxh3_128", "xxHash XXH3, 128 bit", 128, .xxh3Long),
  ("sha224", "SHA-224, FIPS 180-4", 224, .sha224),
  ("sha256", "SHA-256, FIPS 180-4", 256, .sha256),
  ("sha384", "SHA-384, FIPS 180-4", 384, .sha384),
  ("sha512", "SHA-512, FIPS 180-4", 512, .sha512),
  ("sha512_224", "SHA-512/224, FIPS 180-4", 224, .sha512Cut224),
  ("sha512_256", "SHA-512/256, FIPS 180-4", 256, .sha512Cut256)]

/-- List an entry of the catalogue under a short name. -/
def insertAlias (r : Registry δ) (names : String × String) : Registry δ :=
  match r.catalogue.get? names.2 with
  | some e => r.insertCrc names.1 s!"{e.id} ({e.description})" e.model
  | none => r

/-- The published models under their short names, and the algorithms without parameters, each as
what stands for it. -/
def builtinOf (kinds : Named → δ) : Registry δ :=
  let r := aliases.foldl insertAlias ⟨.empty, .published⟩
  natives.foldl (fun r (id, description, bits, n) => r.insert id description bits (kinds n)) r

def builtin : Registry Named := builtinOf id

end Registry

end DigestFinder
