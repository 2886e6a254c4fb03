import DigestFinder.Algorithm

/-!
How long digests are: each algorithm yields as many bytes as its width in bits calls for, whatever
the message.
-/

namespace DigestFinder

universe u

section

variable {W : Type} [Add W] [AndOp W] [XorOp W] [Complement W]

theorem Sha2.length_hash {f : Sha2.Family W} (words : ∀ w, (f.toBytes w).length = f.wordBytes)
    (initial : Sha2.Chain W) {n : Nat} (h : n ≤ 8 * f.wordBytes) (message : Bytes) :
    (Sha2.hash f initial n message).length = n := by
  have all (chain : Sha2.Chain W) :
      (chain.toList.flatMap f.toBytes).length = 8 * f.wordBytes := by
    simp only [List.length_flatMap, words, List.map_const', List.sum_replicate_nat,
      Vector.length_toList]
  rw [Sha2.hash, List.length_take, all, Nat.min_eq_left h]

end

theorem Sha2.length_toBytes32 (w : UInt32) :
    (Sha2.family32.toBytes w).length = Sha2.family32.wordBytes :=
  Bytes.length_ofWord 4 _

theorem Sha2.length_toBytes64 (w : UInt64) :
    (Sha2.family64.toBytes w).length = Sha2.family64.wordBytes :=
  Bytes.length_ofWord 8 _

theorem XxHash.Xxh3.length_digest128 (message : Bytes) : (digest128 message).length = 16 := by
  rw [digest128, List.length_append, Bytes.length_ofWord, Bytes.length_ofWord]

theorem Fnv.length_digest (size : Size) (variant : Variant) (message : Bytes) :
    ((streaming size variant).digest message).length = Crc.byteLength (8 * size.bytes) := by
  have bytes : Crc.byteLength (8 * size.bytes) = size.bytes := by
    unfold Crc.byteLength
    omega
  rw [bytes]
  exact Bytes.length_ofWord ..

theorem Named.length_digest (n : Named) (message : Bytes) :
    (n.streaming.digest message).length = Crc.byteLength n.streaming.bits := by
  cases n with
  | xor8 => rfl
  | fnv size variant => exact Fnv.length_digest size variant message
  | xxh3Long => exact XxHash.Xxh3.length_digest128 _
  | sha224 => exact Sha2.length_hash Sha2.length_toBytes32 _ (by decide) _
  | sha256 => exact Sha2.length_hash Sha2.length_toBytes32 _ (by decide) _
  | sha384 => exact Sha2.length_hash Sha2.length_toBytes64 _ (by decide) _
  | sha512 => exact Sha2.length_hash Sha2.length_toBytes64 _ (by decide) _
  | sha512Cut224 => exact Sha2.length_hash Sha2.length_toBytes64 _ (by decide) _
  | sha512Cut256 => exact Sha2.length_hash Sha2.length_toBytes64 _ (by decide) _
  | _ => exact Bytes.length_ofWord ..

theorem Factory.length_digest {δ : Type u} {make : δ → Streaming}
    (made : ∀ kind message, ((make kind).digest message).length = Crc.byteLength (make kind).bits)
    (f : Factory δ) (message : Bytes) :
    ((f.streaming make).digest message).length = Crc.byteLength (f.streaming make).bits := by
  cases f with
  | crc m => exact Crc.length_toBytes _ _
  | named kind => exact made kind message

/-- The digest of an algorithm has the length of its width. -/
theorem Algorithm.length_digest (a : Algorithm) (message : Bytes) :
    (a.digest message).length = Crc.byteLength a.streaming.bits :=
  Factory.length_digest Named.length_digest a message

end DigestFinder
