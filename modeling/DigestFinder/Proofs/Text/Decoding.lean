import DigestFinder.Proofs.Text.Reading

/-!
Hexadecimal digits, bits and Base64 read as bytes of a text. Main statements: what was written from
bytes is read as these bytes.
-/

namespace DigestFinder.Text

/-- The byte of a visible character. -/
def codeOf (c : Char) : UInt8 := c.toNat.toUInt8

namespace Hex

theorem readDigit_digit (upper : Bool) {v : UInt8} (h : v.toNat < 16) (index : Nat) :
    readDigit index (codeOf (digit upper v)) = .ok v := by
  have all : ∀ upper, ∀ n < 16,
      value? (codeOf (digit upper (UInt8.ofNat n))) = some (UInt8.ofNat n) := by
    decide
  have hv : value? (codeOf (digit upper v)) = some v := by simpa using all upper v.toNat h
  rw [readDigit, hv]

theorem halves (b : UInt8) : ((b >>> 4) <<< 4) ||| (b &&& 15) = b := by
  have hb := b.toNat_lt
  apply UInt8.toNat_inj.mp
  rw [toNat_shiftLeft_or (k := 4) _ _ (by decide) (by rw [toNat_high]; simp; omega)
    (by rw [toNat_low]; simp; omega), toNat_high, toNat_low]
  change b.toNat / 16 * 16 + b.toNat % 16 = b.toNat
  omega

theorem readPairs_encode (upper : Bool) (bs : Bytes) (index : Nat) :
    readPairs index ((encode upper bs).map codeOf) = .ok bs := by
  induction bs generalizing index with
  | nil => rfl
  | cons b bs ih =>
    have hb := b.toNat_lt
    have two : (encode upper (b :: bs)).map codeOf = codeOf (digit upper (b >>> 4)) ::
        codeOf (digit upper (b &&& 15)) :: (encode upper bs).map codeOf := rfl
    have high := readDigit_digit upper (v := b >>> 4) (by rw [toNat_high]; omega) index
    have low := readDigit_digit upper (v := b &&& 15) (by rw [toNat_low]; omega) (index + 1)
    rw [two, readPairs, high, low, ih]
    exact congrArg (fun c => Except.ok (c :: bs)) (halves b)

theorem length_encode (upper : Bool) (bs : Bytes) : (encode upper bs).length = 2 * bs.length := by
  rw [encode, List.length_flatMap]
  simp [Nat.mul_comm]

/-- Digits in either case are read as the bytes that they were written from. -/
theorem decode_encode (upper : Bool) (bs : Bytes) :
    decode ((encode upper bs).map codeOf) = .ok bs := by
  rw [decode, List.length_map, length_encode, Nat.mul_mod_right, if_pos rfl, readPairs_encode]

end Hex

namespace Base64

/-- A symbol of the standard alphabet is read as its value. -/
theorem value?_symbol {v : UInt8} (h : v.toNat < 64) :
    value? (codeOf (Alphabet.standard.symbol v)) = some v := by
  have all : ∀ n < 64,
      value? (codeOf (Alphabet.standard.symbol (UInt8.ofNat n))) = some (UInt8.ofNat n) := by
    decide
  simpa using all v.toNat h

theorem readSymbol_symbol {v : UInt8} (h : v.toNat < 64) (index : Nat) :
    readSymbol index (codeOf (Alphabet.standard.symbol v)) = .ok v := by
  rw [readSymbol, value?_symbol h]

theorem symbol_ne_pad {v : UInt8} (h : v.toNat < 64) :
    codeOf (Alphabet.standard.symbol v) ≠ pad := by
  intro hp
  have hv := value?_symbol h
  rw [hp] at hv
  cases hv

theorem lt_of_mem_sixes {x y z v : UInt8} (h : v ∈ sixes x y z) : v.toNat < 64 := by
  have hm : v.toNat ∈ (sixes x y z).map UInt8.toNat := List.mem_map_of_mem h
  have hx := x.toNat_lt
  have hy := y.toNat_lt
  have hz := z.toNat_lt
  rw [toNat_sixes] at hm
  simp only [List.mem_cons, List.not_mem_nil, or_false] at hm
  omega

/-- The values of a group are joined to its bytes. -/
theorem join_sixes (x y z : UInt8) : join (sixes x y z) = ([x, y, z], 0) := by
  have hx := x.toNat_lt
  have hy := y.toNat_lt
  have hz := z.toNat_lt
  have values := toNat_sixes x y z
  unfold sixes at values ⊢
  generalize x >>> 2 = s at values ⊢
  generalize ((x &&& 3) <<< 4) ||| (y >>> 4) = t at values ⊢
  generalize ((y &&& 15) <<< 2) ||| (z >>> 6) = u at values ⊢
  generalize z &&& 63 = v at values ⊢
  simp only [List.map_cons, List.map_nil, List.cons.injEq, and_true] at values
  obtain ⟨hs, ht, hu, hv⟩ := values
  have high : (t >>> 4).toNat = t.toNat / 16 := Hex.toNat_high t
  have upper : (u >>> 2).toNat = u.toNat / 4 := by simp [Nat.shiftRight_eq_div_pow]
  have first : (s <<< 2) ||| (t >>> 4) = x := by
    rw [← UInt8.toNat_inj, toNat_shiftLeft_or_mod s _ (k := 2) (by decide)
      (by rw [high]; simp; omega), high]
    simp
    omega
  have second : (t <<< 4) ||| (u >>> 2) = y := by
    rw [← UInt8.toNat_inj, toNat_shiftLeft_or_mod t _ (k := 4) (by decide)
      (by rw [upper]; simp; omega), upper]
    simp
    omega
  have third : (u <<< 6) ||| v = z := by
    rw [← UInt8.toNat_inj, toNat_shiftLeft_or_mod u _ (k := 6) (by decide) (by simp; omega)]
    simp
    omega
  rw [join, first, second, third]

/-- Of two bytes there are three values, and no bits are left. -/
theorem join_sixes_two (x y : UInt8) : join ((sixes x y 0).take 3) = ([x, y], 0) := by
  have whole := join_sixes x y 0
  have values := toNat_sixes x y 0
  simp only [sixes, join, Prod.mk.injEq, List.cons.injEq, and_true, List.take_succ_cons,
    List.take_zero, List.map_cons, List.map_nil] at whole values ⊢
  have low (u : UInt8) : (u &&& 3).toNat = u.toNat % 4 := toNat_and_ones u (k := 2) (by decide)
  refine ⟨⟨whole.1, whole.2.1⟩, ?_⟩
  rw [← UInt8.toNat_inj, low, values.2.2.1]
  simp

theorem join_sixes_one (x : UInt8) : join ((sixes x 0 0).take 2) = ([x], 0) := by
  have whole := join_sixes x 0 0
  have values := toNat_sixes x 0 0
  simp only [sixes, join, Prod.mk.injEq, List.cons.injEq, and_true, List.take_succ_cons,
    List.take_zero, List.map_cons, List.map_nil] at whole values ⊢
  refine ⟨whole.1, ?_⟩
  rw [← UInt8.toNat_inj, Hex.toNat_low, values.2.1]
  simp

/-- The bytes of the symbols of values. -/
def written (vs : List UInt8) : Bytes := vs.map fun v => codeOf (Alphabet.standard.symbol v)

theorem readTail_written {vs : List UInt8} (small : ∀ v ∈ vs, v.toNat < 64) (start : Nat)
    (t : Tail) (bare : t.pads = 0) (rest : Bytes) : ∃ last,
    readTail start t (written vs ++ rest) = readTail start ⟨t.values ++ vs, last, 0⟩ rest := by
  induction vs generalizing t with
  | nil =>
    refine ⟨t.lastSymbol, ?_⟩
    rw [List.append_nil, ← bare]
    rfl
  | cons v vs ih =>
    rw [List.forall_mem_cons] at small
    obtain ⟨hv, hvs⟩ := small
    obtain ⟨last, more⟩ := ih hvs ⟨t.values ++ [v], codeOf (Alphabet.standard.symbol v), 0⟩ rfl
    refine ⟨last, ?_⟩
    have one : written (v :: vs) ++ rest =
        codeOf (Alphabet.standard.symbol v) :: (written vs ++ rest) := rfl
    rw [one, readTail, if_neg (symbol_ne_pad hv), if_neg (by omega), readSymbol_symbol hv, bare]
    exact more.trans (by rw [List.append_assoc]; rfl)

theorem readTail_pads (start count : Nat) (t : Tail) (late : 2 ≤ t.values.length + t.pads) :
    readTail start t (List.replicate count pad) = .ok { t with pads := t.pads + count } := by
  induction count generalizing t with
  | zero => rfl
  | succ count ih =>
    rw [List.replicate_succ, readTail, if_pos rfl, if_neg (by omega), ih _ (by simp; omega)]
    simp [Nat.add_assoc, Nat.add_comm 1]

/-- The last group, filled up with padding. -/
theorem readGroups_last {vs : List UInt8} (small : ∀ v ∈ vs, v.toNat < 64) {bs : Bytes}
    (joined : join vs = (bs, 0)) (several : 2 ≤ vs.length) (few : vs.length ≤ 4) (start : Nat) :
    readGroups start (written vs ++ List.replicate (4 - vs.length) pad) = .ok bs := by
  have size : (written vs ++ List.replicate (4 - vs.length) pad).length = 4 := by
    simp [written]
    omega
  obtain ⟨last, symbols⟩ :=
    readTail_written small start {} rfl (List.replicate (4 - vs.length) pad)
  have pads := readTail_pads start (4 - vs.length) ⟨[] ++ vs, last, 0⟩ (by simpa using several)
  unfold readGroups
  split
  · next he =>
    rw [he] at size
    simp at size
  · rw [symbols, pads]
    change finish start ⟨vs, last, 0 + (4 - vs.length)⟩ = _
    rw [finish, if_neg (by simp; omega), if_neg (by simp; omega), joined]
    rfl

theorem length_encode (a : Alphabet) (bs : Bytes) : (encode a true bs).length % 4 = 0 := by
  fun_induction encode a true bs with
  | case1 x y z rest ih =>
    simp only [List.length_cons]
    omega
  | case2 | case3 => simp
  | case4 => rfl

theorem readGroups_full {vs : List UInt8} (size : vs.length = 4)
    (small : ∀ v ∈ vs, v.toNat < 64) {rest bs : Bytes} (hne : rest ≠ []) (start : Nat)
    (more : readGroups (start + 4) rest = .ok bs) :
    readGroups start (written vs ++ rest) = .ok ((join vs).1 ++ bs) := by
  match vs, rest, size, hne with
  | [s, t, u, v], e :: es, _, _ =>
    simp only [List.forall_mem_cons] at small
    obtain ⟨hs, ht, hu, hv, -⟩ := small
    have text : written [s, t, u, v] ++ e :: es = codeOf (Alphabet.standard.symbol s) ::
        codeOf (Alphabet.standard.symbol t) :: codeOf (Alphabet.standard.symbol u) ::
        codeOf (Alphabet.standard.symbol v) :: e :: es := rfl
    rw [text, readGroups, readSymbol_symbol hs, readSymbol_symbol ht, readSymbol_symbol hu,
      readSymbol_symbol hv, more]
    rfl

/-- Symbols and padding are read as the bytes that they were written from. -/
theorem readGroups_encode {bs : Bytes} (hne : bs ≠ []) (start : Nat) :
    readGroups start ((encode .standard true bs).map codeOf) = .ok bs := by
  have small {x y z : UInt8} {n : Nat} : ∀ v ∈ (sixes x y z).take n, v.toNat < 64 :=
    fun v h => lt_of_mem_sixes (List.mem_of_mem_take h)
  induction bs using encode.induct generalizing start with
  | case1 x y z rest ih =>
    cases rest with
    | nil =>
      exact readGroups_last (small (n := 4)) (join_sixes x y z) (by simp [sixes]) (by simp [sixes])
        start
    | cons b rest =>
      have more := ih (List.cons_ne_nil b rest) (start + 4)
      have nonempty : (encode .standard true (b :: rest)).map codeOf ≠ [] := by
        rw [ne_eq, List.map_eq_nil_iff]
        intro he
        rw [he] at more
        cases more
      have text : (encode .standard true (x :: y :: z :: b :: rest)).map codeOf =
          written (sixes x y z) ++ (encode .standard true (b :: rest)).map codeOf := by
        rw [encode]
        rfl
      have all : ∀ v ∈ sixes x y z, v.toNat < 64 := fun v h => lt_of_mem_sixes h
      rw [text, readGroups_full rfl all nonempty start more, join_sixes]
      rfl
  | case2 x y =>
    have text : (encode .standard true [x, y]).map codeOf =
        written ((sixes x y 0).take 3) ++ List.replicate 1 pad := by
      simp [encode, sixes, written]
      rfl
    rw [text]
    exact readGroups_last small (join_sixes_two x y) (by simp [sixes]) (by simp [sixes]) start
  | case3 x =>
    have text : (encode .standard true [x]).map codeOf =
        written ((sixes x 0 0).take 2) ++ List.replicate 2 pad := by
      simp [encode, sixes, written]
      rfl
    rw [text]
    exact readGroups_last small (join_sixes_one x) (by simp [sixes]) (by simp [sixes]) start
  | case4 => exact absurd rfl hne

/-- What was written with padding is read as the bytes that it was written from. -/
theorem decode_encode (bs : Bytes) :
    decode ((encode .standard true bs).map codeOf) = .ok bs := by
  cases bs with
  | nil => rfl
  | cons b rest =>
    have read := readGroups_encode (List.cons_ne_nil b rest) 0
    have whole := length_encode .standard (b :: rest)
    unfold decode
    split
    · rw [if_neg (by simp [whole]), read]
    · next none =>
      rw [List.getLast?_eq_none_iff.mp none] at read
      cases read

end Base64

end DigestFinder.Text
