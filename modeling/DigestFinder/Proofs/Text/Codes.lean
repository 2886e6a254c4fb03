import Mathlib.Data.Nat.Bitwise
import DigestFinder.Encoding
import DigestFinder.Proofs.BigEndian
import DigestFinder.Proofs.Lists
import DigestFinder.Proofs.Text.LetterCase

/-!
The written forms of byte strings can be taken back: two byte strings of one length with the same
digits or symbols are equal. For hexadecimal digits this holds in any letter case.
-/

namespace DigestFinder

/-- The low bits of a byte. -/
theorem toNat_and_ones (b : UInt8) {k : Nat} (h : k < 8) :
    (b &&& UInt8.ofNat (2 ^ k - 1)).toNat = b.toNat % 2 ^ k := by
  have hk : 2 ^ k < 2 ^ 8 := Nat.pow_lt_pow_right (by decide) h
  rw [UInt8.toNat_and, UInt8.toNat_ofNat', Nat.mod_eq_of_lt (a := 2 ^ k - 1) (by omega),
    Nat.and_two_pow_sub_one_eq_mod]

/-- Bits of two bytes side by side; those that are shifted out are lost. -/
theorem toNat_shiftLeft_or_mod (high low : UInt8) {k : UInt8} (hk : k.toNat < 8)
    (hl : low.toNat < 2 ^ k.toNat) :
    ((high <<< k) ||| low).toNat = high.toNat * 2 ^ k.toNat % 256 + low.toNat := by
  have low0 : high.toNat * 2 ^ k.toNat % 256 = (high.toNat % 2 ^ (8 - k.toNat)) <<< k.toNat := by
    rw [Nat.shiftLeft_eq, ← Nat.mul_mod_mul_right, ← Nat.pow_add, Nat.sub_add_cancel hk.le]
  rw [UInt8.toNat_or, UInt8.toNat_shiftLeft, Nat.mod_eq_of_lt hk, Nat.shiftLeft_eq]
  change high.toNat * 2 ^ k.toNat % 256 ||| low.toNat = _
  rw [low0, Nat.shiftLeft_add_eq_or_of_lt hl]

theorem toNat_shiftLeft_or (high low : UInt8) {k : UInt8} (hk : k.toNat < 8)
    (hh : high.toNat * 2 ^ k.toNat < 256) (hl : low.toNat < 2 ^ k.toNat) :
    ((high <<< k) ||| low).toNat = high.toNat * 2 ^ k.toNat + low.toNat := by
  rw [toNat_shiftLeft_or_mod high low hk hl, Nat.mod_eq_of_lt hh]

namespace Text

theorem digits_injective {radix : Nat} (h1 : 1 < radix) (h10 : radix ≤ 10) :
    Function.Injective (digits radix) := by
  intro n m h
  rw [digits_eq_toDigits h1, digits_eq_toDigits h1] at h
  rw [← Nat.ofDigitChars_toDigits h1 h10 (n := n), h, Nat.ofDigitChars_toDigits h1 h10]

theorem isDigit_of_mem_digits {radix n : Nat} (h1 : 1 < radix) (h10 : radix ≤ 10) {c : Char}
    (h : c ∈ digits radix n) : c.isDigit := by
  rw [digits_eq_toDigits h1] at h
  exact Nat.isDigit_of_mem_toDigits (by omega) h10 h

namespace Hex

/-- A digit of either case is read as its value. -/
theorem value?_toLower_digit (upper : Bool) {v : UInt8} (h : v.toNat < 16) :
    value? (digit upper v).toLower.toNat.toUInt8 = some v := by
  have all : ∀ upper, ∀ n < 16,
      value? (digit upper (UInt8.ofNat n)).toLower.toNat.toUInt8 = some (UInt8.ofNat n) := by
    decide
  simpa using all upper v.toNat h

theorem toNat_high (b : UInt8) : (b >>> 4).toNat = b.toNat / 16 := by
  simp [Nat.shiftRight_eq_div_pow]

theorem toNat_low (b : UInt8) : (b &&& 15).toNat = b.toNat % 16 :=
  toNat_and_ones b (k := 4) (by decide)

theorem pair_injective (upper : Bool) : Function.Injective fun (b : UInt8) =>
    [digit upper (b >>> 4), digit upper (b &&& 15)].map Char.toLower := by
  have cancel {v u : UInt8} (hv : v.toNat < 16) (hu : u.toNat < 16)
      (h : (digit upper v).toLower = (digit upper u).toLower) : v.toNat = u.toNat := by
    have hs := value?_toLower_digit upper hv
    rw [h, value?_toLower_digit upper hu] at hs
    exact congrArg UInt8.toNat (Option.some.inj hs).symm
  intro a b h
  simp only [List.map_cons, List.map_nil, List.cons.injEq, and_true] at h
  have ha := a.toNat_lt
  have hb := b.toNat_lt
  have high := cancel (by rw [toNat_high]; omega) (by rw [toNat_high]; omega) h.1
  have low := cancel (by rw [toNat_low]; omega) (by rw [toNat_low]; omega) h.2
  rw [toNat_high, toNat_high] at high
  rw [toNat_low, toNat_low] at low
  apply UInt8.toNat_inj.mp
  omega

theorem encode_cancel (upper : Bool) {bs cs : Bytes} (hl : bs.length = cs.length)
    (h : (encode upper bs).map Char.toLower = (encode upper cs).map Char.toLower) : bs = cs := by
  unfold encode at h
  rw [List.map_flatMap, List.map_flatMap] at h
  exact List.flatMap_cancel (n := 2) (fun _ => rfl) (pair_injective upper) hl h

end Hex

namespace Base64

theorem toNat_symbol (a : Alphabet) (v : UInt8) : (a.symbol v).toNat =
    if v.toNat < 26 then 65 + v.toNat
    else if v.toNat < 52 then 71 + v.toNat
    else if v.toNat < 62 then v.toNat - 4
    else if v.toNat = 62 then a.symbol62.toNat else a.symbol63.toNat := by
  have below (n : UInt8) : v < n ↔ v.toNat < n.toNat := UInt8.lt_iff_toNat_lt
  have last : v = 62 ↔ v.toNat = 62 := UInt8.toNat_inj.symm
  unfold Alphabet.symbol
  simp only [below, last, apply_ite Char.toNat]
  change (if v.toNat < 26 then _ else if v.toNat < 52 then _ else if v.toNat < 62 then _ else _) = _
  split_ifs with capital small digit
  · exact toNat_ofNat_of_lt (by omega)
  · exact toNat_ofNat_of_lt (by omega)
  · exact toNat_ofNat_of_lt (by omega)
  · rfl
  · rfl

/-- The codes of the symbols in which the alphabets differ. -/
theorem toNat_last {a : Alphabet} (ha : a = .standard ∨ a = .urlSafe) :
    a.symbol62.toNat = 43 ∧ a.symbol63.toNat = 47 ∨
      a.symbol62.toNat = 45 ∧ a.symbol63.toNat = 95 := by
  rcases ha with rfl | rfl
  · exact .inl ⟨rfl, rfl⟩
  · exact .inr ⟨rfl, rfl⟩

/-- Both alphabets are without repetition. -/
theorem symbol_injective {a : Alphabet} (ha : a = .standard ∨ a = .urlSafe) {v u : UInt8}
    (hv : v.toNat < 64) (hu : u.toNat < 64) (h : a.symbol v = a.symbol u) : v.toNat = u.toNat := by
  have last := toNat_last ha
  have codes := congrArg Char.toNat h
  rw [toNat_symbol, toNat_symbol] at codes
  split_ifs at codes <;> omega

/-- The four values of six bits in three bytes. -/
def sixes (x y z : UInt8) : List UInt8 :=
  [x >>> 2, ((x &&& 3) <<< 4) ||| (y >>> 4), ((y &&& 15) <<< 2) ||| (z >>> 6), z &&& 63]

theorem toNat_sixes (x y z : UInt8) : (sixes x y z).map UInt8.toNat =
    [x.toNat / 4, x.toNat % 4 * 16 + y.toNat / 16, y.toNat % 16 * 4 + z.toNat / 64,
      z.toNat % 64] := by
  have h1 : (x >>> 2).toNat = x.toNat / 4 := by simp [Nat.shiftRight_eq_div_pow]
  have h2 : (x &&& 3).toNat = x.toNat % 4 := toNat_and_ones x (k := 2) (by decide)
  have h3 : (y >>> 4).toNat = y.toNat / 16 := Hex.toNat_high y
  have h4 : (y &&& 15).toNat = y.toNat % 16 := Hex.toNat_low y
  have h5 : (z >>> 6).toNat = z.toNat / 64 := by simp [Nat.shiftRight_eq_div_pow]
  have h6 : (z &&& 63).toNat = z.toNat % 64 := toNat_and_ones z (k := 6) (by decide)
  have hy := y.toNat_lt
  have hz := z.toNat_lt
  have h23 := toNat_shiftLeft_or (x &&& 3) (y >>> 4) (k := 4) (by decide)
    (by rw [h2]; simp; omega) (by rw [h3]; simp; omega)
  have h45 := toNat_shiftLeft_or (y &&& 15) (z >>> 6) (k := 2) (by decide)
    (by rw [h4]; simp; omega) (by rw [h5]; simp; omega)
  rw [h2, h3] at h23
  rw [h4, h5] at h45
  simp only [sixes, List.map_cons, List.map_nil, h1, h23, h45, h6]
  rfl

/-- The symbols of a group determine its bytes. -/
theorem sixes_cancel {a : Alphabet} (ha : a = .standard ∨ a = .urlSafe) (x y z x' y' z' : UInt8)
    (h : (sixes x y z).map a.symbol = (sixes x' y' z').map a.symbol) :
    x = x' ∧ y = y' ∧ z = z' := by
  have hv := toNat_sixes x y z
  have hv' := toNat_sixes x' y' z'
  simp only [sixes, List.map_cons, List.map_nil, List.cons.injEq, and_true] at h hv hv'
  have hx := x.toNat_lt
  have hy := y.toNat_lt
  have hz := z.toNat_lt
  have hx' := x'.toNat_lt
  have hy' := y'.toNat_lt
  have hz' := z'.toNat_lt
  have h1 := symbol_injective ha (by omega) (by omega) h.1
  have h2 := symbol_injective ha (by omega) (by omega) h.2.1
  have h3 := symbol_injective ha (by omega) (by omega) h.2.2.1
  have h4 := symbol_injective ha (by omega) (by omega) h.2.2.2
  refine ⟨UInt8.toNat_inj.mp ?_, UInt8.toNat_inj.mp ?_, UInt8.toNat_inj.mp ?_⟩ <;> omega

theorem encode_cancel {a : Alphabet} (ha : a = .standard ∨ a = .urlSafe) (padded : Bool)
    {bs cs : Bytes} (hl : bs.length = cs.length) (h : encode a padded bs = encode a padded cs) :
    bs = cs := by
  fun_induction encode a padded bs generalizing cs with
  | case1 x y z rest ih =>
    match cs, hl with
    | x' :: y' :: z' :: rest', hl =>
      rw [encode] at h
      simp only [List.cons.injEq] at h
      obtain ⟨h1, h2, h3, h4, hr⟩ := h
      obtain ⟨rfl, rfl, rfl⟩ := sixes_cancel ha x y z x' y' z' (by simp [sixes, h1, h2, h3, h4])
      rw [ih (by simpa using hl) hr]
  | case2 x y =>
    match cs, hl with
    | [x', y'], _ =>
      rw [encode] at h
      simp only [List.cons.injEq] at h
      obtain ⟨h1, h2, h3, -⟩ := h
      obtain ⟨rfl, rfl, -⟩ := sixes_cancel ha x y 0 x' y' 0 (by simp [sixes, h1, h2, h3])
      rfl
  | case3 x =>
    match cs, hl with
    | [x'], _ =>
      rw [encode] at h
      simp only [List.cons.injEq] at h
      obtain ⟨h1, h2, -⟩ := h
      obtain ⟨rfl, -⟩ := sixes_cancel ha x 0 0 x' 0 0 (by simp [sixes, h1, h2])
      rfl
  | case4 => exact (List.length_eq_zero_iff.mp hl.symm).symm

end Base64

namespace Z85

/-- The alphabet is without repetition. -/
theorem digit_injective {v u : Nat} (hv : v < 85) (hu : u < 85) (h : digit v = digit u) :
    v = u := by
  have all : ((List.range 85).map fun v => (digit v).toNat).Nodup := by decide +kernel
  exact List.inj_on_of_nodup_map all (List.mem_range.mpr hv) (List.mem_range.mpr hu)
    (congrArg Char.toNat h)

theorem length_frame (n : Nat) : (frame n).length = 5 := rfl

theorem frame_cancel {n m : Nat} (hn : n < 256 ^ 4) (hm : m < 256 ^ 4) (h : frame n = frame m) :
    n = m := by
  simp only [frame, List.cons.injEq, and_true] at h
  obtain ⟨h4, h3, h2, h1, h0⟩ := h
  have below (k : Nat) : k % 85 < 85 := Nat.mod_lt _ (by decide)
  replace h4 := digit_injective (below _) (below _) h4
  replace h3 := digit_injective (below _) (below _) h3
  replace h2 := digit_injective (below _) (below _) h2
  replace h1 := digit_injective (below _) (below _) h1
  replace h0 := digit_injective (below _) (below _) h0
  omega

theorem encodeFrames_cancel {bs cs : Bytes} (whole : bs.length % 4 = 0)
    (hl : bs.length = cs.length) (h : encodeFrames bs = encodeFrames cs) : bs = cs := by
  fun_induction encodeFrames bs generalizing cs with
  | case1 a b c d rest ih =>
    match cs, hl with
    | a' :: b' :: c' :: d' :: rest', hl =>
      rw [encodeFrames] at h
      obtain ⟨hf, hr⟩ := List.append_inj h ((length_frame _).trans (length_frame _).symm)
      have hv := frame_cancel (Bytes.toNat_lt [a, b, c, d]) (Bytes.toNat_lt [a', b', c', d']) hf
      have hg : [a, b, c, d] = [a', b', c', d'] := Bytes.toNat_injective rfl hv
      simp only [List.length_cons] at whole hl
      have ht := ih (by omega) (by omega) hr
      simp only [List.cons.injEq] at hg
      obtain ⟨rfl, rfl, rfl, rfl, -⟩ := hg
      rw [ht]
  | case2 bs few =>
    match bs, few, whole with
    | [], _, _ => exact (List.length_eq_zero_iff.mp hl.symm).symm
    | [_], _, whole => simp at whole
    | [_, _], _, whole => simp at whole
    | [_, _, _], _, whole => simp at whole
    | a :: b :: c :: d :: rest, few, _ => exact absurd rfl (few a b c d rest)

theorem encode_cancel {bs cs : Bytes} (hl : bs.length = cs.length) (h : encode bs = encode cs) :
    bs = cs := by
  have length (bs : Bytes) : (padded bs).length = (4 - bs.length % 4) % 4 + bs.length := by
    simp [padded]
  have hp : padded bs = padded cs := by
    apply encodeFrames_cancel _ _ h
    · rw [length]
      omega
    · rw [length, length, hl]
  unfold padded at hp
  rw [hl] at hp
  exact List.append_cancel_left hp

end Z85

end Text

namespace Encoding

theorem length_flatMap_bits (b : UInt8) : (bits [b]).length = 8 := by
  simp [bits]

/-- A byte is told apart by its bits. -/
theorem bits_singleton_injective : Function.Injective fun (b : UInt8) => bits [b] := by
  -- The digits are read back as a numeral in radix two.
  have all : ∀ n < 256, Nat.ofDigitChars 2 (bits [UInt8.ofNat n]) 0 = n := by decide +kernel
  have read (b : UInt8) : Nat.ofDigitChars 2 (bits [b]) 0 = b.toNat := by
    simpa using all b.toNat b.toNat_lt
  intro a b h
  apply UInt8.toNat_inj.mp
  rw [← read a, ← read b, show bits [a] = bits [b] from h]

theorem bits_cancel {bs cs : Bytes} (hl : bs.length = cs.length) (h : bits bs = bits cs) :
    bs = cs := by
  have flat (bs : Bytes) : bits bs = bs.flatMap fun b => bits [b] := by
    simp [bits]
  rw [flat, flat] at h
  exact List.flatMap_cancel (n := 8) length_flatMap_bits bits_singleton_injective hl h

theorem isDigit_of_mem_bits {bs : Bytes} {c : Char} (h : c ∈ bits bs) : c.isDigit := by
  obtain ⟨b, -, hb⟩ := List.mem_flatMap.mp h
  obtain ⟨i, -, rfl⟩ := List.mem_map.mp hb
  split <;> rfl

/-- What counts of a written digest: all of it, or its letters without their case. -/
def letters (e : Encoding) (cs : List Char) : List Char :=
  if e.caseSensitive then cs else cs.map Char.toLower

theorem letters_of_isDigit (e : Encoding) {cs : List Char} (h : ∀ c ∈ cs, c.isDigit) :
    e.letters cs = cs := by
  unfold letters
  split
  · rfl
  · exact (List.map_congr_left fun c hc => Text.toLower_of_isDigit (h c hc)).trans (List.map_id _)

/-- Each encoding tells byte strings of one length apart. -/
theorem symbols_cancel (e : Encoding) {bs cs : Bytes} (hl : bs.length = cs.length)
    (h : e.letters (e.symbols bs) = e.letters (e.symbols cs)) : bs = cs := by
  have numeral {radix : Nat} (h1 : 1 < radix) (h10 : radix ≤ 10)
      (hd : e.letters (Text.digits radix bs.toNat) = e.letters (Text.digits radix cs.toNat)) :
      bs = cs := by
    rw [e.letters_of_isDigit fun c hc => Text.isDigit_of_mem_digits h1 h10 hc,
      e.letters_of_isDigit fun c hc => Text.isDigit_of_mem_digits h1 h10 hc] at hd
    exact Bytes.toNat_injective hl (Text.digits_injective h1 h10 hd)
  cases e with
  | hex => exact Text.Hex.encode_cancel false hl h
  | hexUpper => exact Text.Hex.encode_cancel true hl h
  | decimal => exact numeral (by decide) (by decide) h
  | octal => exact numeral (by decide) (by decide) h
  | binary =>
    change letters _ (bits bs) = letters _ (bits cs) at h
    rw [letters_of_isDigit _ fun c hc => isDigit_of_mem_bits hc,
      letters_of_isDigit _ fun c hc => isDigit_of_mem_bits hc] at h
    exact bits_cancel hl h
  | base64 => exact Text.Base64.encode_cancel (.inl rfl) true hl h
  | base64NoPadding => exact Text.Base64.encode_cancel (.inl rfl) false hl h
  | base64Url => exact Text.Base64.encode_cancel (.inr rfl) false hl h
  | z85 => exact Text.Z85.encode_cancel hl h

end Encoding

end DigestFinder
