import FlowAccess.Address
import FlowAccess.Cadence.Number
import Mathlib.Algebra.Group.Int.Defs
import Mathlib.Algebra.Group.Nat.Defs

/-!
# Literals read back

Numbers and bytes are written in digits, and every text that is written is read back: decimal
numerals with or without leading zeros, pairs of hexadecimal digits, and on top of them the
literals of all kinds of numbers (`Number.parse?_literal`) and of addresses
(`Address.parse?_prefixed`). Words are read with a check at every step, which refuses exactly the
numbers that are no words (`Numeral.word?_eq_some_iff`).
-/

namespace FlowAccess

/-! ## Words -/

namespace Word

variable {a b c : UInt64}

theorem add?_eq_some_iff : add? a b = some c ↔ c.toNat = a.toNat + b.toNat := by
  have hc := c.toNat_lt_size
  unfold add?
  split
  · rw [Option.some.injEq, ← UInt64.toNat_inj, UInt64.toNat_add, Nat.mod_eq_of_lt ‹_›, eq_comm]
  · exact iff_of_false nofun (by omega)

theorem mul?_eq_some_iff : mul? a b = some c ↔ c.toNat = a.toNat * b.toNat := by
  have hc := c.toNat_lt_size
  rw [mul?, Nat.mul_comm]
  split
  · rw [Option.some.injEq, ← UInt64.toNat_inj, UInt64.toNat_mul, Nat.mod_eq_of_lt ‹_›, eq_comm]
  · exact iff_of_false nofun (by omega)

/-- A product and a sum are words if the sum is one. -/
theorem mul?_bind_add?_eq_some_iff {d : UInt64} :
    ((mul? a b).bind fun p => add? p c) = some d ↔ d.toNat = a.toNat * b.toNat + c.toNat := by
  simp only [Option.bind_eq_some_iff, mul?_eq_some_iff, add?_eq_some_iff]
  constructor
  · rintro ⟨p, hp, hd⟩
    rw [hd, hp]
  · intro hd
    have hlt : a.toNat * b.toNat < UInt64.size :=
      Nat.lt_of_le_of_lt (Nat.le_add_right _ c.toNat) (hd ▸ d.toNat_lt_size)
    have hp : (UInt64.ofNat (a.toNat * b.toNat)).toNat = a.toNat * b.toNat :=
      UInt64.toNat_ofNat_of_lt' hlt
    exact ⟨_, hp, by rw [hp, hd]⟩

end Word

namespace Text

/-! ## Decimal numerals -/

namespace Numeral

theorem isDigit_eq (c : Char) : isDigit c = c.isDigit := by
  simp only [isDigit, Char.isDigit, Bool.decide_and]
  rfl

theorem value_eq (cs : List Char) : value cs = Nat.ofDigitChars 10 cs 0 :=
  Nat.ofDigitChars_eq_foldl.symm

theorem nat?_eq_some_iff {cs : List Char} {n : Nat} :
    nat? cs = some n ↔ (cs ≠ [] ∧ cs.all isDigit = true) ∧ value cs = n := by
  rw [nat?, Option.ite_none_right_eq_some, Option.some.injEq]

theorem digit_lt {c : Char} (h : isDigit c = true) : c.toNat - '0'.toNat < 10 := by
  have hc : '0' ≤ c ∧ c ≤ '9' := by simpa [isDigit] using h
  have hle : c.toNat ≤ 57 := hc.2
  have hzero : '0'.toNat = 48 := rfl
  omega

theorem value_lt {cs : List Char} (h : cs.all isDigit = true) : value cs < 10 ^ cs.length := by
  induction cs with
  | nil => decide
  | cons c cs ih =>
    obtain ⟨hc, hcs⟩ := by simpa using h
    have hd := digit_lt hc
    have hrest := ih (List.all_eq_true.2 hcs)
    calc value (c :: cs) = 10 ^ cs.length * (c.toNat - '0'.toNat) + value cs := by
          rw [value_eq, Nat.ofDigitChars_cons, Nat.ofDigitChars_eq_ofDigitChars_zero, value_eq,
            Nat.mul_zero, Nat.zero_add]
      _ < 10 ^ cs.length * (c.toNat - '0'.toNat + 1) := Nat.add_lt_add_left hrest _
      _ ≤ 10 ^ cs.length * 10 := Nat.mul_le_mul_left _ hd
      _ = 10 ^ (c :: cs).length := (Nat.pow_succ ..).symm

/-! ### Machine words -/

theorem push?_eq_some_iff {w u : UInt64} {c : Char} (h : isDigit c = true) :
    push? w c = some u ↔ u.toNat = 10 * w.toNat + (c.toNat - '0'.toNat) := by
  have hd : (UInt64.ofNat (c.toNat - '0'.toNat)).toNat = c.toNat - '0'.toNat :=
    UInt64.toNat_ofNat_of_lt' (Nat.lt_trans (digit_lt h) (by decide))
  have hten : (10 : UInt64).toNat = 10 := rfl
  rw [push?, Option.bind_eq_bind, Word.mul?_bind_add?_eq_some_iff, hd, hten, Nat.mul_comm]

/-- No step of reading a word fails if the number is one, as the number so far never exceeds the
number that is read. -/
theorem foldlM_push?_eq_some_iff {cs : List Char} (h : cs.all isDigit = true) {w u : UInt64} :
    cs.foldlM push? w = some u ↔ u.toNat = Nat.ofDigitChars 10 cs w.toNat := by
  induction cs generalizing w with
  | nil => simp [UInt64.toNat_inj, eq_comm]
  | cons c cs ih =>
    obtain ⟨hc, hcs⟩ := by simpa using h
    simp only [List.foldlM_cons, Option.bind_eq_bind, Option.bind_eq_some_iff,
      push?_eq_some_iff hc, ih (List.all_eq_true.2 hcs), Nat.ofDigitChars_cons]
    constructor
    · rintro ⟨v, hv, hu⟩
      rw [hu, hv]
    · intro hu
      have hle : 10 * w.toNat + (c.toNat - '0'.toNat) ≤ u.toNat := by
        rw [hu, Nat.ofDigitChars_eq_ofDigitChars_zero]
        exact Nat.le_trans (Nat.le_mul_of_pos_left _ (Nat.pow_pos (by decide)))
          (Nat.le_add_right _ _)
      have hv : (UInt64.ofNat (10 * w.toNat + (c.toNat - '0'.toNat))).toNat = _ :=
        UInt64.toNat_ofNat_of_lt' (Nat.lt_of_le_of_lt hle u.toNat_lt_size)
      exact ⟨_, hv, by rw [hv, hu]⟩

/-- A word is read if the number is one, however many digits it is spelled with. -/
theorem word?_eq_some_iff {cs : List Char} {w : UInt64} :
    word? cs = some w ↔ nat? cs = some w.toNat := by
  rw [word?, nat?_eq_some_iff, Option.ite_none_right_eq_some]
  refine and_congr_right fun h => ?_
  rw [foldlM_push?_eq_some_iff h.2, value_eq, eq_comm]
  rfl

/-! ### Numerals that are written -/

theorem isDigit_of_mem_digits {n : Nat} {c : Char} (h : c ∈ digits n) : isDigit c = true := by
  rw [isDigit_eq]
  exact Nat.isDigit_of_mem_toDigits (by decide) (by decide) h

theorem all_isDigit_digits (n : Nat) : (digits n).all isDigit = true :=
  List.all_eq_true.2 fun _ => isDigit_of_mem_digits

theorem digits_ne_nil (n : Nat) : digits n ≠ [] := Nat.toDigits_ne_nil

@[simp] theorem value_digits (n : Nat) : value (digits n) = n := by
  rw [value_eq]
  exact Nat.ofDigitChars_ten_toDigits

@[simp] theorem nat?_digits (n : Nat) : nat? (digits n) = some n := by
  rw [nat?, if_pos ⟨digits_ne_nil n, all_isDigit_digits n⟩, value_digits]

/-- A numeral starts with a digit, so neither with a sign nor with a point. -/
theorem exists_digits_eq_cons (n : Nat) : ∃ c cs, digits n = c :: cs ∧ isDigit c = true := by
  obtain ⟨c, cs, h⟩ := List.exists_cons_of_ne_nil (digits_ne_nil n)
  have hm : c ∈ digits n := by rw [h]; exact .head cs
  exact ⟨c, cs, h, isDigit_of_mem_digits hm⟩

theorem unsigned?_digits (n : Nat) : unsigned? (digits n) = some n := by
  obtain ⟨c, cs, h, hc⟩ := exists_digits_eq_cons n
  have hn := nat?_digits n
  rw [h] at hn ⊢
  unfold unsigned?
  split
  · cases ‹_›; cases hc
  · exact hn

theorem signed?_digits (n : Nat) : signed? (digits n) = some (n : Int) := by
  obtain ⟨c, cs, h, hc⟩ := exists_digits_eq_cons n
  have hn := unsigned?_digits n
  rw [h] at hn ⊢
  unfold signed?
  split
  · cases ‹_›; cases hc
  · rw [hn]; rfl

theorem signed?_ofInt (n : Int) : signed? (ofInt n).toList = some n := by
  unfold ofInt
  split
  · have h : -(n.natAbs : Int) = n := by omega
    rw [String.toList_ofList, signed?, nat?_digits]
    exact congrArg some h
  · have h : (n.natAbs : Int) = n := by omega
    rw [String.toList_ofList, signed?_digits, h]

/-! ### Padding -/

theorem all_isDigit_padded (width n : Nat) : (padded width n).all isDigit = true := by
  have hz : isDigit '0' = true := by decide
  simp [padded, all_isDigit_digits, hz]

theorem value_padded (width n : Nat) : value (padded width n) = n := by
  rw [value_eq, padded, Nat.ofDigitChars_append, Nat.ofDigitChars_replicate_zero, Nat.mul_zero]
  exact Nat.ofDigitChars_ten_toDigits

theorem length_padded {width n : Nat} (hw : 0 < width) (h : n < 10 ^ width) :
    (padded width n).length = width := by
  have : (digits n).length ≤ width := (Nat.length_toDigits_le_iff (by decide) hw).2 h
  simp only [padded, List.length_append, List.length_replicate]
  omega

end Numeral

/-! ## Hexadecimal digits -/

namespace Hex

theorem digit?_digitChar {n : Nat} (h : n < 16) : digit? (Nat.digitChar n) = some n := by
  have (i : Fin 16) : digit? (Nat.digitChar i) = some i.val := by
    revert i; decide
  exact this ⟨n, h⟩

theorem decodeChars?_encodeChars (bytes : Bytes) :
    decodeChars? (encodeChars bytes) = some bytes := by
  induction bytes with
  | nil => rfl
  | cons b rest ih =>
    have hb := b.toNat_lt
    have hs : 16 * (b.toNat / 16) + b.toNat % 16 = b.toNat := by omega
    show decodeChars? (Nat.digitChar (b.toNat / 16) :: Nat.digitChar (b.toNat % 16) ::
      encodeChars rest) = _
    rw [decodeChars?, digit?_digitChar (by omega), digit?_digitChar (by omega), ih]
    simp only [Option.bind_eq_bind, Option.bind_some, hs, UInt8.ofNat_toNat]
    rfl

theorem length_encodeChars (bytes : Bytes) : (encodeChars bytes).length = 2 * bytes.length := by
  induction bytes with
  | nil => rfl
  | cons b rest ih =>
    show (encodeChars rest).length + 2 = _
    rw [ih, List.length_cons]
    omega

/-- Characters of ASCII have one byte each. -/
theorem utf8ByteSize_ofList {cs : List Char} (h : ∀ c ∈ cs, c.val ≤ 127) :
    (String.ofList cs).utf8ByteSize = cs.length := by
  induction cs with
  | nil => rfl
  | cons c cs ih =>
    rw [← List.singleton_append, String.ofList_append, String.utf8ByteSize_append,
      ih fun d hd => h d (.tail _ hd), ← String.singleton_eq_ofList, String.utf8ByteSize_singleton,
      Char.utf8Size_eq_one_iff.2 (h c (.head _)), List.length_append, List.length_singleton]

theorem digitChar_le {n : Nat} (h : n < 16) : (Nat.digitChar n).val ≤ 127 := by
  have (i : Fin 16) : (Nat.digitChar i).val ≤ 127 := by
    revert i; decide
  exact this ⟨n, h⟩

theorem utf8ByteSize_encode (bytes : Bytes) : (encode bytes).utf8ByteSize = 2 * bytes.length := by
  rw [encode, utf8ByteSize_ofList, length_encodeChars]
  intro c hc
  obtain ⟨b, -, hc⟩ := List.mem_flatMap.1 hc
  have hb := b.toNat_lt
  have hc : c = Nat.digitChar (b.toNat / 16) ∨ c = Nat.digitChar (b.toNat % 16) := by
    simpa [byteDigits] using hc
  rcases hc with rfl | rfl
  · exact digitChar_le (by omega)
  · exact digitChar_le (by omega)

end Hex
end Text
end FlowAccess

/-! ## Numbers -/

namespace FlowAccess.Cadence.Number

open Text

theorem integer?_ofInt {signed : Bool} {n : Int} (h : signed = false → 0 ≤ n) :
    integer? signed (Numeral.ofInt n).toList = some n := by
  cases signed with
  | true => exact Numeral.signed?_ofInt n
  | false =>
    have hn := h rfl
    rw [Numeral.ofInt, if_neg (by omega), String.toList_ofList]
    simp only [integer?, Bool.false_eq_true, if_false, Numeral.unsigned?_digits, Option.map_some,
      Option.some.injEq]
    show (n.natAbs : Int) = n
    omega

/-- The digits on both sides of the point. -/
def places (m : Nat) : List Char := Numeral.digits (m / unit) ++ '.' :: Numeral.padded 8 (m % unit)

/-- The units of a fraction are a word, as there are at most eight places. -/
theorem exists_fractionUnits? {fraction : List Char} (h : fraction.all Numeral.isDigit = true)
    (hl : fraction.length ≤ 8) : ∃ w, fractionUnits? fraction = some w ∧
      w.toNat = Numeral.value fraction * 10 ^ (8 - fraction.length) := by
  have hlt : Numeral.value fraction * 10 ^ (8 - fraction.length) < 10 ^ 8 := by
    calc Numeral.value fraction * 10 ^ (8 - fraction.length)
        < 10 ^ fraction.length * 10 ^ (8 - fraction.length) :=
          Nat.mul_lt_mul_of_pos_right (Numeral.value_lt h) (Nat.pow_pos (by decide))
      _ = 10 ^ 8 := by rw [← Nat.pow_add, Nat.add_sub_cancel' hl]
  have hscale : 10 ^ (8 - fraction.length) ≤ 10 ^ 8 :=
    Nat.pow_le_pow_right (by decide) (Nat.sub_le ..)
  by_cases hne : fraction = []
  · subst hne
    exact ⟨0, rfl, rfl⟩
  have hvalue : Numeral.value fraction < 10 ^ 8 :=
    Nat.lt_of_lt_of_le (Numeral.value_lt h) (Nat.pow_le_pow_right (by decide) hl)
  have hv : (UInt64.ofNat (Numeral.value fraction)).toNat = Numeral.value fraction :=
    UInt64.toNat_ofNat_of_lt' (Nat.lt_trans hvalue (by decide))
  have hs : (UInt64.ofNat (10 ^ (8 - fraction.length))).toNat = 10 ^ (8 - fraction.length) :=
    UInt64.toNat_ofNat_of_lt' (Nat.lt_of_le_of_lt hscale (by decide))
  have hw : Numeral.word? fraction = some (.ofNat (Numeral.value fraction)) :=
    Numeral.word?_eq_some_iff.2 (Numeral.nat?_eq_some_iff.2 ⟨⟨hne, h⟩, hv.symm⟩)
  refine ⟨.ofNat (Numeral.value fraction) * .ofNat (10 ^ (8 - fraction.length)),
    by rw [fractionUnits?, if_neg hne, hw]; rfl, ?_⟩
  rw [UInt64.toNat_mul, hv, hs, Nat.mod_eq_of_lt (Nat.lt_trans hlt (by decide))]

theorem inUnits?_eq_some_iff {n m w : UInt64} :
    inUnits? n m = some w ↔ w.toNat = n.toNat * unit + m.toNat := by
  have hunit : (UInt64.ofNat unit).toNat = unit := UInt64.toNat_ofNat_of_lt' (by decide)
  rw [inUnits?, Option.bind_eq_bind, Word.mul?_bind_add?_eq_some_iff, hunit]

/-- Units are read if they are a word: no other step of reading them fails. -/
theorem units?_eq_some_iff {cs : List Char} {w : UInt64} {fraction : List Char}
    (hf : (cs.dropWhile (· ≠ '.')).drop 1 = fraction) :
    units? cs = some w ↔ (fraction.all Numeral.isDigit = true ∧ fraction.length ≤ 8) ∧
      ∃ n, Numeral.nat? (cs.takeWhile (· ≠ '.')) = some n ∧
        w.toNat = n * unit + Numeral.value fraction * 10 ^ (8 - fraction.length) := by
  subst hf
  simp only [units?, Option.ite_none_right_eq_some]
  refine and_congr_right fun h => ?_
  obtain ⟨m, hm, hmn⟩ := exists_fractionUnits? h.1 h.2
  simp only [hm, Option.bind_eq_bind, Option.bind_some, Option.bind_eq_some_iff,
    Numeral.word?_eq_some_iff, inUnits?_eq_some_iff, hmn]
  constructor
  · rintro ⟨n, hn, hw⟩
    exact ⟨_, hn, hw⟩
  · rintro ⟨n, hn, hw⟩
    have hle : n ≤ w.toNat := by
      rw [hw]
      exact Nat.le_trans (Nat.le_mul_of_pos_right n (by decide)) (Nat.le_add_right ..)
    have hn' : (UInt64.ofNat n).toNat = n :=
      UInt64.toNat_ofNat_of_lt' (Nat.lt_of_le_of_lt hle w.toNat_lt_size)
    exact ⟨.ofNat n, by rw [hn', hn], by rw [hn', hw]⟩

theorem units?_places {w : UInt64} : units? (places w.toNat) = some w := by
  have hd : ∀ c ∈ Numeral.digits (w.toNat / unit), decide (c ≠ '.') = true := fun c hc => by
    have := Numeral.isDigit_of_mem_digits hc
    rw [decide_eq_true_eq]
    rintro rfl
    cases this
  have ht : (places w.toNat).takeWhile (· ≠ '.') = Numeral.digits (w.toNat / unit) := by
    rw [places, List.takeWhile_append_of_pos hd]
    simp
  have hr : ((places w.toNat).dropWhile (· ≠ '.')).drop 1 =
      Numeral.padded 8 (w.toNat % unit) := by
    rw [places, List.dropWhile_append_of_pos hd]
    simp
  have hl : (Numeral.padded 8 (w.toNat % unit)).length = 8 :=
    Numeral.length_padded (by decide) (Nat.mod_lt _ (by decide))
  refine (units?_eq_some_iff hr).2
    ⟨⟨Numeral.all_isDigit_padded _ _, Nat.le_of_eq hl⟩, w.toNat / unit, ?_, ?_⟩
  · rw [ht, Numeral.nat?_digits]
  · rw [hl, Numeral.value_padded, Nat.sub_self, Nat.pow_zero, Nat.mul_one, Nat.div_add_mod']

theorem fixed?_places (signed : Bool) (w : UInt64) :
    fixed? signed (places w.toNat) = some (w.toNat : Int) := by
  obtain ⟨c, cs, h, hc⟩ := Numeral.exists_digits_eq_cons (w.toNat / unit)
  have hm := units?_places (w := w)
  have hp : places w.toNat = c :: (cs ++ '.' :: Numeral.padded 8 (w.toNat % unit)) := by
    rw [places, h]; rfl
  rw [hp] at hm ⊢
  unfold fixed?
  split
  · cases ‹_›; cases hc
  · rw [hm]; rfl

/-- Only signed kinds have negative numbers. -/
theorem nonneg_of_unsigned (n : Number) (h : n.kind.signed = false) : 0 ≤ n.raw := by
  have := n.least_le
  rwa [NumberKind.least, h] at this

/-- The magnitude of a number with a fraction is a word. -/
theorem natAbs_lt (n : Number) (h : n.kind.isFixed = true) : n.raw.natAbs < UInt64.size := by
  obtain ⟨k, raw, hl, hg⟩ := n
  cases k <;> cases h
  · have hl : -2 ^ 63 ≤ raw := hl
    have hg : raw ≤ 2 ^ 63 - 1 := hg
    show raw.natAbs < 2 ^ 64
    omega
  · have hl : 0 ≤ raw := hl
    have hg : raw ≤ 2 ^ 64 - 1 := hg
    show raw.natAbs < 2 ^ 64
    omega

theorem fixed?_literal (n : Number) (h : n.kind.isFixed = true) :
    fixed? n.kind.signed n.literal.toList = some n.raw := by
  have hw : (UInt64.ofNat n.raw.natAbs).toNat = n.raw.natAbs :=
    UInt64.toNat_ofNat_of_lt' (n.natAbs_lt h)
  rw [literal, if_pos h]
  dsimp only
  rw [String.toList_ofList, List.append_assoc]
  change fixed? _ (_ ++ places _) = _
  rw [← hw]
  split
  · have hs : n.kind.signed = true := by
      cases hk : n.kind.signed with
      | true => rfl
      | false => have := n.nonneg_of_unsigned hk; omega
    have hr : -(n.raw.natAbs : Int) = n.raw := by omega
    rw [List.singleton_append, fixed?, hs, if_pos rfl, units?_places, Option.map_some, hw, hr]
  · have hr : (n.raw.natAbs : Int) = n.raw := by omega
    rw [List.nil_append, fixed?_places, hw, hr]

/-- A number is read back from its literal. -/
@[simp] theorem parse?_literal (n : Number) : parse? n.kind n.literal = some n := by
  unfold parse?
  split
  · rw [fixed?_literal n ‹_›, Option.bind_some, ofInt?_raw]
  · rw [literal, if_neg ‹_›, integer?_ofInt n.nonneg_of_unsigned, Option.bind_some, ofInt?_raw]

end FlowAccess.Cadence.Number

/-! ## Addresses -/

namespace FlowAccess.Address

open Text

@[simp] theorem parse?_prefixed (a : Address) : parse? a.prefixed = some a := by
  have hl : (Hex.encodeChars a.bytes).length = 16 := by
    rw [Hex.length_encodeChars, a.length_eq]
  have hsize : (String.ofList (Hex.encodeChars a.bytes)).utf8ByteSize = 16 := by
    rw [← Hex.encode, Hex.utf8ByteSize_encode, a.length_eq]
  have hd : Hex.stripMark a.prefixed.toList = Hex.encodeChars a.bytes := by
    simp only [prefixed, Octets.hex, Hex.encode, String.toList_append, String.toList_ofList]
    rfl
  have hn : Hex.encodeChars a.bytes ≠ [] := fun h => by
    rw [h] at hl; cases hl
  rw [parse?, hd, if_neg (by simp [hn, hsize]), pad, hl]
  simp [Hex.decodeChars?_encodeChars]

end FlowAccess.Address
