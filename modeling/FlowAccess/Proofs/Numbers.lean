import FlowAccess.Proofs.Literals
import Mathlib.Algebra.Order.Field.Rat
import Mathlib.Data.List.TakeWhile
import Mathlib.Data.Rat.Cast.Defs
import Mathlib.Tactic.FieldSimp
import Mathlib.Tactic.NormNum
import Mathlib.Tactic.Ring

/-!
# What number literals denote

The texts that are taken for numbers, with the number that each of them denotes: an integer is
digits after an optional sign (`Spells`), and a fixed-point number is a decimal with at most eight
places (`SpellsDecimal`), which denotes a rational number. A literal is read as what it denotes, if
the kind has that number, and no other text is read.
-/

namespace FlowAccess.Cadence.Number

open Text

/-! ## Digits -/

/-- Nothing but digits. -/
def Digits (ds : List Char) : Prop := ∀ c ∈ ds, '0' ≤ c ∧ c ≤ '9'

/-- The number that digits denote. -/
abbrev denoted (ds : List Char) : ℕ := Nat.ofDigitChars 10 ds 0

theorem digits_iff {ds : List Char} : Digits ds ↔ ds.all Numeral.isDigit = true := by
  simp [Digits, Numeral.isDigit]

theorem nat?_eq_some_iff {ds : List Char} {n : ℕ} :
    Numeral.nat? ds = some n ↔ (ds ≠ [] ∧ Digits ds) ∧ denoted ds = n := by
  rw [Numeral.nat?_eq_some_iff, digits_iff, Numeral.value_eq]

theorem Digits.ne {ds : List Char} (h : Digits ds) {c : Char} (hc : c ∈ ds) {d : Char}
    (hd : Numeral.isDigit d = false) : c ≠ d := by
  rintro rfl
  rw [List.all_eq_true.1 (digits_iff.1 h) c hc] at hd
  cases hd

/-! ## Integers -/

/-- The integers that texts denote, those with a minus sign only if such are taken. -/
inductive Spells (signed : Bool) : List Char → ℤ → Prop
  | plain {ds : List Char} (hne : ds ≠ []) (h : Digits ds) : Spells signed ds (denoted ds)
  | plus {ds : List Char} (hne : ds ≠ []) (h : Digits ds) : Spells signed ('+' :: ds) (denoted ds)
  | minus {ds : List Char} (hs : signed = true) (hne : ds ≠ []) (h : Digits ds) :
    Spells signed ('-' :: ds) (-denoted ds)

theorem unsigned?_of_digits {ds : List Char} (hne : ds ≠ []) (h : Digits ds) :
    Numeral.unsigned? ds = some (denoted ds) := by
  unfold Numeral.unsigned?
  split
  · exact absurd rfl (h.ne (.head _) (by decide : Numeral.isDigit '+' = false))
  · exact nat?_eq_some_iff.2 ⟨⟨hne, h⟩, rfl⟩

theorem signed?_minus (ds : List Char) :
    Numeral.signed? ('-' :: ds) = (Numeral.nat? ds).map fun n : ℕ => -(n : ℤ) := by
  rw [Numeral.signed?]
  cases Numeral.nat? ds <;> rfl

theorem signed?_of_ne {cs : List Char} (h : ∀ ds, cs ≠ '-' :: ds) :
    Numeral.signed? cs = (Numeral.unsigned? cs).map Int.ofNat := by
  unfold Numeral.signed?
  split
  · exact absurd rfl (h _)
  · rfl

theorem integer?_of_ne {signed : Bool} {cs : List Char} (h : ∀ ds, cs ≠ '-' :: ds) :
    integer? signed cs = (Numeral.unsigned? cs).map Int.ofNat := by
  cases signed with
  | true => exact signed?_of_ne h
  | false => rfl

theorem Spells.integer? {signed : Bool} {cs : List Char} {z : ℤ} (h : Spells signed cs z) :
    integer? signed cs = some z := by
  cases h with
  | plain hne h =>
    rw [integer?_of_ne, unsigned?_of_digits hne h]
    · rfl
    · rintro ds rfl
      exact h.ne (.head _) (by decide : Numeral.isDigit '-' = false) rfl
  | plus hne h =>
    rw [integer?_of_ne (by simp), Numeral.unsigned?, nat?_eq_some_iff.2 ⟨⟨hne, h⟩, rfl⟩]
    rfl
  | minus hs hne h =>
    subst hs
    rw [Number.integer?, if_pos rfl, signed?_minus, nat?_eq_some_iff.2 ⟨⟨hne, h⟩, rfl⟩]
    rfl

theorem spells_of_unsigned? {signed : Bool} {cs : List Char} {n : ℕ}
    (h : Numeral.unsigned? cs = some n) : Spells signed cs n := by
  unfold Numeral.unsigned? at h
  split at h
  · obtain ⟨⟨hne, hd⟩, rfl⟩ := nat?_eq_some_iff.1 h
    exact .plus hne hd
  · obtain ⟨⟨hne, hd⟩, rfl⟩ := nat?_eq_some_iff.1 h
    exact .plain hne hd

/-- A text is read as the integer that it denotes, and no other text is read. -/
theorem integer?_eq_some_iff {signed : Bool} {cs : List Char} {z : ℤ} :
    integer? signed cs = some z ↔ Spells signed cs z := by
  refine ⟨fun h => ?_, Spells.integer?⟩
  by_cases hm : ∃ ds, cs = '-' :: ds
  · obtain ⟨ds, rfl⟩ := hm
    cases signed with
    | true =>
      rw [Number.integer?, if_pos rfl, signed?_minus] at h
      obtain ⟨n, hn, rfl⟩ := Option.map_eq_some_iff.1 h
      obtain ⟨⟨hne, hd⟩, rfl⟩ := nat?_eq_some_iff.1 hn
      exact .minus rfl hne hd
    | false =>
      rw [Number.integer?, if_neg (by decide)] at h
      obtain ⟨n, hn, -⟩ := Option.map_eq_some_iff.1 h
      obtain ⟨⟨-, hd⟩, -⟩ := nat?_eq_some_iff.1 hn
      exact absurd rfl (hd.ne (.head _) (by decide : Numeral.isDigit '-' = false))
  · rw [integer?_of_ne fun ds hds => hm ⟨ds, hds⟩] at h
    obtain ⟨n, hn, rfl⟩ := Option.map_eq_some_iff.1 h
    exact spells_of_unsigned? hn

/-! ## Decimals -/

/-- The rational numbers that texts without a sign denote: digits, which a point and at most eight
more may follow. -/
inductive SpellsPlaces : List Char → ℚ → Prop
  | whole {ds : List Char} (hne : ds ≠ []) (h : Digits ds) : SpellsPlaces ds (denoted ds)
  | point {ds fs : List Char} (hne : ds ≠ []) (h : Digits ds) (hf : Digits fs)
    (hl : fs.length ≤ 8) :
    SpellsPlaces (ds ++ '.' :: fs) (denoted ds + denoted fs / 10 ^ fs.length)

/-- The rational numbers that texts denote, those with a minus sign only if such are taken. -/
inductive SpellsDecimal (signed : Bool) : List Char → ℚ → Prop
  | plain {cs : List Char} {q : ℚ} (h : SpellsPlaces cs q) : SpellsDecimal signed cs q
  | minus {cs : List Char} {q : ℚ} (hs : signed = true) (h : SpellsPlaces cs q) :
    SpellsDecimal signed ('-' :: cs) (-q)

theorem cast_eq_ones_iff {w n : ℕ} : (w : ℚ) = n * 10 ^ 8 ↔ w = n * unit := by
  have hu : (n : ℚ) * 10 ^ 8 = (n * unit : ℕ) := by norm_num [unit]
  rw [hu, Nat.cast_inj]

theorem cast_eq_places_iff {w n m l : ℕ} (hl : l ≤ 8) :
    (w : ℚ) = (n + m / 10 ^ l) * 10 ^ 8 ↔ w = n * unit + m * 10 ^ (8 - l) := by
  have hp : (10 : ℚ) ^ 8 = 10 ^ l * 10 ^ (8 - l) := by rw [← pow_add, Nat.add_sub_cancel' hl]
  have hu : (unit : ℚ) = 10 ^ 8 := by norm_num [unit]
  have hs : ((n : ℚ) + m / 10 ^ l) * 10 ^ 8 = (n * unit + m * 10 ^ (8 - l) : ℕ) := by
    push_cast
    rw [hu, add_mul, hp]
    field_simp
  rw [hs, Nat.cast_inj]

/-- What stands before the first point, and what stands after it. -/
theorem split_at_point {ds fs : List Char} (h : Digits ds) :
    (ds ++ '.' :: fs).takeWhile (· ≠ '.') = ds ∧
      ((ds ++ '.' :: fs).dropWhile (· ≠ '.')).drop 1 = fs := by
  have hd : ∀ c ∈ ds, decide (c ≠ '.') = true := fun c hc =>
    decide_eq_true (h.ne hc (by decide : Numeral.isDigit '.' = false))
  rw [List.takeWhile_append_of_pos hd, List.dropWhile_append_of_pos hd]
  simp

theorem split_of_digits {ds : List Char} (h : Digits ds) :
    ds.takeWhile (· ≠ '.') = ds ∧ (ds.dropWhile (· ≠ '.')).drop 1 = [] := by
  have hd : ∀ c ∈ ds, decide (c ≠ '.') = true := fun c hc =>
    decide_eq_true (h.ne hc (by decide : Numeral.isDigit '.' = false))
  rw [List.takeWhile_eq_self_iff.2 hd, List.dropWhile_eq_nil_iff.2 hd]
  exact ⟨rfl, rfl⟩

/-- A decimal that denotes a word in units is read as that word. -/
theorem SpellsPlaces.units? {cs : List Char} {q : ℚ} (h : SpellsPlaces cs q) {w : UInt64}
    (hw : (w.toNat : ℚ) = q * 10 ^ 8) : units? cs = some w := by
  cases h with
  | whole hne h =>
    obtain ⟨ht, hf⟩ := split_of_digits h
    have hn : Numeral.nat? cs = some (denoted cs) := nat?_eq_some_iff.2 ⟨⟨hne, h⟩, rfl⟩
    refine (units?_eq_some_iff hf).2 ⟨⟨rfl, Nat.zero_le 8⟩, _, by rw [ht, hn], ?_⟩
    rw [cast_eq_ones_iff.1 hw]
    exact (Nat.add_zero _).symm
  | @point ds fs hne h hf hl =>
    obtain ⟨ht, hr⟩ := split_at_point h
    have hn : Numeral.nat? ds = some (denoted ds) := nat?_eq_some_iff.2 ⟨⟨hne, h⟩, rfl⟩
    refine (units?_eq_some_iff hr).2 ⟨⟨digits_iff.1 hf, hl⟩, _, by rw [ht, hn], ?_⟩
    rw [(cast_eq_places_iff hl).1 hw, Numeral.value_eq]

/-- Units are read of nothing but decimals. -/
theorem spellsPlaces_of_units? {cs : List Char} {w : UInt64} (h : units? cs = some w) :
    ∃ q, SpellsPlaces cs q ∧ (w.toNat : ℚ) = q * 10 ^ 8 := by
  obtain ⟨⟨hf, hl⟩, n, hn, hw⟩ := (units?_eq_some_iff rfl).1 h
  obtain ⟨⟨hne, hd⟩, rfl⟩ := nat?_eq_some_iff.1 hn
  have hcs := List.takeWhile_append_dropWhile (p := (· ≠ '.')) (l := cs)
  cases hr : cs.dropWhile (· ≠ '.') with
  | nil =>
    rw [hr, List.append_nil] at hcs
    rw [hr] at hw
    rw [hcs] at hne hd hw
    exact ⟨_, .whole hne hd, cast_eq_ones_iff.2 (hw.trans (Nat.add_zero _))⟩
  | cons c fs =>
    obtain rfl : c = '.' := by
      have hhead := List.head?_dropWhile_not (· ≠ '.') cs
      rw [hr] at hhead
      simpa using hhead
    rw [hr, List.drop_one, List.tail_cons] at hf hl hw
    rw [hr] at hcs
    rw [Numeral.value_eq] at hw
    have hq := SpellsPlaces.point hne hd (digits_iff.2 hf) hl
    rw [hcs] at hq
    exact ⟨_, hq, (cast_eq_places_iff hl).2 hw⟩

/-! ## Signs -/

theorem SpellsPlaces.nonneg {cs : List Char} {q : ℚ} (h : SpellsPlaces cs q) : 0 ≤ q := by
  cases h with
  | whole => exact Nat.cast_nonneg _
  | point =>
    exact add_nonneg (Nat.cast_nonneg _) (div_nonneg (Nat.cast_nonneg _) (by positivity))

theorem SpellsPlaces.ne_minus {cs : List Char} {q : ℚ} (h : SpellsPlaces cs q) (ds : List Char) :
    cs ≠ '-' :: ds := by
  have hm : Numeral.isDigit '-' = false := by decide
  rintro rfl
  generalize hcs : '-' :: ds = cs at h
  cases h with
  | whole hne h => exact h.ne (hcs ▸ .head _) hm rfl
  | @point es fs hne h _ _ =>
    obtain ⟨c, es, rfl⟩ := List.exists_cons_of_ne_nil hne
    exact h.ne (.head _) hm (List.cons.inj hcs).1.symm

theorem fixed?_of_ne {signed : Bool} {cs : List Char} (h : ∀ ds, cs ≠ '-' :: ds) :
    fixed? signed cs = (units? cs).map fun w => (w.toNat : ℤ) := by
  unfold fixed?
  split
  · exact absurd rfl (h _)
  · rfl

theorem natAbs_eq_units {z : ℤ} {q : ℚ} (hz : (z : ℚ) = q * 10 ^ 8) (hq : 0 ≤ q) :
    (z.natAbs : ℤ) = z ∧ (z.natAbs : ℚ) = q * 10 ^ 8 := by
  have hnonneg : (0 : ℚ) ≤ z := hz ▸ mul_nonneg hq (by positivity)
  have habs : (z.natAbs : ℤ) = z := Int.natAbs_of_nonneg (Int.cast_nonneg_iff.1 hnonneg)
  rw [← hz]
  exact ⟨habs, congrArg Int.cast habs⟩

/-- A decimal is read as what it denotes in units, if that is within the words. -/
theorem SpellsDecimal.fixed? {signed : Bool} {cs : List Char} {q : ℚ}
    (h : SpellsDecimal signed cs q) {z : ℤ} (hz : z.natAbs < UInt64.size)
    (hq : (z : ℚ) = q * 10 ^ 8) : fixed? signed cs = some z := by
  have hw : (UInt64.ofNat z.natAbs).toNat = z.natAbs := UInt64.toNat_ofNat_of_lt' hz
  cases h with
  | plain h =>
    obtain ⟨habs, hunits⟩ := natAbs_eq_units hq h.nonneg
    rw [← hw] at hunits
    rw [fixed?_of_ne h.ne_minus, h.units? hunits, Option.map_some, hw, habs]
  | @minus cs q hs h =>
    have hneg : ((-z : ℤ) : ℚ) = q * 10 ^ 8 := by rw [Int.cast_neg, hq, neg_mul, neg_neg]
    obtain ⟨habs, hunits⟩ := natAbs_eq_units hneg h.nonneg
    rw [Int.natAbs_neg] at habs hunits
    rw [← hw] at hunits
    rw [Number.fixed?, if_pos hs, h.units? hunits, Option.map_some, hw, habs, neg_neg]

/-- Nothing but decimals is read. -/
theorem spellsDecimal_of_fixed? {signed : Bool} {cs : List Char} {z : ℤ}
    (h : fixed? signed cs = some z) :
    ∃ q, SpellsDecimal signed cs q ∧ (z : ℚ) = q * 10 ^ 8 := by
  unfold Number.fixed? at h
  split at h
  · split at h
    · obtain ⟨w, hw, rfl⟩ := Option.map_eq_some_iff.1 h
      obtain ⟨q, hq, hwq⟩ := spellsPlaces_of_units? hw
      refine ⟨-q, .minus ‹_› hq, ?_⟩
      rw [Int.cast_neg, Int.cast_natCast, hwq, neg_mul]
    · cases h
  · obtain ⟨w, hw, rfl⟩ := Option.map_eq_some_iff.1 h
    obtain ⟨q, hq, hwq⟩ := spellsPlaces_of_units? hw
    exact ⟨q, .plain hq, by rw [Int.cast_natCast, hwq]⟩

/-- A text is read as the number that it denotes, if the kind has that number. -/
theorem parse?_fixed_iff {kind : NumberKind} (hk : kind.isFixed = true) {s : String} {n : Number} :
    parse? kind s = some n ↔
      n.kind = kind ∧ ∃ q, SpellsDecimal kind.signed s.toList q ∧ (n.raw : ℚ) = q * 10 ^ 8 := by
  rw [parse?, if_pos hk, Option.bind_eq_some_iff]
  simp only [ofInt?_eq_some_iff]
  constructor
  · rintro ⟨z, hz, hkind, rfl⟩
    exact ⟨hkind, spellsDecimal_of_fixed? hz⟩
  · rintro ⟨rfl, q, hq, hraw⟩
    exact ⟨n.raw, hq.fixed? (n.natAbs_lt hk) hraw, rfl, rfl⟩

/-- A text is read as the integer that it denotes, if the kind has that integer. -/
theorem parse?_integer_iff {kind : NumberKind} (hk : kind.isFixed = false) {s : String}
    {n : Number} : parse? kind s = some n ↔ n.kind = kind ∧ Spells kind.signed s.toList n.raw := by
  rw [parse?, if_neg (by rw [hk]; decide), Option.bind_eq_some_iff]
  simp only [ofInt?_eq_some_iff, integer?_eq_some_iff]
  constructor
  · rintro ⟨z, hz, hkind, rfl⟩
    exact ⟨hkind, hz⟩
  · rintro ⟨hkind, hz⟩
    exact ⟨n.raw, hz, hkind, rfl⟩

end FlowAccess.Cadence.Number
