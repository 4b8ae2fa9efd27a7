import FlowAccess.Proofs.JsonCdc.RoundTrip
import FlowAccess.Proofs.Numbers

/-!
# Numbers in JSON payloads

A number is read of a string as what the string denotes, and of a JSON number in compatible mode
only, as the integer that it is: a double has a point or an exponent in its text, which is never
taken for an integer (`readNumber_number_iff`). Fixed-point numbers are read of decimals, exactly
and without an overflow on the way (`fixed_point_exact`).
-/

namespace FlowAccess.Cadence

open Text

/-! ## Texts of JSON numbers -/

namespace Number

theorem Spells.signed {signed : Bool} {cs : List Char} {z : ℤ} (h : Spells signed cs z) :
    Spells true cs z := by
  cases h with
  | plain hne h => exact .plain hne h
  | plus hne h => exact .plus hne h
  | minus _ hne h => exact .minus rfl hne h

/-- A text denotes one integer. -/
theorem Spells.eq {s t : Bool} {cs : List Char} {y z : ℤ} (hy : Spells s cs y)
    (hz : Spells t cs z) : y = z :=
  Option.some.inj (hy.signed.integer?.symm.trans hz.signed.integer?)

theorem spells_ofInt {signed : Bool} {z : ℤ} (h : signed = false → 0 ≤ z) :
    Spells signed (Numeral.ofInt z).toList z :=
  integer?_eq_some_iff.1 (integer?_ofInt h)

/-- An integer is spelled with signs and digits. -/
theorem Spells.mem {signed : Bool} {cs : List Char} {z : ℤ} (h : Spells signed cs z) {c : Char}
    (hc : c ∈ cs) : c = '+' ∨ c = '-' ∨ Numeral.isDigit c = true := by
  have hmem {ds : List Char} (hd : Digits ds) (hm : c ∈ ds) : Numeral.isDigit c = true :=
    List.all_eq_true.1 (digits_iff.1 hd) c hm
  cases h with
  | plain _ hd => exact .inr (.inr (hmem hd hc))
  | plus _ hd =>
    rcases List.mem_cons.1 hc with rfl | hm
    · exact .inl rfl
    · exact .inr (.inr (hmem hd hm))
  | minus _ _ hd =>
    rcases List.mem_cons.1 hc with rfl | hm
    · exact .inr (.inl rfl)
    · exact .inr (.inr (hmem hd hm))

end Number

namespace JsonCdc

theorem ofList_chars_integer (z : ℤ) :
    String.ofList (Json.Number.integer z).chars = Numeral.ofInt z := by
  rw [Json.Number.chars, Numeral.ofInt]
  split <;> rfl

/-- A double is written with a point or an exponent. -/
theorem mem_realChars (x : Binary64) : '.' ∈ Json.realChars x ∨ 'e' ∈ Json.realChars x := by
  unfold Json.realChars
  dsimp only
  split
  · exact .inl (by simp)
  · split
    · exact .inr (by simp)
    · split
      · exact .inl (by simp)
      · split
        · exact .inl (by simp)
        · exact .inl (by simp)

theorem not_spells_realChars {signed : Bool} {x : Binary64} {z : ℤ} :
    ¬Number.Spells signed (Json.realChars x) z := fun h => by
  rcases mem_realChars x with hc | hc
  · rcases h.mem hc with h | h | h <;> exact absurd h (by decide)
  · rcases h.mem hc with h | h | h <;> exact absurd h (by decide)

/-! ## Payloads -/

variable {options : ValueOptions} {json : Json} {v : Value} {kind : NumberKind}

theorem name_ne_void (kind : NumberKind) : kind.name ≠ "Void" := by
  cases kind <;> simp [NumberKind.name]

/-- What is read of a tree that says to hold a number. -/
theorem ofJson_number {payload : Json} (ht : json.get? "type" = some (.string kind.name))
    (hv : json.get? "value" = some payload) :
    ofJson options json = readNumber options kind payload :=
  ofJson_of_readSimple? ht hv (name_ne_void kind) (readSimple?_number kind payload)

theorem readLiteral_eq_ok_iff {s : String} :
    readLiteral kind s = .ok v ↔ ∃ n, Number.parse? kind s = some n ∧ v = .number n := by
  unfold readLiteral
  cases Number.parse? kind s with
  | none => simp
  | some n => simp [eq_comm]

/-- An integer is read of the strings that spell it. -/
theorem readNumber_string_iff (hk : kind.isFixed = false) {s : String} :
    readNumber options kind (.string s) = .ok v ↔
      ∃ n : Number, n.kind = kind ∧ Number.Spells kind.signed s.toList n.raw ∧ v = .number n := by
  rw [readNumber, readLiteral_eq_ok_iff]
  simp only [Number.parse?_integer_iff hk, and_assoc]

/-- An integer is read of the JSON number that it is, and of no other. -/
theorem readNumber_number_iff (hk : kind.isFixed = false) {x : Json.Number} :
    readNumber options kind (.number x) = .ok v ↔
      options.compatible = true ∧
        ∃ n : Number, n.kind = kind ∧ x = .integer n.raw ∧ v = .number n := by
  have hf : ¬kind.isFixed = true := by simp [hk]
  obtain ⟨compatible⟩ := options
  cases compatible with
  | false => simp [readNumber, hf]
  | true =>
    simp only [readNumber, if_neg hf, readLiteral_eq_ok_iff, true_and,
      Number.parse?_integer_iff hk, and_assoc]
    refine exists_congr fun n => and_congr_right fun hn => and_congr_left fun _ => ?_
    cases x with
    | integer z =>
      rw [ofList_chars_integer, Json.Number.integer.injEq]
      constructor
      · intro h
        have hz : Number.Spells true (Numeral.ofInt z).toList z := Number.spells_ofInt (by simp)
        exact hz.eq h
      · rintro rfl
        exact Number.spells_ofInt fun hs => n.nonneg_of_unsigned (hn ▸ hs)
    | real x =>
      rw [Json.Number.chars, String.toList_ofList]
      exact iff_of_false not_spells_realChars (by simp)

/-! ## Ranges -/

/-- The kinds of numbers: whether a kind has a fraction, whether it has negative numbers, and the
least and the greatest of its numbers, which are in units if there is a fraction. -/
inductive KindRange : NumberKind → Bool → Bool → ℤ → ℤ → Prop
  | int : KindRange .int false true (-2 ^ 127) (2 ^ 127 - 1)
  | int8 : KindRange .int8 false true (-2 ^ 7) (2 ^ 7 - 1)
  | int16 : KindRange .int16 false true (-2 ^ 15) (2 ^ 15 - 1)
  | int32 : KindRange .int32 false true (-2 ^ 31) (2 ^ 31 - 1)
  | int64 : KindRange .int64 false true (-2 ^ 63) (2 ^ 63 - 1)
  | int128 : KindRange .int128 false true (-2 ^ 127) (2 ^ 127 - 1)
  | uint : KindRange .uint false false 0 (2 ^ 128 - 1)
  | uint8 : KindRange .uint8 false false 0 (2 ^ 8 - 1)
  | uint16 : KindRange .uint16 false false 0 (2 ^ 16 - 1)
  | uint32 : KindRange .uint32 false false 0 (2 ^ 32 - 1)
  | uint64 : KindRange .uint64 false false 0 (2 ^ 64 - 1)
  | uint128 : KindRange .uint128 false false 0 (2 ^ 128 - 1)
  | word8 : KindRange .word8 false false 0 (2 ^ 8 - 1)
  | word16 : KindRange .word16 false false 0 (2 ^ 16 - 1)
  | word32 : KindRange .word32 false false 0 (2 ^ 32 - 1)
  | word64 : KindRange .word64 false false 0 (2 ^ 64 - 1)
  | fix64 : KindRange .fix64 true true (-2 ^ 63) (2 ^ 63 - 1)
  | ufix64 : KindRange .ufix64 true false 0 (2 ^ 64 - 1)

namespace KindRange

variable {fixed signed : Bool} {least greatest : ℤ}

theorem isFixed_eq (h : KindRange kind fixed signed least greatest) : kind.isFixed = fixed := by
  cases h <;> rfl

theorem signed_eq (h : KindRange kind fixed signed least greatest) : kind.signed = signed := by
  cases h <;> rfl

theorem least_eq (h : KindRange kind fixed signed least greatest) : kind.least = least := by
  cases h <;> rfl

theorem greatest_eq (h : KindRange kind fixed signed least greatest) :
    kind.greatest = greatest := by
  cases h <;> rfl

/-- The numbers of a kind are the integers in its range. -/
theorem exists_number_iff (h : KindRange kind fixed signed least greatest) {p : ℤ → Prop} :
    (∃ n : Number, n.kind = kind ∧ p n.raw ∧ v = .number n) ↔
      ∃ z, p z ∧ least ≤ z ∧ z ≤ greatest ∧
        ∃ n : Number, n.kind = kind ∧ n.raw = z ∧ v = .number n := by
  constructor
  · rintro ⟨n, rfl, hp, hv⟩
    rw [← h.least_eq, ← h.greatest_eq]
    exact ⟨_, hp, n.least_le, n.le_greatest, n, rfl, rfl, hv⟩
  · rintro ⟨_, hp, -, -, n, hn, rfl, hv⟩
    exact ⟨n, hn, hp, hv⟩

end KindRange

/-! ## Fixed-point numbers -/

theorem readNumber_fixed_iff (hk : kind.isFixed = true) {s : String} :
    readNumber options kind (.string s) = .ok v ↔ ∃ q, Number.SpellsDecimal kind.signed s.toList q ∧
      ∃ n : Number, n.kind = kind ∧ (n.raw : ℚ) = q * 10 ^ 8 ∧ v = .number n := by
  rw [readNumber, readLiteral_eq_ok_iff]
  simp only [Number.parse?_fixed_iff hk]
  constructor
  · rintro ⟨n, ⟨hn, q, hq, hraw⟩, hv⟩
    exact ⟨q, hq, n, hn, hraw, hv⟩
  · rintro ⟨q, hq, n, hn, hraw, hv⟩
    exact ⟨n, ⟨hn, q, hq, hraw⟩, hv⟩

/-- A fixed-point payload is read exactly if it is a decimal whose units are within the range of
its kind, and as those units. The words on the way to them overflow only if the result does: leading
zeros make no difference, and the units of the places are never too many. What is written of a
number in the range is read back. -/
theorem fixed_point_exact {signed : Bool} {least greatest : ℤ}
    (hrange : KindRange kind true signed least greatest) {s : String}
    (ht : json.get? "type" = some (.string kind.name))
    (hs : json.get? "value" = some (.string s)) :
    (∀ v, ofJson options json = .ok v ↔ ∃ q : ℚ, Number.SpellsDecimal signed s.toList q ∧
      (least : ℚ) ≤ q * 10 ^ 8 ∧ q * 10 ^ 8 ≤ greatest ∧
      ∃ n : Number, n.kind = kind ∧ (n.raw : ℚ) = q * 10 ^ 8 ∧ v = .number n) ∧
    (∀ ds : List Char, ds ≠ [] → Number.Digits ds → ∀ w : UInt64,
      Numeral.word? ds = some w ↔ w.toNat = Number.denoted ds) ∧
    (∀ fs : List Char, Number.Digits fs → fs.length ≤ 8 → ∃ w : UInt64,
      Number.fractionUnits? fs = some w ∧
        w.toNat = Number.denoted fs * 10 ^ (8 - fs.length)) ∧
    (∀ n m w : UInt64, Number.inUnits? n m = some w ↔ w.toNat = n.toNat * 10 ^ 8 + m.toNat) ∧
    ∀ raw, least ≤ raw → raw ≤ greatest → ∃ n : Number, n.kind = kind ∧ n.raw = raw ∧
      ofJson options (toJson (.number n)) = .ok (.number n) := by
  have hl := hrange.least_eq
  have hg := hrange.greatest_eq
  refine ⟨fun v => ?_, fun ds hne hd w => ?_, fun fs hf hlen => ?_, fun n m w => ?_,
    fun raw hleast hgreatest => ?_⟩
  · rw [ofJson_number ht hs, readNumber_fixed_iff hrange.isFixed_eq, hrange.signed_eq]
    refine exists_congr fun q => and_congr_right fun _ => ?_
    constructor
    · rintro ⟨n, hn, hraw, hv⟩
      subst hn
      rw [← hraw, ← hl, ← hg]
      exact ⟨Int.cast_le.2 n.least_le, Int.cast_le.2 n.le_greatest, n, rfl, rfl, hv⟩
    · exact fun h => h.2.2
  · rw [Numeral.word?_eq_some_iff, Number.nat?_eq_some_iff, eq_comm (a := w.toNat)]
    exact and_iff_right ⟨hne, hd⟩
  · obtain ⟨w, hw, hunits⟩ := Number.exists_fractionUnits? (Number.digits_iff.1 hf) hlen
    exact ⟨w, hw, by rw [hunits, Numeral.value_eq]⟩
  · exact Number.inUnits?_eq_some_iff
  · subst hl hg
    let n : Number := ⟨kind, raw, hleast, hgreatest⟩
    exact ⟨n, rfl, rfl, (yields_toJson (.number n) _).2 ⟨trivial, rfl⟩⟩

/-- The least `Fix64`, whose units have no positive counterpart, is read with zeros to spare. -/
theorem fixed_point_exact_least :
    ∃ n : Number, n.kind = .fix64 ∧ n.raw = -2 ^ 63 ∧
      ofJson {} (tagged "Fix64" (.string "-000092233720368.54775808")) = .ok (.number n) := by
  have hd : Number.denoted "000092233720368".toList = 92233720368 := by decide
  have hf : Number.denoted "54775808".toList = 54775808 := by decide
  have hlen : "54775808".toList.length = 8 := by decide
  have hq := @Number.SpellsPlaces.point "000092233720368".toList "54775808".toList (by decide)
    (Number.digits_iff.2 (by decide)) (Number.digits_iff.2 (by decide)) (by decide)
  have hs : Number.SpellsDecimal true "-000092233720368.54775808".toList _ := .minus rfl hq
  refine ⟨⟨.fix64, -2 ^ 63, by decide, by decide⟩, rfl, rfl,
    ((fixed_point_exact .fix64 rfl rfl).1 _).2 ⟨_, hs, ?_, ?_, _, rfl, ?_, rfl⟩⟩
  all_goals rw [hd, hf, hlen]; norm_num

end JsonCdc
end FlowAccess.Cadence
