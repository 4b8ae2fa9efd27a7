import FlowAccess.Proofs.Ccf.Parts

/-!
# Integers of 128 bits

Integers are exact at every width (`integers_exact`). Each is written in the one form that is right
for it, and read back. A bignum is the number that its tag and its magnitude denote or is refused,
whatever zeros the magnitude begins with, and the narrower kinds take the integers within their
ranges. No step of all this leaves its word.
-/

namespace FlowAccess.Cadence.Ccf

/-! ## Writing -/

theorem head?_minimal (m : Nat) : (Bytes.minimal m).head? ≠ some 0 := by
  fun_induction Bytes.minimal m with
  | case1 => simp
  | case2 m hm ih =>
    by_cases hz : m / 256 = 0
    · rw [hz, Bytes.minimal, if_pos rfl]
      have hm' : m % 256 ≠ 0 := by omega
      intro h
      have := congrArg UInt8.toNat (Option.some.inj h)
      rw [UInt8.toNat_ofNat'] at this
      exact hm' this
    · have hne : Bytes.minimal (m / 256) ≠ [] := by
        rw [Bytes.minimal, if_neg hz]
        simp
      rwa [List.head?_append, Option.or_of_isSome (by simpa using hne)]

/-- The form of an integer: a plain item for 64 bits and a sign, and elsewhere the bignum that
denotes it and has no zeros in front. -/
structure Form (bs : Bytes) (n : Int) : Prop where
  plain : (∃ i, Cbor.IsInteger bs i) ↔ -2 ^ 64 ≤ n ∧ n ≤ 2 ^ 64 - 1
  bignum : ¬(-2 ^ 64 ≤ n ∧ n ≤ 2 ^ 64 - 1) → ∃ tag magnitude,
    (tag = Cbor.positiveBignum ∨ tag = Cbor.negativeBignum) ∧
    bs = tagHead tag ++ Cbor.bytes magnitude ∧ magnitude.head? ≠ some 0 ∧
    bignumValue tag magnitude.toNat = n

theorem isPlain_iff {n : Int} : Cbor.isPlain n ↔ -2 ^ 64 ≤ n ∧ n ≤ 2 ^ 64 - 1 := by
  rw [Cbor.isPlain, decide_eq_true_iff]
  omega

/-- A bignum is no plain item. -/
theorem not_isInteger_of_isBignum {bs : Bytes} {tag m : Nat} (h : IsBignum bs tag m) :
    ¬∃ i, Cbor.IsInteger bs i := by
  rintro ⟨i, hi⟩
  have := (nextIsTag_of_isInteger hi []).symm.trans (nextIsTag_of_isBignum h [])
  simp at this

theorem form_plain {n : Int} (h : Cbor.isPlain n) : Form (Cbor.plain n) n where
  plain := iff_of_true ⟨n, Cbor.isInteger_plain h⟩ (isPlain_iff.1 h)
  bignum hn := absurd (isPlain_iff.1 h) hn

theorem form_bignum {tag m : Nat} (htag : tag = Cbor.positiveBignum ∨ tag = Cbor.negativeBignum)
    (hm : m < 2 ^ 128) (h : ¬Cbor.isPlain (bignumValue tag m)) :
    Form (Cbor.bignum tag m) (bignumValue tag m) where
  plain := by
    have hlt : tag < 2 ^ 64 := by rcases htag with rfl | rfl <;> decide
    exact iff_of_false (not_isInteger_of_isBignum (isBignum_bignum hlt hm)) (h ∘ isPlain_iff.2)
  bignum _ := ⟨tag, Bytes.minimal m, htag, rfl, head?_minimal m, by rw [Bytes.toNat_minimal]⟩

theorem form_unsignedInteger (w : Wide) : Form (unsignedInteger w) w.toNat := by
  unfold unsignedInteger
  split
  · exact form_plain ‹_›
  · exact form_bignum (.inl rfl) w.isLt ‹_›

theorem form_signedInteger (w : Wide) : Form (signedInteger w) w.toInt := by
  unfold signedInteger
  split
  · exact form_plain ‹_›
  rename_i hplain
  split
  · have hv : bignumValue Cbor.negativeBignum (-(w + 1)).toNat = w.toInt := by
      rw [bignumValue, if_neg (by decide), toNat_neg_add_one ‹_›, Int.sub_sub_self]
    rw [← hv] at hplain ⊢
    exact form_bignum (.inr rfl) (-(w + 1)).isLt hplain
  · have hv : bignumValue Cbor.positiveBignum w.toNat = w.toInt :=
      (toInt_eq_toNat_of_not_slt ‹_›).symm
    rw [← hv] at hplain ⊢
    exact form_bignum (.inl rfl) w.isLt hplain

/-- Words are written in the form of the numbers that they denote and are read as these. -/
structure Exact (write : Wide → Bytes) (value : Wide → Int) (read : Reader Int) : Prop where
  read_write : ∀ w rest, read (write w ++ rest) = .ok (value w, rest)
  form : ∀ w, Form (write w) (value w)

theorem exact_signed : Exact signedInteger BitVec.toInt readInteger where
  read_write w rest := by
    have hr : -2 ^ 127 ≤ w.toInt ∧ w.toInt < 2 ^ 127 := ⟨w.le_toInt, w.toInt_lt⟩
    exact (takes_integer.complete ⟨isInteger_signedInteger w, hr⟩ rest).1 trivial
  form := form_signedInteger

theorem exact_unsigned : Exact unsignedInteger (fun w => w.toNat) readNatural where
  read_write w rest :=
    (takes_natural.complete ⟨isInteger_unsignedInteger w, Int.natCast_nonneg _⟩ rest).1 trivial
  form := form_unsignedInteger

/-! ## Reading -/

/-- A bignum is read as the number that it denotes where the reader has that number, and is refused
elsewhere. -/
structure ReadsBignum (bs : Bytes) (tag m : Nat) : Prop where
  integer : ∀ rest, readInteger (bs ++ rest) =
    if -2 ^ 127 ≤ bignumValue tag m ∧ bignumValue tag m < 2 ^ 127 then
      .ok (bignumValue tag m, rest)
    else .error (.malformedCcf .wideInteger)
  natural : ∀ rest, readNatural (bs ++ rest) =
    if tag = Cbor.positiveBignum then .ok ((m : Int), rest) else .error (.malformedCcf .negative)

theorem readsBignum {bs : Bytes} {tag m : Nat} (h : IsBignum bs tag m)
    (htag : tag = Cbor.positiveBignum ∨ tag = Cbor.negativeBignum) : ReadsBignum bs tag m := by
  have hlook (rest : Bytes) :
      Reader.cbor Cbor.Reader.nextIsTag (bs ++ rest) = .ok (true, bs ++ rest) := by
    rw [Reader.cbor, nextIsTag_of_isBignum h rest]
  have hread (rest : Bytes) : readBignum (bs ++ rest) = .ok ((tag, BitVec.ofNat 128 m), rest) :=
    (reads_bignum h htag rest).1 trivial
  have hw : (BitVec.ofNat 128 m).toNat = m := by
    rw [BitVec.toNat_ofNat, Nat.mod_eq_of_lt h.lt]
  constructor
  · intro rest
    have hrange : m < 2 ^ 127 ↔ -2 ^ 127 ≤ bignumValue tag m ∧ bignumValue tag m < 2 ^ 127 := by
      rcases htag with rfl | rfl
      · rw [bignumValue, if_pos rfl]
        omega
      · rw [bignumValue, if_neg (by decide)]
        omega
    have hv := toInt_signedBignum? tag (BitVec.ofNat 128 m)
    rw [hw] at hv
    rw [readInteger, bind_ok (hlook rest), if_pos rfl, bind_ok (hread rest)]
    dsimp only
    by_cases hm : m < 2 ^ 127
    · rw [if_pos hm] at hv
      obtain ⟨n, hn, hi⟩ := Option.map_eq_some_iff.1 hv
      rw [if_pos (hrange.1 hm), hn, ← hi]
      rfl
    · rw [if_neg hm, Option.map_eq_none_iff] at hv
      rw [if_neg (hm ∘ hrange.2), hv]
      rfl
  · intro rest
    rw [readNatural, bind_ok (hlook rest), if_pos rfl, bind_ok (hread rest)]
    dsimp only
    split
    · rw [hw]
      rfl
    · rfl

/-- A kind takes the integers within its range as its numbers and tells every other one as being
out of range. -/
structure Narrows (k : NumberKind) : Prop where
  accepts {n : Int} {input rest : Bytes} (h : readInteger input = .ok (n, rest))
    (hl : k.least ≤ n) (hg : n ≤ k.greatest) : readNumber k input = .ok (⟨k, n, hl, hg⟩, rest)
  refuses {n : Int} {input rest : Bytes} (h : readInteger input = .ok (n, rest))
    (hn : ¬(k.least ≤ n ∧ n ≤ k.greatest)) : readNumber k input = .error (.outOfRange n k)
  fails {e : Error} {input : Bytes} (h : readInteger input = .error e) :
    readNumber k input = .error e

theorem narrows {k : NumberKind} (hk : ¬isNatural k) : Narrows k := by
  have hread : readNumber k = readInteger >>= numberOf k := by
    rw [readNumber_eq, if_neg hk]
  refine ⟨fun {n input rest} h hl hg => ?_, fun {n input rest} h hn => ?_, fun h => ?_⟩
  · rw [hread, bind_ok h, numberOf, Number.ofInt?, dif_pos ⟨hl, hg⟩]
    rfl
  · rw [hread, bind_ok h, numberOf, Number.ofInt?, dif_neg hn]
    rfl
  · rw [hread, bind_error h]

/-! ## Words -/

/-- Every step that is computed in a word stays within it: no bit leaves a magnitude that is shifted
together from sixteen bytes, `-(n + 1)` of a negative number exists, and so does `-1 - n` of a
number that has no sign. -/
structure NoOverflow : Prop where
  shift : ∀ bytes b, bytes.length < 16 →
    (Wide.push (.ofBytes bytes) b).toNat = 256 * (Wide.ofBytes bytes).toNat + b.toNat
  magnitude : ∀ w : Wide, w.slt 0 → ¬w.saddOverflow 1 ∧ ¬(w + 1).negOverflow
  difference : ∀ w n : Wide, w.signed? = some n → ¬(-1 : Wide).ssubOverflow n

theorem noOverflow : NoOverflow where
  shift bytes b h := by
    refine Wide.toNat_push ?_ b
    rw [Wide.toNat_ofBytes (Nat.le_of_lt h)]
    exact Wide.toNat_lt_of_length_lt h
  magnitude _ h := not_overflow_of_slt h
  difference w n h := by
    rw [Wide.signed?_eq] at h
    split at h
    · cases h
      exact Wide.not_ssubOverflow_neg_one ‹_›
    · cases h

/-- Integers of 128 bits are exact at every width. -/
theorem integers_exact :
    Exact signedInteger BitVec.toInt readInteger ∧
    Exact unsignedInteger (fun w => w.toNat) readNatural ∧
    (∀ {bs tag m}, IsBignum bs tag m → tag = Cbor.positiveBignum ∨ tag = Cbor.negativeBignum →
      ReadsBignum bs tag m) ∧
    (∀ {k}, ¬isNatural k → Narrows k) ∧
    NoOverflow :=
  ⟨exact_signed, exact_unsigned, readsBignum, narrows, noOverflow⟩

/-- The bignum of -6 with a zero in front is read like any other, and is no number without a sign;
the least number of all has its bignum, for which nothing overflows. -/
theorem integers_exact_leading_zero :
    IsBignum [0xc3, 0x42, 0x00, 0x05] Cbor.negativeBignum 5 ∧
    readInteger [0xc3, 0x42, 0x00, 0x05] = .ok (-6, []) ∧
    readNatural [0xc3, 0x42, 0x00, 0x05] = .error (.malformedCcf .negative) ∧
    readNumber .int8 [0xc3, 0x42, 0x00, 0x05] = .ok (⟨.int8, -6, by decide, by decide⟩, []) ∧
    readNumber .uint8 [0xc3, 0x42, 0x00, 0x05] = .error (.outOfRange (-6) .uint8) ∧
    (BitVec.intMin 128).slt 0 ∧ ¬(BitVec.intMin 128).saddOverflow 1 := by
  obtain ⟨-, -, hbignum, hnarrow, hover⟩ := integers_exact
  have htag : Cbor.IsHead .tag [0xc3] Cbor.negativeBignum := .intro (by decide) (.short (by decide))
  have hhead : Cbor.IsHead .bytes [0x42] 2 := .intro (by decide) (.short (by decide))
  have hbytes : Cbor.IsBytes [0x42, 0x00, 0x05] [0x00, 0x05] :=
    @Cbor.IsBytes.intro [0x42] [0x00, 0x05] hhead
  have h : IsBignum [0xc3, 0x42, 0x00, 0x05] Cbor.negativeBignum 5 :=
    .intro htag hbytes (by decide)
  have hread : readInteger [0xc3, 0x42, 0x00, 0x05] = .ok (-6, []) :=
    (hbignum h (.inr rfl)).integer []
  have hslt : (BitVec.intMin 128).slt 0 := by decide
  exact ⟨h, hread, (hbignum h (.inr rfl)).natural [], (hnarrow (by decide)).accepts hread _ _,
    (hnarrow (by decide)).refuses hread (by decide), hslt, (hover.magnitude _ hslt).1⟩

end FlowAccess.Cadence.Ccf
