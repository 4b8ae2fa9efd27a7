import FlowAccess.Proofs.Ccf.Readers
import FlowAccess.Proofs.Ccf.Wide

/-!
# Readers and their grammar

Every reader of a message takes exactly the bytes that the grammar gives to what it reads, whatever
follows them (`Takes`): one theorem for each reader, down to the values (`takes_value`) and whole
messages (`takes_message`). The room of a reader is what is left of the depth: one more than the
levels that may still follow.
-/

namespace FlowAccess.Cadence.Ccf

open Cbor (IsHead IsBytes IsText)
open Piece Reader

/-! ## Types -/

theorem takes_type {room depth : Nat} (h : room + depth = fullRoom) :
    Takes (readType room) (IsType depth) := by
  induction room generalizing depth with
  | zero =>
    refine ⟨nofun, fun ht => ?_⟩
    have := ht.depth_le
    rw [fullRoom] at h
    omega
  | succ room ih =>
    have hd : depth ≤ maxDepth := by
      rw [fullRoom] at h
      omega
    have hp : Takes (readType room) (IsType (depth + 1)) := ih (by omega)
    refine ⟨fun {input rest t} hr => ?_, fun {bs t} ht => ?_⟩
    · obtain ⟨tag, tb, mid, ht, rfl, h₁⟩ := takes_tag.split hr
      split at h₁
      · subst tag
        obtain ⟨code, cb, mid, hc, rfl, h₂⟩ := (Takes.cbor (Cbor.takes_head .unsigned)).split h₁
        cases h₂
        exact ⟨_, .simple hd ht hc, (List.append_assoc ..).symm⟩
      split at h₁
      · subst tag
        obtain ⟨t, bs, mid, h, rfl, h₂⟩ := hp.split h₁
        cases h₂
        exact ⟨_, .optional hd ht h, (List.append_assoc ..).symm⟩
      split at h₁
      · subst tag
        obtain ⟨t, bs, mid, h, rfl, h₂⟩ := hp.split h₁
        cases h₂
        exact ⟨_, .array hd ht h, (List.append_assoc ..).symm⟩
      split at h₁
      · subst tag
        obtain ⟨_, nb, mid, hc, rfl, h₂⟩ := (takes_count 2 _).split h₁
        obtain ⟨k, kb, mid, hk, rfl, h₃⟩ := hp.split h₂
        obtain ⟨v, vb, mid, hv, rfl, h₄⟩ := hp.split h₃
        cases h₄
        exact ⟨_, .dictionary hd ht hc hk hv, by simp only [List.append_assoc]⟩
      split at h₁
      · subst tag
        obtain ⟨id, ib, mid, hi, rfl, h₂⟩ := takes_bytes.split h₁
        cases h₂
        exact ⟨_, .reference hd ht hi, (List.append_assoc ..).symm⟩
      · cases h₁
    · -- The tags are literals, so that the branch of each is a matter of evaluation.
      cases ht with
      | simple hd ht hc =>
        refine (takes_tag.complete ht).andThen ?_
        exact ((Takes.cbor (Cbor.takes_head .unsigned)).complete hc).finish (.pure _)
      | optional hd ht h | array hd ht h =>
        exact (takes_tag.complete ht).andThen ((hp.complete h).finish (.pure _))
      | dictionary hd ht hc hk hv =>
        rw [List.append_assoc, List.append_assoc]
        refine (takes_tag.complete ht).andThen ?_
        refine ((takes_count 2 _).complete (a := ()) hc).andThen ?_
        exact (hp.complete hk).andThen ((hp.complete hv).finish (.pure _))
      | reference hd ht hi =>
        exact (takes_tag.complete ht).andThen ((takes_bytes.complete hi).finish (.pure _))

/-- A type that stands at the root. -/
theorem takes_rootType : Takes (readType fullRoom) (IsType 0) := takes_type (Nat.add_zero _)

/-! ## Definitions -/

theorem takes_field : Takes readField IsField where
  sound h := by
    obtain ⟨_, nb, mid, hn, rfl, h₁⟩ := (takes_count 2 _).split h
    obtain ⟨name, sb, mid, hs, rfl, h₂⟩ := takes_text.split h₁
    obtain ⟨t, tb, mid, ht, rfl, h₃⟩ := takes_rootType.split h₂
    cases h₃
    exact ⟨_, .intro hn hs ht, by simp only [List.append_assoc]⟩
  complete h := by
    obtain ⟨hn, hs, ht⟩ := h
    rw [List.append_assoc]
    refine ((takes_count 2 _).complete (a := ()) hn).andThen ((takes_text.complete hs).andThen ?_)
    exact (takes_rootType.complete ht).finish (.pure _)

/-- What a definition holds after its tag. -/
def readDefinitionOf (kind : CompositeKind) : Reader Definition := do
  array 3 .typedef
  let id ← cbor Cbor.Reader.bytes
  let typeId ← cbor Cbor.Reader.text
  let fields ← many readField (← length .typedefFields)
  return { id, kind, typeId, fields }

theorem isDefinition_of_readDefinitionOf {kind : CompositeKind} {tb input rest : Bytes}
    {d : Definition} (ht : IsTag tb (typedefTag kind))
    (h : readDefinitionOf kind input = .ok (d, rest)) :
    ∃ bs, IsDefinition bs d ∧ tb ++ input = bs ++ rest := by
  obtain ⟨_, nb, mid, hn, rfl, h₁⟩ := (takes_count 3 _).split h
  obtain ⟨id, ib, mid, hi, rfl, h₂⟩ := takes_bytes.split h₁
  obtain ⟨typeId, sb, mid, hs, rfl, h₃⟩ := takes_text.split h₂
  obtain ⟨n, fb, mid, hl, rfl, h₄⟩ := (takes_length _).split h₃
  obtain ⟨_, _, mid, ⟨fields, rfl, hf, rfl, rfl⟩, rfl, h₅⟩ := (takes_field.many n).split h₄
  cases h₅
  exact ⟨_, .intro ht hn hi hs hl hf, by simp only [List.append_assoc]⟩

theorem takes_definition : Takes readDefinition IsDefinition where
  sound h := by
    obtain ⟨tag, tb, mid, ht, rfl, h₁⟩ := takes_tag.split h
    split at h₁
    · subst tag
      exact isDefinition_of_readDefinitionOf (show IsTag tb (typedefTag .struct) from ht) h₁
    split at h₁
    · subst tag
      exact isDefinition_of_readDefinitionOf (show IsTag tb (typedefTag .event) from ht) h₁
    · cases h₁
  complete h := by
    obtain @⟨tb, nb, ib, sb, fb, id, kind, typeId, fields, ht, hn, hi, hs, hl, hf⟩ := h
    have hbody : Reads (readDefinitionOf kind) (nb ++ (ib ++ (sb ++ (fb ++ join fields)))) True
        ⟨id, kind, typeId, contents fields⟩ := by
      refine ((takes_count 3 _).complete (a := ()) hn).andThen ?_
      refine (takes_bytes.complete hi).andThen ((takes_text.complete hs).andThen ?_)
      refine ((takes_length _).complete hl).andThen ?_
      exact ((takes_field.many _).complete ⟨fields, rfl, hf, rfl, rfl⟩).finish (.pure _)
    simp only [List.append_assoc]
    refine (takes_tag.complete ht).andThen ?_
    cases kind <;> exact hbody

/-! ## Numbers -/

theorem takes_bignum : Takes readBignum fun bs p =>
    (p.1 = Cbor.positiveBignum ∨ p.1 = Cbor.negativeBignum) ∧ IsBignum bs p.1 p.2.toNat where
  sound {input rest p} h := by
    obtain ⟨tag, tb, mid, ht, rfl, h₁⟩ := takes_tag.split h
    split at h₁
    · cases h₁
    · obtain ⟨magnitude, mb, mid, hm, rfl, h₂⟩ := takes_bytes.split h₁
      split at h₂
      · cases h₂
      · cases h₂
        have hl : magnitude.length ≤ 16 := by omega
        refine ⟨_, ⟨?_, ?_⟩, (List.append_assoc ..).symm⟩
        · by_cases hp : tag = Cbor.positiveBignum
          · exact .inl hp
          · exact .inr (Decidable.not_not.1 fun hn => ‹¬(_ ∧ _)› ⟨hp, hn⟩)
        · dsimp only
          rw [Wide.toNat_ofBytes hl]
          exact .intro ht hm hl
  complete := by
    rintro bs ⟨tag, w⟩ ⟨htag, hb⟩
    dsimp only at htag hb
    generalize hn : w.toNat = n at hb
    obtain ⟨ht, hm, hl⟩ := hb
    obtain rfl : Wide.ofBytes _ = w := BitVec.eq_of_toNat_eq ((Wide.toNat_ofBytes hl).trans hn.symm)
    refine (takes_tag.complete ht).andThen ?_
    rw [if_neg fun h => htag.elim h.1 h.2]
    refine (takes_bytes.complete hm).finish ?_
    rw [if_neg (by omega)]
    exact .pure _

theorem IsBignum.lt {bs : Bytes} {tag m : Nat} (h : IsBignum bs tag m) : m < 2 ^ 128 := by
  obtain @⟨tb, mb, magnitude, tag, ht, hm, hl⟩ := h
  calc magnitude.toNat < 256 ^ magnitude.length := Cbor.toNat_lt magnitude
    _ ≤ 256 ^ 16 := Nat.pow_le_pow_right (by decide) hl
    _ = 2 ^ 128 := by decide

/-- The word of a magnitude is read from each of its bignums. -/
theorem reads_bignum {bs : Bytes} {tag m : Nat} (h : IsBignum bs tag m)
    (htag : tag = Cbor.positiveBignum ∨ tag = Cbor.negativeBignum) :
    Reads readBignum bs True (tag, BitVec.ofNat 128 m) := by
  refine takes_bignum.complete ⟨htag, ?_⟩
  dsimp only
  rwa [BitVec.toNat_ofNat, Nat.mod_eq_of_lt h.lt]

/-- A plain integer does not begin with a tag, and a bignum does. -/
theorem nextIsTag_of_isInteger {bs : Bytes} {n : Int} (h : Cbor.IsInteger bs n) :
    Cbor.Shows Cbor.Reader.nextIsTag bs false := by
  cases h with
  | unsigned h | negative h => exact Cbor.nextIsTag_of_isHead h

theorem nextIsTag_of_isBignum {bs : Bytes} {tag m : Nat} (h : IsBignum bs tag m) :
    Cbor.Shows Cbor.Reader.nextIsTag bs true := by
  obtain ⟨ht, -, -⟩ := h
  exact (Cbor.nextIsTag_of_isHead ht).append _

theorem takes_plain : Takes (cbor Cbor.Reader.integer) Cbor.IsInteger := .cbor Cbor.takes_integer

/-- A bignum, where it is a number with a sign. -/
theorem takes_signedBignum : Takes (do
    let (tag, magnitude) ← readBignum
    match signedBignum? tag magnitude with
    | some n => return n.toInt
    | none => fail .wideInteger) fun bs n => ∃ m < 2 ^ 127,
      IsBignum bs Cbor.positiveBignum m ∧ n = m ∨
      IsBignum bs Cbor.negativeBignum m ∧ n = -1 - (m : Int) where
  sound h := by
    obtain ⟨⟨tag, w⟩, bs, mid, ⟨ht, hb⟩, rfl, h₁⟩ := takes_bignum.split h
    dsimp only at ht hb h₁
    have hv := toInt_signedBignum? tag w
    cases hn : signedBignum? tag w with
    | none =>
      rw [hn] at h₁
      cases h₁
    | some n =>
      rw [hn] at h₁
      cases h₁
      rw [hn, Option.map_some] at hv
      split at hv
      · refine ⟨bs, ⟨w.toNat, ‹_›, ?_⟩, rfl⟩
        rcases ht with rfl | rfl
        · exact .inl ⟨hb, Option.some.inj hv⟩
        · exact .inr ⟨hb, Option.some.inj hv⟩
      · cases hv
  complete := by
    rintro bs n ⟨m, hm, hd⟩
    obtain ⟨tag, htag, h, rfl⟩ : ∃ tag, (tag = Cbor.positiveBignum ∨ tag = Cbor.negativeBignum) ∧
        IsBignum bs tag m ∧ n = bignumValue tag m := by
      rcases hd with ⟨h, rfl⟩ | ⟨h, rfl⟩
      · exact ⟨_, .inl rfl, h, rfl⟩
      · exact ⟨_, .inr rfl, h, rfl⟩
    refine (reads_bignum h htag).finish ?_
    have hv := toInt_signedBignum? tag (BitVec.ofNat 128 m)
    rw [BitVec.toNat_ofNat, Nat.mod_eq_of_lt h.lt, if_pos hm] at hv
    obtain ⟨n, hn, hi⟩ := Option.map_eq_some_iff.1 hv
    dsimp only
    rw [hn, ← hi]
    exact .pure _

theorem takes_integer :
    Takes readInteger fun bs n => IsInteger bs n ∧ -2 ^ 127 ≤ n ∧ n < 2 ^ 127 := by
  refine (Takes.look Cbor.rest_of_nextIsTag takes_signedBignum takes_plain ?_).congr
    fun bs n => ⟨?_, ?_⟩
  · rintro bs n (⟨m, -, ⟨h, -⟩ | ⟨h, -⟩⟩ | h)
    · exact ⟨_, nextIsTag_of_isBignum h⟩
    · exact ⟨_, nextIsTag_of_isBignum h⟩
    · exact ⟨_, nextIsTag_of_isInteger h⟩
  · rintro (⟨⟨m, hm, ⟨h, rfl⟩ | ⟨h, rfl⟩⟩, -⟩ | ⟨h, -⟩)
    · exact ⟨.positive h, by omega, by omega⟩
    · exact ⟨.negative h, by omega, by omega⟩
    · have := h.bounds
      exact ⟨.plain h, by omega, by omega⟩
  · rintro ⟨h, hl, hg⟩
    cases h with
    | plain h => exact .inr ⟨h, nextIsTag_of_isInteger h⟩
    | positive h => exact .inl ⟨⟨_, by omega, .inl ⟨h, rfl⟩⟩, nextIsTag_of_isBignum h⟩
    | negative h => exact .inl ⟨⟨_, by omega, .inr ⟨h, rfl⟩⟩, nextIsTag_of_isBignum h⟩

theorem takes_naturalBignum : Takes (do
    let (tag, magnitude) ← readBignum
    if tag = Cbor.positiveBignum then return (magnitude.toNat : Int) else fail .negative)
    fun bs n => ∃ m : Nat, IsBignum bs Cbor.positiveBignum m ∧ n = m where
  sound h := by
    obtain ⟨⟨tag, w⟩, bs, mid, ⟨-, hb⟩, rfl, h₁⟩ := takes_bignum.split h
    dsimp only at hb h₁
    split at h₁
    · subst tag
      cases h₁
      exact ⟨bs, ⟨w.toNat, hb, rfl⟩, rfl⟩
    · cases h₁
  complete := by
    rintro bs _ ⟨m, h, rfl⟩
    refine (reads_bignum h (.inl rfl)).finish ?_
    dsimp only
    rw [if_pos rfl, BitVec.toNat_ofNat, Nat.mod_eq_of_lt h.lt]
    exact .pure _

theorem takes_plainNatural : Takes (do
    let n ← cbor Cbor.Reader.integer
    if n < 0 then fail .negative else return n) fun bs n => Cbor.IsInteger bs n ∧ 0 ≤ n where
  sound h := by
    obtain ⟨n, bs, mid, hi, rfl, h₁⟩ := takes_plain.split h
    split at h₁
    · cases h₁
    · cases h₁
      exact ⟨bs, ⟨hi, by omega⟩, rfl⟩
  complete h := by
    refine (takes_plain.complete h.1).finish ?_
    rw [if_neg (by omega)]
    exact .pure _

theorem takes_natural : Takes readNatural fun bs n => IsInteger bs n ∧ 0 ≤ n := by
  refine (Takes.look Cbor.rest_of_nextIsTag takes_naturalBignum takes_plainNatural ?_).congr
    fun bs n => ⟨?_, ?_⟩
  · rintro bs n (⟨m, h, -⟩ | ⟨h, -⟩)
    · exact ⟨_, nextIsTag_of_isBignum h⟩
    · exact ⟨_, nextIsTag_of_isInteger h⟩
  · rintro (⟨⟨m, h, rfl⟩, -⟩ | ⟨⟨h, hn⟩, -⟩)
    · exact ⟨.positive h, by omega⟩
    · exact ⟨.plain h, hn⟩
  · rintro ⟨h, hn⟩
    cases h with
    | plain h => exact .inr ⟨⟨h, hn⟩, nextIsTag_of_isInteger h⟩
    | positive h => exact .inl ⟨⟨_, h, rfl⟩, nextIsTag_of_isBignum h⟩
    | negative h => omega

/-- The number of a kind that an integer is. -/
def numberOf (k : NumberKind) (i : Int) : Reader Number :=
  match Number.ofInt? k i with
  | some n => return n
  | none => throw (.outOfRange i k)

/-- Of the integers that are read, those within the range of the kind are its numbers. -/
theorem takes_numberOf {k : NumberKind} {read : Reader Int} {q : Int → Prop}
    (h : Takes read fun bs i => IsInteger bs i ∧ q i)
    (hq : ∀ i, k.least ≤ i → i ≤ k.greatest → q i) :
    Takes (read >>= numberOf k) fun bs n => n.kind = k ∧ IsInteger bs n.raw where
  sound hr := by
    obtain ⟨i, bs, mid, hi, rfl, h₁⟩ := h.split hr
    rw [numberOf] at h₁
    cases hn : Number.ofInt? k i with
    | none =>
      rw [hn] at h₁
      cases h₁
    | some n =>
      rw [hn] at h₁
      cases h₁
      obtain ⟨hk, rfl⟩ := Number.ofInt?_eq_some_iff.1 hn
      exact ⟨bs, ⟨hk, hi.1⟩, rfl⟩
  complete := by
    rintro bs n ⟨rfl, hi⟩
    refine (h.complete ⟨hi, hq _ n.least_le n.le_greatest⟩).finish ?_
    rw [numberOf, Number.ofInt?_raw]
    exact .pure n

theorem range_of_isNatural {k : NumberKind} : isNatural k → 0 ≤ k.least ∧ k.greatest < 2 ^ 128 := by
  cases k <;> decide

theorem range_of_not_isNatural {k : NumberKind} :
    ¬isNatural k → -2 ^ 127 ≤ k.least ∧ k.greatest < 2 ^ 127 := by
  cases k <;> decide

theorem readNumber_eq (k : NumberKind) : readNumber k =
    if isNatural k then readNatural >>= numberOf k else readInteger >>= numberOf k := rfl

theorem takes_number (k : NumberKind) :
    Takes (readNumber k) fun bs n => n.kind = k ∧ IsInteger bs n.raw := by
  rw [readNumber_eq]
  split
  · have hr := range_of_isNatural ‹_›
    exact takes_numberOf takes_natural fun i hl _ => by omega
  · have hr := range_of_not_isNatural ‹_›
    exact takes_numberOf takes_integer fun i hl hg => by omega

/-! ## Values without parts -/

theorem takes_address : Takes readAddress fun bs a => IsBytes bs a.bytes where
  sound h := by
    obtain ⟨as, bs, mid, hb, rfl, h₁⟩ := takes_bytes.split h
    cases ha : Octets.ofBytes? 8 as with
    | none =>
      rw [ha] at h₁
      cases h₁
    | some a =>
      rw [ha] at h₁
      cases h₁
      obtain rfl := Octets.ofBytes?_eq_some_iff.1 ha
      exact ⟨bs, hb, rfl⟩
  complete h := by
    refine (takes_bytes.complete h).finish ?_
    rw [Octets.ofBytes?_bytes]
    exact .pure _

theorem SimpleType.ofCode?_code (t : SimpleType) : ofCode? t.code = some t := by
  cases t with
  | number k => cases k <;> rfl
  | _ => rfl

theorem SimpleType.code_inj {t u : SimpleType} (h : t.code = u.code) : t = u := by
  have := congrArg ofCode? h
  rw [ofCode?_code, ofCode?_code] at this
  exact Option.some.inj this

/-- A simple type is read by the reader of its values. -/
theorem readSimple_code (t : SimpleType) : readSimple t.code =
    match t with
    | .void => do
      Reader.cbor Cbor.Reader.null
      return .void
    | .bool => return .bool (← Reader.cbor Cbor.Reader.bool)
    | .string => return .string (← Reader.cbor Cbor.Reader.text)
    | .character => return .character (← Reader.cbor Cbor.Reader.text)
    | .address => return .address (← readAddress)
    | .number k => return .number (← readNumber k)
    | .anyStruct => throw (.unsupportedType (.simpleType t.code))
    | .never => throw (.unsupportedType (.simpleType t.code)) := by
  unfold readSimple
  rw [SimpleType.ofCode?_code]
  cases t <;> rfl

theorem SimpleType.code_of_ofCode? {code : Nat} {t : SimpleType} (h : ofCode? code = some t) :
    t.code = code := by
  simpa using List.find?_some h

/-- A simple type is read by the reader of its values. -/
theorem takes_simpleType (t : SimpleType) : Takes (readSimple t.code) (IsSimple t) := by
  rw [readSimple_code]
  cases t with
  | void =>
    refine ((Takes.cbor Cbor.takes_null).map fun _ => Value.void).congr fun bs v => ⟨?_, ?_⟩
    · rintro ⟨_, rfl, rfl⟩
      exact .void
    · rintro ⟨⟩
      exact ⟨(), rfl, rfl⟩
  | bool =>
    refine ((Takes.cbor Cbor.takes_bool).map Value.bool).congr fun bs v => ⟨?_, ?_⟩
    · rintro ⟨b, rfl, rfl⟩
      exact .bool b
    · rintro ⟨⟩
      exact ⟨_, rfl, rfl⟩
  | string =>
    refine (takes_text.map Value.string).congr fun bs v => ⟨?_, ?_⟩
    · rintro ⟨s, h, rfl⟩
      exact .string h
    · rintro ⟨⟩
      exact ⟨_, ‹_›, rfl⟩
  | character =>
    refine (takes_text.map Value.character).congr fun bs v => ⟨?_, ?_⟩
    · rintro ⟨s, h, rfl⟩
      exact .character h
    · rintro ⟨⟩
      exact ⟨_, ‹_›, rfl⟩
  | address =>
    refine (takes_address.map Value.address).congr fun bs v => ⟨?_, ?_⟩
    · rintro ⟨a, h, rfl⟩
      exact .address h
    · rintro ⟨⟩
      exact ⟨_, ‹_›, rfl⟩
  | number k =>
    refine ((takes_number k).map Value.number).congr fun bs v => ⟨?_, ?_⟩
    · rintro ⟨n, ⟨rfl, h⟩, rfl⟩
      exact .number h
    · rintro ⟨⟩
      exact ⟨_, ⟨rfl, ‹_›⟩, rfl⟩
  | anyStruct | never => exact ⟨nofun, nofun⟩

theorem takes_simple (code : Nat) :
    Takes (readSimple code) fun bs v => ∃ t : SimpleType, t.code = code ∧ IsSimple t bs v where
  sound h := by
    cases ht : SimpleType.ofCode? code with
    | none =>
      rw [readSimple, ht] at h
      cases h
    | some t =>
      obtain rfl := SimpleType.code_of_ofCode? ht
      obtain ⟨bs, hs, he⟩ := (takes_simpleType t).sound h
      exact ⟨bs, ⟨t, rfl, hs⟩, he⟩
  complete := by
    rintro bs v ⟨t, rfl, h⟩
    exact (takes_simpleType t).complete h

/-! ## Values -/

section
variable {defs : List Definition} {room depth : Nat}

/-- The pair of a type and a value of it, after its tag. -/
theorem takes_pair (ht : Takes (readType room) (IsType depth))
    (hp : ∀ t, Takes (readValue defs room t) (IsValue defs depth t)) :
    Takes (do
      Reader.array 2 .typedValue
      let type ← readType room
      readValue defs room type) fun bs v => ∃ nb tb t vb, IsCount nb 2 ∧ IsType depth tb t ∧
        IsValue defs depth t vb v ∧ bs = nb ++ (tb ++ vb) where
  sound h := by
    obtain ⟨_, nb, mid, hn, rfl, h₁⟩ := (takes_count 2 _).split h
    obtain ⟨t, tb, mid, htype, rfl, h₂⟩ := ht.split h₁
    obtain ⟨vb, hv, rfl⟩ := (hp t).sound h₂
    exact ⟨_, ⟨nb, tb, t, vb, hn, htype, hv, rfl⟩, by simp only [List.append_assoc]⟩
  complete := by
    rintro _ v ⟨nb, tb, t, vb, hn, htype, hv, rfl⟩
    refine ((takes_count 2 _).complete (a := ()) hn).andThen ?_
    exact (ht.complete htype).andThen ((hp t).complete hv)

theorem takes_value_simple (hd : depth ≤ maxDepth)
    (ht : Takes (readType room) (IsType (depth + 1)))
    (hp : ∀ t, Takes (readValue defs room t) (IsValue defs (depth + 1) t)) (code : Nat) :
    Takes (readValue defs (room + 1) (.simple code)) (IsValue defs depth (.simple code)) where
  sound h := by
    rw [readValue] at h
    split at h
    · subst code
      obtain ⟨_, tb, mid, htag, rfl, h₁⟩ := takes_typedValue.split h
      obtain ⟨_, ⟨nb, bs, t, vb, hn, htype, hv, rfl⟩, rfl⟩ := (takes_pair ht hp).sound h₁
      exact ⟨_, .any hd (.intro htag hn htype) hv, by simp only [List.append_assoc]⟩
    · obtain ⟨bs, ⟨t, rfl, hs⟩, rfl⟩ := (takes_simple code).sound h
      exact ⟨bs, .simple hd hs, rfl⟩
  complete h := by
    cases h with
    | simple _ hs =>
      rw [readValue, if_neg fun he => ?_]
      · exact (takes_simpleType _).complete hs
      · obtain rfl := SimpleType.code_inj he
        cases hs
    | any _ hdecl hv =>
      obtain ⟨htag, hn, htype⟩ := hdecl
      rw [readValue, if_pos rfl, List.append_assoc, List.append_assoc]
      refine (takes_typedValue.complete (a := ()) htag).andThen ?_
      exact (takes_pair ht hp).complete ⟨_, _, _, _, hn, htype, hv, rfl⟩

theorem takes_null : Takes (do
    cbor Cbor.Reader.null
    return Value.absent) fun bs v => bs = Cbor.null ∧ v = .absent where
  sound h := by
    obtain ⟨_, bs, mid, rfl, rfl, h₁⟩ := (Takes.cbor Cbor.takes_null).split h
    cases h₁
    exact ⟨_, ⟨rfl, rfl⟩, rfl⟩
  complete := by
    rintro _ _ ⟨rfl, rfl⟩
    exact ((Takes.cbor Cbor.takes_null).complete (a := ()) rfl).finish (.pure _)

theorem takes_value_optional (hd : depth ≤ maxDepth)
    (hp : ∀ t, Takes (readValue defs room t) (IsValue defs (depth + 1) t)) (t : InlineType) :
    Takes (readValue defs (room + 1) (.optional t)) (IsValue defs depth (.optional t)) := by
  refine (Takes.look Cbor.rest_of_nextIsNull takes_null ((hp t).map Value.present) ?_).congr
    fun bs v => ⟨?_, ?_⟩
  · rintro bs v (⟨rfl, -⟩ | ⟨w, h, -⟩)
    · exact ⟨_, Cbor.nextIsNull_null⟩
    · exact ⟨_, h.showsNull⟩
  · rintro (⟨⟨rfl, rfl⟩, -⟩ | ⟨⟨w, h, rfl⟩, hs⟩)
    · exact .absent hd
    · refine .present hd ?_ h
      rintro rfl
      cases hs.eq (Cbor.nextIsNull_null [])
  · intro h
    cases h with
    | absent => exact .inl ⟨⟨rfl, rfl⟩, Cbor.nextIsNull_null⟩
    | present _ hn h =>
      have hs := h.showsNull
      rw [ShowsNull, decide_eq_false hn] at hs
      exact .inr ⟨⟨_, h, rfl⟩, hs⟩

theorem takes_value_array (hd : depth ≤ maxDepth)
    (hp : ∀ t, Takes (readValue defs room t) (IsValue defs (depth + 1) t)) (t : InlineType) :
    Takes (readValue defs (room + 1) (.array t)) (IsValue defs depth (.array t)) where
  sound h := by
    obtain ⟨n, nb, mid, hn, rfl, h₁⟩ := (takes_length _).split h
    obtain ⟨_, _, mid, ⟨items, rfl, hi, rfl, rfl⟩, rfl, h₂⟩ := ((hp t).many n).split h₁
    cases h₂
    exact ⟨_, .array hd hn hi, (List.append_assoc ..).symm⟩
  complete h := by
    cases h with
    | array _ hn hi =>
      refine ((takes_length _).complete hn).andThen ?_
      exact (((hp t).many _).complete ⟨_, rfl, hi, rfl, rfl⟩).finish (.pure _)

/-- Reads a key and its value. -/
def readEntry (ds : List Definition) (room : Nat) (key value : InlineType) :
    Reader (Value × Value) := do
  let k ← readValue ds room key
  let v ← readValue ds room value
  return (k, v)

/-- An entry is a key and the value under it. -/
theorem takes_entry (hp : ∀ t, Takes (readValue defs room t) (IsValue defs (depth + 1) t))
    (key value : InlineType) : Takes (readEntry defs room key value) fun bs e => ∃ kb vb,
      IsValue defs (depth + 1) key kb e.1 ∧ IsValue defs (depth + 1) value vb e.2 ∧
      bs = kb ++ vb where
  sound h := by
    obtain ⟨k, kb, mid, hk, rfl, h₁⟩ := (hp key).split h
    obtain ⟨v, vb, mid, hv, rfl, h₂⟩ := (hp value).split h₁
    cases h₂
    exact ⟨_, ⟨kb, vb, hk, hv, rfl⟩, (List.append_assoc ..).symm⟩
  complete := by
    rintro _ ⟨k, v⟩ ⟨kb, vb, hk, hv, rfl⟩
    exact ((hp key).complete hk).andThen (((hp value).complete hv).finish (.pure _))

/-- Parts that are each a key and a value are keys and values in turn. -/
theorem exists_entries {key value : Bytes → Value → Prop} {pieces : List (Piece (Value × Value))}
    (h : ∀ p ∈ pieces, ∃ kb vb, key kb p.content.1 ∧ value vb p.content.2 ∧ p.bytes = kb ++ vb) :
    ∃ entries : List (Piece Value × Piece Value), entries.length = pieces.length ∧
      (∀ e ∈ entries, key e.1.bytes e.1.content) ∧ (∀ e ∈ entries, value e.2.bytes e.2.content) ∧
      join pieces = join (flat entries) ∧
      contents pieces = entries.map fun e => (e.1.content, e.2.content) := by
  induction pieces with
  | nil => exact ⟨[], rfl, nofun, nofun, rfl, rfl⟩
  | cons p pieces ih =>
    obtain ⟨kb, vb, hk, hv, hb⟩ := h p (.head _)
    obtain ⟨entries, hl, hks, hvs, hj, hc⟩ := ih fun q hq => h q (.tail _ hq)
    refine ⟨(⟨kb, p.content.1⟩, ⟨vb, p.content.2⟩) :: entries, congrArg (· + 1) hl, ?_, ?_, ?_, ?_⟩
    · exact List.forall_mem_cons.2 ⟨hk, hks⟩
    · exact List.forall_mem_cons.2 ⟨hv, hvs⟩
    · rw [join_cons, flat, join_cons, join_cons, hb, hj, List.append_assoc]
    · rw [contents_cons, List.map_cons, hc]

/-- Keys and values in turn are pairs one after the other. -/
theorem join_map_pair {α : Type} (entries : List (Piece α × Piece α)) :
    join (entries.map fun e => ⟨e.1.bytes ++ e.2.bytes, e.1.content, e.2.content⟩ :
      List (Piece (α × α))) = join (flat entries) := by
  induction entries with
  | nil => rfl
  | cons e entries ih => rw [List.map_cons, join_cons, flat, join_cons, join_cons, ih,
      List.append_assoc]

theorem takes_value_dictionary (hd : depth ≤ maxDepth)
    (hp : ∀ t, Takes (readValue defs room t) (IsValue defs (depth + 1) t))
    (key value : InlineType) :
    Takes (readValue defs (room + 1) (.dictionary key value))
      (IsValue defs depth (.dictionary key value)) where
  sound h := by
    obtain ⟨n, nb, mid, hn, rfl, h₁⟩ := (takes_length _).split h
    split at h₁
    · cases h₁
    · obtain ⟨_, _, mid, ⟨pieces, hl, hps, rfl, rfl⟩, rfl, h₂⟩ :=
        ((takes_entry hp key value).many _).split h₁
      cases h₂
      obtain ⟨entries, hle, hk, hv, hj, hc⟩ := exists_entries hps
      obtain rfl : n = 2 * entries.length := by omega
      rw [hc]
      refine ⟨_, .dictionary hd hn hk hv, ?_⟩
      rw [hj, List.append_assoc]
  complete h := by
    cases h with
    | @dictionary _ _ _ _ entries _ hn hk hv =>
      refine ((takes_length _).complete hn).andThen ?_
      rw [if_neg (by omega), Nat.mul_div_cancel_left _ (by decide)]
      refine (((takes_entry hp key value).many _).complete
        ⟨entries.map fun e => ⟨e.1.bytes ++ e.2.bytes, e.1.content, e.2.content⟩,
          List.length_map .., ?_, ?_, rfl⟩).finish ?_
      · intro p hm
        obtain ⟨e, he, rfl⟩ := List.mem_map.1 hm
        exact ⟨_, _, hk e he, hv e he, rfl⟩
      · exact (join_map_pair entries).symm
      · rw [contents, List.map_map]
        exact .pure _

theorem takes_value_composite (hd : depth ≤ maxDepth)
    (hp : ∀ t, Takes (readValue defs room t) (IsValue defs (depth + 1) t)) (id : Bytes) :
    Takes (readValue defs (room + 1) (.reference id)) (IsValue defs depth (.reference id)) where
  sound h := by
    rw [readValue] at h
    cases hi : defs.find? (·.id = id) with
    | none =>
      rw [hi] at h
      cases h
    | some d =>
      rw [hi] at h
      obtain ⟨n, nb, mid, hn, rfl, h₁⟩ := (takes_length _).split h
      split at h₁
      · cases h₁
      · obtain rfl := Decidable.not_not.1 ‹_›
        obtain ⟨_, _, mid, ⟨fields, hl, hf, rfl, rfl⟩, rfl, h₂⟩ := (takes_eachOf hp _).split h₁
        cases h₂
        exact ⟨_, .composite hd hi hn hl hf, (List.append_assoc ..).symm⟩
  complete h := by
    cases h with
    | composite _ hi hn hl hf =>
      rw [readValue, hi]
      refine ((takes_length _).complete hn).andThen ?_
      rw [if_neg (not_not_intro rfl)]
      exact ((takes_eachOf hp _).complete ⟨_, hl, hf, rfl, rfl⟩).finish (.pure _)

/-- The values of a type at a depth are what is read with the room that is left. -/
theorem takes_value (h : room + depth = fullRoom) (t : InlineType) :
    Takes (readValue defs room t) (IsValue defs depth t) := by
  induction room generalizing depth t with
  | zero =>
    refine ⟨fun hr => ?_, fun hv => ?_⟩
    · rw [readValue] at hr
      cases hr
    · have := hv.depth_le
      rw [fullRoom] at h
      omega
  | succ room ih =>
    have hd : depth ≤ maxDepth := by
      rw [fullRoom] at h
      omega
    have hp (t : InlineType) : Takes (readValue defs room t) (IsValue defs (depth + 1) t) :=
      ih (by omega) t
    cases t with
    | simple code => exact takes_value_simple hd (takes_type (by omega)) hp code
    | optional t => exact takes_value_optional hd hp t
    | array t => exact takes_value_array hd hp t
    | dictionary key value => exact takes_value_dictionary hd hp key value
    | reference id => exact takes_value_composite hd hp id

end

/-! ## Messages -/

/-- What stands before the pair of a message. -/
theorem takes_definitions : Takes readDefinitions fun bs defs =>
    defs = [] ∧ IsTag bs Tag.typedValue ∨
    ∃ lb tb, IsDefinitionList lb defs ∧ IsTag tb Tag.typedValue ∧ bs = lb ++ tb where
  sound h := by
    obtain ⟨tag, tb, mid, ht, rfl, h₁⟩ := takes_tag.split h
    split at h₁
    · subst tag
      obtain ⟨_, nb, mid, hn, rfl, h₂⟩ := (takes_count 2 _).split h₁
      obtain ⟨n, lb, mid, hl, rfl, h₃⟩ := (takes_length _).split h₂
      obtain ⟨_, _, mid, ⟨defs, rfl, hd, rfl, rfl⟩, rfl, h₄⟩ := (takes_definition.many n).split h₃
      obtain ⟨_, vb, mid, hv, rfl, h₅⟩ := takes_typedValue.split h₄
      cases h₅
      exact ⟨_, .inr ⟨_, vb, .intro ht hn hl hd, hv, rfl⟩, by simp only [List.append_assoc]⟩
    split at h₁
    · subst tag
      cases h₁
      exact ⟨tb, .inl ⟨rfl, ht⟩, rfl⟩
    · cases h₁
  complete := by
    rintro bs _ (⟨rfl, ht⟩ | ⟨_, tb, ⟨ht, hn, hl, hd⟩, hv, rfl⟩)
    · exact (takes_tag.complete ht).finish (.pure [])
    · simp only [List.append_assoc]
      refine (takes_tag.complete ht).andThen ?_
      refine ((takes_count 2 _).complete (a := ()) hn).andThen ?_
      refine ((takes_length _).complete hl).andThen ?_
      refine ((takes_definition.many _).complete ⟨_, rfl, hd, rfl, rfl⟩).andThen ?_
      exact (takes_typedValue.complete (a := ()) hv).finish (.pure _)

/-- A value that stands at the root. -/
theorem takes_rootValue (defs : List Definition) (t : InlineType) :
    Takes (readValue defs fullRoom t) (IsValue defs 0 t) := takes_value (Nat.add_zero _) t

theorem takes_message : Takes readMessage (IsMessage 0) where
  sound h := by
    obtain ⟨defs, sb, mid, hs, rfl, h₁⟩ := takes_definitions.split h
    obtain ⟨_, ⟨nb, tb, t, vb, hn, ht, hv, rfl⟩, rfl⟩ :=
      (takes_pair takes_rootType (takes_rootValue defs)).sound h₁
    rcases hs with ⟨rfl, hs⟩ | ⟨lb, sb, hl, hs, rfl⟩
    · exact ⟨_, .plain (.intro (.intro hs hn ht) hv), by simp only [List.append_assoc]⟩
    · exact ⟨_, .defined (Nat.zero_le _) hl (.intro (.intro hs hn ht) hv),
        by simp only [List.append_assoc]⟩
  complete h := by
    cases h with
    | plain h =>
      obtain ⟨⟨hs, hn, ht⟩, hv⟩ := h
      rw [List.append_assoc, List.append_assoc]
      refine (takes_definitions.complete (.inl ⟨rfl, hs⟩)).andThen ?_
      exact (takes_pair takes_rootType (takes_rootValue _)).complete ⟨_, _, _, _, hn, ht, hv, rfl⟩
    | defined _ hl h =>
      obtain ⟨⟨hs, hn, ht⟩, hv⟩ := h
      rw [List.append_assoc, List.append_assoc, ← List.append_assoc]
      refine (takes_definitions.complete (.inr ⟨_, _, hl, hs, rfl⟩)).andThen ?_
      exact (takes_pair takes_rootType (takes_rootValue _)).complete ⟨_, _, _, _, hn, ht, hv, rfl⟩

end FlowAccess.Cadence.Ccf
