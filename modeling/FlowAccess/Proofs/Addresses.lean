import FlowAccess.Event
import FlowAccess.Proofs.Cbor
import FlowAccess.Proofs.Cbor.Items
import FlowAccess.Proofs.JsonCdc.RoundTrip
import FlowAccess.Proofs.Scalars
import Mathlib.Data.List.Forall2
import Mathlib.Data.Nat.Digits.Lemmas

/-!
# The spelling of addresses

The texts that denote an address: one to sixteen hexadecimal digits of either case, behind the mark
or not, of the number that the bytes of the address are (`Address.Spells`). What reads an address
takes just these texts, whichever codec it belongs to and however many bytes the characters of the
text have (`Address.readers_agree`).
-/

namespace FlowAccess

open Text

/-! ## Digits -/

namespace Text.Hex

/-- The sixteen digits, of either case. -/
def IsDigit (c : Char) : Prop := '0' ≤ c ∧ c ≤ '9' ∨ 'a' ≤ c ∧ c ≤ 'f' ∨ 'A' ≤ c ∧ c ≤ 'F'

/-- The character is the digit of that value, of either case. -/
def Denotes (c : Char) (n : Nat) : Prop :=
  n < 16 ∧ (c = Nat.digitChar n ∨ c = (Nat.digitChar n).toUpper)

theorem IsDigit.val_le {c : Char} (h : IsDigit c) : c.val ≤ 127 := by
  rcases h with ⟨-, h⟩ | ⟨-, h⟩ | ⟨-, h⟩ <;> exact UInt32.le_trans h (by decide)

theorem digit?_isSome_iff {c : Char} : (digit? c).isSome ↔ IsDigit c := by
  unfold digit? IsDigit
  split
  · simp [*]
  split
  · simp [*]
  split <;> simp [*]

theorem digit?_eq_some_iff {c : Char} {n : Nat} : digit? c = some n ↔ Denotes c n := by
  constructor
  · intro h
    have hle : c.val ≤ 127 := (digit?_isSome_iff.1 (by rw [h]; rfl)).val_le
    have hdigit (i : Fin 128) : ∀ n ∈ digit? (Char.ofNat i), Denotes (Char.ofNat i) n := by
      unfold Denotes
      revert i
      decide
    have := hdigit ⟨c.toNat, Nat.lt_succ_of_le hle⟩ n
    rw [Char.ofNat_toNat] at this
    exact this h
  · rintro ⟨hn, rfl | rfl⟩
    · exact digit?_digitChar hn
    · have hupper (i : Fin 16) : digit? (Nat.digitChar i).toUpper = some i.val := by
        revert i
        decide
      exact hupper ⟨n, hn⟩

theorem exists_denotes_iff {c : Char} : (∃ n, Denotes c n) ↔ IsDigit c := by
  simp only [← digit?_isSome_iff, Option.isSome_iff_exists, digit?_eq_some_iff]

/-- The number that digits of these values denote, the first of which counts most. -/
def value (ds : List Nat) : Nat := Nat.ofDigits 16 ds.reverse

theorem value_cons (d : Nat) (ds : List Nat) : value (d :: ds) = d * 16 ^ ds.length + value ds := by
  rw [value, List.reverse_cons, Nat.ofDigits_append, List.length_reverse, Nat.ofDigits_singleton,
    ← value]
  ring

/-- Zeros in front do not count. -/
theorem value_replicate_append (k : Nat) (ds : List Nat) :
    value (List.replicate k 0 ++ ds) = value ds := by
  induction k with
  | zero => rfl
  | succ k ih =>
    rw [List.replicate_succ, List.cons_append, value_cons, ih, Nat.zero_mul, Nat.zero_add]

theorem value_lt {cs : List Char} {ds : List Nat} (h : List.Forall₂ Denotes cs ds) :
    value ds < 16 ^ ds.length := by
  induction h with
  | nil => decide
  | @cons c d cs ds hd _ ih =>
    have hle : d * 16 ^ ds.length + 16 ^ ds.length ≤ 16 * 16 ^ ds.length := by
      rw [← Nat.succ_mul]
      exact Nat.mul_le_mul_right _ hd.1
    rw [value_cons, List.length_cons, Nat.pow_succ']
    omega

end Text.Hex

theorem Bytes.toNat_cons (b : UInt8) (bytes : Bytes) :
    toNat (b :: bytes) = b.toNat * 256 ^ bytes.length + toNat bytes := by
  induction bytes using List.reverseRecOn with
  | nil => simp [toNat]
  | append_singleton bytes c ih =>
    rw [← List.cons_append, toNat_append_singleton, ih, toNat_append_singleton, List.length_append,
      List.length_singleton, Nat.pow_succ]
    ring

namespace Text.Hex

/-- Pairs of digits are read as the bytes of the number that they denote. -/
theorem decodeChars?_eq_some_iff {cs : List Char} {bytes : Bytes} :
    decodeChars? cs = some bytes ↔ ∃ ds, List.Forall₂ Denotes cs ds ∧
      ds.length = 2 * bytes.length ∧ bytes.toNat = value ds := by
  fun_induction decodeChars? cs generalizing bytes with
  | case1 =>
    constructor
    · rintro ⟨⟩
      exact ⟨[], .nil, rfl, rfl⟩
    · rintro ⟨ds, h, hl, -⟩
      obtain rfl := List.forall₂_nil_left_iff.1 h
      rw [List.eq_nil_of_length_eq_zero (show bytes.length = 0 by simpa using hl.symm)]
  | case2 c =>
    refine iff_of_false nofun ?_
    rintro ⟨ds, h, hl, -⟩
    have := h.length_eq
    rw [List.length_singleton] at this
    omega
  | case3 hi lo rest ih =>
    simp only [Option.bind_eq_bind, Option.bind_eq_some_iff, digit?_eq_some_iff, ih,
      Option.pure_def, Option.some.injEq]
    constructor
    · rintro ⟨h, hh, l, hl, bytes, ⟨ds, hds, hlen, hv⟩, rfl⟩
      have hb : (UInt8.ofNat (16 * h + l)).toNat = 16 * h + l := by
        rw [UInt8.toNat_ofNat', Nat.mod_eq_of_lt]
        have := hh.1
        have := hl.1
        omega
      refine ⟨h :: l :: ds, .cons hh (.cons hl hds), by simp [hlen]; omega, ?_⟩
      rw [Bytes.toNat_cons, value_cons, value_cons, hb, hv, List.length_cons, hlen, Nat.pow_succ,
        Nat.pow_mul]
      ring
    · rintro ⟨_, hall, hlen, hv⟩
      obtain ⟨h, _, hh, hrest, rfl⟩ := List.forall₂_cons_left_iff.1 hall
      obtain ⟨l, ds, hl, hds, rfl⟩ := List.forall₂_cons_left_iff.1 hrest
      cases bytes with
      | nil => simp at hlen
      | cons b bytes =>
        have hlen : ds.length = 2 * bytes.length := by
          simp only [List.length_cons] at hlen
          omega
        have hlt := value_lt hds
        rw [hlen, Nat.pow_mul] at hlt
        have hpair : b.toNat * 256 ^ bytes.length + Bytes.toNat bytes =
            (16 * h + l) * 256 ^ bytes.length + value ds := by
          rw [← Bytes.toNat_cons, hv, value_cons, value_cons, List.length_cons, hlen, Nat.pow_succ,
            Nat.pow_mul]
          ring
        have hbytes : Bytes.toNat bytes = value ds := by
          rw [← Nat.mul_add_mod_of_lt (Cbor.toNat_lt bytes), hpair, Nat.mul_add_mod_of_lt hlt]
        have hb : b.toNat = 16 * h + l := by
          rw [hbytes] at hpair
          exact Nat.eq_of_mul_eq_mul_right (by positivity) (Nat.add_right_cancel hpair)
        refine ⟨h, hh, l, hl, bytes, ⟨ds, hds, hlen, hbytes⟩, ?_⟩
        rw [← hb, UInt8.ofNat_toNat]

end Text.Hex

/-! ## Addresses -/

namespace Address

/-- The text is these characters, behind the mark or not. -/
def Shows (text : String) (cs : List Char) : Prop :=
  text.toList = cs ∨ text.toList = '0' :: 'x' :: cs

/-- One to sixteen digits of either case, behind the mark or not. -/
def IsSpelling (text : String) : Prop :=
  ∃ cs, Shows text cs ∧ cs ≠ [] ∧ cs.length ≤ 16 ∧ ∀ c ∈ cs, Hex.IsDigit c

/-- The digits denote the number that the bytes of the address are, the first byte counting most. -/
def Spells (text : String) (a : Address) : Prop :=
  ∃ cs ds, Shows text cs ∧ cs ≠ [] ∧ cs.length ≤ 16 ∧ List.Forall₂ Hex.Denotes cs ds ∧
    a.bytes.toNat = Hex.value ds

/-- What shows digits shows the same ones once it is unmarked. -/
theorem stripMark_eq {text : String} {cs : List Char} (h : Shows text cs)
    (hd : ∀ c ∈ cs, Hex.IsDigit c) : Hex.stripMark text.toList = cs := by
  rcases h with h | h
  · rw [h]
    unfold Hex.stripMark
    split
    · exact absurd (hd 'x' (by simp)) (by unfold Hex.IsDigit; decide)
    · rfl
  · rw [h, Hex.stripMark]

theorem shows_stripMark (text : String) : Shows text (Hex.stripMark text.toList) := by
  unfold Shows Hex.stripMark
  split
  · exact .inr (by assumption)
  · exact .inl rfl

theorem forall_isDigit {cs : List Char} {ds : List Nat} (h : List.Forall₂ Hex.Denotes cs ds) :
    ∀ c ∈ cs, Hex.IsDigit c := by
  induction h with
  | nil => simp
  | cons h _ ih => exact List.forall_mem_cons.2 ⟨Hex.exists_denotes_iff.1 ⟨_, h⟩, ih⟩

theorem exists_forall₂_denotes {cs : List Char} (h : ∀ c ∈ cs, Hex.IsDigit c) :
    ∃ ds, List.Forall₂ Hex.Denotes cs ds := by
  induction cs with
  | nil => exact ⟨[], .nil⟩
  | cons c cs ih =>
    obtain ⟨n, hn⟩ := Hex.exists_denotes_iff.2 (h c (.head _))
    obtain ⟨ds, hds⟩ := ih fun d hd => h d (.tail _ hd)
    exact ⟨n :: ds, .cons hn hds⟩

/-- Filling up puts zeros in front, which add no digit that counts. -/
theorem forall₂_pad_iff {cs : List Char} {ds : List Nat} :
    List.Forall₂ Hex.Denotes (pad cs) ds ↔
      ∃ es, List.Forall₂ Hex.Denotes cs es ∧ ds = List.replicate (16 - cs.length) 0 ++ es := by
  have hzero {n : Nat} : Hex.Denotes '0' n ↔ n = 0 := by
    rw [← Hex.digit?_eq_some_iff]
    exact ⟨fun h => (Option.some.inj h).symm, fun h => h ▸ rfl⟩
  rw [pad]
  induction 16 - cs.length generalizing ds with
  | zero => simp
  | succ k ih =>
    rw [List.replicate_succ, List.cons_append, List.forall₂_cons_left_iff]
    simp only [hzero, ih]
    constructor
    · rintro ⟨_, _, rfl, ⟨es, hes, rfl⟩, rfl⟩
      exact ⟨es, hes, rfl⟩
    · rintro ⟨es, hes, rfl⟩
      exact ⟨0, _, rfl, ⟨es, hes, rfl⟩, rfl⟩

theorem parse?_eq_some_iff {text : String} {a : Address} :
    parse? text = some a ↔ Spells text a := by
  constructor
  · intro h
    rw [parse?] at h
    split at h
    · cases h
    rename_i hsize
    obtain ⟨bytes, hb, ha⟩ := Option.bind_eq_some_iff.1 h
    obtain rfl := Octets.ofBytes?_eq_some_iff.1 ha
    obtain ⟨ds, hds, hlen, hv⟩ := Hex.decodeChars?_eq_some_iff.1 hb
    obtain ⟨es, hes, rfl⟩ := forall₂_pad_iff.1 hds
    refine ⟨_, es, shows_stripMark text, fun hn => hsize (.inl hn), ?_, hes, ?_⟩
    · rw [Hex.utf8ByteSize_ofList fun c hc => (forall_isDigit hes c hc).val_le] at hsize
      exact Nat.le_of_not_lt fun hlt => hsize (.inr hlt)
    · rw [hv, Hex.value_replicate_append]
  · rintro ⟨cs, ds, hs, hn, hl, hds, hv⟩
    have hdigits := forall_isDigit hds
    have hsize : (String.ofList cs).utf8ByteSize = cs.length :=
      Hex.utf8ByteSize_ofList fun c hc => (hdigits c hc).val_le
    have hdecode : Hex.decodeChars? (pad cs) = some a.bytes := by
      refine Hex.decodeChars?_eq_some_iff.2
        ⟨_, forall₂_pad_iff.2 ⟨ds, hds, rfl⟩, ?_, by rw [hv, Hex.value_replicate_append]⟩
      rw [List.length_append, List.length_replicate, ← hds.length_eq, a.length_eq]
      omega
    rw [parse?, stripMark_eq hs hdigits, if_neg (by simp [hn, hsize, hl]), hdecode,
      Option.bind_some, Octets.ofBytes?_bytes]

/-- No text spells two addresses. -/
theorem Spells.unique {text : String} {a b : Address} (ha : Spells text a) (hb : Spells text b) :
    a = b :=
  Option.some.inj ((parse?_eq_some_iff.2 ha).symm.trans (parse?_eq_some_iff.2 hb))

theorem exists_spells_iff {text : String} : (∃ a, Spells text a) ↔ IsSpelling text := by
  constructor
  · rintro ⟨a, cs, ds, hs, hn, hl, hds, -⟩
    exact ⟨cs, hs, hn, hl, forall_isDigit hds⟩
  · rintro ⟨cs, hs, hn, hl, hd⟩
    obtain ⟨ds, hds⟩ := exists_forall₂_denotes hd
    have hlt : Hex.value ds < 256 ^ 8 := by
      calc Hex.value ds < 16 ^ ds.length := Hex.value_lt hds
        _ ≤ 16 ^ 16 := Nat.pow_le_pow_right (by decide) (hds.length_eq ▸ hl)
        _ = 256 ^ 8 := by decide
    refine ⟨.ofNat 8 (Hex.value ds), cs, ds, hs, hn, hl, hds, ?_⟩
    rw [Octets.ofNat, Bytes.toNat_ofNat, Nat.mod_eq_of_lt hlt]

theorem parse?_eq_none_iff {text : String} : parse? text = none ↔ ¬IsSpelling text := by
  rw [← exists_spells_iff, Option.eq_none_iff_forall_ne_some]
  simp only [ne_eq, parse?_eq_some_iff, not_exists]

/-! ## Readers -/

/-- What makes something of the addresses that texts spell, and refuses all other texts with an
error of its own. -/
structure Reads {ε α : Type} (read : String → Except ε α) (make : Address → α)
    (refusal : String → ε) : Prop where
  accepts : ∀ text, (∃ x, read text = .ok x) ↔ IsSpelling text
  denotes : ∀ text a, read text = .ok (make a) ↔ Spells text a
  refuses : ∀ text, read text = .error (refusal text) ↔ ¬IsSpelling text

/-- A reader that goes by `parse?` takes the spellings of addresses. -/
theorem Reads.of_parse? {ε α : Type} {read : String → Except ε α} {make : Address → α}
    {refusal : String → ε} (hmake : ∀ a b, make a = make b → a = b)
    (hsome : ∀ text a, parse? text = some a → read text = .ok (make a))
    (hnone : ∀ text, parse? text = none → read text = .error (refusal text)) :
    Reads read make refusal where
  accepts text := by
    rw [← exists_spells_iff]
    cases h : parse? text with
    | none =>
      have hno := parse?_eq_none_iff.1 h
      rw [← exists_spells_iff] at hno
      simp [hnone text h, hno]
    | some a => exact iff_of_true ⟨_, hsome text a h⟩ ⟨a, parse?_eq_some_iff.1 h⟩
  denotes text a := by
    rw [← parse?_eq_some_iff]
    cases h : parse? text with
    | none => simp [hnone text h]
    | some b =>
      rw [hsome text b h]
      constructor
      · rintro h
        rw [hmake b a (Except.ok.inj h)]
      · rintro ⟨⟩
        rfl
  refuses text := by
    rw [← parse?_eq_none_iff]
    cases h : parse? text with
    | none => simp [hnone text h]
    | some a => simp [hsome text a h]

theorem reads_hexAddress (field : String) :
    Reads (Scalar.hexAddress field) id (.invalidHex field) := by
  refine .of_parse? (fun _ _ h => h) (fun text a h => ?_) fun text h => ?_
  · rw [Scalar.hexAddress, h]
    rfl
  · rw [Scalar.hexAddress, h]

theorem reads_readAddress :
    Reads Cadence.JsonCdc.readAddress .address (.invalidLiteral .address) := by
  refine .of_parse? (fun _ _ h => by cases h; rfl) (fun text a h => ?_) fun text h => ?_
  · rw [Cadence.JsonCdc.readAddress, h]
  · rw [Cadence.JsonCdc.readAddress, h]

theorem reads_ofJson (options : Cadence.ValueOptions) :
    Reads (fun text =>
        Cadence.JsonCdc.ofJson options (Cadence.JsonCdc.tagged "Address" (.string text)))
      .address (.invalidLiteral .address) := by
  have h (text : String) : Cadence.JsonCdc.ofJson options
        (Cadence.JsonCdc.tagged "Address" (.string text)) = Cadence.JsonCdc.readAddress text :=
    Cadence.JsonCdc.ofJson_simple (by decide) rfl
  simp only [h]
  exact reads_readAddress

/-- A filter passes that has no blank entry and nothing but spellings of addresses. -/
theorem fault?_eq_none_iff {f : EventFilter} :
    f.fault? = none ↔
      (∀ entry ∈ f.eventTypes ++ f.contracts, isBlank entry = false) ∧
        ∀ text ∈ f.addresses, IsSpelling text := by
  have hp (text : String) : (parse? text).isNone = false ↔ IsSpelling text := by
    rw [← not_iff_not, ← parse?_eq_none_iff, Bool.not_eq_false, Option.isNone_iff_eq_none]
  unfold EventFilter.fault?
  split
  · rename_i h
    have hb := List.find?_some h
    refine iff_of_false nofun fun hall => ?_
    rw [hall.1 _ (List.mem_of_find?_eq_some h)] at hb
    cases hb
  · rename_i h
    rw [Option.map_eq_none_iff, List.find?_eq_none]
    rw [List.find?_eq_none] at h
    simp only [Bool.not_eq_true] at h
    simp only [Bool.not_eq_true, hp]
    exact ⟨fun ha => ⟨h, ha⟩, And.right⟩

/-- Whatever reads an address takes the spellings of addresses and nothing else, for the address
that they spell: the scalar reader of every field, the reader of values, and the trees of values in
either mode. Both ways to write an address are read back, and a filter passes or fails by the same
spellings. -/
theorem readers_agree (options : Cadence.ValueOptions) :
    (∀ field, Reads (Scalar.hexAddress field) id (.invalidHex field)) ∧
    Reads Cadence.JsonCdc.readAddress .address (.invalidLiteral .address) ∧
    Reads (fun text =>
        Cadence.JsonCdc.ofJson options (Cadence.JsonCdc.tagged "Address" (.string text)))
      .address (.invalidLiteral .address) ∧
    (∀ a : Address, ∀ text ∈ [a.hex, a.prefixed],
      (∀ field, Scalar.hexAddress field text = .ok a) ∧
        Cadence.JsonCdc.readAddress text = .ok (.address a)) ∧
    ∀ f : EventFilter, f.fault? = none ↔
      (∀ entry ∈ f.eventTypes ++ f.contracts, isBlank entry = false) ∧
        ∀ text ∈ f.addresses, IsSpelling text := by
  refine ⟨reads_hexAddress, reads_readAddress, reads_ofJson options, fun a text ht => ?_,
    fun _ => fault?_eq_none_iff⟩
  have hp : parse? text = some a := by
    rcases List.mem_pair.1 ht with rfl | rfl
    · exact parse?_hex a
    · exact parse?_prefixed a
  exact ⟨fun field => ((reads_hexAddress field).denotes text a).2 (parse?_eq_some_iff.1 hp),
    (reads_readAddress.denotes text a).2 (parse?_eq_some_iff.1 hp)⟩

end Address
end FlowAccess
