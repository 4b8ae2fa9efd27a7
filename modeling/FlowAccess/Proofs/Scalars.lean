import FlowAccess.Proofs.Timestamp
import FlowAccess.Scalar

/-!
# Scalars read back

The value of a field is read back from its binary form and from its text: byte strings in base 64
and in hexadecimal digits, identifiers and addresses, and numbers.
-/

namespace FlowAccess

open Text

/-! ## Base64 -/

namespace Text.Base64

/-- A byte is the lowest eight bits of a number. -/
theorem ofNat_eq {n : Nat} {b : UInt8} (h : n % 256 = b.toNat) : UInt8.ofNat n = b :=
  UInt8.toNat_inj.1 (by rw [UInt8.toNat_ofNat', h])

theorem digit?_digit {n : Nat} (h : n < 64) : digit? (digit n) = some n := by
  have (i : Fin 64) : digit? (digit i) = some i.val := by
    revert i; decide
  exact this ⟨n, h⟩

/-- The padding is no digit. -/
theorem digit_ne {n : Nat} (h : n < 64) : digit n ≠ '=' := by
  intro he
  have := digit?_digit h
  rw [he] at this
  cases this

/-- Four digits are three bytes, whatever follows them. -/
theorem decodeChars?_group {a b c d : Nat} (ha : a < 64) (hb : b < 64) (hc : c < 64) (hd : d < 64)
    (rest : List Char) :
    decodeChars? (digit a :: digit b :: digit c :: digit d :: rest) =
      (decodeChars? rest).map fun bytes =>
        UInt8.ofNat ((262144 * a + 4096 * b + 64 * c + d) / 65536) ::
          UInt8.ofNat ((262144 * a + 4096 * b + 64 * c + d) / 256) ::
            UInt8.ofNat (262144 * a + 4096 * b + 64 * c + d) :: bytes := by
  rw [decodeChars?, digit?_digit ha, digit?_digit hb, digit?_digit hc, digit?_digit hd]
  · cases decodeChars? rest <;> rfl
  · exact fun _ h => absurd h (digit_ne hd)
  · exact fun h => absurd h (digit_ne hd)

theorem decodeChars?_encodeChars (bytes : Bytes) :
    decodeChars? (encodeChars bytes) = some bytes := by
  fun_induction encodeChars bytes with
  | case1 => rfl
  | case2 a n =>
    have ha := a.toNat_lt
    have hn : 64 * (n / 4) + n % 4 * 16 = 16 * n := by omega
    rw [decodeChars?, digit?_digit (by omega), digit?_digit (by omega)]
    simp only [Option.bind_eq_bind, Option.bind_some, hn]
    rw [if_pos (by omega), ofNat_eq (by omega : 16 * n / 16 % 256 = a.toNat)]
    rfl
  | case3 a b n =>
    have ha := a.toNat_lt
    have hb := b.toNat_lt
    have hn : 4096 * (n / 1024) + 64 * (n / 16 % 64) + n % 16 * 4 = 4 * n := by omega
    rw [decodeChars?, digit?_digit (by omega), digit?_digit (by omega), digit?_digit (by omega)]
    · simp only [Option.bind_eq_bind, Option.bind_some, hn]
      rw [if_pos (by omega), ofNat_eq (by omega : 4 * n / 1024 % 256 = a.toNat),
        ofNat_eq (by omega : 4 * n / 4 % 256 = b.toNat)]
      rfl
    · exact fun h => absurd h (digit_ne (by omega))
  | case4 a b c rest n ih =>
    have ha := a.toNat_lt
    have hb := b.toNat_lt
    have hc := c.toNat_lt
    have hn : 262144 * (n / 262144) + 4096 * (n / 4096 % 64) + 64 * (n / 64 % 64) + n % 64 = n := by
      omega
    rw [decodeChars?_group (by omega) (by omega) (by omega) (by omega), ih, hn,
      ofNat_eq (by omega : n / 65536 % 256 = a.toNat),
      ofNat_eq (by omega : n / 256 % 256 = b.toNat), ofNat_eq (by omega : n % 256 = c.toNat)]
    rfl

@[simp] theorem decode?_encode (bytes : Bytes) : decode? (encode bytes) = some bytes := by
  rw [decode?, encode, String.toList_ofList, decodeChars?_encodeChars]

end Text.Base64

/-! ## Numerals -/

theorem Text.Numeral.ofNat_ne_empty (n : Nat) : ofNat n ≠ "" := by
  intro h
  have := congrArg String.toList h
  rw [ofNat, String.toList_ofList] at this
  exact digits_ne_nil n this

/-! ## Hexadecimal text -/

namespace Text.Hex

/-- The second digit of a byte is not the letter of the mark. -/
theorem stripMark_encodeChars (bytes : Bytes) :
    stripMark (encodeChars bytes) = encodeChars bytes := by
  cases bytes with
  | nil => rfl
  | cons b rest =>
    have hx : Nat.digitChar (b.toNat % 16) ≠ 'x' := by
      have (i : Fin 16) : Nat.digitChar i ≠ 'x' := by
        revert i; decide
      exact this ⟨b.toNat % 16, Nat.mod_lt _ (by decide)⟩
    show stripMark (Nat.digitChar (b.toNat / 16) :: Nat.digitChar (b.toNat % 16) ::
      encodeChars rest) = _
    unfold stripMark
    split
    · rename_i h
      simp only [List.cons.injEq] at h
      exact absurd h.2.1 hx
    · rfl

theorem encode_eq_empty_iff {bytes : Bytes} : encode bytes = "" ↔ bytes = [] := by
  rw [encode, ← String.toList_inj, String.toList_ofList]
  constructor
  · intro h
    have hl : 2 * bytes.length = 0 := by rw [← length_encodeChars, h]; rfl
    exact List.eq_nil_of_length_eq_zero (by omega)
  · rintro rfl
    rfl

end Text.Hex

theorem Octets.hex_ne_empty {n : Nat} (x : Octets (n + 1)) : x.hex ≠ "" := by
  intro h
  have hl := x.length_eq
  rw [Hex.encode_eq_empty_iff.1 h] at hl
  cases hl

@[simp] theorem Address.parse?_hex (a : Address) : parse? a.hex = some a := by
  have h := parse?_prefixed a
  have hm : Hex.stripMark a.prefixed.toList = Hex.stripMark a.hex.toList := by
    simp only [prefixed, Octets.hex, Hex.encode, String.toList_append, String.toList_ofList,
      Hex.stripMark_encodeChars]
    rfl
  rwa [parse?, hm, ← parse?] at h

namespace Scalar

variable {field : String}

/-! ## Binary forms -/

@[simp] theorem octets_bytes {n : Nat} (x : Octets n) : octets n field x.bytes = .ok x := by
  rw [octets, Octets.ofBytes?_bytes]

@[simp] theorem identifier_bytes (id : Identifier) : identifier field id.bytes = .ok id :=
  octets_bytes id

@[simp] theorem address_bytes (a : Address) : address field a.bytes = .ok a := octets_bytes a

/-- An identifier is never left out, as it is not empty. -/
@[simp] theorem identifierOrEmpty_bytes (id : Identifier) :
    identifierOrEmpty field id.bytes = .ok id := by
  have h : id.bytes ≠ [] := fun h => by
    have := id.length_eq
    rw [h] at this
    cases this
  rw [identifierOrEmpty, if_neg h, identifier_bytes]

@[simp] theorem pointInTime_self (t : Timestamp) :
    pointInTime field t.seconds t.nanos = .ok t := by
  rw [pointInTime, if_neg (by omega), Int.toNat_natCast, t.ofUnix?_self]

/-! ## Text forms -/

@[simp] theorem hexBytes_encode (bytes : Bytes) :
    hexBytes field (Hex.encode bytes) = .ok bytes := by
  rw [hexBytes, Hex.encode, String.toList_ofList, Hex.stripMark_encodeChars,
    Hex.decodeChars?_encodeChars]

/-- The mark in front of the digits does not count. -/
@[simp] theorem hexBytes_marked (bytes : Bytes) :
    hexBytes field ("0x" ++ Hex.encode bytes) = .ok bytes := by
  have h : Hex.stripMark ("0x" ++ Hex.encode bytes).toList = Hex.encodeChars bytes := by
    simp only [Hex.encode, String.toList_append, String.toList_ofList]
    rfl
  rw [hexBytes, h, Hex.decodeChars?_encodeChars]

@[simp] theorem hexIdentifier_hex (id : Identifier) : hexIdentifier field id.hex = .ok id := by
  rw [hexIdentifier, Octets.hex, hexBytes_encode]
  exact identifier_bytes id

@[simp] theorem hexIdentifierOrEmpty_hex (id : Identifier) :
    hexIdentifierOrEmpty field id.hex = .ok id := by
  rw [hexIdentifierOrEmpty, if_neg id.hex_ne_empty, hexIdentifier_hex]

@[simp] theorem hexAddress_hex (a : Address) : hexAddress field a.hex = .ok a := by
  rw [hexAddress, Address.parse?_hex]

@[simp] theorem base64Bytes_encode (bytes : Bytes) :
    base64Bytes field (Base64.encode bytes) = .ok bytes := by
  rw [base64Bytes, Base64.decode?_encode]

@[simp] theorem uint64_numeral (n : UInt64) :
    uint64 field (Numeral.ofNat n.toNat) = .ok n := by
  rw [uint64, Numeral.ofNat, String.toList_ofList, Numeral.nat?_digits]
  dsimp only
  rw [if_pos n.toNat_lt, UInt64.ofNat_toNat]

@[simp] theorem uint32_numeral (n : UInt32) :
    uint32 field (Numeral.ofNat n.toNat) = .ok n := by
  have h : uint64 field (Numeral.ofNat n.toNat) = .ok n.toUInt64 := uint64_numeral n.toUInt64
  rw [uint32, h]
  exact (if_pos n.toNat_lt).trans (congrArg Except.ok n.toUInt32_toUInt64)

theorem timestamp_format {t : Timestamp} (h : t.HasPlainYear) :
    timestamp field t.format = .ok t := by
  rw [timestamp, Timestamp.parse?_format h]

theorem timestamp_format_eq_error {t : Timestamp} (h : ¬t.HasPlainYear) :
    timestamp field t.format = .error (.invalidTimestamp field (.unreadable t.format)) := by
  rw [timestamp, Timestamp.parse?_format_eq_none h]

end Scalar
end FlowAccess
