import FlowAccess.Encoding
import FlowAccess.Proofs.Json.Depth
import FlowAccess.Proofs.JsonCdc.RoundTrip
import FlowAccess.Proofs.Outcomes

/-!
# Canonical JSON payloads

A reader accepts more than a writer writes: members in any order, more than once or of other names,
short addresses, literals with signs and zeros, and in compatible mode the older forms. Whatever it
accepts has a canonical text that every reader accepts, the text of the value (`decode_canonical`).
Only two things could stand against it. A character of several code points is refused from the
start, and the tree of the value is no deeper than the tree that was read (`legible_of_ofJson`).
-/

namespace FlowAccess.Cadence.JsonCdc

open Value

variable {options : ValueOptions} {json payload : Json} {v : Value}

/-! ## Values without parts -/

theorem need_eq_ok_iff {α : Type} {fault : JsonCdcFault} {x : Option α} {a : α} :
    need fault x = .ok a ↔ x = some a := by
  cases x with
  | none => exact iff_of_false nofun nofun
  | some b => rw [need, Except.ok.injEq, Option.some_inj]

theorem get?_of_member? {name : String} {m : Json} {hm} (h : member? json name = some ⟨m, hm⟩) :
    json.get? name = some m := by
  unfold member? at h
  split at h
  · cases h
    assumption
  · cases h

/-- A value without parts, which is written as one object. -/
structure Leaf (v : Value) : Prop where
  containers : v.containers = 1
  single : v.SingleCharacters

theorem leaf_of_readLiteral {k : NumberKind} {s : String} (h : readLiteral k s = .ok v) :
    Leaf v := by
  unfold readLiteral at h
  split at h
  · cases h
    exact ⟨rfl, trivial⟩
  · cases h

theorem leaf_of_readNumber {k : NumberKind} (h : readNumber options k payload = .ok v) :
    Leaf v := by
  unfold readNumber at h
  split at h
  · exact leaf_of_readLiteral h
  · split at h
    · cases h
    · split at h
      · exact leaf_of_readLiteral h
      · cases h

theorem leaf_of_readCharacter {s : String} (h : readCharacter s = .ok v) : Leaf v := by
  unfold readCharacter at h
  split at h
  · cases h
    exact ⟨rfl, ‹_›⟩
  · cases h

theorem leaf_of_readAddress {s : String} (h : readAddress s = .ok v) : Leaf v := by
  unfold readAddress at h
  split at h
  · cases h
    exact ⟨rfl, trivial⟩
  · cases h

theorem leaf_of_readSimple? {kind : String} (h : readSimple? options kind payload = some (.ok v)) :
    Leaf v := by
  unfold readSimple? at h
  split at h
  · have h := Option.some.inj h
    split at h
    · cases h
      exact ⟨rfl, trivial⟩
    · cases h
  · cases hs : need (.notString "String") payload.string? with
    | error e =>
      rw [hs] at h
      cases h
    | ok s =>
      rw [hs] at h
      cases h
      exact ⟨rfl, trivial⟩
  · obtain ⟨s, -, h⟩ := ok_of_bind_ok (Option.some.inj h)
    exact leaf_of_readCharacter h
  · obtain ⟨s, -, h⟩ := ok_of_bind_ok (Option.some.inj h)
    exact leaf_of_readAddress h
  · obtain ⟨k, -, h⟩ := Option.map_eq_some_iff.1 h
    exact leaf_of_readNumber h

/-! ## Values with parts -/

/-- How a value was read from a tree. -/
inductive Origin (options : ValueOptions) (json : Json) : Value → Prop where
  | leaf {v : Value} (h : Leaf v) : Origin options json v
  | present {payload : Json} {v : Value} (hp : json.get? "value" = some payload)
      (h : ofJson options payload = .ok v) : Origin options json (.present v)
  | array {items : List Json} {vs : List Value} (hp : json.get? "value" = some (.array items))
      (h : readItems options items = .ok vs) : Origin options json (.array vs)
  | dictionary {entries : List Json} {vs : List (Value × Value)}
      (hp : json.get? "value" = some (.array entries)) (h : readEntries options entries = .ok vs) :
      Origin options json (.dictionary vs)
  | composite {payload : Json} {kind : CompositeKind} {id : String} {fields : List Json}
      {vs : List (String × Value)} (hp : json.get? "value" = some payload)
      (hf : payload.get? "fields" = some (.array fields))
      (h : readFields options fields = .ok vs) : Origin options json (.composite kind id vs)

theorem origin_of_readComposite {kind : CompositeKind} (hp : json.get? "value" = some payload)
    (h : readComposite options kind payload = .ok v) : Origin options json v := by
  cases payload with
  | object members =>
    rw [readComposite] at h
    obtain ⟨id, -, h⟩ := ok_of_bind_ok h
    split at h
    · obtain ⟨vs, hvs, h⟩ := ok_of_bind_ok h
      cases h
      exact .composite hp (get?_of_member? ‹_›) hvs
    · cases h
  | null | bool | number | string | array =>
    rw [readComposite] at h
    · cases h
    · intro members hm
      cases hm

/-- What is read from a tree is read from an object. -/
theorem exists_members_of_ofJson (h : ofJson options json = .ok v) :
    ∃ members, json = .object members := by
  cases json with
  | object members => exact ⟨members, rfl⟩
  | null | bool | number | string | array =>
    rw [ofJson] at h
    · cases h
    · intro members hm
      cases hm

theorem origin_of_ofJson (h : ofJson options json = .ok v) : Origin options json v := by
  obtain ⟨members, rfl⟩ := exists_members_of_ofJson h
  rw [ofJson] at h
  obtain ⟨kind, -, h⟩ := ok_of_bind_ok h
  split at h
  · split at h
    · cases h
    · cases h
      exact .leaf ⟨rfl, trivial⟩
  obtain ⟨⟨payload, smaller⟩, hp, h⟩ := ok_of_bind_ok h
  replace hp := get?_of_member? (need_eq_ok_iff.1 hp)
  dsimp only at h
  split at h
  · subst h
    exact .leaf (leaf_of_readSimple? ‹_›)
  split at h
  · split at h
    · cases h
      exact .leaf ⟨rfl, trivial⟩
    · obtain ⟨w, hw, h⟩ := ok_of_bind_ok h
      cases h
      exact .present hp hw
  · split at h
    · obtain ⟨vs, hvs, h⟩ := ok_of_bind_ok h
      cases h
      exact .array hp hvs
    · cases h
  · split at h
    · obtain ⟨vs, hvs, h⟩ := ok_of_bind_ok h
      cases h
      exact .dictionary hp hvs
    · cases h
  · exact origin_of_readComposite hp h
  · exact origin_of_readComposite hp h
  · cases h

/-! ## Lists -/

theorem of_readItems_cons {items : List Json} {vs : List Value}
    (h : readItems options items = .ok (v :: vs)) : ∃ item rest, items = item :: rest ∧
      ofJson options item = .ok v ∧ readItems options rest = .ok vs := by
  cases items with
  | nil =>
    rw [readItems] at h
    cases h
  | cons item rest =>
    rw [readItems] at h
    obtain ⟨_, hv, h⟩ := ok_of_bind_ok h
    obtain ⟨_, hvs, h⟩ := ok_of_bind_ok h
    cases h
    exact ⟨item, rest, rfl, hv, hvs⟩

theorem of_readEntries_cons {k : Value} {entries : List Json} {vs : List (Value × Value)}
    (h : readEntries options entries = .ok ((k, v) :: vs)) : ∃ entry rest kj vj,
      entries = entry :: rest ∧ entry.get? "key" = some kj ∧ entry.get? "value" = some vj ∧
      ofJson options kj = .ok k ∧ ofJson options vj = .ok v ∧
      readEntries options rest = .ok vs := by
  cases entries with
  | nil =>
    rw [readEntries] at h
    cases h
  | cons entry rest =>
    rw [readEntries] at h
    obtain ⟨⟨kj, _⟩, hkj, h⟩ := ok_of_bind_ok h
    obtain ⟨⟨vj, _⟩, hvj, h⟩ := ok_of_bind_ok h
    obtain ⟨_, hk, h⟩ := ok_of_bind_ok h
    obtain ⟨_, hv, h⟩ := ok_of_bind_ok h
    obtain ⟨_, hvs, h⟩ := ok_of_bind_ok h
    cases h
    exact ⟨entry, rest, kj, vj, rfl, get?_of_member? (need_eq_ok_iff.1 hkj),
      get?_of_member? (need_eq_ok_iff.1 hvj), hk, hv, hvs⟩

theorem of_readFields_cons {name : String} {fields : List Json} {vs : List (String × Value)}
    (h : readFields options fields = .ok ((name, v) :: vs)) : ∃ field rest vj,
      fields = field :: rest ∧ field.get? "value" = some vj ∧ ofJson options vj = .ok v ∧
      readFields options rest = .ok vs := by
  cases fields with
  | nil =>
    rw [readFields] at h
    cases h
  | cons field rest =>
    rw [readFields] at h
    obtain ⟨_, -, h⟩ := ok_of_bind_ok h
    obtain ⟨⟨vj, _⟩, hvj, h⟩ := ok_of_bind_ok h
    obtain ⟨_, hv, h⟩ := ok_of_bind_ok h
    obtain ⟨_, hvs, h⟩ := ok_of_bind_ok h
    cases h
    exact ⟨field, rest, vj, rfl, get?_of_member? (need_eq_ok_iff.1 hvj), hv, hvs⟩

/-! ## Trees -/

/-- A value that can be read from a tree of its own where so many containers may be nested. -/
structure Legible (v : Value) (depth : Nat) : Prop where
  single : v.SingleCharacters
  containers_le : v.containers ≤ depth

theorem Leaf.legible (hv : Leaf v) (h : ofJson options json = .ok v) :
    Legible v json.depth where
  single := hv.single
  containers_le := by
    obtain ⟨members, rfl⟩ := exists_members_of_ofJson h
    rw [hv.containers]
    exact Nat.succ_pos _

mutual

/-- What is read from a tree can be read from one of no greater depth, its own. -/
theorem legible_of_ofJson : (v : Value) → {json : Json} → ofJson options json = .ok v →
    Legible v json.depth
  | .present v, json, h => by
    cases origin_of_ofJson h with
    | leaf hv => exact hv.legible h
    | present hp hv =>
      obtain ⟨hs, hc⟩ := legible_of_ofJson v hv
      have hp := Json.depth_lt_of_get? hp
      refine ⟨hs, ?_⟩
      rw [containers]
      omega
  | .array vs, json, h => by
    cases origin_of_ofJson h with
    | leaf hv => exact hv.legible h
    | array hp hvs =>
      obtain ⟨hs, hc⟩ := legible_of_readItems vs hvs
      have hp := Json.depth_lt_of_get? hp
      rw [Json.depth] at hp
      refine ⟨hs, ?_⟩
      rw [containers]
      omega
  | .dictionary vs, json, h => by
    cases origin_of_ofJson h with
    | leaf hv => exact hv.legible h
    | dictionary hp hvs =>
      obtain ⟨hs, hc⟩ := legible_of_readEntries vs hvs
      have hp := Json.depth_lt_of_get? hp
      rw [Json.depth] at hp
      refine ⟨hs, ?_⟩
      rw [containers]
      cases vs with
      | nil => exact Nat.le_trans (Nat.succ_le_succ (Nat.succ_pos _)) hp
      | cons e rest =>
        have := hc nofun
        rw [if_neg nofun]
        omega
  | .composite _ _ vs, json, h => by
    cases origin_of_ofJson h with
    | leaf hv => exact hv.legible h
    | composite hp hf hvs =>
      obtain ⟨hs, hc⟩ := legible_of_readFields vs hvs
      have hp := Json.depth_lt_of_get? hp
      have hf := Json.depth_lt_of_get? hf
      rw [Json.depth] at hf
      refine ⟨hs, ?_⟩
      rw [containers]
      cases vs with
      | nil =>
        rw [if_pos List.isEmpty_nil]
        omega
      | cons f rest =>
        have := hc nofun
        rw [if_neg nofun]
        omega
  | .void, _, h | .absent, _, h | .bool _, _, h | .string _, _, h | .character _, _, h
  | .address _, _, h | .number _, _, h => by
    cases origin_of_ofJson h with
    | leaf hv => exact hv.legible h

theorem legible_of_readItems : (vs : List Value) → {items : List Json} →
    readItems options items = .ok vs →
    SingleCharactersItems vs ∧ containersItems vs ≤ Json.depthItems items
  | [], _, _ => ⟨trivial, Nat.zero_le _⟩
  | v :: vs, items, h => by
    obtain ⟨item, rest, rfl, hv, hvs⟩ := of_readItems_cons h
    obtain ⟨hs, hc⟩ := legible_of_ofJson v hv
    obtain ⟨hss, hcs⟩ := legible_of_readItems vs hvs
    refine ⟨⟨hs, hss⟩, ?_⟩
    rw [containersItems, Json.depthItems]
    omega

/-- An entry is a container itself, which counts if there is one. -/
theorem legible_of_readEntries : (vs : List (Value × Value)) → {entries : List Json} →
    readEntries options entries = .ok vs →
    SingleCharactersEntries vs ∧ (vs ≠ [] → containersEntries vs < Json.depthItems entries)
  | [], _, _ => ⟨trivial, fun h => absurd rfl h⟩
  | (k, v) :: vs, entries, h => by
    obtain ⟨entry, rest, kj, vj, rfl, hkj, hvj, hk, hv, hvs⟩ := of_readEntries_cons h
    obtain ⟨hks, hkc⟩ := legible_of_ofJson k hk
    obtain ⟨hs, hc⟩ := legible_of_ofJson v hv
    obtain ⟨hss, hcs⟩ := legible_of_readEntries vs hvs
    have hkj := Json.depth_lt_of_get? hkj
    have hvj := Json.depth_lt_of_get? hvj
    refine ⟨⟨hks, hs, hss⟩, fun _ => ?_⟩
    rw [containersEntries, Json.depthItems]
    cases vs with
    | nil =>
      rw [containersEntries]
      omega
    | cons e es =>
      have := hcs nofun
      omega

theorem legible_of_readFields : (vs : List (String × Value)) → {fields : List Json} →
    readFields options fields = .ok vs →
    SingleCharactersFields vs ∧ (vs ≠ [] → containersFields vs < Json.depthItems fields)
  | [], _, _ => ⟨trivial, fun h => absurd rfl h⟩
  | (_, v) :: vs, fields, h => by
    obtain ⟨field, rest, vj, rfl, hvj, hv, hvs⟩ := of_readFields_cons h
    obtain ⟨hs, hc⟩ := legible_of_ofJson v hv
    obtain ⟨hss, hcs⟩ := legible_of_readFields vs hvs
    have hvj := Json.depth_lt_of_get? hvj
    refine ⟨⟨hs, hss⟩, fun _ => ?_⟩
    rw [containersFields, Json.depthItems]
    cases vs with
    | nil =>
      rw [containersFields]
      omega
    | cons f fs =>
      have := hcs nofun
      omega

end

/-! ## Texts -/

variable {b : Bytes}

/-- What is read from a text is read from its canonical text too. -/
theorem legible_of_decode (h : decode options b = .ok v) : Legible v 127 := by
  unfold decode at h
  split at h
  · obtain ⟨text, -, hp⟩ := Option.bind_eq_some_iff.1 ‹_›
    obtain ⟨hs, hc⟩ := legible_of_ofJson v h
    exact ⟨hs, Nat.le_trans hc (Json.depth_le_of_parse? hp)⟩
  · cases h

/-- The canonical text of a text. -/
def canonical (options : ValueOptions) (b : Bytes) : Except Error Bytes :=
  decode options b >>= Encoding.jsonCdc.encode

/-- A text that is accepted has a canonical text: that of its value, which is accepted with the
same value whatever the options, and is its own canonical text. -/
theorem decode_canonical (h : decode options b = .ok v) :
    ∃ c, Encoding.jsonCdc.encode v = .ok c ∧ canonical options b = .ok c ∧
      ∀ options', decode options' c = .ok v ∧ canonical options' c = .ok c := by
  obtain ⟨hs, hc⟩ := legible_of_decode h
  have hd (options' : ValueOptions) : decode options' (encode v) = .ok v :=
    decode_encode_eq_ok_iff.2 ⟨⟨hs, hc⟩, rfl⟩
  refine ⟨encode v, rfl, ?_, fun options' => ⟨hd options', ?_⟩⟩
  · rw [canonical, h]
    rfl
  · rw [canonical, hd]
    rfl

/-- An array in older forms: a `Void` with a payload, a number as such beside a member of no
meaning, and a short address. -/
def legacy : String :=
  "\x7b\"type\":\"Array\",\"value\":[\x7b\"type\":\"Void\",\"value\":null\x7d," ++
  "\x7b\"type\":\"UInt8\",\"value\":7,\"note\":null\x7d," ++
  "\x7b\"type\":\"Address\",\"value\":\"AB\"\x7d]\x7d"

def legacyValue : Value :=
  .array [.void, .number ⟨.uint8, 7, by decide, by decide⟩, .address (.ofNat 8 0xAB)]

theorem decode_canonical_legacy :
    decode ⟨true⟩ (Bytes.ofString legacy) = .ok legacyValue ∧
      ∃ c, Encoding.jsonCdc.encode legacyValue = .ok c ∧ decode ⟨false⟩ c = .ok legacyValue := by
  have h : (decode ⟨true⟩ (Bytes.ofString legacy)).toOption = some legacyValue := by
    rw [decode, Bytes.toString?_ofString]
    decide +kernel
  have h := toOption_eq_some_iff.1 h
  obtain ⟨c, he, -, hd⟩ := decode_canonical h
  exact ⟨h, c, he, (hd ⟨false⟩).1⟩

end FlowAccess.Cadence.JsonCdc
