import FlowAccess.Cadence.JsonCdc
import FlowAccess.Proofs.Json.RoundTrip

/-!
# Round trips of the JSON encoding

The tree of a value is read back as the value itself unless it has a character of several code
points, or of none: the writer takes them all, and the reader refuses them (`yields_toJson`). The
text of the tree is read back unless the tree nests too many containers, which is a matter of
`Value.containers` (`decode_encode_eq_ok_iff`). The older forms that a reader may accept make no
difference, as none of them is ever written.
-/

namespace FlowAccess.Cadence

/-! ## Conditions on values -/

namespace Value

mutual

/-- Every character is one code point. -/
def SingleCharacters : Value → Prop
  | .character s => s.length = 1
  | .present v => SingleCharacters v
  | .array items => SingleCharactersItems items
  | .dictionary entries => SingleCharactersEntries entries
  | .composite _ _ fields => SingleCharactersFields fields
  | _ => True

def SingleCharactersItems : List Value → Prop
  | [] => True
  | v :: rest => SingleCharacters v ∧ SingleCharactersItems rest

def SingleCharactersEntries : List (Value × Value) → Prop
  | [] => True
  | (k, v) :: rest => SingleCharacters k ∧ SingleCharacters v ∧ SingleCharactersEntries rest

def SingleCharactersFields : List (String × Value) → Prop
  | [] => True
  | (_, v) :: rest => SingleCharacters v ∧ SingleCharactersFields rest

end

mutual

/-- The containers that are nested in the tree of a value. -/
def containers : Value → Nat
  | .present v => containers v + 1
  | .array items => containersItems items + 2
  | .dictionary entries => if entries.isEmpty then 2 else containersEntries entries + 3
  | .composite _ _ fields => if fields.isEmpty then 3 else containersFields fields + 4
  | _ => 1

def containersItems : List Value → Nat
  | [] => 0
  | v :: rest => max (containers v) (containersItems rest)

def containersEntries : List (Value × Value) → Nat
  | [] => 0
  | (k, v) :: rest => max (max (containers k) (containers v)) (containersEntries rest)

def containersFields : List (String × Value) → Nat
  | [] => 0
  | (_, v) :: rest => max (containers v) (containersFields rest)

end
end Value

namespace JsonCdc
open Value

/-! ## The trees of values -/

/-- An object of two members in order. -/
theorem plain_pair {a b : String} {x y : Json} (h : a < b) (hx : x.Plain) (hy : y.Plain) :
    (Json.object [(a, x), (b, y)]).Plain :=
  ⟨List.pairwise_pair.2 h, hx, hy, trivial⟩

theorem plain_tagged {kind : String} {payload : Json} (h : payload.Plain) :
    (tagged kind payload).Plain :=
  plain_pair (by decide) trivial h

theorem depth_tagged (kind : String) (payload : Json) :
    (tagged kind payload).depth = payload.depth + 1 := by
  simp [tagged, Json.depth, Json.depthMembers]

mutual

theorem plain_toJson : (v : Value) → (toJson v).Plain
  | .void => ⟨List.pairwise_singleton .., trivial, trivial⟩
  | .present v => plain_tagged (plain_toJson v)
  | .array items => plain_tagged (plain_itemsToJson items)
  | .dictionary entries => plain_tagged (plain_entriesToJson entries)
  | .composite _ _ fields =>
    plain_tagged (plain_pair (by decide) (plain_fieldsToJson fields) trivial)
  | .absent | .bool _ | .string _ | .character _ | .address _ | .number _ => plain_tagged trivial

theorem plain_itemsToJson : (items : List Value) → Json.PlainItems (itemsToJson items)
  | [] => trivial
  | v :: rest => ⟨plain_toJson v, plain_itemsToJson rest⟩

theorem plain_entriesToJson : (entries : List (Value × Value)) →
    Json.PlainItems (entriesToJson entries)
  | [] => trivial
  | (k, v) :: rest =>
    ⟨plain_pair (by decide) (plain_toJson k) (plain_toJson v), plain_entriesToJson rest⟩

theorem plain_fieldsToJson : (fields : List (String × Value)) →
    Json.PlainItems (fieldsToJson fields)
  | [] => trivial
  | (_, v) :: rest =>
    ⟨plain_pair (by decide) trivial (plain_toJson v), plain_fieldsToJson rest⟩

end

theorem depth_entry (key value : Json) :
    (Json.object [("key", key), ("value", value)]).depth = max key.depth value.depth + 1 := by
  simp [Json.depth, Json.depthMembers]

theorem depth_field (name : String) (value : Json) :
    (Json.object [("name", .string name), ("value", value)]).depth = value.depth + 1 := by
  simp [Json.depth, Json.depthMembers]

mutual

theorem depth_toJson : (v : Value) → (toJson v).depth = v.containers
  | .present v => by rw [toJson, depth_tagged, depth_toJson v, containers]
  | .array items => by
    rw [toJson, depth_tagged, Json.depth, depthItems_itemsToJson items, containers]
  | .dictionary [] => rfl
  | .dictionary (e :: rest) => by
    rw [toJson, depth_tagged, Json.depth, depthItems_entriesToJson (e :: rest) (by simp),
      containers]
    rfl
  | .composite _ _ [] => rfl
  | .composite _ _ (f :: rest) => by
    rw [toJson, depth_tagged, Json.depth, Json.depthMembers, Json.depth,
      depthItems_fieldsToJson (f :: rest) (by simp), containers]
    simp [Json.depthMembers, Json.depth]
  | .void | .absent | .bool _ | .string _ | .character _ | .address _ | .number _ => rfl

theorem depthItems_itemsToJson : (items : List Value) →
    Json.depthItems (itemsToJson items) = containersItems items
  | [] => rfl
  | v :: rest => by
    rw [itemsToJson, Json.depthItems, depth_toJson v, depthItems_itemsToJson rest, containersItems]

/-- Every entry is an object of its own, so that the list is empty or goes one deeper. -/
theorem depthItems_entriesToJson : (entries : List (Value × Value)) → entries ≠ [] →
    Json.depthItems (entriesToJson entries) = containersEntries entries + 1
  | [(k, v)], _ => by
    simp [entriesToJson, Json.depthItems, depth_entry, containersEntries, depth_toJson k,
      depth_toJson v]
  | (k, v) :: e :: rest, _ => by
    have hr := depthItems_entriesToJson (e :: rest) (by simp)
    rw [entriesToJson, Json.depthItems, hr, depth_entry, depth_toJson k, depth_toJson v,
      Nat.add_max_add_right]
    rfl

theorem depthItems_fieldsToJson : (fields : List (String × Value)) → fields ≠ [] →
    Json.depthItems (fieldsToJson fields) = containersFields fields + 1
  | [(_, v)], _ => by
    simp [fieldsToJson, Json.depthItems, depth_field, containersFields, depth_toJson v]
  | (_, v) :: f :: rest, _ => by
    have hr := depthItems_fieldsToJson (f :: rest) (by simp)
    rw [fieldsToJson, Json.depthItems, hr, depth_field, depth_toJson v, Nat.add_max_add_right]
    rfl

end

/-! ## Reading trees -/

/-- A result that is there exactly under a condition, and is then the one given. -/
def Yields {α : Type} (result : Except Error α) (p : Prop) (a : α) : Prop :=
  ∀ b, result = .ok b ↔ p ∧ b = a

section
variable {α β : Type} {x : Except Error α} {a : α} {p q : Prop}

namespace Yields

theorem ok (hp : p) (a : α) : Yields (.ok a) p a := fun b => by
  rw [Except.ok.injEq, and_iff_right hp, eq_comm]

theorem error {e : Error} (hp : ¬p) : Yields (.error e) p a := fun _ =>
  iff_of_false (fun h => nomatch h) fun h => hp h.1

theorem not {e : Error} (h : Yields (.error e) p a) : ¬p := fun hp =>
  nomatch (h a).2 ⟨hp, rfl⟩

theorem map (h : Yields x p a) (f : α → β) : Yields (x.map f) p (f a) := by
  cases x with
  | error e => exact .error h.not
  | ok c =>
    obtain ⟨hp, rfl⟩ := (h c).1 rfl
    exact .ok hp (f c)

theorem bind {f : α → Except Error β} {b : β} (h : Yields x p a) (hf : Yields (f a) q b) :
    Yields (x >>= f) (p ∧ q) b := by
  cases x with
  | error e => exact .error fun hpq => h.not hpq.1
  | ok d =>
    obtain ⟨hp, rfl⟩ := (h d).1 rfl
    rw [and_iff_right hp]
    exact hf

end Yields
end

variable {options : ValueOptions}

theorem member?_eq {json member : Json} {name : String} (h : json.get? name = some member) :
    member? json name = some ⟨member, sizeOf_get? h⟩ := by
  unfold member?
  split
  · rename_i found hfound
    obtain rfl : found = member := Option.some.inj (hfound.symm.trans h)
    rfl
  · rename_i hnone
    rw [h] at hnone
    cases hnone

theorem kind_tagged (kind : String) (payload : Json) :
    ((tagged kind payload).get? "type").bind Json.string? = some kind := rfl

theorem member?_tagged (kind : String) (payload : Json) :
    ∃ h, member? (tagged kind payload) "value" = some ⟨payload, h⟩ :=
  ⟨_, member?_eq rfl⟩

/-- A tree of a kind without parts is read by its payload alone. -/
theorem ofJson_of_readSimple? {json payload : Json} {kind : String} {result : Except Error Value}
    (ht : json.get? "type" = some (.string kind)) (hv : json.get? "value" = some payload)
    (hk : kind ≠ "Void") (hr : readSimple? options kind payload = some result) :
    ofJson options json = result := by
  cases json with
  | object members =>
    rw [ofJson]
    simp only [ht, Option.bind_some, Json.string?, member?_eq hv, need, bind, Except.bind, pure,
      Except.pure, if_neg hk, hr]
  | null | bool | number | string | array => cases ht

theorem ofJson_simple {kind : String} {payload : Json} {result : Except Error Value}
    (hk : kind ≠ "Void") (hr : readSimple? options kind payload = some result) :
    ofJson options (tagged kind payload) = result :=
  ofJson_of_readSimple? rfl rfl hk hr

theorem ofJson_null : ofJson options (tagged "Optional" .null) = .ok .absent := by
  obtain ⟨h, hm⟩ := member?_tagged "Optional" .null
  rw [tagged, ofJson, ← tagged]
  simp only [kind_tagged, hm, need, bind, Except.bind, pure, Except.pure]
  rfl

theorem ofJson_optional {payload : Json} (hn : payload ≠ .null) :
    ofJson options (tagged "Optional" payload) = (ofJson options payload).map .present := by
  obtain ⟨h, hm⟩ := member?_tagged "Optional" payload
  rw [tagged, ofJson, ← tagged]
  simp only [kind_tagged, hm, need, bind, Except.bind, pure, Except.pure]
  cases payload with
  | null => exact absurd rfl hn
  | _ => rfl

theorem ofJson_array (items : List Json) :
    ofJson options (tagged "Array" (.array items)) = (readItems options items).map .array := by
  obtain ⟨h, hm⟩ := member?_tagged "Array" (.array items)
  rw [tagged, ofJson, ← tagged]
  simp only [kind_tagged, hm, need, bind, Except.bind, pure, Except.pure]
  rfl

theorem ofJson_dictionary (entries : List Json) :
    ofJson options (tagged "Dictionary" (.array entries)) =
      (readEntries options entries).map .dictionary := by
  obtain ⟨h, hm⟩ := member?_tagged "Dictionary" (.array entries)
  rw [tagged, ofJson, ← tagged]
  simp only [kind_tagged, hm, need, bind, Except.bind, pure, Except.pure]
  rfl

theorem readComposite_object (kind : CompositeKind) (id : String) (fields : List Json) :
    readComposite options kind (.object [("fields", .array fields), ("id", .string id)]) =
      (readFields options fields).map (.composite kind id) := by
  obtain ⟨h, hm⟩ : ∃ h, member? (.object [("fields", .array fields), ("id", .string id)])
      "fields" = some ⟨.array fields, h⟩ := ⟨_, member?_eq rfl⟩
  rw [readComposite]
  simp only [hm, need, bind, Except.bind, pure, Except.pure]
  rfl

theorem ofJson_composite (kind : CompositeKind) (id : String) (fields : List (String × Value)) :
    ofJson options (toJson (.composite kind id fields)) =
      (readFields options (fieldsToJson fields)).map (.composite kind id) := by
  rw [toJson]
  obtain ⟨h, hm⟩ := member?_tagged (Value.composite kind id fields).kindName
    (.object [("fields", .array (fieldsToJson fields)), ("id", .string id)])
  rw [tagged, ofJson, ← tagged]
  simp only [kind_tagged, hm, need, bind, Except.bind, pure, Except.pure]
  rw [← readComposite_object]
  cases kind <;> rfl

theorem readSimple?_number (k : NumberKind) (payload : Json) :
    readSimple? options k.name payload = some (readNumber options k payload) := by
  cases k <;> rfl

theorem yields_character (s : String) : Yields (readCharacter s) (s.length = 1) (.character s) := by
  unfold readCharacter
  split
  · exact .ok ‹_› _
  · exact .error ‹_›

theorem toJson_ne_null (v : Value) : toJson v ≠ .null := by
  cases v <;> exact fun h => nomatch h

mutual

/-- The tree of a value is read back as the value, unless it has a character that is none. -/
theorem yields_toJson : (v : Value) → Yields (ofJson options (toJson v)) v.SingleCharacters v
  | .void => by
    rw [toJson, ofJson]
    exact .ok trivial _
  | .absent => by
    rw [toJson, ofJson_null]
    exact .ok trivial _
  | .present v => by
    rw [toJson, ofJson_optional (toJson_ne_null v)]
    exact (yields_toJson v).map _
  | .bool b => by
    rw [toJson, ofJson_simple (by decide) rfl]
    exact .ok trivial _
  | .string s => by
    rw [toJson, ofJson_simple (by decide) rfl]
    exact .ok trivial _
  | .character s => by
    rw [toJson, ofJson_simple (by decide) rfl]
    exact yields_character s
  | .address a => by
    rw [toJson, ofJson_simple (by decide) rfl]
    show Yields (readAddress a.prefixed) True _
    rw [readAddress, Address.parse?_prefixed]
    exact .ok trivial _
  | .number n => by
    have hk : n.kind.name ≠ "Void" := by cases n.kind <;> decide
    rw [toJson, ofJson_simple hk (readSimple?_number n.kind _), readNumber, readLiteral,
      Number.parse?_literal]
    exact .ok trivial _
  | .array items => by
    rw [toJson, ofJson_array]
    exact (yields_itemsToJson items).map _
  | .dictionary entries => by
    rw [toJson, ofJson_dictionary]
    exact (yields_entriesToJson entries).map _
  | .composite kind id fields => by
    rw [ofJson_composite]
    exact (yields_fieldsToJson fields).map _

theorem yields_itemsToJson : (items : List Value) →
    Yields (readItems options (itemsToJson items)) (SingleCharactersItems items) items
  | [] => by
    rw [itemsToJson, readItems]
    exact .ok trivial _
  | v :: rest => by
    rw [itemsToJson, readItems]
    exact (yields_toJson v).bind ((yields_itemsToJson rest).map _)

theorem yields_entriesToJson : (entries : List (Value × Value)) →
    Yields (readEntries options (entriesToJson entries)) (SingleCharactersEntries entries) entries
  | [] => by
    rw [entriesToJson, readEntries]
    exact .ok trivial _
  | (k, v) :: rest => by
    rw [entriesToJson, readEntries, member?_eq rfl, member?_eq rfl]
    exact (yields_toJson k).bind ((yields_toJson v).bind ((yields_entriesToJson rest).map _))

theorem yields_fieldsToJson : (fields : List (String × Value)) →
    Yields (readFields options (fieldsToJson fields)) (SingleCharactersFields fields) fields
  | [] => by
    rw [fieldsToJson, readFields]
    exact .ok trivial _
  | (name, v) :: rest => by
    rw [fieldsToJson, readFields, member?_eq rfl]
    exact (yields_toJson v).bind ((yields_fieldsToJson rest).map _)

end

/-! ## Reading text -/

/-- What the decoder makes of a payload that the encoder has written. -/
theorem decode_encode (v : Value) : decode options (encode v) =
    if v.containers ≤ Json.maxDepth then ofJson options (toJson v) else fail .json := by
  rw [decode, encode, Bytes.toString?_ofString, Option.bind_some,
    Json.parse?_render (plain_toJson v), depth_toJson v]
  by_cases h : v.containers ≤ Json.maxDepth
  · rw [if_pos h, if_pos h]
  · rw [if_neg h, if_neg h]

theorem decode_encode_eq_ok_iff {v w : Value} : decode options (encode v) = .ok w ↔
    (v.SingleCharacters ∧ v.containers ≤ 127) ∧ w = v := by
  rw [decode_encode]
  split
  · rw [yields_toJson v w, and_iff_left (show v.containers ≤ 127 from ‹_›)]
  · exact iff_of_false (fun h => nomatch h) fun h => ‹¬_› h.1.2

/-- A value survives a round trip through text exactly if its characters are single and it nests at
most 127 containers, and one through its tree exactly if its characters are single. -/
theorem decode_encode_eq_self_iff (options : ValueOptions) (v : Value) :
    (decode options (encode v) = .ok v ↔ v.SingleCharacters ∧ v.containers ≤ 127) ∧
      (ofJson options (toJson v) = .ok v ↔ v.SingleCharacters) := by
  constructor
  · rw [decode_encode_eq_ok_iff]
    exact and_iff_left rfl
  · rw [yields_toJson v v]
    exact and_iff_left rfl

end JsonCdc
end FlowAccess.Cadence
