import FlowAccess.Cadence.Error
import FlowAccess.Cadence.Value
import FlowAccess.Json.Node
import FlowAccess.Json.Printer

/-!
# The JSON encoding of values

A value is an object that names its kind and holds its payload. Numbers travel as decimal
strings. Reading in compatible mode also takes integers written as JSON numbers, and a `Void` that
carries a payload.
-/

namespace FlowAccess.Cadence

/-- What is accepted when a value is read. -/
structure ValueOptions where
  /-- Accept the older forms of the JSON encoding. -/
  compatible : Bool := false
  deriving DecidableEq, Inhabited

namespace JsonCdc

/-! ## Writing -/

/-- The object of a kind and a payload. -/
def tagged (kind : String) (payload : Json) : Json :=
  .object [("type", .string kind), ("value", payload)]

mutual

/-- The tree of a value. -/
def toJson : Value → Json
  | .void => .object [("type", .string "Void")]
  | .absent => tagged "Optional" .null
  | .present v => tagged "Optional" (toJson v)
  | .bool b => tagged "Bool" (.bool b)
  | .string s => tagged "String" (.string s)
  | .character s => tagged "Character" (.string s)
  | .address a => tagged "Address" (.string a.prefixed)
  | .number n => tagged n.kind.name (.string n.literal)
  | .array items => tagged "Array" (.array (itemsToJson items))
  | .dictionary entries => tagged "Dictionary" (.array (entriesToJson entries))
  | v@(.composite _ id fields) =>
    tagged v.kindName (.object [("fields", .array (fieldsToJson fields)), ("id", .string id)])

def itemsToJson : List Value → List Json
  | [] => []
  | v :: rest => toJson v :: itemsToJson rest

def entriesToJson : List (Value × Value) → List Json
  | [] => []
  | (k, v) :: rest =>
    .object [("key", toJson k), ("value", toJson v)] :: entriesToJson rest

def fieldsToJson : List (String × Value) → List Json
  | [] => []
  | (name, v) :: rest =>
    .object [("name", .string name), ("value", toJson v)] :: fieldsToJson rest

end

/-- The payload of a value. -/
def encode (v : Value) : Bytes := Bytes.ofString (toJson v).render

/-! ## Reading -/

def fail {α : Type} (fault : JsonCdcFault) : Except Error α := .error (.malformedJsonCdc fault)

/-- The value of an option, or a fault. -/
def need {α : Type} (fault : JsonCdcFault) : Option α → Except Error α
  | some a => .ok a
  | none => fail fault

section
variable {α : Type} [SizeOf α]

theorem sizeOf_head_lt (x : α) (xs : List α) : sizeOf x < sizeOf (x :: xs) := by
  rw [List.cons.sizeOf_spec]
  omega

theorem sizeOf_tail_lt (x : α) (xs : List α) : sizeOf xs < sizeOf (x :: xs) := by
  rw [List.cons.sizeOf_spec]
  omega

end

theorem sizeOf_lt_array (items : List Json) : sizeOf items < sizeOf (Json.array items) := by
  rw [Json.array.sizeOf_spec]
  omega

/-- A member of an object is smaller than the object. -/
theorem sizeOf_get? {name : String} {json member : Json} (h : json.get? name = some member) :
    sizeOf member < sizeOf json := by
  cases json with
  | object members =>
    simp only [Json.get?] at h
    suffices sizeOf member < sizeOf members by simp; omega
    induction members with
    | nil => simp at h
    | cons m rest ih =>
      obtain ⟨k, v⟩ := m
      rw [List.lookup_cons] at h
      split at h
      · cases h; simp; omega
      · have := ih h; simp; omega
  | _ => simp [Json.get?] at h

/-- The member of a name, with the proof that reading it comes to an end. -/
def member? (json : Json) (name : String) : Option { m : Json // sizeOf m < sizeOf json } :=
  match h : json.get? name with
  | some m => some ⟨m, sizeOf_get? h⟩
  | none => none

/-- A character is one code point. -/
def readCharacter (s : String) : Except Error Value :=
  if s.length = 1 then .ok (.character s) else .error (.invalidLiteral .character s)

def readAddress (s : String) : Except Error Value :=
  match Address.parse? s with
  | some a => .ok (.address a)
  | none => .error (.invalidLiteral .address s)

/-- A number of a kind from its literal. -/
def readLiteral (kind : NumberKind) (literal : String) : Except Error Value :=
  match Number.parse? kind literal with
  | some n => .ok (.number n)
  | none => .error (.invalidLiteral (.number kind) literal)

/-- A number from its payload. In compatible mode a JSON number stands for its text, except where
a fixed-point number is due. -/
def readNumber (options : ValueOptions) (kind : NumberKind) (payload : Json) :
    Except Error Value :=
  match payload with
  | .string literal => readLiteral kind literal
  | payload =>
    if kind.isFixed then fail (.notString kind.name)
    else match options.compatible, payload with
      | true, .number n => readLiteral kind (String.ofList n.chars)
      | _, payload => .error (.invalidLiteral (.number kind) payload.render)

/-- The values that have no parts, by the name of their kind; none for any other name. -/
def readSimple? (options : ValueOptions) (kind : String) (payload : Json) :
    Option (Except Error Value) :=
  match kind with
  | "Bool" => some <|
    match payload.bool? with
    | some b => .ok (.bool b)
    | none => .error (.invalidLiteral .bool payload.render)
  | "String" => some <| (need (.notString kind) payload.string?).map .string
  | "Character" => some <| need (.notString kind) payload.string? >>= readCharacter
  | "Address" => some <| need (.notString kind) payload.string? >>= readAddress
  | _ => (NumberKind.ofName? kind).map fun k => readNumber options k payload

mutual

/-- The value that a tree denotes. -/
def ofJson (options : ValueOptions) (json : Json) : Except Error Value := do
  match json with
  | .object _ => pure ()
  | _ => fail .expectedObject
  let kind ← need .missingType ((json.get? "type").bind Json.string?)
  if kind = "Void" then
    if (json.get? "value").isSome ∧ ¬options.compatible then fail .voidWithValue
    else return .void
  else
    let ⟨payload, smaller⟩ ← need (.missingValue kind) (member? json "value")
    match readSimple? options kind payload with
    | some result => result
    | none =>
      match kind with
      | "Optional" =>
        match payload, smaller with
        | .null, _ => return .absent
        | inner, _ => return .present (← ofJson options inner)
      | "Array" =>
        match payload, smaller with
        | .array items, _ => return .array (← readItems options items)
        | _, _ => fail (.notArray kind)
      | "Dictionary" =>
        match payload, smaller with
        | .array entries, _ => return .dictionary (← readEntries options entries)
        | _, _ => fail (.notArray kind)
      | "Struct" => readComposite options .struct payload
      | "Event" => readComposite options .event payload
      | other => .error (.unsupportedType (.kind other))
termination_by sizeOf json
decreasing_by
  · assumption
  · exact Nat.lt_trans (sizeOf_lt_array _) ‹_›
  · exact Nat.lt_trans (sizeOf_lt_array _) ‹_›
  · assumption
  · assumption

def readItems (options : ValueOptions) : List Json → Except Error (List Value)
  | [] => return []
  | item :: rest => do return (← ofJson options item) :: (← readItems options rest)
termination_by items => sizeOf items
decreasing_by
  · exact sizeOf_head_lt item rest
  · exact sizeOf_tail_lt item rest

def readEntries (options : ValueOptions) : List Json → Except Error (List (Value × Value))
  | [] => return []
  | entry :: rest => do
    let ⟨key, _⟩ ← need .entryWithoutKey (member? entry "key")
    let ⟨value, _⟩ ← need .entryWithoutValue (member? entry "value")
    let key ← ofJson options key
    let value ← ofJson options value
    return (key, value) :: (← readEntries options rest)
termination_by entries => sizeOf entries
decreasing_by
  · exact Nat.lt_trans ‹_› (sizeOf_head_lt entry rest)
  · exact Nat.lt_trans ‹_› (sizeOf_head_lt entry rest)
  · exact sizeOf_tail_lt entry rest

def readFields (options : ValueOptions) : List Json → Except Error (List (String × Value))
  | [] => return []
  | field :: rest => do
    let name ← need .fieldWithoutName ((field.get? "name").bind Json.string?)
    let ⟨value, _⟩ ← need (.fieldWithoutValue name) (member? field "value")
    let value ← ofJson options value
    return (name, value) :: (← readFields options rest)
termination_by fields => sizeOf fields
decreasing_by
  · exact Nat.lt_trans ‹_› (sizeOf_head_lt field rest)
  · exact sizeOf_tail_lt field rest

def readComposite (options : ValueOptions) (kind : CompositeKind) (payload : Json) :
    Except Error Value := do
  match payload with
  | .object _ => pure ()
  | _ => fail .compositeNotObject
  let typeId ← need .compositeWithoutId ((payload.get? "id").bind Json.string?)
  match member? payload "fields" with
  | some ⟨.array fields, _⟩ => return .composite kind typeId (← readFields options fields)
  | _ => fail .compositeWithoutFields
termination_by sizeOf payload
decreasing_by exact Nat.lt_trans (sizeOf_lt_array _) ‹_›

end

/-- The value of a payload. -/
def decode (options : ValueOptions) (payload : Bytes) : Except Error Value :=
  match payload.toString?.bind Json.parse? with
  | some json => ofJson options json
  | none => fail .json

end JsonCdc
end FlowAccess.Cadence
