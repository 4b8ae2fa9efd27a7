import FlowAccess.Address
import FlowAccess.Cadence.Number

/-!
# Cadence values

The tree of a value, and the names of kinds and types that are reported for it. The type of a
container is inferred from what it holds: the common type of its elements, or `AnyStruct` when
they differ or are missing.
-/

namespace FlowAccess.Cadence

/-- What a composite value is an instance of. -/
inductive CompositeKind where
  | struct
  | event
  deriving DecidableEq, Inhabited

inductive Value where
  | void
  /-- An empty optional. -/
  | absent
  /-- An optional that holds a value. -/
  | present (v : Value)
  | bool (b : Bool)
  | string (s : String)
  | character (s : String)
  | address (a : Address)
  | number (n : Number)
  | array (items : List Value)
  | dictionary (entries : List (Value × Value))
  /-- An instance of a composite type, with its fields in the order of their declaration. -/
  | composite (kind : CompositeKind) (typeId : String) (fields : List (String × Value))
  deriving Inhabited

namespace Value

/-! ## Equality -/

mutual

/-- Whether two values are the same tree. -/
def beq : Value → Value → Bool
  | .void, .void => true
  | .absent, .absent => true
  | .present v, .present w => beq v w
  | .bool b, .bool c => b = c
  | .string s, .string t => s = t
  | .character s, .character t => s = t
  | .address a, .address b => a = b
  | .number m, .number n => m = n
  | .array vs, .array ws => beqItems vs ws
  | .dictionary vs, .dictionary ws => beqEntries vs ws
  | .composite k s vs, .composite l t ws => k = l && s = t && beqFields vs ws
  | _, _ => false

def beqItems : List Value → List Value → Bool
  | [], [] => true
  | v :: vs, w :: ws => beq v w && beqItems vs ws
  | _, _ => false

def beqEntries : List (Value × Value) → List (Value × Value) → Bool
  | [], [] => true
  | (k, v) :: vs, (l, w) :: ws => beq k l && beq v w && beqEntries vs ws
  | _, _ => false

def beqFields : List (String × Value) → List (String × Value) → Bool
  | [], [] => true
  | (s, v) :: vs, (t, w) :: ws => s = t && beq v w && beqFields vs ws
  | _, _ => false

end

mutual

theorem beq_iff : (v w : Value) → (beq v w = true ↔ v = w)
  | .present v, .present w => by simp [beq, beq_iff v w]
  | .array vs, .array ws => by simp [beq, beqItems_iff vs ws]
  | .dictionary vs, .dictionary ws => by simp [beq, beqEntries_iff vs ws]
  | .composite k s vs, .composite l t ws => by simp [beq, beqFields_iff vs ws, and_assoc]
  | .void, w => by cases w <;> simp [beq]
  | .absent, w => by cases w <;> simp [beq]
  | .bool _, w => by cases w <;> simp [beq]
  | .string _, w => by cases w <;> simp [beq]
  | .character _, w => by cases w <;> simp [beq]
  | .address _, w => by cases w <;> simp [beq]
  | .number _, w => by cases w <;> simp [beq]
  | .present _, .void | .present _, .absent | .present _, .bool _ | .present _, .string _
  | .present _, .character _ | .present _, .address _ | .present _, .number _
  | .present _, .array _ | .present _, .dictionary _ | .present _, .composite .. => by simp [beq]
  | .array _, .void | .array _, .absent | .array _, .present _ | .array _, .bool _
  | .array _, .string _ | .array _, .character _ | .array _, .address _ | .array _, .number _
  | .array _, .dictionary _ | .array _, .composite .. => by simp [beq]
  | .dictionary _, .void | .dictionary _, .absent | .dictionary _, .present _
  | .dictionary _, .bool _ | .dictionary _, .string _ | .dictionary _, .character _
  | .dictionary _, .address _ | .dictionary _, .number _ | .dictionary _, .array _
  | .dictionary _, .composite .. => by simp [beq]
  | .composite .., .void | .composite .., .absent | .composite .., .present _
  | .composite .., .bool _ | .composite .., .string _ | .composite .., .character _
  | .composite .., .address _ | .composite .., .number _ | .composite .., .array _
  | .composite .., .dictionary _ => by simp [beq]

theorem beqItems_iff : (vs ws : List Value) → (beqItems vs ws = true ↔ vs = ws)
  | [], ws => by cases ws <;> simp [beqItems]
  | _ :: _, [] => by simp [beqItems]
  | v :: vs, w :: ws => by simp [beqItems, beq_iff v w, beqItems_iff vs ws]

theorem beqEntries_iff : (vs ws : List (Value × Value)) → (beqEntries vs ws = true ↔ vs = ws)
  | [], ws => by cases ws <;> simp [beqEntries]
  | _ :: _, [] => by simp [beqEntries]
  | (k, v) :: vs, (l, w) :: ws => by
    simp [beqEntries, beq_iff k l, beq_iff v w, beqEntries_iff vs ws]

theorem beqFields_iff : (vs ws : List (String × Value)) → (beqFields vs ws = true ↔ vs = ws)
  | [], ws => by cases ws <;> simp [beqFields]
  | _ :: _, [] => by simp [beqFields]
  | (s, v) :: vs, (t, w) :: ws => by
    simp [beqFields, beq_iff v w, beqFields_iff vs ws]

end

instance : DecidableEq Value := fun v w => decidable_of_iff _ (beq_iff v w)

/-! ## Kinds and types -/

/-- The name of a value's kind. -/
def kindName : Value → String
  | .void => "Void"
  | .absent | .present _ => "Optional"
  | .bool _ => "Bool"
  | .string _ => "String"
  | .character _ => "Character"
  | .address _ => "Address"
  | .number n => n.kind.name
  | .array _ => "Array"
  | .dictionary _ => "Dictionary"
  | .composite .struct .. => "Struct"
  | .composite .event .. => "Event"

/-- The common element of a list, if it has elements and they are all the same. -/
def common? {α : Type} [DecidableEq α] : List α → Option α
  | [] => none
  | a :: rest => if rest.all (· = a) then some a else none

/-- The name of the type that fits every value. -/
def anyStruct : String := "AnyStruct"

mutual

/-- The name of a value's type. -/
def typeId : Value → String
  | .present v => typeId v ++ "?"
  | .absent => "Never?"
  | .array items => "[" ++ (common? (typeIds items)).getD anyStruct ++ "]"
  | .dictionary entries =>
    "\x7b" ++ (common? (keyTypeIds entries)).getD anyStruct ++ ": " ++
      (common? (valueTypeIds entries)).getD anyStruct ++ "\x7d"
  | .composite _ id _ => id
  | v => v.kindName

/-- The names of the types of the elements. -/
def typeIds : List Value → List String
  | [] => []
  | v :: rest => typeId v :: typeIds rest

def keyTypeIds : List (Value × Value) → List String
  | [] => []
  | (k, _) :: rest => typeId k :: keyTypeIds rest

def valueTypeIds : List (Value × Value) → List String
  | [] => []
  | (_, v) :: rest => typeId v :: valueTypeIds rest

end

/-! ## Views -/

/-- The type and the fields of a composite. -/
def composite? : Value → Option (String × List (String × Value))
  | .composite _ id fields => some (id, fields)
  | _ => none

/-- The first field of that name of a composite. -/
def field? (name : String) (v : Value) : Option Value :=
  v.composite?.bind fun (_, fields) => fields.lookup name

/-- The integer that a value of an integer kind holds, if it fits 128 bits with a sign. -/
def int128? : Value → Option Int
  | .number n => if n.kind.isFixed ∨ NumberKind.int128.greatest < n.raw then none else some n.raw
  | _ => none

end Value
end FlowAccess.Cadence
