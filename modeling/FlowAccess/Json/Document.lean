import FlowAccess.Json.Node

/-!
# JSON documents

A document type is a record with named fields. It is written as an object and read from an object
or from an array, which holds the fields in their order and may leave out the last ones. Members
of other names do not matter, but no field may be given twice.
-/

namespace FlowAccess.Json

/-! ## Values -/

namespace Node

def string? : Node → Option String
  | .string units => stringOfUnits? units
  | _ => none

def bool? : Node → Option Bool
  | .bool b => some b
  | _ => none

/-- A whole number without a sign, below a bound. -/
def natBelow? (bound : Nat) : Node → Option Nat
  | .number l =>
    let n := Text.Numeral.value l.whole
    if l.isWhole ∧ !l.negative ∧ n < bound then some n else none
  | _ => none

def list? {α : Type} (read : Node → Option α) : Node → Option (List α)
  | .array items => items.mapM read
  | _ => none

/-- The members of an object in their order. -/
def entries? {α : Type} (read : Node → Option α) : Node → Option (List (String × α))
  | .object members => members.mapM fun (name, node) => do
    return (← stringOfUnits? name, ← read node)
  | _ => none

def isNull : Node → Bool
  | .null => true
  | _ => false

end Node

/-! ## Fields -/

/-- What a document has for a field. -/
inductive Slot where
  | given (node : Node)
  /-- An object has no member of that name. -/
  | omitted
  /-- An array ends before it. -/
  | cutOff
  deriving Inhabited

/-- The fields of a record. -/
abbrev Fields := List (String × Slot)

namespace Fields

/-- The fields that an array gives by their positions. -/
def ofItems : List String → List Node → Fields
  | [], _ => []
  | name :: names, [] => (name, .cutOff) :: ofItems names []
  | name :: names, node :: nodes => (name, .given node) :: ofItems names nodes

/-- The field of a name among the members of an object, unless there are several. -/
def slot? (members : List (String × Node)) (name : String) : Option Slot :=
  match members.filter (·.1 = name) with
  | [] => some .omitted
  | [(_, node)] => some (.given node)
  | _ => none

def ofNode? (names : List String) : Node → Option Fields
  | .array items => if items.length ≤ names.length then some (ofItems names items) else none
  | .object members => do
    let members ← Node.entries? some (.object members)
    names.mapM fun name => return (name, ← slot? members name)
  | _ => none

def slot (fields : Fields) (name : String) : Slot := (fields.lookup name).getD .omitted

/-- A field that must be there. -/
def required? {α : Type} (fields : Fields) (name : String) (read : Node → Option α) : Option α :=
  match fields.slot name with
  | .given node => read node
  | _ => none

/-- A field that has a default. -/
def withDefault? {α : Type} (fields : Fields) (name : String) (default : α)
    (read : Node → Option α) : Option α :=
  match fields.slot name with
  | .given node => read node
  | _ => some default

/-- A field that may be null or left out. -/
def optional? {α : Type} (fields : Fields) (name : String) (read : Node → Option α) :
    Option (Option α) :=
  match fields.slot name with
  | .given node => if node.isNull then some none else (read node).map some
  | _ => some none

/-- A field that may be null or left out of an object, but not of an array. -/
def nullable? {α : Type} (fields : Fields) (name : String) (read : Node → Option α) :
    Option (Option α) :=
  match fields.slot name with
  | .cutOff => none
  | _ => fields.optional? name read

def string? (fields : Fields) (name : String) : Option String :=
  fields.required? name Node.string?

end Fields

/-! ## Documents -/

class Document (α : Type) where
  toJson : α → Json
  ofNode? : Node → Option α

instance : Document String := ⟨.string, Node.string?⟩

instance {α : Type} [Document α] : Document (List α) :=
  ⟨fun items => .array (items.map Document.toJson), Node.list? Document.ofNode?⟩

/-- Reads a document that takes up the whole text. -/
def document? {α : Type} [Document α] (text : String) : Option α :=
  (Node.parse? text).bind Document.ofNode?

end FlowAccess.Json
