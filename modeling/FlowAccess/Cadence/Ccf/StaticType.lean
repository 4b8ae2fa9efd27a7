import FlowAccess.Cadence.Value

/-!
# Static types

The type that a compact message declares for a value. It is inferred from the value: elements that
share a type give a container that type, and all others `AnyStruct`.
-/

namespace FlowAccess.Cadence.Ccf

/-- A type without parts. -/
inductive SimpleType where
  | bool
  | string
  | character
  | address
  | number (k : NumberKind)
  | anyStruct
  | never
  | void
  deriving DecidableEq

namespace SimpleType

def code : SimpleType → Nat
  | .bool => 0
  | .string => 1
  | .character => 2
  | .address => 3
  | .number .int => 4
  | .number .int8 => 5
  | .number .int16 => 6
  | .number .int32 => 7
  | .number .int64 => 8
  | .number .int128 => 9
  | .number .uint => 11
  | .number .uint8 => 12
  | .number .uint16 => 13
  | .number .uint32 => 14
  | .number .uint64 => 15
  | .number .uint128 => 16
  | .number .word8 => 18
  | .number .word16 => 19
  | .number .word32 => 20
  | .number .word64 => 21
  | .number .fix64 => 22
  | .number .ufix64 => 23
  | .anyStruct => 39
  | .never => 43
  | .void => 50

def name : SimpleType → String
  | .bool => "Bool"
  | .string => "String"
  | .character => "Character"
  | .address => "Address"
  | .number k => k.name
  | .anyStruct => "AnyStruct"
  | .never => "Never"
  | .void => "Void"

/-- The types without parts. -/
def all : List SimpleType :=
  [.bool, .string, .character, .address] ++ NumberKind.all.map .number ++
    [.anyStruct, .never, .void]

def ofCode? (code : Nat) : Option SimpleType := all.find? (·.code = code)

end SimpleType

inductive StaticType where
  | simple (t : SimpleType)
  | optional (inner : StaticType)
  | array (element : StaticType)
  | dictionary (key value : StaticType)
  | composite (typeId : String)
  deriving DecidableEq

namespace StaticType

/-- The type of every value. -/
def any : StaticType := .simple .anyStruct

mutual

/-- The type of a value. -/
def of : Value → StaticType
  | .void => .simple .void
  | .absent => .optional (.simple .never)
  | .present v => .optional (of v)
  | .bool _ => .simple .bool
  | .string _ => .simple .string
  | .character _ => .simple .character
  | .address _ => .simple .address
  | .number n => .simple (.number n.kind)
  | .array items => .array ((Value.common? (ofItems items)).getD any)
  | .dictionary entries =>
    .dictionary ((Value.common? (ofKeys entries)).getD any)
      ((Value.common? (ofValues entries)).getD any)
  | .composite _ id _ => .composite id

def ofItems : List Value → List StaticType
  | [] => []
  | v :: rest => of v :: ofItems rest

def ofKeys : List (Value × Value) → List StaticType
  | [] => []
  | (k, _) :: rest => of k :: ofKeys rest

def ofValues : List (Value × Value) → List StaticType
  | [] => []
  | (_, v) :: rest => of v :: ofValues rest

end

/-- The text of a type. -/
def render : StaticType → String
  | .simple t => t.name
  | .optional t => t.render ++ "?"
  | .array t => "[" ++ t.render ++ "]"
  | .dictionary k v => "\x7b" ++ k.render ++ ": " ++ v.render ++ "\x7d"
  | .composite id => id

end StaticType

/-! ## Definitions of composite types -/

/-- The definition of a composite type. -/
structure Typedef where
  kind : CompositeKind
  typeId : String
  fields : List (String × StaticType)
  deriving DecidableEq

/-- The definitions that a message carries, in the order in which their types first occur. -/
abbrev Typedefs := List Typedef

namespace Typedefs

def find? (defs : Typedefs) (typeId : String) : Option Typedef :=
  List.find? (·.typeId = typeId) defs

/-- The place of a type among the definitions. -/
def index? (defs : Typedefs) (typeId : String) : Option Nat :=
  List.findIdx? (·.typeId = typeId) defs

/-- Fields whose types differ between two instances have the type of every value. -/
def widen : List (String × StaticType) → List StaticType → List (String × StaticType)
  | (name, known) :: rest, seen :: types =>
    (name, if known = seen then known else StaticType.any) :: widen rest types
  | fields, _ => fields

/-- Takes in an instance: the first one defines its type, later ones widen it. -/
def add (kind : CompositeKind) (typeId : String) (fields : List (String × StaticType)) :
    Typedefs → Typedefs
  | [] => [⟨kind, typeId, fields⟩]
  | d :: rest =>
    if d.typeId = typeId then { d with fields := widen d.fields (fields.map (·.2)) } :: rest
    else d :: add kind typeId fields rest

mutual

/-- Takes in all instances in a value, outer ones first. -/
def collect (defs : Typedefs) : Value → Typedefs
  | .present v => collect defs v
  | .array items => collectItems defs items
  | .dictionary entries => collectEntries defs entries
  | .composite kind id fields => collectFields (add kind id (fieldTypes fields) defs) fields
  | _ => defs

def collectItems (defs : Typedefs) : List Value → Typedefs
  | [] => defs
  | v :: rest => collectItems (collect defs v) rest

def collectEntries (defs : Typedefs) : List (Value × Value) → Typedefs
  | [] => defs
  | (k, v) :: rest => collectEntries (collect (collect defs k) v) rest

def collectFields (defs : Typedefs) : List (String × Value) → Typedefs
  | [] => defs
  | (_, v) :: rest => collectFields (collect defs v) rest

/-- The names and types of the fields of an instance. -/
def fieldTypes : List (String × Value) → List (String × StaticType)
  | [] => []
  | (name, v) :: rest => (name, StaticType.of v) :: fieldTypes rest

end

end Typedefs
end FlowAccess.Cadence.Ccf
