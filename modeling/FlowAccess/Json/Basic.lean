import FlowAccess.Decimal.Binary64
import FlowAccess.Entries

/-!
# JSON trees

A number is an integer of at most 64 bits or a double. The members of an object are kept in
ascending order of their names, each name once.
-/

namespace FlowAccess

/-- A JSON number. -/
inductive Json.Number where
  /-- An integer from `-2 ^ 63` to `2 ^ 64 - 1`. -/
  | integer (n : Int)
  | real (x : Binary64)
  deriving DecidableEq, Inhabited

inductive Json where
  | null
  | bool (b : Bool)
  | number (n : Json.Number)
  | string (s : String)
  | array (items : List Json)
  | object (members : List (String × Json))
  deriving Inhabited

namespace Json

/-- The object of a list of members in any order; of several of one name the last counts. -/
def ofMembers (members : List (String × Json)) : Json := .object (Entries.ofList members)

/-- The member of that name of an object. -/
def get? (name : String) : Json → Option Json
  | .object members => members.lookup name
  | _ => none

def string? : Json → Option String
  | .string s => some s
  | _ => none

def bool? : Json → Option Bool
  | .bool b => some b
  | _ => none

mutual

/-- The number of containers around the most deeply nested leaf. -/
def depth : Json → Nat
  | .array items => depthItems items + 1
  | .object members => depthMembers members + 1
  | _ => 0

def depthItems : List Json → Nat
  | [] => 0
  | item :: rest => max (depth item) (depthItems rest)

def depthMembers : List (String × Json) → Nat
  | [] => 0
  | (_, value) :: rest => max (depth value) (depthMembers rest)

end

end Json
end FlowAccess
