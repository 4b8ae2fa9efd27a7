import FlowAccess.Json.Document
import FlowAccess.Proofs.Json.RoundTrip
import FlowAccess.Proofs.Lists

/-!
# Documents read back

The fields of a record are found again in the node of the object that the record is written as,
however its members are listed (`ofNode?_node_ofMembers`). A document type is a `LawfulDocument` if
all of its values are read back from their nodes; they are then read back from their texts
(`document?_render`), and so are documents that hold them.
-/

namespace FlowAccess.Json

/-! ## Lists of nodes -/

theorem nodeItems_eq (items : List Json) : nodeItems items = items.map node := by
  induction items with
  | nil => rfl
  | cons item items ih => rw [nodeItems, ih, List.map_cons]

theorem nodeMembers_eq (members : List (String × Json)) :
    nodeMembers members = members.map fun m => (units m.1, node m.2) := by
  induction members with
  | nil => rfl
  | cons m members ih => rw [nodeMembers, ih, List.map_cons]

theorem plainItems_iff {items : List Json} : PlainItems items ↔ ∀ item ∈ items, item.Plain := by
  induction items with
  | nil => exact ⟨fun _ => nofun, fun _ => trivial⟩
  | cons item items ih => rw [PlainItems, ih, List.forall_mem_cons]

theorem plainMembers_iff {members : List (String × Json)} :
    PlainMembers members ↔ ∀ m ∈ members, m.2.Plain := by
  induction members with
  | nil => exact ⟨fun _ => nofun, fun _ => trivial⟩
  | cons m members ih => rw [PlainMembers, ih, List.forall_mem_cons]

/-- An object is plain if its members are, however they are listed. -/
theorem plain_ofMembers {members : List (String × Json)} (h : ∀ m ∈ members, m.2.Plain) :
    (ofMembers members).Plain :=
  ⟨Entries.pairwise_ofList members,
    plainMembers_iff.2 fun m hm => h m (Entries.mem_of_mem_ofList hm)⟩

@[simp] theorem plain_null : null.Plain := trivial

@[simp] theorem plain_string (s : String) : (string s).Plain := trivial

@[simp] theorem plain_bool (b : Bool) : (bool b).Plain := trivial

@[simp] theorem plain_uint32 (n : UInt32) : (number (.integer n.toNat)).Plain := by
  have := n.toNat_lt
  exact ⟨by omega, by omega⟩

/-! ## Values -/

@[simp] theorem string?_node (s : String) : (node (.string s)).string? = some s :=
  stringOfUnits?_units s

@[simp] theorem isNull_node_null : (node .null).isNull = true := rfl

@[simp] theorem isNull_node_string (s : String) : (node (.string s)).isNull = false := rfl

@[simp] theorem bool?_node (b : Bool) : (node (.bool b)).bool? = some b := rfl

theorem natBelow?_node {bound n : Nat} (h : n < bound) :
    (node (.number (.integer n))).natBelow? bound = some n := by
  have hn : decide ((n : Int) < 0) = false := decide_eq_false (by omega)
  have hv : Text.Numeral.value (Literal.integral false (n : Int).natAbs).whole = n :=
    Text.Numeral.value_digits n
  rw [node, ofWord?_integer, Option.getD_some, Node.natBelow?, hn, hv]
  exact if_pos ⟨rfl, rfl, h⟩

@[simp] theorem natBelow?_node_uint32 (n : UInt32) :
    (node (.number (.integer n.toNat))).natBelow? UInt32.size = some n.toNat :=
  natBelow?_node n.toNat_lt

/-- The members of an object that holds something by name. -/
theorem entries?_node {α β : Type} {write : α → Json} {read : Node → Option β} {f : α → β}
    (h : ∀ a, read (node (write a)) = some (f a)) (entries : List (String × α)) :
    (node (.object (entries.map fun e => (e.1, write e.2)))).entries? read =
      some (entries.map fun e => (e.1, f e.2)) := by
  rw [node, nodeMembers_eq, List.map_map, Node.entries?, List.mapM_map]
  refine mapM_eq_pure fun e _ => ?_
  simp [stringOfUnits?_units, h]

/-! ## Fields -/

namespace Fields

/-- The slot of a member that an object may have. -/
def slotOf : Option Json → Slot
  | some value => .given (node value)
  | none => .omitted

/-- The fields of these names that an object has, if it has these members. -/
def ofMembers (names : List String) (members : List (String × Json)) : Fields :=
  names.map fun name => (name, slotOf ((Entries.ofList members).lookup name))

variable {names : List String} {members : List (String × Json)} {name : String}

@[simp] theorem slot_ofMembers (h : name ∈ names) :
    (ofMembers names members).slot name = slotOf ((Entries.ofList members).lookup name) := by
  unfold slot ofMembers
  induction names with
  | nil => cases h
  | cons other names ih =>
    rw [List.map_cons, Entries.lookup_cons]
    split
    · rename_i heq
      rw [heq, Option.getD_some]
    · rename_i hne
      exact ih ((List.mem_cons.1 h).resolve_left hne)

theorem slot?_map {entries : List (String × Json)} (h : entries.Pairwise (·.1 < ·.1)) :
    slot? (entries.map fun m => (m.1, node m.2)) name = some (slotOf (entries.lookup name)) := by
  have hf : (entries.map fun m => (m.1, node m.2)).filter (·.1 = name) =
      (entries.filter (·.1 = name)).map fun m => (m.1, node m.2) := by
    rw [List.filter_map]
    rfl
  rw [slot?, hf, Entries.filter_eq_lookup h]
  cases entries.lookup name <;> rfl

/-- The fields of an object, whose members may be listed in any order. -/
theorem ofNode?_node_ofMembers (names : List String) (members : List (String × Json)) :
    Fields.ofNode? names (node (.ofMembers members)) = some (ofMembers names members) := by
  have he : (node (.object (Entries.ofList members))).entries? some =
      some ((Entries.ofList members).map fun m => (m.1, node m.2)) := by
    simpa using @entries?_node Json Node id some node (fun _ => rfl) (Entries.ofList members)
  show (Node.entries? some (node (.object (Entries.ofList members)))).bind _ = _
  rw [he, Option.bind_some]
  refine mapM_eq_pure fun name _ => ?_
  rw [slot?_map (Entries.pairwise_ofList members)]
  rfl

attribute [simp] required? withDefault? optional? nullable? string? slotOf

end Fields

/-! ## Documents -/

/-- Every value of a document type is read back from its node, and none is written as null. -/
class LawfulDocument (α : Type) [Document α] : Prop where
  plain (a : α) : (Document.toJson a).Plain
  isNull_node (a : α) : (node (Document.toJson a)).isNull = false
  ofNode?_node (a : α) : Document.ofNode? (node (Document.toJson a)) = some a

attribute [simp] LawfulDocument.plain LawfulDocument.isNull_node LawfulDocument.ofNode?_node

instance : LawfulDocument String := ⟨fun _ => trivial, fun _ => rfl, string?_node⟩

instance {α : Type} [Document α] [LawfulDocument α] : LawfulDocument (List α) where
  plain items := plainItems_iff.2 (List.forall_mem_map.2 fun a _ => LawfulDocument.plain a)
  isNull_node _ := rfl
  ofNode?_node items := by
    show (nodeItems (items.map Document.toJson)).mapM Document.ofNode? = _
    rw [nodeItems_eq, List.map_map]
    exact mapM_map_eq_pure fun a _ => LawfulDocument.ofNode?_node a

/-- A document is read back from its text. -/
theorem document?_render {α : Type} [Document α] [LawfulDocument α] (a : α) :
    document? (Document.toJson a).render = some a := by
  rw [document?, parse?_render_node (LawfulDocument.plain a), Option.bind_some,
    LawfulDocument.ofNode?_node]

/-- What is made of the fields of an object. -/
theorem ofNode?_bind {α : Type} {names : List String} {members : List (String × Json)}
    {make : Fields → Option α} {a : α} (h : make (.ofMembers names members) = some a) :
    (Fields.ofNode? names (node (.ofMembers members))).bind make = some a := by
  rw [Fields.ofNode?_node_ofMembers, Option.bind_some, h]

end FlowAccess.Json
