import FlowAccess.Proofs.Ccf.Language

/-!
# The size of decoded values

A message bounds the value that is decoded from it, whatever its definitions are and whatever
lengths its arrays announce (`decode_bounded`). A definition that refers to itself unfolds only as
far as there are bytes for it: every node of the value takes a byte of its own, unless it is an
optional that holds something. Of these at most 64 stand one above the other.
-/

namespace FlowAccess.Cadence

namespace Value

/-! ## Nodes -/

/-- What a value holds directly. -/
def children : Value → List Value
  | .present v => [v]
  | .array items => items
  | .dictionary entries => entries.flatMap fun e => [e.1, e.2]
  | .composite _ _ fields => fields.map (·.2)
  | _ => []

mutual

/-- The nodes of a value, each with its level, where the root stands at `level`. -/
def nodes (level : Nat) : Value → List (Nat × Value)
  | .present v => (level, .present v) :: nodes (level + 1) v
  | .array items => (level, .array items) :: nodesOfItems (level + 1) items
  | .dictionary entries => (level, .dictionary entries) :: nodesOfEntries (level + 1) entries
  | .composite kind id fields =>
    (level, .composite kind id fields) :: nodesOfFields (level + 1) fields
  | v => [(level, v)]

def nodesOfItems (level : Nat) : List Value → List (Nat × Value)
  | [] => []
  | v :: rest => nodes level v ++ nodesOfItems level rest

def nodesOfEntries (level : Nat) : List (Value × Value) → List (Nat × Value)
  | [] => []
  | (k, v) :: rest => nodes level k ++ nodes level v ++ nodesOfEntries level rest

def nodesOfFields (level : Nat) : List (String × Value) → List (Nat × Value)
  | [] => []
  | (_, v) :: rest => nodes level v ++ nodesOfFields level rest

end

variable {level : Nat}

theorem nodesOfItems_eq (items : List Value) :
    nodesOfItems level items = items.flatMap (nodes level) := by
  induction items with
  | nil => rfl
  | cons v rest ih => rw [nodesOfItems, List.flatMap_cons, ih]

theorem nodesOfEntries_eq (entries : List (Value × Value)) :
    nodesOfEntries level entries = (children (.dictionary entries)).flatMap (nodes level) := by
  induction entries with
  | nil => rfl
  | cons e rest ih =>
    rw [nodesOfEntries, ih]
    simp [children]

theorem nodesOfFields_eq (fields : List (String × Value)) :
    nodesOfFields level fields = (fields.map (·.2)).flatMap (nodes level) := by
  induction fields with
  | nil => rfl
  | cons f rest ih => rw [nodesOfFields, List.map_cons, List.flatMap_cons, ih]

/-- The root and the nodes of its children. -/
theorem nodes_eq (v : Value) :
    v.nodes level = (level, v) :: v.children.flatMap (nodes (level + 1)) := by
  cases v with
  | present v => rw [nodes, children, List.flatMap_singleton]
  | array items => rw [nodes, nodesOfItems_eq, children]
  | dictionary entries => rw [nodes, nodesOfEntries_eq]
  | composite kind id fields => rw [nodes, nodesOfFields_eq, children]
  | void | absent | bool | string | character | address | number =>
    rw [nodes]
    · rfl
    all_goals nofun

/-- An optional that holds something. -/
def isPresent : Value → Bool
  | .present _ => true
  | _ => false

end Value

namespace Ccf

open Piece Value

/-! ## Values within bytes -/

/-- A value with fewer levels below it than the room, for which so many bytes suffice. -/
structure Within (room len : Nat) (v : Value) : Prop where
  level {l : Nat} : ∀ n ∈ v.nodes l, n.1 < l + room
  solid {l : Nat} : ((v.nodes l).filter (!·.2.isPresent)).length ≤ len
  total {l : Nat} : (v.nodes l).length ≤ room * len

/-- What is found in pieces is bounded by their bytes together. -/
theorem length_flatMap_contents_le {α β : Type} {f : α → List β} {k : Nat} {pieces : List (Piece α)}
    (h : ∀ p ∈ pieces, (f p.content).length ≤ k * p.bytes.length) :
    ((contents pieces).flatMap f).length ≤ k * (join pieces).length := by
  induction pieces with
  | nil => exact Nat.zero_le _
  | cons p pieces ih =>
    rw [contents_cons, List.flatMap_cons, List.length_append, join_cons, List.length_append,
      Nat.mul_add]
    exact Nat.add_le_add (h p (.head _)) (ih fun q hq => h q (.tail _ hq))

namespace Within

variable {room room' len len' : Nat} {v : Value} {pieces : List (Piece Value)}

theorem mono (h : Within room len v) (hr : room ≤ room') (hl : len ≤ len') :
    Within room' len' v where
  level n hn := Nat.lt_of_lt_of_le (h.level n hn) (Nat.add_le_add_left hr _)
  solid := Nat.le_trans h.solid hl
  total := Nat.le_trans h.total (Nat.mul_le_mul hr hl)

/-- A node takes a byte besides those of its children, which stand one deeper. -/
theorem node (hc : v.children = contents pieces) (hl : (join pieces).length < len)
    (h : ∀ p ∈ pieces, Within room p.bytes.length p.content) : Within (room + 1) len v where
  level {l} n hn := by
    rw [nodes_eq, hc] at hn
    rcases List.mem_cons.1 hn with rfl | hn
    · exact Nat.lt_add_of_pos_right (Nat.succ_pos _)
    · obtain ⟨_, hw, hn⟩ := List.mem_flatMap.1 hn
      obtain ⟨p, hp, rfl⟩ := List.mem_map.1 hw
      have := (h p hp).level n hn
      omega
  solid {l} := by
    have hrest : (((contents pieces).flatMap (nodes (l + 1))).filter (!·.2.isPresent)).length ≤
        1 * (join pieces).length := by
      rw [List.filter_flatMap]
      refine length_flatMap_contents_le fun p hp => ?_
      rw [Nat.one_mul]
      exact (h p hp).solid
    rw [nodes_eq, hc, List.filter_cons]
    split
    · rw [List.length_cons]
      omega
    · omega
  total {l} := by
    have hrest := length_flatMap_contents_le fun p hp => (h p hp).total (l := l + 1)
    rw [nodes_eq, hc, List.length_cons]
    calc ((contents pieces).flatMap (nodes (l + 1))).length + 1
      _ ≤ room * (join pieces).length + 1 := Nat.succ_le_succ hrest
      _ ≤ room * len + len := Nat.add_le_add (Nat.mul_le_mul_left room (by omega)) (by omega)
      _ = (room + 1) * len := (Nat.succ_mul room len).symm

theorem leaf (hl : 0 < len) (hc : v.children = []) : Within (room + 1) len v :=
  .node (show v.children = contents [] from hc) hl nofun

/-- An optional takes no byte of its own. -/
theorem present (hl : 0 < len) (h : Within room len v) : Within (room + 1) len (.present v) where
  level {l} n hn := by
    rw [nodes] at hn
    rcases List.mem_cons.1 hn with rfl | hn
    · exact Nat.lt_add_of_pos_right (Nat.succ_pos _)
    · have := h.level n hn
      omega
  solid {l} := by
    rw [nodes, List.filter_cons_of_neg (by simp [isPresent])]
    exact h.solid
  total {l} := by
    rw [nodes, List.length_cons, Nat.succ_mul]
    exact Nat.add_le_add h.total hl

end Within

/-! ## Messages -/

variable {defs : List Definition} {depth : Nat} {t : InlineType} {bs : Bytes} {v : Value}

theorem IsSimple.children {t : SimpleType} (h : IsSimple t bs v) : v.children = [] := by
  cases h <;> rfl

theorem children_dictionary (entries : List (Piece Value × Piece Value)) :
    (Value.dictionary (entries.map fun e => (e.1.content, e.2.content))).children =
      contents (flat entries) := by
  induction entries with
  | nil => rfl
  | cons e entries ih =>
    rw [flat, contents_cons, contents_cons, ← ih]
    rfl

theorem children_composite {kind : CompositeKind} {id : String} {names : List String}
    {values : List Value} (h : values.length = names.length) :
    (Value.composite kind id (names.zip values)).children = values :=
  List.map_snd_zip (Nat.le_of_eq h)

theorem length_join_lt {nb : Bytes} {n : Nat} (h : IsCount nb n) (bs : Bytes) :
    bs.length < (nb ++ bs).length := by
  have := h.length_pos
  rw [List.length_append]
  omega

/-- A value has no more levels than its depth leaves, and no more nodes than bytes. -/
theorem IsValue.within (h : IsValue defs depth t bs v) :
    Within (fullRoom - depth) bs.length v := by
  have hroom {depth : Nat} (hd : depth ≤ maxDepth) :
      fullRoom - depth = fullRoom - (depth + 1) + 1 := by
    rw [fullRoom]
    omega
  induction h with
  | simple hd h =>
    rw [hroom hd]
    exact .leaf h.isItem.length_pos h.children
  | any hd ht h ih => exact ih.mono (by omega) (by simp)
  | absent hd =>
    rw [hroom hd]
    exact .leaf (by decide) rfl
  | present hd hn h ih =>
    rw [hroom hd]
    exact .present h.isItem.length_pos ih
  | array hd hn h ih =>
    rw [hroom hd]
    exact .node rfl (length_join_lt hn _) ih
  | @dictionary _ _ _ _ entries hd hn hk hv ihk ihv =>
    rw [hroom hd]
    exact .node (children_dictionary entries) (length_join_lt hn _) (forall_mem_flat ihk ihv)
  | composite hd hi hn hl h ih =>
    rw [hroom hd]
    exact .node (children_composite (by simpa using hl)) (length_join_lt hn _)
      (forall_mem_of_zip hl ih)

/-- A message holds the bytes of its value. -/
theorem IsMessage.exists_value {least : Nat} (h : IsMessage least bs v) :
    ∃ defs t vb, IsValue defs 0 t vb v ∧ vb.length ≤ bs.length := by
  cases h with
  | plain h =>
    obtain ⟨-, h⟩ := h
    exact ⟨_, _, _, h, by simp⟩
  | defined hn hl h =>
    obtain ⟨-, h⟩ := h
    exact ⟨_, _, _, h, by simp; omega⟩

/-- A decoded value has at most 64 levels below its root, no more nodes other than optionals that
hold something than there are bytes, and at most 65 times as many nodes. -/
theorem decode_bounded {b : Bytes} (h : decode b = .ok v) :
    (∀ n ∈ v.nodes 0, n.1 ≤ 64) ∧
    ((v.nodes 0).filter (!·.2.isPresent)).length ≤ b.length ∧
    (v.nodes 0).length ≤ 65 * b.length := by
  obtain ⟨defs, t, vb, hv, hl⟩ := (decode_eq_ok_iff_isMessage.1 h).exists_value
  have hw := hv.within.mono (Nat.le_refl _) hl
  refine ⟨fun n hn => ?_, hw.solid, hw.total⟩
  have := hw.level n hn
  rw [Nat.zero_add] at this
  exact Nat.le_of_lt_succ this

/-- Three links of a type that refers to itself. -/
def chain : Bytes :=
  [0xd8, 0x81, 0x82, 0x81, 0xd8, 0xa0, 0x83, 0x40, 0x61, 0x53, 0x81, 0x82, 0x61, 0x6e, 0xd8, 0x8a,
    0xd8, 0x88, 0x40, 0xd8, 0x82, 0x82, 0xd8, 0x88, 0x40, 0x81, 0x81, 0x81, 0xf6]

def links : Value :=
  .composite .struct "S" [("n", .present (.composite .struct "S" [("n", .present
    (.composite .struct "S" [("n", .absent)]))]))]

theorem decode_bounded_chain :
    decode chain = .ok links ∧ (∀ n ∈ links.nodes 0, n.1 ≤ 64) ∧
      ((links.nodes 0).filter (!·.2.isPresent)).length ≤ chain.length ∧
      (links.nodes 0).length ≤ 65 * chain.length := by
  have h : decode chain = .ok links := by decide +kernel
  exact ⟨h, decode_bounded h⟩

end Ccf

end FlowAccess.Cadence
