import FlowAccess.Json.Node

/-!
# The depth of trees

A member of an object is less deep than the object, and a tree is no deeper than the text that it
was read from. What is read therefore has at most 127 containers one within the other
(`depth_le_of_parse?`).
-/

namespace FlowAccess.Json

theorem depthMembers_le_iff {members : List (String × Json)} {d : Nat} :
    depthMembers members ≤ d ↔ ∀ m ∈ members, m.2.depth ≤ d := by
  induction members with
  | nil => simp [depthMembers]
  | cons m rest ih => rw [depthMembers, Nat.max_le, ih, List.forall_mem_cons]

/-- A member is less deep than its object. -/
theorem depth_lt_of_get? {name : String} {json member : Json} (h : json.get? name = some member) :
    member.depth < json.depth := by
  cases json with
  | object members =>
    obtain ⟨before, after, rfl, -⟩ := List.lookup_eq_some_iff.1 h
    exact Nat.lt_succ_of_le (depthMembers_le_iff.1 (Nat.le_refl _) (name, member) (by simp))
  | null | bool | number | string | array => cases h

/-- Putting members in order makes none of them deeper. -/
theorem depth_ofMembers_le (members : List (String × Json)) :
    (ofMembers members).depth ≤ depthMembers members + 1 := by
  refine Nat.succ_le_succ (depthMembers_le_iff.2 fun m hm => ?_)
  exact depthMembers_le_iff.1 (Nat.le_refl _) m (Entries.mem_of_mem_ofList hm)

/-! ## Nodes -/

mutual

theorem depth_le_of_tree? : (node : Node) → {j : Json} → node.tree? = some j →
    j.depth ≤ node.depth
  | .array nodes, j, h => by
    obtain ⟨items, hi, rfl⟩ := Option.map_eq_some_iff.1 h
    exact Nat.succ_le_succ (depthItems_le_of_items? nodes hi)
  | .object nodes, j, h => by
    obtain ⟨members, hm, rfl⟩ := Option.map_eq_some_iff.1 h
    exact Nat.le_trans (depth_ofMembers_le members)
      (Nat.succ_le_succ (depthMembers_le_of_members? nodes hm))
  | .number l, j, h => by
    obtain ⟨n, -, rfl⟩ := Option.map_eq_some_iff.1 h
    exact Nat.le_refl 0
  | .string units, j, h => by
    obtain ⟨s, -, rfl⟩ := Option.map_eq_some_iff.1 h
    exact Nat.le_refl 0
  | .null, _, h | .bool _, _, h => by
    cases h
    exact Nat.le_refl 0

theorem depthItems_le_of_items? : (nodes : List Node) → {items : List Json} →
    Node.items? nodes = some items → depthItems items ≤ Node.depthItems nodes
  | [], items, h => by
    cases h
    exact Nat.le_refl 0
  | node :: rest, items, h => by
    obtain ⟨j, hj, h⟩ := Option.bind_eq_some_iff.1 h
    obtain ⟨js, hjs, h⟩ := Option.bind_eq_some_iff.1 h
    cases h
    have hnode := depth_le_of_tree? node hj
    have hrest := depthItems_le_of_items? rest hjs
    rw [depthItems, Node.depthItems]
    omega

theorem depthMembers_le_of_members? : (nodes : List (List Nat × Node)) →
    {members : List (String × Json)} → Node.members? nodes = some members →
    depthMembers members ≤ Node.depthMembers nodes
  | [], members, h => by
    cases h
    exact Nat.le_refl 0
  | (_, node) :: rest, members, h => by
    obtain ⟨name, -, h⟩ := Option.bind_eq_some_iff.1 h
    obtain ⟨j, hj, h⟩ := Option.bind_eq_some_iff.1 h
    obtain ⟨ms, hms, h⟩ := Option.bind_eq_some_iff.1 h
    cases h
    have hnode := depth_le_of_tree? node hj
    have hrest := depthMembers_le_of_members? rest hms
    rw [depthMembers, Node.depthMembers]
    omega

end

/-- A tree that is read is no deeper than a text may be. -/
theorem depth_le_of_parse? {text : String} {j : Json} (h : parse? text = some j) :
    j.depth ≤ maxDepth := by
  obtain ⟨node, -, h⟩ := Option.bind_eq_some_iff.1 h
  split at h
  · exact Nat.le_trans (depth_le_of_tree? node h) ‹_›
  · cases h

end FlowAccess.Json
