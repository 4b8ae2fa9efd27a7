import FlowAccess.Proofs.Json.Scan

/-!
# Trees read back from their text

The tokens of a plain tree are put together to the node that spells it (`parse?_render_node`), which
denotes the tree and is nested as deeply. So a plain tree is read back from its text exactly if it
nests no more containers than a text may (`parse?_render`).
-/

namespace FlowAccess.Json
open Text

mutual

/-- What the text of a tree holds. -/
def node : Json → Node
  | .null => .null
  | .bool b => .bool b
  | .number n => (Node.ofWord? n.chars).getD .null
  | .string s => .string (units s)
  | .array items => .array (nodeItems items)
  | .object members => .object (nodeMembers members)

def nodeItems : List Json → List Node
  | [] => []
  | item :: rest => node item :: nodeItems rest

def nodeMembers : List (String × Json) → List (List Nat × Node)
  | [] => []
  | (name, value) :: rest => (units name, node value) :: nodeMembers rest

end

/-! ## Integers -/

/-- A numeral has no leading zero, unless it is zero. -/
theorem eq_zero_of_head?_digits {n : Nat} (h : (Numeral.digits n).head? = some '0') : n = 0 := by
  induction n using Nat.strongRecOn with
  | _ n ih =>
    unfold Numeral.digits at h ih
    by_cases hn : n < 10
    · have : ∀ i : Fin 10, Nat.digitChar i = '0' → i.val = 0 := by decide
      rw [Nat.toDigits_of_lt_base hn] at h
      exact this ⟨n, hn⟩ (Option.some.inj h)
    · rw [Nat.toDigits_of_base_le (by decide) (by omega), List.head?_append,
        List.head?_eq_some_head Nat.toDigits_ne_nil, Option.some_or,
        ← List.head?_eq_some_head Nat.toDigits_ne_nil] at h
      have := ih (n / 10) (by omega) h
      omega

namespace Literal

/-- The literal of a number without a fraction and without an exponent. -/
def integral (negative : Bool) (n : Nat) : Literal :=
  ⟨negative, Numeral.digits n, [], false, []⟩

/-- The digits of a number are a literal, whether a minus stands before them or not. -/
theorem ofChars?_integral (negative : Bool) (n : Nat) :
    ofChars? ((if negative then ['-'] else []) ++ Numeral.digits n) =
      some (integral negative n) := by
  obtain ⟨c, cs, hc, hd⟩ := Numeral.exists_digits_eq_cons n
  have hall : ∀ c ∈ Numeral.digits n, Numeral.isDigit c = true :=
    fun _ => Numeral.isDigit_of_mem_digits
  have ht : (Numeral.digits n).takeWhile Numeral.isDigit = Numeral.digits n := by
    simpa using @List.takeWhile_append_of_pos _ _ _ [] hall
  have hr : (Numeral.digits n).dropWhile Numeral.isDigit = [] := by
    simpa using @List.dropWhile_append_of_pos _ _ _ [] hall
  have hz : ¬(Numeral.digits n = [] ∨
      (Numeral.digits n).head? = some '0' ∧ Numeral.digits n ≠ ['0']) := by
    rintro (h | ⟨h, hn⟩)
    · exact Numeral.digits_ne_nil n h
    · rw [eq_zero_of_head?_digits h] at hn
      exact hn rfl
  cases negative with
  | true =>
    show ofChars? ('-' :: Numeral.digits n) = _
    rw [ofChars?, ht, hr, if_neg hz]
    rfl
  | false =>
    show ofChars? (Numeral.digits n) = _
    rw [ofChars?, ht, hr, if_neg hz]
    · rfl
    · intro cs hcs
      rw [hc] at hcs
      cases hcs
      cases hd

theorem number?_integral {n : Int} (h : -2 ^ 63 ≤ n ∧ n < 2 ^ 64) :
    (integral (n < 0) n.natAbs).number? = some (.integer n) := by
  have hw : (integral (n < 0) n.natAbs).isWhole = true := rfl
  have hv : Numeral.value (integral (n < 0) n.natAbs).whole = n.natAbs := Numeral.value_digits _
  unfold number?
  dsimp only
  rw [hw, hv]
  by_cases hn : n < 0
  · have hi : -(n.natAbs : Int) = n := by omega
    rw [if_neg (by simp [integral, hn]), if_pos ⟨rfl, by simp [integral, hn], by omega⟩, hi]
  · have hi : (n.natAbs : Int) = n := by omega
    rw [if_pos ⟨rfl, by simp [integral, hn], by omega⟩, hi]

end Literal

theorem integer_chars (n : Int) : (Number.integer n).chars =
    (if decide (n < 0) then ['-'] else []) ++ Numeral.digits n.natAbs := by
  unfold Number.chars
  by_cases h : n < 0 <;> simp [h]

/-- A word that spells an integer is none of the names. -/
theorem ofWord?_integer (n : Int) :
    Node.ofWord? (Number.integer n).chars = some (.number (.integral (n < 0) n.natAbs)) := by
  have hl : Literal.ofChars? (Number.integer n).chars = some (.integral (n < 0) n.natAbs) := by
    rw [integer_chars, Literal.ofChars?_integral]
  have hne {cs : List Char} (hcs : Literal.ofChars? cs = none) : (Number.integer n).chars ≠ cs := by
    rintro rfl
    rw [hl] at hcs
    cases hcs
  rw [Node.ofWord?, if_neg (hne rfl), if_neg (hne rfl), if_neg (hne rfl), hl, Option.map_some]

/-! ## Nodes -/

/-- Where a value may begin. -/
inductive Expect.Opens : Expect → Prop where
  | value : Opens .value
  | valueOrClose : Opens .valueOrClose

theorem run_begin {e : Expect} (he : e.Opens) {t : Token} (ht : t ≠ .closeArray)
    (stack : List Frame) (ts : List Token) :
    Reading.run ⟨stack, e⟩ (t :: ts) = (Reading.begin stack t).bind (Reading.run · ts) := by
  cases he with
  | value => rfl
  | valueOrClose =>
    cases t with
    | closeArray => exact absurd rfl ht
    | _ => rfl

mutual

theorem run_tokens : (j : Json) → j.Plain → {e : Expect} → e.Opens → (stack : List Frame) →
    (ts : List Token) → Reading.run ⟨stack, e⟩ (tokens j ++ ts) =
      (Reading.complete (node j) stack).bind (Reading.run · ts)
  | .null, _, e, he, stack, ts => run_begin he (by decide) stack _
  | .bool b, _, e, he, stack, ts => by
    cases b <;> exact run_begin he (by decide) stack _
  | .number (.integer n), _, e, he, stack, ts => by
    refine (run_begin he (by simp) stack ts).trans ?_
    rw [Reading.begin, node, ofWord?_integer]
    rfl
  | .string s, _, e, he, stack, ts => run_begin he (by simp) stack ts
  | .array [], _, e, he, stack, ts => run_begin he (by decide) stack _
  | .array (item :: more), h, e, he, stack, ts => by
    simp only [tokens, List.cons_append, List.append_assoc]
    rw [run_begin he (by decide)]
    show Reading.run ⟨.items [] :: stack, .valueOrClose⟩ _ = _
    rw [run_tokens item h.1 .valueOrClose]
    exact run_tokensItems more h.2 [node item] stack ts
  | .object [], _, e, he, stack, ts => run_begin he (by decide) stack _
  | .object ((name, value) :: more), ⟨_, hv, hm⟩, e, he, stack, ts => by
    simp only [tokens, List.cons_append, List.append_assoc]
    rw [run_begin he (by decide)]
    show Reading.run ⟨.member [] (units name) :: stack, .value⟩ _ = _
    rw [run_tokens value hv .value]
    exact run_tokensMembers more hm [(units name, node value)] stack ts

theorem run_tokensItems : (items : List Json) → PlainItems items → (read : List Node) →
    (stack : List Frame) → (ts : List Token) →
    Reading.run ⟨.items read :: stack, .separator⟩ (tokensItems items ++ ts) =
      (Reading.complete (.array (read.reverse ++ nodeItems items)) stack).bind (Reading.run · ts)
  | [], _, read, stack, ts => by
    rw [nodeItems, List.append_nil]
    rfl
  | item :: more, h, read, stack, ts => by
    simp only [tokensItems, List.cons_append, List.append_assoc]
    show Reading.run ⟨.items read :: stack, .value⟩ _ = _
    rw [run_tokens item h.1 .value]
    show Reading.run ⟨.items (node item :: read) :: stack, .separator⟩ _ = _
    rw [run_tokensItems more h.2]
    simp [nodeItems]

theorem run_tokensMembers : (members : List (String × Json)) → PlainMembers members →
    (read : List (List Nat × Node)) → (stack : List Frame) → (ts : List Token) →
    Reading.run ⟨.members read :: stack, .separator⟩ (tokensMembers members ++ ts) =
      (Reading.complete (.object (read.reverse ++ nodeMembers members)) stack).bind
        (Reading.run · ts)
  | [], _, read, stack, ts => by
    rw [nodeMembers, List.append_nil]
    rfl
  | (name, value) :: more, h, read, stack, ts => by
    simp only [tokensMembers, List.cons_append, List.append_assoc]
    show Reading.run ⟨.member read (units name) :: stack, .value⟩ _ = _
    rw [run_tokens value h.1 .value]
    show Reading.run ⟨.members ((units name, node value) :: read) :: stack, .separator⟩ _ = _
    rw [run_tokensMembers more h.2]
    simp [nodeMembers]

end

theorem ofTokens?_tokens {j : Json} (h : j.Plain) : Node.ofTokens? (tokens j) = some (node j) := by
  have := run_tokens j h .value [] []
  rw [List.append_nil] at this
  rw [Node.ofTokens?, this]
  rfl

/-- The text of a plain tree holds its node. -/
theorem parse?_render_node {j : Json} (h : j.Plain) : Node.parse? j.render = some (node j) := by
  rw [Node.parse?, scan_render h, Option.bind_some, ofTokens?_tokens h]

/-! ## Trees -/

theorem charsOfUnits?_toNat (cs : List Char) : charsOfUnits? (cs.map Char.toNat) = some cs := by
  induction cs with
  | nil => rfl
  | cons c cs ih =>
    have hv : c.toNat < 0xD800 ∨ 0xDFFF < c.toNat ∧ c.toNat < 0x110000 := c.valid
    rw [List.map_cons, charsOfUnits?.eq_def]
    dsimp only
    rw [if_neg (by omega), if_neg (by omega), ih, Char.ofNat_toNat]
    rfl

theorem stringOfUnits?_units (s : String) : stringOfUnits? (units s) = some s := by
  rw [stringOfUnits?, units, charsOfUnits?_toNat, Option.map_some, String.ofList_toList]

theorem ofMembers_of_pairwise {members : List (String × Json)}
    (h : members.Pairwise (·.1 < ·.1)) : ofMembers members = .object members :=
  congrArg Json.object (Entries.ofList_of_pairwise h)

mutual

theorem tree?_node : (j : Json) → j.Plain → (node j).tree? = some j
  | .null, _ => rfl
  | .bool _, _ => rfl
  | .number (.integer n), h => by
    rw [node, ofWord?_integer, Option.getD_some, Node.tree?, Literal.number?_integral h]
    rfl
  | .string s, _ => by
    rw [node, Node.tree?, stringOfUnits?_units]
    rfl
  | .array items, h => by
    rw [node, Node.tree?, items?_nodeItems items h]
    rfl
  | .object members, ⟨ho, hm⟩ => by
    rw [node, Node.tree?, members?_nodeMembers members hm, Option.map_some,
      ofMembers_of_pairwise ho]

theorem items?_nodeItems : (items : List Json) → PlainItems items →
    Node.items? (nodeItems items) = some items
  | [], _ => rfl
  | item :: rest, h => by
    rw [nodeItems, Node.items?, tree?_node item h.1, items?_nodeItems rest h.2]
    rfl

theorem members?_nodeMembers : (members : List (String × Json)) → PlainMembers members →
    Node.members? (nodeMembers members) = some members
  | [], _ => rfl
  | (name, value) :: rest, h => by
    rw [nodeMembers, Node.members?, stringOfUnits?_units, tree?_node value h.1,
      members?_nodeMembers rest h.2]
    rfl

end

mutual

theorem depth_node : (j : Json) → j.Plain → (node j).depth = j.depth
  | .null, _ | .bool _, _ | .string _, _ => rfl
  | .number (.integer n), _ => by
    rw [node, ofWord?_integer]
    rfl
  | .array items, h => congrArg (· + 1) (depthItems_nodeItems items h)
  | .object members, h => congrArg (· + 1) (depthMembers_nodeMembers members h.2)

theorem depthItems_nodeItems : (items : List Json) → PlainItems items →
    Node.depthItems (nodeItems items) = depthItems items
  | [], _ => rfl
  | item :: rest, h => by
    rw [nodeItems, Node.depthItems, depth_node item h.1, depthItems_nodeItems rest h.2, depthItems]

theorem depthMembers_nodeMembers : (members : List (String × Json)) → PlainMembers members →
    Node.depthMembers (nodeMembers members) = depthMembers members
  | [], _ => rfl
  | (name, value) :: rest, h => by
    rw [nodeMembers, Node.depthMembers, depth_node value h.1, depthMembers_nodeMembers rest h.2,
      depthMembers]

end

/-- A plain tree is read back from its text, unless it nests too many containers. -/
theorem parse?_render {j : Json} (h : j.Plain) :
    parse? j.render = if j.depth ≤ maxDepth then some j else none := by
  simp only [parse?, parse?_render_node h, Option.bind_eq_bind, Option.bind_some, depth_node j h,
    tree?_node j h]

end FlowAccess.Json
