import FlowAccess.Cadence.Ccf.Reader
import FlowAccess.Cadence.Ccf.Writer
import FlowAccess.Proofs.Cbor.Items
import FlowAccess.Proofs.Value

/-!
# The grammar of compact messages

What the bytes of a message are, and which value they denote, said without a reader:

* a message is a typed value, or a list of definitions and a typed value (`IsMessage`);
* a typed value declares a type and holds a value of it (`IsTypedValue`);
* a definition names the fields of a composite type with their types (`IsDefinition`);
* a type is one of five tags with its content (`IsType`), and a reference among them names the first
  definition of its identifier;
* a value is read by its type (`IsValue`): an array by the type of its elements, a composite by the
  fields of its definition, a value under `AnyStruct` by a type that it declares itself.

Types and values stand at a depth, which is at most 64. The root stands at depth 0, what a type, an
optional, an array, a dictionary or a composite holds stands one deeper, and so does the typed value
under `AnyStruct`. The declared types of fields start at depth 0 again.
-/

namespace FlowAccess.Cadence.Ccf

open Cbor (IsHead IsBytes IsText IsItem)

/-! ## Pieces -/

/-- Bytes of a message, and what they stand for. -/
structure Piece (α : Type) where
  bytes : Bytes
  content : α

namespace Piece

variable {α : Type}

/-- The bytes of pieces one after the other. -/
def join (pieces : List (Piece α)) : Bytes := pieces.flatMap Piece.bytes

def contents (pieces : List (Piece α)) : List α := pieces.map Piece.content

@[simp] theorem join_nil : join ([] : List (Piece α)) = [] := rfl

@[simp] theorem join_cons (p : Piece α) (pieces : List (Piece α)) :
    join (p :: pieces) = p.bytes ++ join pieces := rfl

@[simp] theorem contents_nil : contents ([] : List (Piece α)) = [] := rfl

@[simp] theorem contents_cons (p : Piece α) (pieces : List (Piece α)) :
    contents (p :: pieces) = p.content :: contents pieces := rfl

@[simp] theorem length_contents (pieces : List (Piece α)) :
    (contents pieces).length = pieces.length := List.length_map ..

/-- The pieces of pairs in turn. -/
def flat : List (Piece α × Piece α) → List (Piece α)
  | [] => []
  | e :: entries => e.1 :: e.2 :: flat entries

theorem length_flat (entries : List (Piece α × Piece α)) :
    (flat entries).length = 2 * entries.length := by
  induction entries with
  | nil => rfl
  | cons e entries ih =>
    rw [flat, List.length_cons, List.length_cons, List.length_cons, ih]
    omega

theorem forall_mem_flat {q : Piece α → Prop} {entries : List (Piece α × Piece α)}
    (h₁ : ∀ e ∈ entries, q e.1) (h₂ : ∀ e ∈ entries, q e.2) : ∀ p ∈ flat entries, q p := by
  induction entries with
  | nil => nofun
  | cons e entries ih =>
    obtain ⟨hk, hks⟩ := List.forall_mem_cons.1 h₁
    obtain ⟨hv, hvs⟩ := List.forall_mem_cons.1 h₂
    exact List.forall_mem_cons.2 ⟨hk, List.forall_mem_cons.2 ⟨hv, ih hks hvs⟩⟩

end Piece

open Piece

abbrev IsTag (bs : Bytes) (tag : Nat) : Prop := IsHead .tag bs tag

/-- The head of an array that states its length. -/
abbrev IsCount (bs : Bytes) (n : Nat) : Prop := IsHead .array bs n

/-! ## Types -/

/-- A type. A simple type may have any code, but there are values only of those that are known. -/
inductive IsType : (depth : Nat) → Bytes → InlineType → Prop where
  | simple {depth code : Nat} {tb cb : Bytes} (hd : depth ≤ maxDepth) (ht : IsTag tb Tag.simple)
      (hc : IsHead .unsigned cb code) : IsType depth (tb ++ cb) (.simple code)
  | optional {depth : Nat} {tb bs : Bytes} {t : InlineType} (hd : depth ≤ maxDepth)
      (ht : IsTag tb Tag.optional) (h : IsType (depth + 1) bs t) :
      IsType depth (tb ++ bs) (.optional t)
  | array {depth : Nat} {tb bs : Bytes} {t : InlineType} (hd : depth ≤ maxDepth)
      (ht : IsTag tb Tag.array) (h : IsType (depth + 1) bs t) : IsType depth (tb ++ bs) (.array t)
  | dictionary {depth : Nat} {tb nb kb vb : Bytes} {k v : InlineType} (hd : depth ≤ maxDepth)
      (ht : IsTag tb Tag.dictionary) (hn : IsCount nb 2) (hk : IsType (depth + 1) kb k)
      (hv : IsType (depth + 1) vb v) : IsType depth (tb ++ nb ++ kb ++ vb) (.dictionary k v)
  | reference {depth : Nat} {tb ib id : Bytes} (hd : depth ≤ maxDepth)
      (ht : IsTag tb Tag.reference) (hi : IsBytes ib id) : IsType depth (tb ++ ib) (.reference id)

/-! ## Definitions -/

/-- A field of a definition: its name and its type. -/
inductive IsField : Bytes → String × InlineType → Prop where
  | intro {nb sb tb : Bytes} {name : String} {t : InlineType} (hn : IsCount nb 2)
      (hs : IsText sb name) (ht : IsType 0 tb t) : IsField (nb ++ sb ++ tb) (name, t)

/-- A definition of a composite type: its identifier, its name and its fields. -/
inductive IsDefinition : Bytes → Definition → Prop where
  | intro {tb nb ib sb fb id : Bytes} {kind : CompositeKind} {typeId : String}
      {fields : List (Piece (String × InlineType))} (ht : IsTag tb (typedefTag kind))
      (hn : IsCount nb 3) (hi : IsBytes ib id) (hs : IsText sb typeId)
      (hl : IsCount fb fields.length) (hf : ∀ f ∈ fields, IsField f.bytes f.content) :
      IsDefinition (tb ++ nb ++ ib ++ sb ++ fb ++ join fields) ⟨id, kind, typeId, contents fields⟩

/-! ## Values without parts -/

/-- A bignum, by its tag and its magnitude, which has at most 16 bytes. -/
inductive IsBignum : Bytes → Nat → Nat → Prop where
  | intro {tb mb magnitude : Bytes} {tag : Nat} (ht : IsTag tb tag) (hm : IsBytes mb magnitude)
      (hl : magnitude.length ≤ 16) : IsBignum (tb ++ mb) tag magnitude.toNat

/-- An integer, plain or as a bignum. -/
inductive IsInteger : Bytes → Int → Prop where
  | plain {bs : Bytes} {n : Int} (h : Cbor.IsInteger bs n) : IsInteger bs n
  | positive {bs : Bytes} {m : Nat} (h : IsBignum bs Cbor.positiveBignum m) : IsInteger bs m
  | negative {bs : Bytes} {m : Nat} (h : IsBignum bs Cbor.negativeBignum m) :
      IsInteger bs (-1 - (m : Int))

/-- A value of a simple type. A number is an integer within the range of its kind. -/
inductive IsSimple : SimpleType → Bytes → Value → Prop where
  | void : IsSimple .void Cbor.null .void
  | bool (b : Bool) : IsSimple .bool (Cbor.bool b) (.bool b)
  | string {bs : Bytes} {s : String} (h : IsText bs s) : IsSimple .string bs (.string s)
  | character {bs : Bytes} {s : String} (h : IsText bs s) : IsSimple .character bs (.character s)
  | address {bs : Bytes} {a : Address} (h : IsBytes bs a.bytes) : IsSimple .address bs (.address a)
  | number {bs : Bytes} {n : Number} (h : IsInteger bs n.raw) :
      IsSimple (.number n.kind) bs (.number n)

/-! ## Values -/

/-- What stands before a value that comes with its type: the tag, the array head and the type. -/
inductive IsDeclaration (depth : Nat) : Bytes → InlineType → Prop where
  | intro {tb nb bs : Bytes} {t : InlineType} (ht : IsTag tb Tag.typedValue) (hn : IsCount nb 2)
      (h : IsType depth bs t) : IsDeclaration depth (tb ++ nb ++ bs) t

/-- A value of a type, where these definitions are given. -/
inductive IsValue (defs : List Definition) : (depth : Nat) → InlineType → Bytes → Value → Prop where
  | simple {depth : Nat} {t : SimpleType} {bs : Bytes} {v : Value} (hd : depth ≤ maxDepth)
      (h : IsSimple t bs v) : IsValue defs depth (.simple t.code) bs v
  | any {depth : Nat} {t : InlineType} {db bs : Bytes} {v : Value} (hd : depth ≤ maxDepth)
      (ht : IsDeclaration (depth + 1) db t) (h : IsValue defs (depth + 1) t bs v) :
      IsValue defs depth (.simple SimpleType.anyStruct.code) (db ++ bs) v
  | absent {depth : Nat} {t : InlineType} (hd : depth ≤ maxDepth) :
      IsValue defs depth (.optional t) Cbor.null .absent
  | present {depth : Nat} {t : InlineType} {bs : Bytes} {v : Value} (hd : depth ≤ maxDepth)
      (hn : bs ≠ Cbor.null) (h : IsValue defs (depth + 1) t bs v) :
      IsValue defs depth (.optional t) bs (.present v)
  | array {depth : Nat} {t : InlineType} {nb : Bytes} {items : List (Piece Value)}
      (hd : depth ≤ maxDepth) (hn : IsCount nb items.length)
      (h : ∀ i ∈ items, IsValue defs (depth + 1) t i.bytes i.content) :
      IsValue defs depth (.array t) (nb ++ join items) (.array (contents items))
  | dictionary {depth : Nat} {key value : InlineType} {nb : Bytes}
      {entries : List (Piece Value × Piece Value)} (hd : depth ≤ maxDepth)
      (hn : IsCount nb (2 * entries.length))
      (hk : ∀ e ∈ entries, IsValue defs (depth + 1) key e.1.bytes e.1.content)
      (hv : ∀ e ∈ entries, IsValue defs (depth + 1) value e.2.bytes e.2.content) :
      IsValue defs depth (.dictionary key value) (nb ++ join (flat entries))
        (.dictionary (entries.map fun e => (e.1.content, e.2.content)))
  | composite {depth : Nat} {id nb : Bytes} {d : Definition} {fields : List (Piece Value)}
      (hd : depth ≤ maxDepth) (hi : defs.find? (·.id = id) = some d)
      (hn : IsCount nb d.fields.length) (hl : fields.length = d.fields.length)
      (h : ∀ f ∈ d.fields.zip fields, IsValue defs (depth + 1) f.1.2 f.2.bytes f.2.content) :
      IsValue defs depth (.reference id) (nb ++ join fields)
        (.composite d.kind d.typeId ((d.fields.map (·.1)).zip (contents fields)))

/-! ## Messages -/

/-- A type and a value of it, at the root. -/
inductive IsTypedValue (defs : List Definition) : Bytes → Value → Prop where
  | intro {db bs : Bytes} {t : InlineType} {v : Value} (ht : IsDeclaration 0 db t)
      (h : IsValue defs 0 t bs v) : IsTypedValue defs (db ++ bs) v

/-- What stands before a typed value that comes with definitions. -/
inductive IsDefinitionList : Bytes → List Definition → Prop where
  | intro {tb nb lb : Bytes} {defs : List (Piece Definition)} (ht : IsTag tb Tag.typedefsAndValue)
      (hn : IsCount nb 2) (hl : IsCount lb defs.length)
      (h : ∀ d ∈ defs, IsDefinition d.bytes d.content) :
      IsDefinitionList (tb ++ nb ++ lb ++ join defs) (contents defs)

/-- A message of a value. Where it has a list of definitions, there are at least so many of them. -/
inductive IsMessage (least : Nat) : Bytes → Value → Prop where
  | plain {bs : Bytes} {v : Value} (h : IsTypedValue [] bs v) : IsMessage least bs v
  | defined {lb bs : Bytes} {defs : List Definition} {v : Value} (hn : least ≤ defs.length)
      (hl : IsDefinitionList lb defs) (h : IsTypedValue defs bs v) : IsMessage least (lb ++ bs) v

/-! ## Depth -/

variable {defs : List Definition} {depth : Nat} {t : InlineType} {bs : Bytes} {v : Value}

theorem IsType.depth_le (h : IsType depth bs t) : depth ≤ maxDepth := by
  cases h <;> assumption

theorem IsValue.depth_le (h : IsValue defs depth t bs v) : depth ≤ maxDepth := by
  cases h <;> assumption

/-! ## The front of a value -/

/-- The bytes show whether they are null, whatever follows. -/
abbrev ShowsNull (bs : Bytes) : Prop :=
  Cbor.Shows Cbor.Reader.nextIsNull bs (decide (bs = Cbor.null))

/-- What shows that it is not null is not null. -/
theorem showsNull_of_false (h : Cbor.Shows Cbor.Reader.nextIsNull bs false) : ShowsNull bs := by
  have hne : bs ≠ Cbor.null := by
    rintro rfl
    have := h.eq (Cbor.nextIsNull_null [])
    cases this
  rwa [ShowsNull, decide_eq_false hne]

theorem showsNull_of_isHead {m : Cbor.Major} {hb : Bytes} {n : Nat} (h : IsHead m hb n)
    (hm : m ≠ .simple) (bs : Bytes) : ShowsNull (hb ++ bs) :=
  showsNull_of_false ((Cbor.nextIsNull_of_isHead h hm).append bs)

theorem IsText.nextIsNull {s : String} (h : IsText bs s) :
    Cbor.Shows Cbor.Reader.nextIsNull bs false := by
  obtain ⟨h⟩ := h
  exact (Cbor.nextIsNull_of_isHead h (by decide)).append _

theorem IsInteger.nextIsNull {n : Int} (h : IsInteger bs n) :
    Cbor.Shows Cbor.Reader.nextIsNull bs false := by
  cases h with
  | plain h =>
    cases h with
    | unsigned h | negative h => exact Cbor.nextIsNull_of_isHead h (by decide)
  | positive h | negative h =>
    obtain ⟨ht, -, -⟩ := h
    exact (Cbor.nextIsNull_of_isHead ht (by decide)).append _

/-- Of the values without parts, `Void` alone is null. -/
theorem IsSimple.nextIsNull {t : SimpleType} (h : IsSimple t bs v) :
    Cbor.Shows Cbor.Reader.nextIsNull bs v.isNull := by
  cases h with
  | void => exact Cbor.nextIsNull_null
  | bool b => exact Cbor.nextIsNull_bool b
  | string h | character h => exact IsText.nextIsNull h
  | address h =>
    obtain ⟨h⟩ := h
    exact (Cbor.nextIsNull_of_isHead h (by decide)).append _
  | number h => exact h.nextIsNull

theorem IsSimple.showsNull {t : SimpleType} (h : IsSimple t bs v) : ShowsNull bs := by
  have hs := h.nextIsNull
  cases h with
  | void => exact hs
  | bool | string | character | address | number => exact showsNull_of_false hs

theorem IsValue.showsNull (h : IsValue defs depth t bs v) : ShowsNull bs := by
  induction h with
  | simple hd h => exact h.showsNull
  | any hd ht h ih =>
    obtain ⟨ht, hn, htype⟩ := ht
    rw [List.append_assoc, List.append_assoc]
    exact showsNull_of_isHead ht (by decide) _
  | absent hd => exact Cbor.nextIsNull_null
  | present hd hn h ih => exact ih
  | array hd hn | dictionary hd hn | composite hd hi hn =>
    exact showsNull_of_isHead hn (by decide) _

/-! ## Items -/

/-- What holds of the members of a zip holds of its second list, which is as long as the first. -/
theorem forall_mem_of_zip {α β : Type} {q : β → Prop} {as : List α} {list : List β}
    (hl : list.length = as.length) (h : ∀ f ∈ as.zip list, q f.2) : ∀ b ∈ list, q b := by
  intro b hb
  rw [← List.map_snd_zip (Nat.le_of_eq hl)] at hb
  obtain ⟨f, hf, rfl⟩ := List.mem_map.1 hb
  exact h f hf

theorem isItem_pieces {α : Type} {nb : Bytes} {pieces : List (Piece α)}
    (hn : IsCount nb pieces.length) (h : ∀ p ∈ pieces, IsItem p.bytes) :
    IsItem (nb ++ join pieces) := by
  refine .listed (pieces.map Piece.bytes) (by rwa [List.length_map]) ?_ (by rw [join, List.flatMap])
  intro i hi
  obtain ⟨p, hp, rfl⟩ := List.mem_map.1 hi
  exact h p hp

theorem isItem_pair {nb xb yb : Bytes} (hn : IsCount nb 2) (hx : IsItem xb) (hy : IsItem yb) :
    IsItem (nb ++ (xb ++ yb)) :=
  .listed [xb, yb] hn (by simp [hx, hy]) (by simp)

theorem IsType.isItem (h : IsType depth bs t) : IsItem bs := by
  induction h with
  | simple hd ht hc => exact .tag ht (.integer (.unsigned hc))
  | optional hd ht h ih | array hd ht h ih => exact .tag ht ih
  | dictionary hd ht hn hk hv ihk ihv =>
    rw [List.append_assoc, List.append_assoc]
    exact .tag ht (isItem_pair hn ihk ihv)
  | reference hd ht hi => exact .tag ht (.bytes hi)

theorem IsField.isItem {field : String × InlineType} (h : IsField bs field) : IsItem bs := by
  obtain ⟨hn, hs, ht⟩ := h
  rw [List.append_assoc]
  exact isItem_pair hn (.text hs) ht.isItem

theorem IsBignum.isItem {tag m : Nat} (h : IsBignum bs tag m) : IsItem bs := by
  obtain ⟨ht, hm, -⟩ := h
  exact .tag ht (.bytes hm)

theorem IsDefinition.isItem {d : Definition} (h : IsDefinition bs d) : IsItem bs := by
  obtain @⟨tb, nb, ib, sb, fb, id, kind, typeId, fields, ht, hn, hi, hs, hl, hf⟩ := h
  have hfields : IsItem (fb ++ join fields) := by
    exact isItem_pieces hl fun f hm => (hf f hm).isItem
  simp only [List.append_assoc]
  refine .tag ht (.listed [ib, sb, fb ++ join fields] hn ?_ (by simp))
  simp [IsItem.bytes hi, IsItem.text hs, hfields]

theorem IsInteger.isItem {n : Int} (h : IsInteger bs n) : IsItem bs := by
  cases h with
  | plain h => exact .integer h
  | positive h | negative h => exact h.isItem

theorem IsSimple.isItem {t : SimpleType} (h : IsSimple t bs v) : IsItem bs := by
  cases h with
  | void => exact .null
  | bool b => exact .bool b
  | string h | character h => exact .text h
  | address h => exact .bytes h
  | number h => exact h.isItem

theorem IsDeclaration.isItem (ht : IsDeclaration depth bs t) {vb : Bytes} (hv : IsItem vb) :
    IsItem (bs ++ vb) := by
  obtain ⟨ht, hn, h⟩ := ht
  rw [List.append_assoc, List.append_assoc]
  exact .tag ht (isItem_pair hn h.isItem hv)

theorem IsValue.isItem (h : IsValue defs depth t bs v) : IsItem bs := by
  induction h with
  | simple hd h => exact h.isItem
  | any hd ht h ih => exact ht.isItem ih
  | absent hd => exact .null
  | present hd hn h ih => exact ih
  | array hd hn h ih => exact isItem_pieces hn ih
  | dictionary hd hn hk hv ihk ihv =>
    exact isItem_pieces (by rwa [length_flat]) (forall_mem_flat ihk ihv)
  | composite hd hi hn hl h ih =>
    exact isItem_pieces (hl ▸ hn) (forall_mem_of_zip hl ih)

/-- A message is one item. -/
theorem IsMessage.isItem {least : Nat} (h : IsMessage least bs v) : IsItem bs := by
  cases h with
  | plain h =>
    obtain ⟨ht, h⟩ := h
    exact ht.isItem h.isItem
  | defined hn hl h =>
    obtain ⟨ht, hc, hl, hd⟩ := hl
    obtain ⟨hdecl, h⟩ := h
    have hdefs := isItem_pieces hl fun d hm => (hd d hm).isItem
    have := IsItem.tag ht (isItem_pair hc hdefs (hdecl.isItem h.isItem))
    simpa only [List.append_assoc] using this

end FlowAccess.Cadence.Ccf
