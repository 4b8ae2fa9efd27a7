import FlowAccess.Json.Number
import FlowAccess.Text.Hex

/-!
# JSON texts

A text is cut into tokens, and tokens are put together by a machine with a stack of open
containers. The result is a `Node`, which keeps what was written: strings as code points in which
halves of escaped surrogate pairs may stand alone, numbers as literals that may lie beyond the
doubles, members in their order and as often as they occur. `Node.value?` gives the tree that a
node denotes, `Json.parse?` the tree of a text.
-/

namespace FlowAccess.Json

open Text

/-! ## Tokens -/

inductive Token where
  | openArray
  | closeArray
  | openObject
  | closeObject
  | comma
  | colon
  /-- A run of other characters: a name or a number. -/
  | word (cs : List Char)
  /-- A string, as the code points and surrogates it holds. -/
  | string (units : List Nat)
  deriving DecidableEq

def isBlank (c : Char) : Bool := c = ' ' || c = '\n' || c = '\r' || c = '\t'

/-- The token of a character that is one by itself. -/
def punctuation? : Char → Option Token
  | '[' => some .openArray
  | ']' => some .closeArray
  | '\x7b' => some .openObject
  | '\x7d' => some .closeObject
  | ',' => some .comma
  | ':' => some .colon
  | _ => none

/-- The number of four hexadecimal digits. -/
def hex4? (a b c d : Char) : Option Nat := do
  return 4096 * (← Hex.digit? a) + 256 * (← Hex.digit? b) + 16 * (← Hex.digit? c) + (← Hex.digit? d)

/-- What a character after a backslash stands for. -/
def unescape? : Char → Option Nat
  | '"' => some '"'.toNat
  | '\\' => some '\\'.toNat
  | '/' => some '/'.toNat
  | 'b' => some 8
  | 'f' => some 12
  | 'n' => some 10
  | 'r' => some 13
  | 't' => some 9
  | _ => none

/-- Where the scanner stands. What it has read of a word or a string is in reverse. -/
inductive Mode where
  | outside
  | word (read : List Char)
  | string (read : List Nat)

/-- Cuts a text into tokens. A word ends at a blank, a quote, a punctuation mark or the end. -/
def scan : Mode → List Char → Option (List Token)
  | .outside, [] => some []
  | .word read, [] => some [.word read.reverse]
  | .string _, [] => none
  | .outside, c :: cs =>
    if isBlank c then scan .outside cs
    else if c = '"' then scan (.string []) cs
    else match punctuation? c with
      | some t => (scan .outside cs).map (t :: ·)
      | none => scan (.word [c]) cs
  | .word read, c :: cs =>
    if isBlank c then (scan .outside cs).map (.word read.reverse :: ·)
    else if c = '"' then (scan (.string []) cs).map (.word read.reverse :: ·)
    else match punctuation? c with
      | some t => (scan .outside cs).map (fun ts => .word read.reverse :: t :: ts)
      | none => scan (.word (c :: read)) cs
  | .string read, '"' :: cs => (scan .outside cs).map (.string read.reverse :: ·)
  | .string read, '\\' :: 'u' :: a :: b :: c :: d :: cs => do
    scan (.string ((← hex4? a b c d) :: read)) cs
  | .string read, '\\' :: c :: cs => do
    scan (.string ((← unescape? c) :: read)) cs
  | .string read, c :: cs =>
    if c = '\\' ∨ c.toNat < 0x20 then none else scan (.string (c.toNat :: read)) cs

/-! ## Nodes -/

/-- What a JSON text holds, as it was written. -/
inductive Node where
  | null
  | bool (b : Bool)
  | number (literal : Literal)
  | string (units : List Nat)
  | array (items : List Node)
  | object (members : List (List Nat × Node))
  deriving Inhabited

/-- The value of a word. -/
def Node.ofWord? (cs : List Char) : Option Node :=
  if cs = "null".toList then some .null
  else if cs = "true".toList then some (.bool true)
  else if cs = "false".toList then some (.bool false)
  else (Literal.ofChars? cs).map .number

/-- A container that is still open, with what it holds so far in reverse. -/
inductive Frame where
  | items (read : List Node)
  | members (read : List (List Nat × Node))
  /-- An object whose last member has a name but no value yet. -/
  | member (read : List (List Nat × Node)) (name : List Nat)

/-- What may come next. -/
inductive Expect where
  | value
  /-- The first item of an array, or its end. -/
  | valueOrClose
  | name
  /-- The first name of an object, or its end. -/
  | nameOrClose
  | colon
  /-- A comma or the end of the innermost container. -/
  | separator
  /-- Nothing: the value is complete. -/
  | done (node : Node)

/-- A point in the reading of a text: the open containers, innermost first. -/
structure Reading where
  stack : List Frame
  expect : Expect

/-- A complete value is put into the innermost open container. -/
def Reading.complete (node : Node) : List Frame → Option Reading
  | [] => some ⟨[], .done node⟩
  | .items read :: stack => some ⟨.items (node :: read) :: stack, .separator⟩
  | .member read name :: stack => some ⟨.members ((name, node) :: read) :: stack, .separator⟩
  | .members _ :: _ => none

/-- The start of a value. -/
def Reading.begin (stack : List Frame) : Token → Option Reading
  | .openArray => some ⟨.items [] :: stack, .valueOrClose⟩
  | .openObject => some ⟨.members [] :: stack, .nameOrClose⟩
  | .string units => complete (.string units) stack
  | .word cs => (Node.ofWord? cs).bind (complete · stack)
  | _ => none

/-- The end of the innermost container. -/
def Reading.close : Token → List Frame → Option Reading
  | .closeArray, .items read :: stack => complete (.array read.reverse) stack
  | .closeObject, .members read :: stack => complete (.object read.reverse) stack
  | _, _ => none

def Reading.step (r : Reading) (t : Token) : Option Reading :=
  match r.expect, r.stack, t with
  | .value, stack, t => begin stack t
  | .valueOrClose, stack, .closeArray => close .closeArray stack
  | .valueOrClose, stack, t => begin stack t
  | .name, .members read :: stack, .string name => some ⟨.member read name :: stack, .colon⟩
  | .nameOrClose, .members read :: stack, .string name => some ⟨.member read name :: stack, .colon⟩
  | .nameOrClose, stack, .closeObject => close .closeObject stack
  | .colon, stack, .colon => some ⟨stack, .value⟩
  | .separator, .items read :: stack, .comma => some ⟨.items read :: stack, .value⟩
  | .separator, .members read :: stack, .comma => some ⟨.members read :: stack, .name⟩
  | .separator, stack, t => close t stack
  | _, _, _ => none

def Reading.run (r : Reading) : List Token → Option Reading
  | [] => some r
  | t :: ts => (r.step t).bind (run · ts)

/-- The node of a list of tokens that spells one value. -/
def Node.ofTokens? (ts : List Token) : Option Node :=
  match Reading.run ⟨[], .value⟩ ts with
  | some ⟨_, .done node⟩ => some node
  | _ => none

/-- The node of a text. -/
def Node.parse? (text : String) : Option Node :=
  (scan .outside text.toList).bind Node.ofTokens?

/-! ## Meaning -/

/-- The characters of code points; the halves of a surrogate pair must stand together. -/
def charsOfUnits? : List Nat → Option (List Char)
  | [] => some []
  | hi :: rest =>
    if 0xD800 ≤ hi ∧ hi < 0xDC00 then
      match rest with
      | lo :: rest =>
        if 0xDC00 ≤ lo ∧ lo < 0xE000 then
          (charsOfUnits? rest).map
            (Char.ofNat (0x10000 + (hi - 0xD800) * 0x400 + (lo - 0xDC00)) :: ·)
        else none
      | [] => none
    else if 0xDC00 ≤ hi ∧ hi < 0xE000 then none
    else (charsOfUnits? rest).map (Char.ofNat hi :: ·)

/-- The string that code points spell. -/
def stringOfUnits? (units : List Nat) : Option String := (charsOfUnits? units).map String.ofList

mutual

/-- The tree that a node denotes: every string and number has a meaning, and the last member of
a name counts. -/
def Node.tree? : Node → Option Json
  | .null => some .null
  | .bool b => some (.bool b)
  | .number l => l.number?.map .number
  | .string units => (stringOfUnits? units).map .string
  | .array items => (Node.items? items).map .array
  | .object members => (Node.members? members).map .ofMembers

def Node.items? : List Node → Option (List Json)
  | [] => some []
  | node :: rest => do return (← node.tree?) :: (← Node.items? rest)

def Node.members? : List (List Nat × Node) → Option (List (String × Json))
  | [] => some []
  | (name, node) :: rest => do
    return (← stringOfUnits? name, ← node.tree?) :: (← Node.members? rest)

end

mutual

/-- The number of containers around the most deeply nested leaf. -/
def Node.depth : Node → Nat
  | .array items => Node.depthItems items + 1
  | .object members => Node.depthMembers members + 1
  | _ => 0

def Node.depthItems : List Node → Nat
  | [] => 0
  | node :: rest => max node.depth (Node.depthItems rest)

def Node.depthMembers : List (List Nat × Node) → Nat
  | [] => 0
  | (_, node) :: rest => max node.depth (Node.depthMembers rest)

end

/-- The most containers that may be nested in a text. -/
def maxDepth : Nat := 127

/-- The tree of a text. -/
def parse? (text : String) : Option Json := do
  let node ← Node.parse? text
  if node.depth ≤ maxDepth then node.tree? else none

end FlowAccess.Json
