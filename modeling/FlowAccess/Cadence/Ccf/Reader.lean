import FlowAccess.Cadence.Ccf.StaticType
import FlowAccess.Cadence.Ccf.Tag
import FlowAccess.Cadence.Ccf.Wide
import FlowAccess.Cadence.Error
import FlowAccess.Cbor

/-!
# Reading compact messages

A reader takes a message apart from front to back, led by the types it has read. Types and values
are nested up to a fixed depth: both readers recurse on the room that is left, which is one more
than the levels that may still follow.
-/

namespace FlowAccess.Cadence.Ccf

/-- A type as a message spells it: simple types by their codes, composite types by the identifiers
of their definitions. -/
inductive InlineType where
  | simple (code : Nat)
  | optional (inner : InlineType)
  | array (element : InlineType)
  | dictionary (key value : InlineType)
  | reference (id : Bytes)
  deriving DecidableEq

/-- A definition as a message spells it. -/
structure Definition where
  id : Bytes
  kind : CompositeKind
  typeId : String
  fields : List (String × InlineType)
  deriving DecidableEq

/-- Takes parts of a message from its front. -/
abbrev Reader := StateT Bytes (Except Error)

namespace Reader

def fail {α : Type} (fault : CcfFault) : Reader α := throw (.malformedCcf fault)

/-- An item of the underlying format. -/
def cbor {α : Type} (read : Cbor.Reader α) : Reader α := fun input =>
  match read input with
  | some result => .ok result
  | none => .error (.malformedCcf .cbor)

/-- The length of an array that states it. -/
def length (part : CcfArray) : Reader Nat := do
  match (← cbor Cbor.Reader.array) with
  | some n => return n
  | none => fail (.indefinite part)

/-- The head of an array of a known length. -/
def array (n : Nat) (part : CcfArray) : Reader Unit := do
  if (← length part) ≠ n then fail (.wrongCount part n)

/-- The tag of a typed value. -/
def typedValue : Reader Unit := do
  let tag ← cbor Cbor.Reader.tag
  if tag ≠ Tag.typedValue then fail (.expectedTypedValue tag)

/-- Reads a number of parts of one form. -/
def many {α : Type} (read : Reader α) : Nat → Reader (List α)
  | 0 => return []
  | n + 1 => do
    let a ← read
    return a :: (← many read n)

end Reader

open Reader

/-- The room at the root. -/
def fullRoom : Nat := maxDepth + 1

def readType : (room : Nat) → Reader InlineType
  | 0 => fail .tooDeep
  | room + 1 => do
    let tag ← cbor Cbor.Reader.tag
    if tag = Tag.simple then return .simple (← cbor Cbor.Reader.unsigned)
    else if tag = Tag.optional then return .optional (← readType room)
    else if tag = Tag.array then return .array (← readType room)
    else if tag = Tag.dictionary then do
      array 2 .dictionaryType
      let key ← readType room
      let value ← readType room
      return .dictionary key value
    else if tag = Tag.reference then return .reference (← cbor Cbor.Reader.bytes)
    else throw (.unsupportedType (.typeTag tag))

/-- A field of a definition. -/
def readField : Reader (String × InlineType) := do
  array 2 .field
  let name ← cbor Cbor.Reader.text
  let type ← readType fullRoom
  return (name, type)

def readDefinition : Reader Definition := do
  let tag ← cbor Cbor.Reader.tag
  let kind ←
    if tag = Tag.struct then pure .struct
    else if tag = Tag.event then pure .event
    else throw (.unsupportedType (.typedefTag tag))
  array 3 .typedef
  let id ← cbor Cbor.Reader.bytes
  let typeId ← cbor Cbor.Reader.text
  let fields ← many readField (← length .typedefFields)
  return { id, kind, typeId, fields }

/-- The tag and the magnitude of a bignum. -/
def readBignum : Reader (Nat × Wide) := do
  let tag ← cbor Cbor.Reader.tag
  if tag ≠ Cbor.positiveBignum ∧ tag ≠ Cbor.negativeBignum then fail (.expectedInteger tag)
  else
    let bytes ← cbor Cbor.Reader.bytes
    if 16 < bytes.length then fail .wideBignum else return (tag, .ofBytes bytes)

/-- The number with a sign that a bignum is, if it is one. -/
def signedBignum? (tag : Nat) (magnitude : Wide) : Option Wide := do
  let n ← magnitude.signed?
  if tag = Cbor.positiveBignum then return n else Wide.sub? (-1) n

/-- An integer of at most 128 bits with a sign. -/
def readInteger : Reader Int := do
  if (← cbor Cbor.Reader.nextIsTag) then
    let (tag, magnitude) ← readBignum
    match signedBignum? tag magnitude with
    | some n => return n.toInt
    | none => fail .wideInteger
  else cbor Cbor.Reader.integer

/-- An integer of at most 128 bits without a sign. -/
def readNatural : Reader Int := do
  if (← cbor Cbor.Reader.nextIsTag) then
    let (tag, magnitude) ← readBignum
    if tag = Cbor.positiveBignum then return magnitude.toNat else fail .negative
  else
    let n ← cbor Cbor.Reader.integer
    if n < 0 then fail .negative else return n

/-- Whether a kind holds all of the 128-bit numbers without a sign. -/
def isNatural : NumberKind → Bool
  | .uint | .uint128 => true
  | _ => false

/-- A number of a kind. -/
def readNumber (k : NumberKind) : Reader Number := do
  let n ← if isNatural k then readNatural else readInteger
  match Number.ofInt? k n with
  | some n => return n
  | none => throw (.outOfRange n k)

def readAddress : Reader Address := do
  match Octets.ofBytes? 8 (← cbor Cbor.Reader.bytes) with
  | some a => return a
  | none => fail .addressLength

/-- A value of a simple type that has values of its own. -/
def readSimple (code : Nat) : Reader Value :=
  match SimpleType.ofCode? code with
  | some .void => do
    cbor Cbor.Reader.null
    return .void
  | some .bool => return .bool (← cbor Cbor.Reader.bool)
  | some .string => return .string (← cbor Cbor.Reader.text)
  | some .character => return .character (← cbor Cbor.Reader.text)
  | some .address => return .address (← readAddress)
  | some (.number k) => return .number (← readNumber k)
  | some .anyStruct | some .never | none => throw (.unsupportedType (.simpleType code))

/-- One part for each member of a list. -/
def eachOf {α β γ : Type} (read : β → Reader γ) : List (α × β) → Reader (List (α × γ))
  | [] => return []
  | (a, b) :: rest => do
    let c ← read b
    return (a, c) :: (← eachOf read rest)

/-- A value of a type. -/
def readValue (defs : List Definition) : (room : Nat) → InlineType → Reader Value
  | 0, _ => fail .tooDeep
  | room + 1, .simple code => do
    if code = SimpleType.anyStruct.code then
      typedValue
      array 2 .typedValue
      let type ← readType room
      readValue defs room type
    else readSimple code
  | room + 1, .optional inner => do
    if (← cbor Cbor.Reader.nextIsNull) then
      cbor Cbor.Reader.null
      return .absent
    else return .present (← readValue defs room inner)
  | room + 1, .array element => do
    let n ← length .array
    return .array (← many (readValue defs room element) n)
  | room + 1, .dictionary key value => do
    let n ← length .dictionary
    if n % 2 ≠ 0 then fail .danglingKey
    else
      let entry := do
        let k ← readValue defs room key
        let v ← readValue defs room value
        return (k, v)
      return .dictionary (← many entry (n / 2))
  | room + 1, .reference id => do
    match defs.find? (·.id = id) with
    | none => fail .unknownReference
    | some d =>
      let n ← length .composite
      if n ≠ d.fields.length then fail (.fieldCount d.typeId d.fields.length)
      else return .composite d.kind d.typeId (← eachOf (readValue defs room) d.fields)

/-- The definitions and the start of the value of a message. -/
def readDefinitions : Reader (List Definition) := do
  let tag ← cbor Cbor.Reader.tag
  if tag = Tag.typedefsAndValue then do
    array 2 .message
    let defs ← many readDefinition (← length .typedefs)
    typedValue
    return defs
  else if tag = Tag.typedValue then return []
  else fail (.expectedTypedValue tag)

/-- A whole message. -/
def readMessage : Reader Value := do
  let defs ← readDefinitions
  array 2 .typedValue
  let type ← readType fullRoom
  readValue defs fullRoom type

/-- The value of a message, which has nothing behind it. -/
def decode (message : Bytes) : Except Error Value :=
  match readMessage message with
  | .ok (v, []) => .ok v
  | .ok (_, _ :: _) => .error (.malformedCcf .trailingBytes)
  | .error e => .error e

end FlowAccess.Cadence.Ccf
