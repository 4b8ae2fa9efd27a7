import FlowAccess.Cadence.Ccf.StaticType
import FlowAccess.Cadence.Ccf.Tag
import FlowAccess.Cadence.Ccf.Wide
import FlowAccess.Cadence.Error
import FlowAccess.Cbor

/-!
# Writing compact messages

The type of the whole value comes first, so values carry no types of their own; only where the
declared type is `AnyStruct` does a value stand in a typed pair again. A present optional is
written as the value it holds and an empty one as null.
-/

namespace FlowAccess.Cadence.Ccf

/-- The identifier of a definition: its place in minimal bytes. -/
def typedefId (index : Nat) : Bytes := Bytes.minimal index

def arrayHead (length : Nat) : Bytes := Cbor.head .array length

def tagHead (tag : Nat) : Bytes := Cbor.head .tag tag

/-- A type where it is declared. -/
def encodeType (defs : Typedefs) : StaticType → Except Error Bytes
  | .simple t => return tagHead Tag.simple ++ Cbor.head .unsigned t.code
  | .optional t => return tagHead Tag.optional ++ (← encodeType defs t)
  | .array t => return tagHead Tag.array ++ (← encodeType defs t)
  | .dictionary k v => do
    let k ← encodeType defs k
    let v ← encodeType defs v
    return tagHead Tag.dictionary ++ arrayHead 2 ++ k ++ v
  | .composite typeId =>
    match defs.index? typeId with
    | some i => return tagHead Tag.reference ++ Cbor.bytes (typedefId i)
    | none => throw (.malformedCcf (.noTypedef typeId))

/-- What stands before a value of a declared type, and the type that the value is then written
as: its own under `AnyStruct`, and the declared one elsewhere. -/
def declare (defs : Typedefs) (declared : StaticType) (v : Value) :
    Except Error (Bytes × StaticType) :=
  if declared = StaticType.any then do
    let own := StaticType.of v
    return (tagHead Tag.typedValue ++ arrayHead 2 ++ (← encodeType defs own), own)
  else return ([], declared)

/-- A number with a sign. The bignum of a negative one holds `-1 - n`. -/
def signedInteger (w : Wide) : Bytes :=
  if Cbor.isPlain w.toInt then Cbor.plain w.toInt
  else if w.slt 0 then Cbor.bignum Cbor.negativeBignum (-(w + 1)).toNat
  else Cbor.bignum Cbor.positiveBignum w.toNat

/-- A number without a sign. -/
def unsignedInteger (w : Wide) : Bytes :=
  if Cbor.isPlain w.toNat then Cbor.plain w.toNat else Cbor.bignum Cbor.positiveBignum w.toNat

def encodeNumber (n : Number) : Bytes :=
  if n.kind.signed then signedInteger (.ofInt 128 n.raw) else unsignedInteger (.ofInt 128 n.raw)

mutual

/-- A value of a type, without the type. -/
def encodeValue (defs : Typedefs) (type : StaticType) : Value → Except Error Bytes
  | .void | .absent => return Cbor.null
  | .present v =>
    match type with
    | .optional t => do
      let (start, t) ← declare defs t v
      return start ++ (← encodeValue defs t v)
    | _ => throw (.malformedCcf .optionalType)
  | .bool b => return Cbor.bool b
  | .string s | .character s => return Cbor.text s
  | .address a => return Cbor.bytes a.bytes
  | .number n => return encodeNumber n
  | .array items =>
    match type with
    | .array t => return arrayHead items.length ++ (← encodeItems defs t items)
    | _ => throw (.malformedCcf .arrayType)
  | .dictionary entries =>
    match type with
    | .dictionary k v => return arrayHead (2 * entries.length) ++ (← encodeEntries defs k v entries)
    | _ => throw (.malformedCcf .dictionaryType)
  | .composite _ typeId fields =>
    match defs.find? typeId with
    | none => throw (.malformedCcf (.noTypedef typeId))
    | some d =>
      if d.fields.length ≠ fields.length then throw (.malformedCcf (.unequalInstances typeId))
      else return arrayHead fields.length ++ (← encodeFields defs (d.fields.map (·.2)) fields)

def encodeItems (defs : Typedefs) (type : StaticType) : List Value → Except Error Bytes
  | [] => return []
  | v :: rest => do
    let (start, t) ← declare defs type v
    let v ← encodeValue defs t v
    return start ++ v ++ (← encodeItems defs type rest)

def encodeEntries (defs : Typedefs) (keyType valueType : StaticType) :
    List (Value × Value) → Except Error Bytes
  | [] => return []
  | (k, v) :: rest => do
    let (keyStart, kt) ← declare defs keyType k
    let k ← encodeValue defs kt k
    let (valueStart, vt) ← declare defs valueType v
    let v ← encodeValue defs vt v
    return keyStart ++ k ++ valueStart ++ v ++ (← encodeEntries defs keyType valueType rest)

def encodeFields (defs : Typedefs) (types : List StaticType) :
    List (String × Value) → Except Error Bytes
  | [] => return []
  | (_, v) :: rest => do
    match types with
    | [] => return []
    | type :: types =>
      let (start, t) ← declare defs type v
      let v ← encodeValue defs t v
      return start ++ v ++ (← encodeFields defs types rest)

end

/-- The declared fields of a definition. -/
def encodeFieldTypes (defs : Typedefs) : List (String × StaticType) → Except Error Bytes
  | [] => return []
  | (name, t) :: rest => do
    let t ← encodeType defs t
    return arrayHead 2 ++ Cbor.text name ++ t ++ (← encodeFieldTypes defs rest)

/-- The tag of a definition. -/
def typedefTag : CompositeKind → Nat
  | .struct => Tag.struct
  | .event => Tag.event

/-- A definition, by its place among all of them. -/
def encodeTypedef (defs : Typedefs) (index : Nat) (d : Typedef) : Except Error Bytes := do
  return tagHead (typedefTag d.kind) ++ arrayHead 3 ++ Cbor.bytes (typedefId index) ++
    Cbor.text d.typeId ++ arrayHead d.fields.length ++ (← encodeFieldTypes defs d.fields)

/-- The definitions of a list that starts at a place. -/
def encodeTypedefs (defs : Typedefs) (index : Nat) : List Typedef → Except Error Bytes
  | [] => return []
  | d :: rest => do
    let d ← encodeTypedef defs index d
    return d ++ (← encodeTypedefs defs (index + 1) rest)

/-- The message of a value. -/
def encode (v : Value) : Except Error Bytes := do
  let defs := Typedefs.collect [] v
  let type := StaticType.of v
  let start ←
    if defs.isEmpty then pure []
    else do
      let typedefs ← encodeTypedefs defs 0 defs
      pure (tagHead Tag.typedefsAndValue ++ arrayHead 2 ++ arrayHead defs.length ++ typedefs)
  let typeBytes ← encodeType defs type
  let valueBytes ← encodeValue defs type v
  return start ++ tagHead Tag.typedValue ++ arrayHead 2 ++ typeBytes ++ valueBytes

end FlowAccess.Cadence.Ccf
