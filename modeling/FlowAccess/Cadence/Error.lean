import FlowAccess.Cadence.Number
import FlowAccess.Text.Quoted

/-!
# Errors of the value encodings

Each constructor is a cause; the wording of all of them stands in the `message` functions.
-/

namespace FlowAccess.Cadence

open Text

/-! ## Compact encoding -/

/-- The arrays of a compact message, as its errors name them. -/
inductive CcfArray where
  | message
  | typedValue
  | typedefs
  | typedef
  | typedefFields
  | field
  | dictionaryType
  | array
  | dictionary
  | composite
  deriving DecidableEq

def CcfArray.name : CcfArray → String
  | .message => "typedef-and-value"
  | .typedValue => "type-and-value"
  | .typedefs => "typedefs"
  | .typedef => "typedef"
  | .typedefFields => "typedef fields"
  | .field => "field"
  | .dictionaryType => "dictionary type"
  | .array => "array value"
  | .dictionary => "dictionary value"
  | .composite => "composite value"

/-- What can be wrong with a compact message, or with a value that has none. -/
inductive CcfFault where
  /-- The bytes are no CBOR item of the kind that is due. -/
  | cbor
  | expectedTypedValue (tag : Nat)
  | expectedInteger (tag : Nat)
  | indefinite (part : CcfArray)
  | wrongCount (part : CcfArray) (expected : Nat)
  | tooDeep
  | trailingBytes
  | danglingKey
  | unknownReference
  | fieldCount (typeId : String) (expected : Nat)
  | addressLength
  | wideBignum
  | wideInteger
  | negative
  /-- Two instances of one type have different numbers of fields. -/
  | unequalInstances (typeId : String)
  | noTypedef (typeId : String)
  | optionalType
  | arrayType
  | dictionaryType
  deriving DecidableEq

/-- The deepest nesting of a compact message. -/
def Ccf.maxDepth : Nat := 64

def CcfFault.message : CcfFault → String
  | .cbor => "<cbor>"
  | .expectedTypedValue tag => "expected type-and-value, found tag " ++ Numeral.ofNat tag
  | .expectedInteger tag => "expected an integer, found tag " ++ Numeral.ofNat tag
  | .indefinite a => a.name ++ " must have a definite length"
  | .wrongCount a expected => a.name ++ " must have " ++ Numeral.ofNat expected ++ " elements"
  | .tooDeep => "nesting deeper than " ++ Numeral.ofNat Ccf.maxDepth
  | .trailingBytes => "trailing bytes after message"
  | .danglingKey => "dictionary value has a dangling key"
  | .unknownReference => "unknown type reference"
  | .fieldCount typeId expected =>
    typeId ++ " expects " ++ Numeral.ofNat expected ++ " fields"
  | .addressLength => "address must be 8 bytes"
  | .wideBignum => "bignum wider than 128 bits"
  | .wideInteger => "integer exceeds 128 bits"
  | .negative => "expected a non-negative integer"
  | .unequalInstances typeId => "instances of " ++ typeId ++ " disagree on their fields"
  | .noTypedef typeId => "no typedef for " ++ typeId
  | .optionalType => "optional without optional type"
  | .arrayType => "array without array type"
  | .dictionaryType => "dictionary without dictionary type"

/-! ## JSON encoding -/

/-- What can be wrong with a JSON payload. -/
inductive JsonCdcFault where
  /-- The bytes are no JSON text. -/
  | json
  | expectedObject
  | missingType
  | voidWithValue
  | missingValue (kind : String)
  | notString (kind : String)
  | notArray (kind : String)
  | entryWithoutKey
  | entryWithoutValue
  | compositeNotObject
  | compositeWithoutId
  | compositeWithoutFields
  | fieldWithoutName
  | fieldWithoutValue (name : String)
  deriving DecidableEq

def JsonCdcFault.message : JsonCdcFault → String
  | .json => "<json>"
  | .expectedObject => "expected an object"
  | .missingType => "missing \"type\""
  | .voidWithValue => "Void must not carry a value"
  | .missingValue kind => kind ++ " is missing \"value\""
  | .notString kind => kind ++ " value must be a string"
  | .notArray kind => kind ++ " value must be an array"
  | .entryWithoutKey => "dictionary entry without key"
  | .entryWithoutValue => "dictionary entry without value"
  | .compositeNotObject => "composite value must be an object"
  | .compositeWithoutId => "composite without id"
  | .compositeWithoutFields => "composite without fields"
  | .fieldWithoutName => "field without name"
  | .fieldWithoutValue name => "field " ++ name ++ " without value"

/-! ## Both -/

/-- A type that has no counterpart among the values. -/
inductive UnsupportedType where
  | typedefTag (tag : Nat)
  | typeTag (tag : Nat)
  | simpleType (code : Nat)
  | kind (name : String)
  deriving DecidableEq

def UnsupportedType.name : UnsupportedType → String
  | .typedefTag tag => "composite typedef tag " ++ Numeral.ofNat tag
  | .typeTag tag => "inline type tag " ++ Numeral.ofNat tag
  | .simpleType code => "simple type " ++ Numeral.ofNat code
  | .kind name => name

/-- A kind of values that are spelled by a literal. -/
inductive LiteralKind where
  | bool
  | character
  | address
  | number (kind : NumberKind)
  deriving DecidableEq

def LiteralKind.name : LiteralKind → String
  | .bool => "Bool"
  | .character => "Character"
  | .address => "Address"
  | .number k => k.name

/-- Why a value cannot be written or read. -/
inductive Error where
  | malformedCcf (fault : CcfFault)
  | malformedJsonCdc (fault : JsonCdcFault)
  | unsupportedType (type : UnsupportedType)
  | invalidLiteral (kind : LiteralKind) (literal : String)
  | outOfRange (value : Int) (kind : NumberKind)
  deriving DecidableEq

def Error.message : Error → String
  | .malformedCcf fault => "malformed CCF payload: " ++ fault.message
  | .malformedJsonCdc fault => "malformed JSON-CDC payload: " ++ fault.message
  | .unsupportedType type => "unsupported type " ++ type.name
  | .invalidLiteral kind literal => "invalid " ++ kind.name ++ " literal " ++ Quoted.quote literal
  | .outOfRange value kind =>
    "value " ++ Numeral.ofInt value ++ " does not fit the " ++ kind.name ++ " encoding"

end FlowAccess.Cadence
