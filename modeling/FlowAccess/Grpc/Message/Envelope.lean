import FlowAccess.Protobuf.Message

/-!
# Envelopes

Most responses hold one thing in their first field, and differ only in what that is.
-/

namespace FlowAccess.Grpc

open Protobuf

/-- A message without fields. -/
structure Acknowledgement where
  deriving DecidableEq, Inhabited

instance : Message Acknowledgement where
  records _ := []
  ofFields? _ := some {}

/-- A message that holds another one, or none. -/
structure Holder (α : Type) where
  content : Option α := none
  deriving DecidableEq, Inhabited

instance {α : Type} [Message α] : Message (Holder α) where
  records m := Record.ofMessage? 1 m.content
  ofFields? fs := return { content := ← fs.message? 1 }

/-- A message that holds a list of messages. -/
structure Listing (α : Type) where
  items : List α := []
  deriving DecidableEq, Inhabited

instance {α : Type} [Message α] : Message (Listing α) where
  records m := Record.ofMessages 1 m.items
  ofFields? fs := return { items := ← fs.messages? 1 }

/-- A message that holds a byte string. -/
structure Blob where
  bytes : Bytes := []
  deriving DecidableEq, Inhabited

instance : Message Blob where
  records m := Record.ofBytes 1 m.bytes
  ofFields? fs := return { bytes := ← fs.bytes? 1 }

/-- A message that holds a string. -/
structure Label where
  text : String := ""
  deriving DecidableEq, Inhabited

instance : Message Label where
  records m := Record.ofString 1 m.text
  ofFields? fs := return { text := ← fs.string? 1 }

end FlowAccess.Grpc
