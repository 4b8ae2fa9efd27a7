/-!
# Tags of compact messages

A message is a tagged pair of a type and a value, behind a tagged list of type definitions where
it holds composites.
-/

namespace FlowAccess.Cadence.Ccf.Tag

/-- Definitions, then a typed value. -/
def typedefsAndValue : Nat := 129

/-- A type, then a value of it. -/
def typedValue : Nat := 130

/-- A reference to a definition. -/
def reference : Nat := 136

def simple : Nat := 137

def optional : Nat := 138

def array : Nat := 139

def dictionary : Nat := 141

/-- The definition of a struct. -/
def struct : Nat := 160

/-- The definition of an event. -/
def event : Nat := 163

end FlowAccess.Cadence.Ccf.Tag
