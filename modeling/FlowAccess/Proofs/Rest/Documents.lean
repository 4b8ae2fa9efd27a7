import FlowAccess.Proofs.Codec
import FlowAccess.Proofs.Json.Documents
import FlowAccess.Rest.Document.Account
import FlowAccess.Rest.Document.Execution
import FlowAccess.Rest.Document.Node
import FlowAccess.Rest.Document.Transaction

/-!
# The documents of an access node read back

Every document that carries a domain value is lawful.
-/

namespace FlowAccess.Rest

open Json

/-! ## Blocks and collections -/

instance : LawfulDocument BlockHeader where
  plain d := plain_ofMembers (by simp)
  isNull_node _ := rfl
  ofNode?_node d := ofNode?_bind (by simp (disch := decide) [Entries.ofList])

instance : LawfulDocument CollectionGuarantee where
  plain d := plain_ofMembers (by simp)
  isNull_node _ := rfl
  ofNode?_node d := ofNode?_bind (by simp (disch := decide) [Entries.ofList])

instance : LawfulDocument BlockSeal where
  plain d := plain_ofMembers (by simp)
  isNull_node _ := rfl
  ofNode?_node d := ofNode?_bind (by simp (disch := decide) [Entries.ofList])

instance : LawfulDocument BlockPayload where
  plain d := plain_ofMembers (by simp)
  isNull_node _ := rfl
  ofNode?_node d := ofNode?_bind (by simp (disch := decide) [Entries.ofList])

instance : LawfulDocument Block where
  plain d := plain_ofMembers (by cases d.payload <;> simp)
  isNull_node _ := rfl
  ofNode?_node d := ofNode?_bind (by
    obtain ⟨header, payload⟩ := d
    cases payload <;> simp (disch := decide) [Entries.ofList])

instance : LawfulDocument CollectionTransaction where
  plain d := plain_ofMembers (by simp)
  isNull_node _ := rfl
  ofNode?_node d := ofNode?_bind (by simp (disch := decide) [Entries.ofList])

instance : LawfulDocument Collection where
  plain d := plain_ofMembers (by simp)
  isNull_node _ := rfl
  ofNode?_node d := ofNode?_bind (by simp (disch := decide) [Entries.ofList])

/-! ## Transactions and events -/

instance : LawfulDocument ProposalKey where
  plain d := plain_ofMembers (by simp)
  isNull_node _ := rfl
  ofNode?_node d := ofNode?_bind (by simp (disch := decide) [Entries.ofList])

instance : LawfulDocument Signature where
  plain d := plain_ofMembers (by simp)
  isNull_node _ := rfl
  ofNode?_node d := ofNode?_bind (by simp (disch := decide) [Entries.ofList])

instance : LawfulDocument Transaction where
  plain d := plain_ofMembers (by
    cases d.id <;> cases d.proposalKey <;> simp)
  isNull_node _ := rfl
  ofNode?_node d := ofNode?_bind (by
    obtain ⟨id, _, _, _, _, _, proposalKey⟩ := d
    cases id <;> cases proposalKey <;> simp (disch := decide) [Entries.ofList])

instance : LawfulDocument Event where
  plain d := plain_ofMembers (by simp)
  isNull_node _ := rfl
  ofNode?_node d := ofNode?_bind (by simp (disch := decide) [Entries.ofList])

instance : LawfulDocument BlockEvents where
  plain d := plain_ofMembers (by simp)
  isNull_node _ := rfl
  ofNode?_node d := ofNode?_bind (by simp (disch := decide) [Entries.ofList])

instance : LawfulDocument TransactionResult where
  plain d := plain_ofMembers (by cases d.execution <;> simp)
  isNull_node _ := rfl
  ofNode?_node d := ofNode?_bind (by
    obtain ⟨_, _, execution⟩ := d
    cases execution <;> simp (disch := decide) [Entries.ofList])

/-! ## Accounts -/

instance : LawfulDocument AccountKey where
  plain d := plain_ofMembers (by simp)
  isNull_node _ := rfl
  ofNode?_node d := ofNode?_bind (by simp (disch := decide) [Entries.ofList])

/-- Contracts are an object of strings. -/
@[simp] theorem plain_contracts (cs : Contracts String) :
    (ofMembers (cs.map Json.string).entries).Plain :=
  plain_ofMembers (List.forall_mem_map.2 fun _ _ => trivial)

@[simp] theorem entries?_contracts (cs : Contracts String) :
    (node (ofMembers (cs.map Json.string).entries)).entries? Node.string? = some cs.entries := by
  rw [ofMembers_of_pairwise (cs.map Json.string).ordered]
  exact (entries?_node string?_node cs.entries).trans (congrArg some (List.map_id _))

instance : LawfulDocument Account where
  plain d := plain_ofMembers (by simp)
  isNull_node _ := rfl
  ofNode?_node d := ofNode?_bind (by simp (disch := decide) [Entries.ofList])

/-! ## Execution results and nodes -/

instance : LawfulDocument Chunk where
  plain d := plain_ofMembers (by simp)
  isNull_node _ := rfl
  ofNode?_node d := ofNode?_bind (by simp (disch := decide) [Entries.ofList])

instance : LawfulDocument ExecutionResult where
  plain d := plain_ofMembers (by simp)
  isNull_node _ := rfl
  ofNode?_node d := ofNode?_bind (by simp (disch := decide) [Entries.ofList])

instance : LawfulDocument NodeVersionInfo where
  plain d := plain_ofMembers (by simp)
  isNull_node _ := rfl
  ofNode?_node d := ofNode?_bind (by simp (disch := decide) [Entries.ofList])

end FlowAccess.Rest
