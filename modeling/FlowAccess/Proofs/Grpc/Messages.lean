import FlowAccess.Grpc.Message.Account
import FlowAccess.Grpc.Message.Execution
import FlowAccess.Grpc.Message.Node
import FlowAccess.Proofs.Protobuf.Messages

/-!
# The messages of an access node read back

Every message that carries a domain value is lawful. A message of one level holds no others; a
message of two holds messages of one.
-/

namespace FlowAccess.Grpc

open Protobuf

/-! ## Blocks and collections -/

instance : LawfulMessage Timestamp 1 where
  plain m := by simp (disch := decide) [Message.records]
  ofFields?_records m _ _ _ := by simp [Message.ofFields?, Message.records]

instance : LawfulMessage BlockHeader 2 where
  plain m := by simp (disch := decide) [Message.records]
  ofFields?_records m _ hr hf := by
    simp only [Message.records, allFit_append] at hf
    simp [Message.ofFields?, Message.records, hr, hf]

instance : LawfulMessage CollectionGuarantee 1 where
  plain m := by simp (disch := decide) [Message.records]
  ofFields?_records m _ _ _ := by simp [Message.ofFields?, Message.records]

instance : LawfulMessage BlockSeal 1 where
  plain m := by simp (disch := decide) [Message.records]
  ofFields?_records m _ _ _ := by simp [Message.ofFields?, Message.records]

instance : LawfulMessage Block 2 where
  plain m := by simp (disch := decide) [Message.records]
  ofFields?_records m _ hr hf := by
    simp only [Message.records, allFit_append] at hf
    simp [Message.ofFields?, Message.records, hr, hf]

instance : LawfulMessage Collection 1 where
  plain m := by simp (disch := decide) [Message.records]
  ofFields?_records m _ _ _ := by simp [Message.ofFields?, Message.records]

/-! ## Transactions and events -/

instance : LawfulMessage ProposalKey 1 where
  plain m := by simp (disch := decide) [Message.records]
  ofFields?_records m _ _ _ := by simp [Message.ofFields?, Message.records]

instance : LawfulMessage Signature 1 where
  plain m := by simp (disch := decide) [Message.records]
  ofFields?_records m _ _ _ := by simp [Message.ofFields?, Message.records]

instance : LawfulMessage Transaction 2 where
  plain m := by simp (disch := decide) [Message.records]
  ofFields?_records m _ hr hf := by
    simp only [Message.records, allFit_append] at hf
    simp [Message.ofFields?, Message.records, hr, hf]

instance : LawfulMessage Event 1 where
  plain m := by simp (disch := decide) [Message.records]
  ofFields?_records m _ _ _ := by simp [Message.ofFields?, Message.records]

instance : LawfulMessage BlockEvents 2 where
  plain m := by simp (disch := decide) [Message.records]
  ofFields?_records m _ hr hf := by
    simp only [Message.records, allFit_append] at hf
    simp [Message.ofFields?, Message.records, hr, hf]

instance : LawfulMessage TransactionResult 2 where
  plain m := by simp (disch := decide) [Message.records]
  ofFields?_records m _ hr hf := by
    simp only [Message.records, allFit_append] at hf
    simp [Message.ofFields?, Message.records, hr, hf]

/-! ## Accounts -/

instance : LawfulMessage AccountKey 1 where
  plain m := by simp (disch := decide) [Message.records]
  ofFields?_records m _ _ _ := by simp [Message.ofFields?, Message.records]

instance : LawfulMessage ContractEntry 1 where
  plain m := by simp (disch := decide) [Message.records]
  ofFields?_records m _ _ _ := by simp [Message.ofFields?, Message.records]

instance : LawfulMessage Account 2 where
  plain m := by simp (disch := decide) [Message.records, Account.ownRecords]
  ofFields?_records m _ hr hf := by
    simp only [Message.records, Account.ownRecords, allFit_append] at hf
    simp [Message.ofFields?, Message.records, Account.ownRecords, hr, hf]

/-! ## Execution results and nodes -/

instance : LawfulMessage ServiceEvent 1 where
  plain m := by simp (disch := decide) [Message.records]
  ofFields?_records m _ _ _ := by simp [Message.ofFields?, Message.records]

instance : LawfulMessage Chunk 1 where
  plain m := by simp (disch := decide) [Message.records]
  ofFields?_records m _ _ _ := by simp [Message.ofFields?, Message.records]

instance : LawfulMessage ExecutionResult 2 where
  plain m := by simp (disch := decide) [Message.records]
  ofFields?_records m _ hr hf := by
    simp only [Message.records, allFit_append] at hf
    simp [Message.ofFields?, Message.records, hr, hf]

instance : LawfulMessage NodeVersionInfo 1 where
  plain m := by simp (disch := decide) [Message.records]
  ofFields?_records m _ _ _ := by simp [Message.ofFields?, Message.records]

/-! ## Execution data -/

instance : LawfulMessage KeyPart 1 where
  plain m := by simp (disch := decide) [Message.records]
  ofFields?_records m _ _ _ := by simp [Message.ofFields?, Message.records]

instance : LawfulMessage Payload 2 where
  plain m := by simp (disch := decide) [Message.records]
  ofFields?_records m _ hr hf := by
    simp only [Message.records, allFit_append] at hf
    simp [Message.ofFields?, Message.records, hr, hf]

instance : LawfulMessage TrieUpdate 3 where
  plain m := by simp (disch := decide) [Message.records]
  ofFields?_records m _ hr hf := by
    simp only [Message.records, allFit_append] at hf
    simp [Message.ofFields?, Message.records, hr, hf]

instance : LawfulMessage LightResult 1 where
  plain m := by simp (disch := decide) [Message.records]
  ofFields?_records m _ _ _ := by simp [Message.ofFields?, Message.records]

instance : LawfulMessage ChunkCollection 3 where
  plain m := by simp (disch := decide) [Message.records]
  ofFields?_records m _ hr hf := by
    simp only [Message.records] at hf
    simp [Message.ofFields?, Message.records, hr, hf]

instance : LawfulMessage ChunkExecutionData 4 where
  plain m := by simp (disch := decide) [Message.records]
  ofFields?_records m room hr hf := by
    have hroom : 2 ≤ room := by omega
    simp only [Message.records, allFit_append] at hf
    simp [Message.ofFields?, Message.records, hr, hroom, hf]

instance : LawfulMessage ExecutionData 5 where
  plain m := by simp (disch := decide) [Message.records]
  ofFields?_records m _ hr hf := by
    simp only [Message.records, allFit_append] at hf
    simp [Message.ofFields?, Message.records, hr, hf]

instance : LawfulMessage SubscribedExecutionData 6 where
  plain m := by simp (disch := decide) [Message.records]
  ofFields?_records m room hr hf := by
    have hroom : 2 ≤ room := by omega
    simp only [Message.records, allFit_append] at hf
    simp [Message.ofFields?, Message.records, hr, hroom, hf]

end FlowAccess.Grpc
