import FlowAccess.Block
import FlowAccess.Proofs.Cbor
import FlowAccess.Transaction

/-!
# What identifiers are hashes of

Transactions and collections are named by hashes of what is in them. What is hashed of a transaction
is `SelfDelimiting`: each part of it says where it ends, by its length or by being of a fixed one,
so that bytes cannot pass from one part into the next. Two names are the same only for the same
content, or by a collision of the hash function (`content_determined`).
-/

namespace FlowAccess

/-- Two messages that are told apart by their bytes, and not by their hashes. -/
def Sha256.Collision (m n : Bytes) : Prop := m ≠ n ∧ hash m = hash n

theorem Identifier.collision_of_hashOf_eq {m n : Bytes} (hne : m ≠ n) (h : hashOf m = hashOf n) :
    Sha256.Collision m n :=
  ⟨hne, congrArg Octets.bytes h⟩

/-! ## Parts that say where they end -/

/-- What is written of whatever satisfies `p` says where it ends: it can be told from what follows
it, and was written of one thing only. -/
def SelfDelimiting {α : Type} (p : α → Prop) (write : α → Bytes) : Prop :=
  ∀ ⦃a b : α⦄ ⦃rest rest' : Bytes⦄, p a → p b →
    write a ++ rest = write b ++ rest' → a = b ∧ rest = rest'

namespace SelfDelimiting

variable {α : Type} {p : α → Prop} {write : α → Bytes}

theorem eq_of_isPrefix (hw : SelfDelimiting p write) {a b : α} (ha : p a) (hb : p b)
    (h : write a <+: write b) : a = b := by
  obtain ⟨rest, h⟩ := h
  have hnil : write a ++ rest = write b ++ [] := by rw [h, List.append_nil]
  exact (hw ha hb hnil).1

theorem of_length_eq {n : Nat} (hlength : ∀ a, (write a).length = n)
    (hinj : ∀ a b, p a → p b → write a = write b → a = b) : SelfDelimiting p write := by
  intro a b rest rest' ha hb h
  obtain ⟨hwrite, hrest⟩ := List.append_inj h ((hlength a).trans (hlength b).symm)
  exact ⟨hinj a b ha hb hwrite, hrest⟩

theorem ofNat (width : Nat) : SelfDelimiting (· < 256 ^ width) (Bytes.ofNat width) := by
  apply of_length_eq (Bytes.length_ofNat width)
  intro m n hm hn h
  have hmod := congrArg Bytes.toNat h
  rwa [Bytes.toNat_ofNat, Bytes.toNat_ofNat, Nat.mod_eq_of_lt hm, Nat.mod_eq_of_lt hn] at hmod

theorem octets (n : Nat) : SelfDelimiting (fun _ : Octets n => True) (·.bytes) := by
  apply of_length_eq Octets.length_eq
  rintro ⟨bytes, _⟩ ⟨_, _⟩ - - rfl
  rfl

/-- A byte string behind its length. -/
theorem sizedBytes : SelfDelimiting (·.length < 2 ^ 64) Transaction.sizedBytes := by
  intro a b rest rest' ha hb h
  rw [Transaction.sizedBytes, Transaction.sizedBytes, List.append_assoc, List.append_assoc] at h
  obtain ⟨hlength, h⟩ := ofNat 8 ha hb h
  exact List.append_inj h hlength

/-- Items one behind the other, if it is known how many there are. -/
theorem flatMap (hw : SelfDelimiting p write) {as bs : List α} {rest rest' : Bytes}
    (hlength : as.length = bs.length) (ha : ∀ a ∈ as, p a) (hb : ∀ b ∈ bs, p b)
    (h : as.flatMap write ++ rest = bs.flatMap write ++ rest') : as = bs ∧ rest = rest' := by
  induction as generalizing bs with
  | nil =>
    obtain rfl := List.length_eq_zero_iff.1 hlength.symm
    exact ⟨rfl, h⟩
  | cons a as ih =>
    cases bs with
    | nil => cases hlength
    | cons b bs =>
      rw [List.flatMap_cons, List.flatMap_cons, List.append_assoc, List.append_assoc] at h
      obtain ⟨hhead, h⟩ := hw (ha a (.head _)) (hb b (.head _)) h
      obtain ⟨htail, hrest⟩ := ih (Nat.succ.inj hlength) (fun a hm => ha a (.tail _ hm))
        (fun b hm => hb b (.tail _ hm)) h
      exact ⟨by rw [hhead, htail], hrest⟩

/-- A list behind its length. -/
theorem sizedList (hw : SelfDelimiting p write) :
    SelfDelimiting (fun as => as.length < 2 ^ 64 ∧ ∀ a ∈ as, p a)
      (Transaction.sizedList write) := by
  rintro as bs rest rest' ⟨hal, ha⟩ ⟨hbl, hb⟩ h
  rw [Transaction.sizedList, Transaction.sizedList, List.append_assoc, List.append_assoc] at h
  obtain ⟨hlength, h⟩ := ofNat 8 hal hbl h
  exact hw.flatMap hlength ha hb h

end SelfDelimiting

/-! ## Transactions -/

namespace Transaction

/-- The lengths in a transaction are counted by 64 bits. -/
structure LengthsFit (t : Transaction) : Prop where
  script : t.script.length < 2 ^ 64
  arguments : t.arguments.length < 2 ^ 64 ∧ ∀ a ∈ t.arguments, a.length < 2 ^ 64
  authorizers : t.authorizers.length < 2 ^ 64
  payloadSignatures :
    t.payloadSignatures.length < 2 ^ 64 ∧ ∀ s ∈ t.payloadSignatures, s.signature.length < 2 ^ 64
  envelopeSignatures :
    t.envelopeSignatures.length < 2 ^ 64 ∧ ∀ s ∈ t.envelopeSignatures, s.signature.length < 2 ^ 64

theorem selfDelimiting_signatureBytes :
    SelfDelimiting (fun s : Signature => s.signature.length < 2 ^ 64) signatureBytes := by
  rintro ⟨address, keyIndex, signature⟩ ⟨_, keyIndex', _⟩ rest rest' hs hs' h
  simp only [signatureBytes, List.append_assoc] at h
  obtain ⟨haddress, h⟩ := SelfDelimiting.octets 8 trivial trivial h
  obtain ⟨hindex, h⟩ := SelfDelimiting.ofNat 4 keyIndex.toNat_lt keyIndex'.toNat_lt h
  obtain ⟨hsignature, hrest⟩ := SelfDelimiting.sizedBytes hs hs' h
  rw [UInt32.toNat_inj] at hindex
  subst haddress hindex hsignature
  exact ⟨rfl, hrest⟩

theorem selfDelimiting_canonicalBytes : SelfDelimiting LengthsFit canonicalBytes := by
  rintro ⟨script, arguments, block, gas, ⟨proposer, key, number⟩, payer, authorizers, inner, outer⟩
    ⟨_, _, _, gas', ⟨_, key', number'⟩, _, _, _, _⟩ rest rest' ht ht' h
  simp only [canonicalBytes, List.append_assoc] at h
  obtain ⟨hscript, h⟩ := SelfDelimiting.sizedBytes ht.script ht'.script h
  obtain ⟨harguments, h⟩ := SelfDelimiting.sizedBytes.sizedList ht.arguments ht'.arguments h
  obtain ⟨hblock, h⟩ := SelfDelimiting.octets 32 trivial trivial h
  obtain ⟨hgas, h⟩ := SelfDelimiting.ofNat 8 gas.toNat_lt gas'.toNat_lt h
  obtain ⟨hproposer, h⟩ := SelfDelimiting.octets 8 trivial trivial h
  obtain ⟨hkey, h⟩ := SelfDelimiting.ofNat 4 key.toNat_lt key'.toNat_lt h
  obtain ⟨hnumber, h⟩ := SelfDelimiting.ofNat 8 number.toNat_lt number'.toNat_lt h
  obtain ⟨hpayer, h⟩ := SelfDelimiting.octets 8 trivial trivial h
  obtain ⟨hauthorizers, h⟩ := (SelfDelimiting.octets 8).sizedList
    ⟨ht.authorizers, fun _ _ => trivial⟩ ⟨ht'.authorizers, fun _ _ => trivial⟩ h
  obtain ⟨hinner, h⟩ := selfDelimiting_signatureBytes.sizedList ht.payloadSignatures
    ht'.payloadSignatures h
  obtain ⟨houter, hrest⟩ := selfDelimiting_signatureBytes.sizedList ht.envelopeSignatures
    ht'.envelopeSignatures h
  rw [UInt64.toNat_inj] at hgas hnumber
  rw [UInt32.toNat_inj] at hkey
  subst hscript harguments hblock hgas hproposer hkey hnumber hpayer hauthorizers hinner houter
  exact ⟨rfl, hrest⟩

end Transaction

/-! ## Collections -/

theorem Collection.length_hashedBytes (ids : List Identifier) :
    (hashedBytes ⟨ids⟩).length = 32 * ids.length := by
  induction ids with
  | nil => rfl
  | cons id ids ih =>
    rw [hashedBytes] at ih ⊢
    rw [List.flatMap_cons, List.length_append, id.length_eq, ih, List.length_cons]
    omega

theorem Collection.eq_of_hashedBytes_eq : {c d : Collection} → c.hashedBytes = d.hashedBytes → c = d
  | ⟨ids⟩, ⟨ids'⟩, h => by
    have hlength := congrArg List.length h
    rw [length_hashedBytes, length_hashedBytes] at hlength
    have hcount : ids.length = ids'.length := by omega
    obtain ⟨rfl, -⟩ := (SelfDelimiting.octets 32).flatMap hcount (fun _ _ => trivial)
      (fun _ _ => trivial) (congrArg (· ++ []) h)
    rfl

/-! ## Names -/

/-- What is hashed of a transaction determines it, and does not begin with what is hashed of
another; what is hashed of a collection determines its transactions in their order. So both share
their identifiers with others only by a collision. -/
theorem content_determined {t u : Transaction} (ht : t.LengthsFit) (hu : u.LengthsFit)
    (c d : Collection) :
    (t.canonicalBytes = u.canonicalBytes → t = u) ∧
    (t.canonicalBytes <+: u.canonicalBytes → t.canonicalBytes = u.canonicalBytes) ∧
    (t ≠ u → t.id = u.id → Sha256.Collision t.canonicalBytes u.canonicalBytes) ∧
    (c.hashedBytes = d.hashedBytes → c.transactionIds = d.transactionIds) ∧
    (c ≠ d → c.id = d.id → Sha256.Collision c.hashedBytes d.hashedBytes) := by
  have hdetermined : t.canonicalBytes <+: u.canonicalBytes → t = u :=
    Transaction.selfDelimiting_canonicalBytes.eq_of_isPrefix ht hu
  have heq : t.canonicalBytes = u.canonicalBytes → t = u := by
    intro h
    exact hdetermined ⟨[], by rw [List.append_nil, h]⟩
  refine ⟨heq, ?_, ?_, ?_, ?_⟩
  · intro h
    rw [hdetermined h]
  · intro hne h
    exact Identifier.collision_of_hashOf_eq (fun he => hne (heq he)) h
  · intro h
    rw [Collection.eq_of_hashedBytes_eq h]
  · intro hne h
    exact Identifier.collision_of_hashOf_eq (fun he => hne (Collection.eq_of_hashedBytes_eq he)) h

/-- A transaction of a script and an argument. -/
def Transaction.ofScript (script argument : Bytes) : Transaction where
  script := script
  arguments := [argument]
  referenceBlockId := .zero 32
  gasLimit := 9999
  proposalKey := ⟨.zero 8, 0, 0⟩
  payer := .zero 8
  authorizers := []
  payloadSignatures := []
  envelopeSignatures := [⟨.zero 8, 0, [7]⟩]

/-- A byte cannot pass from the script into the argument, nor two transactions be put into another
order. -/
theorem content_determined_shifted :
    (Transaction.ofScript [1, 2] [3]).LengthsFit ∧ (Transaction.ofScript [1] [2, 3]).LengthsFit ∧
      ¬(Transaction.ofScript [1, 2] [3]).canonicalBytes <+:
        (Transaction.ofScript [1] [2, 3]).canonicalBytes ∧
      (⟨[.ofNat 32 1, .ofNat 32 2]⟩ : Collection).hashedBytes ≠
        (⟨[.ofNat 32 2, .ofNat 32 1]⟩ : Collection).hashedBytes := by
  have ht : (Transaction.ofScript [1, 2] [3]).LengthsFit := by
    constructor <;> simp [Transaction.ofScript]
  have hu : (Transaction.ofScript [1] [2, 3]).LengthsFit := by
    constructor <;> simp [Transaction.ofScript]
  obtain ⟨heq, hdetermined, -, hids, -⟩ := content_determined ht hu
    ⟨[.ofNat 32 1, .ofNat 32 2]⟩ ⟨[.ofNat 32 2, .ofNat 32 1]⟩
  refine ⟨ht, hu, ?_, ?_⟩
  · intro h
    have hscript := congrArg (·.script.length) (heq (hdetermined h))
    simp [Transaction.ofScript] at hscript
  · intro h
    have hne : [Octets.ofNat 32 1, Octets.ofNat 32 2] ≠ [Octets.ofNat 32 2, Octets.ofNat 32 1] := by
      decide
    exact hne (hids h)

end FlowAccess
