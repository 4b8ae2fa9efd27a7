import FlowAccess.Proofs.Lists
import FlowAccess.Proofs.Protobuf.Records

/-!
# Messages read back

Every reader of a field looks at the byte strings or at the numbers of that field. What these are
for the records that a message writes is computed by the laws of this module, field by field.
A message type is a `LawfulMessage` if all of its values are read back from their records; its
values are then read back from their bytes (`decode?_encode`), and so are messages that hold them.
-/

namespace FlowAccess.Protobuf

/-! ## Defaults -/

/-- What is written of a value: nothing if it is the default. -/
def unlessDefault {α : Type} [DecidableEq α] (default a : α) : List α :=
  if a = default then [] else [a]

/-- A value that is left out is the default. -/
@[simp] theorem getLast?_unlessDefault {α : Type} [DecidableEq α] (default a : α) :
    (unlessDefault default a).getLast?.getD default = a := by
  unfold unlessDefault
  split
  · exact Eq.symm ‹_›
  · rfl

theorem ofString_eq_nil_iff {s : String} : Bytes.ofString s = [] ↔ s = "" := by
  constructor
  · intro h
    have hs := Bytes.toString?_ofString s
    rw [h] at hs
    exact Option.some.inj (hs.symm.trans (Bytes.toString?_ofString ""))
  · rintro rfl
    rfl

@[simp] theorem mapM_toString?_unlessDefault (s : String) :
    (unlessDefault [] (Bytes.ofString s)).mapM Bytes.toString? = some (unlessDefault "" s) := by
  unfold unlessDefault
  by_cases h : s = "" <;> simp [h, ofString_eq_nil_iff]

/-! ## Lists of records -/

/-- All records of a list are plain. -/
def AllPlain (maps : List Nat) (records : List Record) : Prop := ∀ r ∈ records, r.Plain maps

/-- All records of a list fit. -/
def AllFit (records : List Record) : Prop := ∀ r ∈ records, r.Fits

section AllPlain

variable {maps : List Nat} {number : Nat}

@[simp] theorem allPlain_append {rs rs' : List Record} :
    AllPlain maps (rs ++ rs') ↔ AllPlain maps rs ∧ AllPlain maps rs' :=
  List.forall_mem_append

@[simp] theorem allPlain_ofByteStrings (h : IsFieldNumber number) (items : List Bytes) :
    AllPlain maps (Record.ofByteStrings number items) := by
  intro r hr
  obtain ⟨bytes, -, rfl⟩ := List.mem_map.1 hr
  exact ⟨h, trivial⟩

theorem ofBytes_eq (number : Nat) (bytes : Bytes) :
    Record.ofBytes number bytes =
      Record.ofByteStrings number (unlessDefault [] bytes) := by
  unfold Record.ofBytes unlessDefault
  split <;> rfl

@[simp] theorem allPlain_ofBytes (h : IsFieldNumber number) (bytes : Bytes) :
    AllPlain maps (Record.ofBytes number bytes) := by
  rw [ofBytes_eq]
  exact allPlain_ofByteStrings h _

@[simp] theorem allPlain_ofString (h : IsFieldNumber number) (s : String) :
    AllPlain maps (Record.ofString number s) :=
  allPlain_ofBytes h _

@[simp] theorem allPlain_ofMessages {α : Type} [Message α] (h : IsFieldNumber number)
    (items : List α) : AllPlain maps (Record.ofMessages number items) :=
  allPlain_ofByteStrings h _

@[simp] theorem allPlain_ofMessage? {α : Type} [Message α] (h : IsFieldNumber number)
    (item : Option α) : AllPlain maps (Record.ofMessage? number item) :=
  allPlain_ofByteStrings h _

theorem allPlain_ofNat (h : IsFieldNumber number) (hm : number ∉ maps) {n : Nat} (hn : n < 2 ^ 64) :
    AllPlain maps (Record.ofNat number n) := by
  intro r hr
  unfold Record.ofNat at hr
  split at hr
  · cases hr
  · cases List.mem_singleton.1 hr
    exact ⟨h, hn, hm⟩

@[simp] theorem allPlain_uint64 (h : IsFieldNumber number) (hm : number ∉ maps) (n : UInt64) :
    AllPlain maps (Record.ofNat number n.toNat) :=
  allPlain_ofNat h hm n.toNat_lt

@[simp] theorem allPlain_uint32 (h : IsFieldNumber number) (hm : number ∉ maps) (n : UInt32) :
    AllPlain maps (Record.ofNat number n.toNat) :=
  allPlain_ofNat h hm (Nat.lt_trans n.toNat_lt (by decide))

@[simp] theorem allPlain_ofBool (h : IsFieldNumber number) (hm : number ∉ maps) (b : Bool) :
    AllPlain maps (Record.ofBool number b) :=
  allPlain_ofNat h hm (by split <;> decide)

@[simp] theorem allPlain_ofInt (h : IsFieldNumber number) (hm : number ∉ maps) (n : Int) :
    AllPlain maps (Record.ofInt number n) :=
  allPlain_ofNat h hm (by simp only [Nat.shiftLeft_eq]; omega)

end AllPlain

@[simp] theorem allFit_append {rs rs' : List Record} :
    AllFit (rs ++ rs') ↔ AllFit rs ∧ AllFit rs' :=
  List.forall_mem_append

@[simp] theorem allFit_ofByteStrings {number : Nat} {items : List Bytes} :
    AllFit (Record.ofByteStrings number items) ↔ ∀ bytes ∈ items, bytes.length < 2 ^ 64 :=
  List.forall_mem_map

/-! ## The byte strings and the numbers of a field -/

namespace Fields

variable {room number k : Nat} {rs rs' : List Record}

theorem contents_append : (⟨rs ++ rs', room⟩ : Fields).contents number =
    (⟨rs, room⟩ : Fields).contents number ++ (⟨rs', room⟩ : Fields).contents number := by
  simp [contents]

theorem contents_ofByteStrings (items : List Bytes) :
    (⟨Record.ofByteStrings k items, room⟩ : Fields).contents number =
      if k = number then items.map .delimited else [] := by
  induction items with
  | nil => simp [contents, Record.ofByteStrings]
  | cons bytes items ih =>
    rw [← List.singleton_append, Record.ofByteStrings, List.map_append, contents_append]
    rw [Record.ofByteStrings] at ih
    rw [ih]
    by_cases hk : k = number <;> simp [contents, hk]

theorem contents_ofNat (n : Nat) :
    (⟨Record.ofNat k n, room⟩ : Fields).contents number =
      if k = number then (unlessDefault 0 n).map .varint else [] := by
  unfold contents Record.ofNat unlessDefault
  by_cases hn : n = 0 <;> by_cases hk : k = number <;> simp [hn, hk]

@[simp] theorem byteStrings?_append : (⟨rs ++ rs', room⟩ : Fields).byteStrings? number =
    ((⟨rs, room⟩ : Fields).byteStrings? number).bind fun xs =>
      ((⟨rs', room⟩ : Fields).byteStrings? number).bind fun ys => some (xs ++ ys) := by
  simp only [byteStrings?, contents_append, List.mapM_append]
  rfl

@[simp] theorem byteStrings?_ofByteStrings (items : List Bytes) :
    (⟨Record.ofByteStrings k items, room⟩ : Fields).byteStrings? number =
      some (if k = number then items else []) := by
  rw [byteStrings?, contents_ofByteStrings]
  split
  · exact mapM_map_eq_pure fun _ _ => rfl
  · rfl

@[simp] theorem byteStrings?_ofBytes (bytes : Bytes) :
    (⟨Record.ofBytes k bytes, room⟩ : Fields).byteStrings? number =
      some (if k = number then unlessDefault [] bytes else []) := by
  rw [ofBytes_eq, byteStrings?_ofByteStrings]

@[simp] theorem byteStrings?_ofString (s : String) :
    (⟨Record.ofString k s, room⟩ : Fields).byteStrings? number =
      some (if k = number then unlessDefault [] (Bytes.ofString s) else []) :=
  byteStrings?_ofBytes _

@[simp] theorem byteStrings?_ofMessages {α : Type} [Message α] (items : List α) :
    (⟨Record.ofMessages k items, room⟩ : Fields).byteStrings? number =
      some (if k = number then items.map encode else []) :=
  byteStrings?_ofByteStrings _

@[simp] theorem byteStrings?_ofMessage? {α : Type} [Message α] (item : Option α) :
    (⟨Record.ofMessage? k item, room⟩ : Fields).byteStrings? number =
      some (if k = number then item.toList.map encode else []) :=
  byteStrings?_ofByteStrings _

@[simp] theorem byteStrings?_ofNat_of_ne (h : k ≠ number) (n : Nat) :
    (⟨Record.ofNat k n, room⟩ : Fields).byteStrings? number = some [] := by
  rw [byteStrings?, contents_ofNat, if_neg h]
  rfl

@[simp] theorem varints?_append : (⟨rs ++ rs', room⟩ : Fields).varints? number =
    ((⟨rs, room⟩ : Fields).varints? number).bind fun xs =>
      ((⟨rs', room⟩ : Fields).varints? number).bind fun ys => some (xs ++ ys) := by
  simp only [varints?, contents_append, List.mapM_append]
  rfl

@[simp] theorem varints?_ofByteStrings_of_ne (h : k ≠ number) (items : List Bytes) :
    (⟨Record.ofByteStrings k items, room⟩ : Fields).varints? number = some [] := by
  rw [varints?, contents_ofByteStrings, if_neg h]
  rfl

@[simp] theorem varints?_ofBytes_of_ne (h : k ≠ number) (bytes : Bytes) :
    (⟨Record.ofBytes k bytes, room⟩ : Fields).varints? number = some [] := by
  rw [ofBytes_eq, varints?_ofByteStrings_of_ne h]

@[simp] theorem varints?_ofString_of_ne (h : k ≠ number) (s : String) :
    (⟨Record.ofString k s, room⟩ : Fields).varints? number = some [] :=
  varints?_ofBytes_of_ne h _

@[simp] theorem varints?_ofMessages_of_ne {α : Type} [Message α] (h : k ≠ number)
    (items : List α) : (⟨Record.ofMessages k items, room⟩ : Fields).varints? number = some [] :=
  varints?_ofByteStrings_of_ne h _

@[simp] theorem varints?_ofMessage?_of_ne {α : Type} [Message α] (h : k ≠ number)
    (item : Option α) : (⟨Record.ofMessage? k item, room⟩ : Fields).varints? number = some [] :=
  varints?_ofByteStrings_of_ne h _

@[simp] theorem varints?_ofNat (n : Nat) :
    (⟨Record.ofNat k n, room⟩ : Fields).varints? number =
      some (if k = number then unlessDefault 0 n else []) := by
  rw [varints?, contents_ofNat]
  split
  · exact mapM_map_eq_pure fun _ _ => rfl
  · rfl

attribute [simp] bytes? strings? string? varint? uint64? uint32? int64? int32? bool?

end Fields

/-! ## Signed numbers and truth values -/

section SignedNumbers

variable {room number k : Nat}

/-- A number in 64 bits of two's complement. -/
def twosComplement (n : Int) : Nat := (n % (1 <<< 64 : Nat)).toNat

@[simp] theorem Fields.varints?_ofInt (n : Int) :
    (⟨Record.ofInt k n, room⟩ : Fields).varints? number =
      some (if k = number then unlessDefault 0 (twosComplement n) else []) :=
  Fields.varints?_ofNat _

@[simp] theorem Fields.byteStrings?_ofInt_of_ne (h : k ≠ number) (n : Int) :
    (⟨Record.ofInt k n, room⟩ : Fields).byteStrings? number = some [] :=
  Fields.byteStrings?_ofNat_of_ne h _

@[simp] theorem Fields.varints?_ofBool (b : Bool) :
    (⟨Record.ofBool k b, room⟩ : Fields).varints? number =
      some (if k = number then unlessDefault 0 b.toNat else []) := by
  rw [Record.ofBool, varints?_ofNat]
  cases b <;> rfl

@[simp] theorem Fields.byteStrings?_ofBool_of_ne (h : k ≠ number) (b : Bool) :
    (⟨Record.ofBool k b, room⟩ : Fields).byteStrings? number = some [] :=
  Fields.byteStrings?_ofNat_of_ne h _

end SignedNumbers

@[simp] theorem ofInt_twosComplement (n : Int64) : Int64.ofInt (twosComplement n.toInt) = n := by
  have hl := n.le_toInt
  have hu := n.toInt_lt
  rw [Int64.ofInt_eq_iff_bmod_eq_toInt, Int.bmod_def, twosComplement, Nat.shiftLeft_eq]
  split <;> omega

/-- Of the 64 bits the lower half is enough. -/
@[simp] theorem ofInt_twosComplement_int32 (n : Int32) :
    Int32.ofInt (twosComplement n.toInt) = n := by
  have hl := n.le_toInt
  have hu := n.toInt_lt
  rw [Int32.ofInt_eq_iff_bmod_eq_toInt, Int.bmod_def, twosComplement, Nat.shiftLeft_eq]
  split <;> omega

/-! ## Messages -/

/-- Every value of a message type is read back from its records, with room for so many levels of
messages. -/
class LawfulMessage (α : Type) [Message α] (levels : outParam Nat) : Prop where
  levels_pos : 0 < levels := by decide
  plain (m : α) : AllPlain (Message.maps α) (Message.records m)
  ofFields?_records (m : α) {room : Nat} : levels ≤ room → AllFit (Message.records m) →
    Message.ofFields? ⟨Message.records m, room⟩ = some m

section LawfulMessage

variable {α : Type} [Message α] {levels : Nat} [LawfulMessage α levels] {room number : Nat}

theorem ofBytes?_encode (hr : levels ≤ room) {m : α} (h : (encode m).length < 2 ^ 64) :
    Fields.ofBytes? α room (encode m) = some ⟨Message.records m, room⟩ := by
  have hpos := LawfulMessage.levels_pos (α := α)
  rw [Fields.ofBytes?, encode,
    records?_writeRecords (by omega) (LawfulMessage.plain m) (fits_of_length_lt h)]
  rfl

/-- A message is read back from its bytes, unless they are too many. -/
theorem decode?_encode (hl : levels ≤ maxNesting) {m : α} (h : (encode m).length < 2 ^ 64) :
    decode? (encode m) = some m := by
  rw [decode?, ofBytes?_encode hl h, Option.bind_some,
    LawfulMessage.ofFields?_records m hl (fits_of_length_lt h)]

namespace Fields

theorem nested?_ofMessages {items : List α} (hr : levels + 1 ≤ room)
    (hf : AllFit (Record.ofMessages number items)) :
    (⟨Record.ofMessages number items, room⟩ : Fields).nested? α number =
      some (items.map fun m => ⟨Message.records m, room - 1⟩) := by
  rw [nested?, Record.ofMessages, byteStrings?_ofByteStrings, if_pos rfl]
  show (items.map encode).mapM _ = _
  rw [List.mapM_map]
  refine mapM_eq_pure fun m hm => ofBytes?_encode (Nat.le_sub_one_of_lt hr) ?_
  exact allFit_ofByteStrings.1 hf _ (List.mem_map_of_mem hm)

@[simp] theorem messages?_ofMessages {items : List α} (hr : levels + 1 ≤ room)
    (hf : AllFit (Record.ofMessages number items)) :
    (⟨Record.ofMessages number items, room⟩ : Fields).messages? number = some items := by
  rw [messages?, nested?_ofMessages hr hf]
  refine mapM_map_eq_pure fun m hm => ?_
  refine LawfulMessage.ofFields?_records m (by omega) (fits_of_length_lt ?_)
  exact allFit_ofByteStrings.1 hf _ (List.mem_map_of_mem hm)

@[simp] theorem message?_ofMessage? {item : Option α} (hr : levels + 1 ≤ room)
    (hf : AllFit (Record.ofMessage? number item)) :
    (⟨Record.ofMessage? number item, room⟩ : Fields).message? number = some item := by
  rw [message?, Record.ofMessage?, nested?_ofMessages hr hf]
  cases item with
  | none => rfl
  | some m =>
    have hm : Message.ofFields? ⟨Message.records m, room - 1⟩ = some m :=
      LawfulMessage.ofFields?_records m (by omega)
        (fits_of_length_lt (allFit_ofByteStrings.1 hf _ (.head _)))
    simp [hm]

end Fields
end LawfulMessage

namespace Fields

variable {α : Type} [Message α] {room number : Nat} {rs rs' : List Record}

/-! Of two lists of records, the one that has no such field does not matter. -/

theorem nested?_append_left (h : (⟨rs, room⟩ : Fields).byteStrings? number = some []) :
    (⟨rs ++ rs', room⟩ : Fields).nested? α number = (⟨rs', room⟩ : Fields).nested? α number := by
  simp [nested?, h]

theorem nested?_append_right (h : (⟨rs', room⟩ : Fields).byteStrings? number = some []) :
    (⟨rs ++ rs', room⟩ : Fields).nested? α number = (⟨rs, room⟩ : Fields).nested? α number := by
  simp [nested?, h]

@[simp] theorem messages?_append_left (h : (⟨rs, room⟩ : Fields).byteStrings? number = some []) :
    ((⟨rs ++ rs', room⟩ : Fields).messages? number : Option (List α)) =
      (⟨rs', room⟩ : Fields).messages? number := by
  rw [messages?, nested?_append_left h, ← messages?]

@[simp] theorem messages?_append_right (h : (⟨rs', room⟩ : Fields).byteStrings? number = some []) :
    ((⟨rs ++ rs', room⟩ : Fields).messages? number : Option (List α)) =
      (⟨rs, room⟩ : Fields).messages? number := by
  rw [messages?, nested?_append_right h, ← messages?]

@[simp] theorem message?_append_left (h : (⟨rs, room⟩ : Fields).byteStrings? number = some []) :
    ((⟨rs ++ rs', room⟩ : Fields).message? number : Option (Option α)) =
      (⟨rs', room⟩ : Fields).message? number := by
  rw [message?, nested?_append_left h, ← message?]

@[simp] theorem message?_append_right (h : (⟨rs', room⟩ : Fields).byteStrings? number = some []) :
    ((⟨rs ++ rs', room⟩ : Fields).message? number : Option (Option α)) =
      (⟨rs, room⟩ : Fields).message? number := by
  rw [message?, nested?_append_right h, ← message?]

end Fields
end FlowAccess.Protobuf
