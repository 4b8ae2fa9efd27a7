import FlowAccess.Bytes

/-!
# Protocol buffer records

A protocol buffer is a sequence of records, each a field number and a value. Only numbers in
base 128 and byte strings carry meaning here; values of fixed width and groups are recognised, so
that they can be skipped.
-/

namespace FlowAccess.Protobuf

/-! ## Numbers in base 128 -/

/-- The digits of a number, least significant first; every byte but the last is marked. -/
def writeVarint (n : Nat) : Bytes :=
  if n < 128 then [UInt8.ofNat n] else UInt8.ofNat (128 + n % 128) :: writeVarint (n / 128)
termination_by n
decreasing_by omega

/-- Reads a number of at most so many bytes. -/
def varintWithin? : Nat → Bytes → Option (Nat × Bytes)
  | 0, _ => none
  | _, [] => none
  | limit + 1, b :: rest =>
    if b.toNat < 128 then some (b.toNat, rest)
    else
      match varintWithin? limit rest with
      | none => none
      | some (n, rest) => some (b.toNat - 128 + 128 * n, rest)

/-- Reads a number of at most 64 bits in at most ten bytes. -/
def varint? (bytes : Bytes) : Option (Nat × Bytes) :=
  match varintWithin? 10 bytes with
  | none => none
  | some (n, rest) => if n < 1 <<< 64 then some (n, rest) else none

theorem varintWithin?_length {limit n : Nat} {bytes rest : Bytes}
    (h : varintWithin? limit bytes = some (n, rest)) : rest.length < bytes.length := by
  fun_induction varintWithin? limit bytes generalizing n rest with
  | case1 => cases h
  | case2 => cases h
  | case3 => cases h; simp
  | case4 => cases h
  | case5 limit b tail _ m rest' _ ih =>
    cases h
    have := ih ‹_›
    simp only [List.length_cons]
    omega

theorem varint?_length {n : Nat} {bytes rest : Bytes} (h : varint? bytes = some (n, rest)) :
    rest.length < bytes.length := by
  simp only [varint?] at h
  split at h
  · cases h
  · rename_i heq
    split at h
    · cases h; exact varintWithin?_length heq
    · cases h

/-! ## Records -/

/-- How the value of a record is laid out. -/
inductive Layout where
  | varint
  | fixed64
  | delimited
  | groupStart
  | groupEnd
  | fixed32
  deriving DecidableEq

def Layout.code : Layout → Nat
  | .varint => 0
  | .fixed64 => 1
  | .delimited => 2
  | .groupStart => 3
  | .groupEnd => 4
  | .fixed32 => 5

def Layout.ofCode? : Nat → Option Layout
  | 0 => some .varint
  | 1 => some .fixed64
  | 2 => some .delimited
  | 3 => some .groupStart
  | 4 => some .groupEnd
  | 5 => some .fixed32
  | _ => none

inductive Content where
  | varint (n : Nat)
  | delimited (bytes : Bytes)
  /-- A value of fixed width or a group. -/
  | other
  deriving DecidableEq

/-- A field number and a value. -/
structure Record where
  number : Nat
  content : Content
  deriving DecidableEq

/-- The key in front of a value. -/
def writeKey (number : Nat) (layout : Layout) : Bytes := writeVarint (8 * number + layout.code)

/-- Reads the key in front of a value. Field numbers start at 1. -/
def key? (bytes : Bytes) : Option ((Nat × Layout) × Bytes) :=
  match varint? bytes with
  | none => none
  | some (n, rest) =>
    match Layout.ofCode? (n % 8) with
    | none => none
    | some layout => if n < 1 <<< 32 ∧ 8 ≤ n then some ((n / 8, layout), rest) else none

theorem key?_length {key : Nat × Layout} {bytes rest : Bytes} (h : key? bytes = some (key, rest)) :
    rest.length < bytes.length := by
  simp only [key?] at h
  split at h
  · cases h
  · rename_i heq
    split at h
    · cases h
    · split at h
      · cases h; exact varint?_length heq
      · cases h

/-- The bytes of a record; there are none for a value without meaning. -/
def Record.write (r : Record) : Bytes :=
  match r.content with
  | .varint n => writeKey r.number .varint ++ writeVarint n
  | .delimited bytes => writeKey r.number .delimited ++ writeVarint bytes.length ++ bytes
  | .other => []

def writeRecords (records : List Record) : Bytes := records.flatMap Record.write

/-- Cuts a number of bytes off the front. -/
def cut? (n : Nat) (bytes : Bytes) : Option (Bytes × Bytes) :=
  if n ≤ bytes.length then some (bytes.take n, bytes.drop n) else none

/-- Reads a value that is no group. -/
def content? : Layout → Bytes → Option (Content × Bytes)
  | .varint, bytes => (varint? bytes).map fun (n, rest) => (.varint n, rest)
  | .fixed64, bytes => (cut? 8 bytes).map fun (_, rest) => (.other, rest)
  | .fixed32, bytes => (cut? 4 bytes).map fun (_, rest) => (.other, rest)
  | .delimited, bytes =>
    match varint? bytes with
    | none => none
    | some (n, rest) => (cut? n rest).map fun (value, rest) => (.delimited value, rest)
  | .groupStart, _ => none
  | .groupEnd, _ => none

theorem content?_length {layout : Layout} {content : Content} {bytes rest : Bytes}
    (h : content? layout bytes = some (content, rest)) : rest.length ≤ bytes.length := by
  cases layout with
  | varint =>
    simp only [content?, Option.map_eq_some_iff, Prod.mk.injEq] at h
    obtain ⟨⟨n, r⟩, hv, _, rfl⟩ := h
    exact Nat.le_of_lt (varint?_length hv)
  | delimited =>
    simp only [content?] at h
    split at h
    · cases h
    · rename_i n r heq
      have := varint?_length heq
      simp only [cut?, Option.map_eq_some_iff, Prod.mk.injEq] at h
      obtain ⟨⟨v, r'⟩, hc, _, rfl⟩ := h
      split at hc
      · cases hc; simp only [List.length_drop]; omega
      · cases hc
  | fixed64 | fixed32 =>
    simp only [content?, cut?, Option.map_eq_some_iff, Prod.mk.injEq] at h
    obtain ⟨⟨v, r'⟩, hc, _, rfl⟩ := h
    split at hc
    · cases hc; simp only [List.length_drop]; omega
    · cases hc
  | groupStart | groupEnd => cases h

/-- Reads records to the end. Fields that hold the entries of a map are read as byte strings,
whatever their key says. Inside of groups, whose numbers are on the stack, all is skipped; groups
may be nested as deep as there is room. -/
def records? (maps : List Nat) (room : Nat) (stack : List Nat) (bytes : Bytes) :
    Option (List Record) :=
  if bytes = [] then if stack = [] then some [] else none
  else
    match hk : key? bytes with
    | none => none
    | some ((number, layout), rest) =>
      have := key?_length hk
      if stack = [] ∧ number ∈ maps then
        match hc : content? .delimited rest with
        | none => none
        | some (content, rest') =>
          have := content?_length hc
          (records? maps room stack rest').map (⟨number, content⟩ :: ·)
      else
        match layout with
        | .groupEnd =>
          match stack with
          | [] => none
          | opened :: outer => if number = opened then records? maps room outer rest else none
        | .groupStart =>
          if stack.length < room then
            (records? maps room (number :: stack) rest).map fun records =>
              if stack = [] then ⟨number, .other⟩ :: records else records
          else none
        | layout =>
          if stack.length < room then
            match hc : content? layout rest with
            | none => none
            | some (content, rest') =>
              have := content?_length hc
              (records? maps room stack rest').map fun records =>
                if stack = [] then ⟨number, content⟩ :: records else records
          else none
termination_by bytes.length

end FlowAccess.Protobuf
