import FlowAccess.Cbor
import Mathlib.Algebra.Group.Int.Defs
import Mathlib.Algebra.Group.Nat.Defs
import Mathlib.Data.List.Induction

/-!
# The forms of CBOR items

What the bytes of an item are, said without a reader: a head is a byte that names the kind of the
item and an argument in one of five widths, a string is a head and as many bytes as the head says.
Every reader takes exactly the items of its form, whatever follows them (`Takes`), and an item shows
the kind of its head before it is taken (`peek_of_isHead`).
-/

namespace FlowAccess.Cbor

/-! ## Readers -/

/-- The reader takes exactly `bytes` from the front and answers `a`, whatever follows. -/
def Reads {α : Type} (read : Reader α) (bytes : Bytes) (a : α) : Prop :=
  ∀ rest, read (bytes ++ rest) = some (a, rest)

/-- The reader takes the items of a form from the front, whatever follows, and nothing else. -/
structure Takes {α : Type} (read : Reader α) (form : Bytes → α → Prop) : Prop where
  sound {input rest : Bytes} {a : α} (h : read input = some (a, rest)) :
    ∃ bs, form bs a ∧ input = bs ++ rest
  complete {bs : Bytes} {a : α} (h : form bs a) : Reads read bs a

variable {α β : Type} {read : Reader α} {bs bs' : Bytes} {a : α} {b : β}

namespace Reads

theorem pure (a : α) : Reads (Pure.pure a) [] a := fun _ => rfl

theorem bind {next : α → Reader β} (h : Reads read bs a) (h' : Reads (next a) bs' b) :
    Reads (read >>= next) (bs ++ bs') b := fun rest => by
  show (read (bs ++ bs' ++ rest)).bind (fun p => next p.1 p.2) = _
  rw [List.append_assoc, h, Option.bind_some, h']

/-- What follows a reader may take nothing. -/
theorem finish {next : α → Reader β} (h : Reads read bs a) (h' : Reads (next a) [] b) :
    Reads (read >>= next) bs b := List.append_nil bs ▸ h.bind h'

theorem take (bs : Bytes) : Reads (Reader.take bs.length) bs bs := fun rest => by
  simp [Reader.take]

end Reads

/-- A reader that goes on has taken an item first. -/
theorem Takes.split {form : Bytes → α → Prop} {next : α → Reader β} {input rest : Bytes}
    (ht : Takes read form) (h : (read >>= next) input = some (b, rest)) :
    ∃ a bs mid, form bs a ∧ input = bs ++ mid ∧ next a mid = some (b, rest) := by
  obtain ⟨⟨a, mid⟩, hr, hn⟩ := Option.bind_eq_some_iff.1 h
  obtain ⟨bs, hf, rfl⟩ := ht.sound hr
  exact ⟨a, bs, mid, hf, rfl, hn⟩

theorem reads_byte (b : UInt8) : Reads Reader.byte [b] b := fun _ => rfl

theorem reads_take {bs : Bytes} {n : Nat} (h : bs.length = n) : Reads (Reader.take n) bs bs :=
  h ▸ Reads.take bs

theorem takes_byte : Takes Reader.byte fun bs b => bs = [b] where
  sound {input rest b} h := by
    cases input with
    | nil => cases h
    | cons c input =>
      cases h
      exact ⟨[b], rfl, rfl⟩
  complete := by
    rintro _ b rfl
    exact reads_byte b

theorem takes_take (n : Nat) : Takes (Reader.take n) fun bs a => bs = a ∧ a.length = n where
  sound {input rest a} h := by
    simp only [Reader.take] at h
    split at h
    · cases h
      exact ⟨_, ⟨rfl, List.length_take_of_le ‹_›⟩, (List.take_append_drop n input).symm⟩
    · cases h
  complete := by
    rintro _ a ⟨rfl, h⟩
    exact reads_take h

/-! ## Heads -/

/-- The argument of a head, from the lower five bits of its first byte and the bytes after that:
what is too large for the bits stands in 1, 2, 4 or 8 bytes. -/
inductive IsArgument : Nat → Bytes → Nat → Prop where
  | short {n : Nat} (h : n < 24) : IsArgument n [] n
  | long {k : Nat} {bs : Bytes} (hk : k < 4) (hl : bs.length = 2 ^ k) :
      IsArgument (24 + k) bs bs.toNat

/-- The head of an item of a kind, which the upper three bits of its first byte name. -/
inductive IsHead (m : Major) : Bytes → Nat → Prop where
  | intro {b : UInt8} {bs : Bytes} {n : Nat} (hm : b.toNat / 32 = m.code)
      (ha : IsArgument (b.toNat % 32) bs n) : IsHead m (b :: bs) n

theorem toNat_lt (bs : Bytes) : bs.toNat < 256 ^ bs.length := by
  induction bs using List.reverseRecOn with
  | nil => exact Nat.one_pos
  | append_singleton bs b ih =>
    have := b.toNat_lt
    rw [Bytes.toNat_append_singleton, List.length_append, List.length_singleton, Nat.pow_succ]
    omega

/-- An argument has at most 64 bits. -/
theorem IsArgument.lt_two_pow {info n : Nat} {bs : Bytes} (h : IsArgument info bs n) :
    n < 2 ^ 64 := by
  cases h with
  | short h => omega
  | @long k bs hk hl =>
    calc bs.toNat
      _ < 256 ^ bs.length := toNat_lt bs
      _ ≤ 256 ^ 2 ^ 3 := Nat.pow_le_pow_right (by decide) (by
        rw [hl]
        exact Nat.pow_le_pow_right (by decide) (Nat.le_of_lt_succ hk))

theorem IsHead.length_pos {m : Major} {bs : Bytes} {n : Nat} (h : IsHead m bs n) :
    0 < bs.length := by
  cases h
  exact Nat.succ_pos _

theorem IsHead.lt_two_pow {m : Major} {bs : Bytes} {n : Nat} (h : IsHead m bs n) : n < 2 ^ 64 := by
  obtain ⟨-, ha⟩ := h
  exact ha.lt_two_pow

theorem argument_of_lt {n : Nat} (h : n < 24) : Reader.argument n = pure n := if_pos h

theorem argument_long {k : Nat} (h : k < 4) :
    Reader.argument (24 + k) = do return (← Reader.take (2 ^ k)).toNat := by
  have : k = 0 ∨ k = 1 ∨ k = 2 ∨ k = 3 := by omega
  rcases this with rfl | rfl | rfl | rfl <;> rfl

theorem argument_of_le {info : Nat} (h : 28 ≤ info) : Reader.argument info = failure := by
  rw [Reader.argument, if_neg (by omega), if_neg (by omega), if_neg (by omega), if_neg (by omega),
    if_neg (by omega)]

theorem takes_argument (info : Nat) : Takes (Reader.argument info) (IsArgument info) where
  sound {input rest n} h := by
    obtain hi | ⟨k, hk, rfl⟩ | hi : info < 24 ∨ (∃ k, k < 4 ∧ info = 24 + k) ∨ 28 ≤ info := by
      by_cases h24 : info < 24
      · exact .inl h24
      · by_cases h28 : 28 ≤ info
        · exact .inr (.inr h28)
        · exact .inr (.inl ⟨info - 24, by omega, by omega⟩)
    · rw [argument_of_lt hi] at h
      cases h
      exact ⟨[], .short hi, rfl⟩
    · rw [argument_long hk] at h
      obtain ⟨_, bs, mid, ⟨rfl, hl⟩, rfl, hn⟩ := (takes_take _).split h
      cases hn
      exact ⟨bs, .long hk hl, rfl⟩
    · rw [argument_of_le hi] at h
      cases h
  complete h := by
    cases h with
    | short h =>
      rw [argument_of_lt h]
      exact .pure _
    | long hk hl =>
      rw [argument_long hk]
      exact (reads_take hl).finish (.pure _)

theorem takes_head (m : Major) : Takes (Reader.head m) (IsHead m) where
  sound h := by
    obtain ⟨b, _, mid, rfl, rfl, hn⟩ := takes_byte.split h
    split at hn
    · obtain ⟨bs, ha, rfl⟩ := (takes_argument _).sound hn
      exact ⟨b :: bs, .intro ‹_› ha, rfl⟩
    · cases hn
  complete h := by
    obtain ⟨hm, ha⟩ := h
    refine (reads_byte _).bind ?_
    rw [if_pos hm]
    exact (takes_argument _).complete ha

/-- The head of an array, or the byte in its place where a break is to end the array. -/
inductive IsArrayHead : Bytes → Option Nat → Prop where
  | definite {bs : Bytes} {n : Nat} (h : IsHead .array bs n) : IsArrayHead bs (some n)
  | indefinite {b : UInt8} (hm : b.toNat / 32 = Major.array.code) (h : b.toNat % 32 = 31) :
      IsArrayHead [b] none

theorem IsArgument.lt {info n : Nat} {bs : Bytes} (h : IsArgument info bs n) : info < 28 := by
  cases h <;> omega

theorem takes_array : Takes Reader.array IsArrayHead where
  sound h := by
    obtain ⟨b, _, mid, rfl, rfl, hn⟩ := takes_byte.split h
    split at hn
    · cases hn
    have hm := Decidable.not_not.1 ‹¬¬_›
    split at hn
    · cases hn
      exact ⟨[b], .indefinite hm ‹_›, rfl⟩
    · obtain ⟨n, bs, mid, ha, rfl, hp⟩ := (takes_argument _).split hn
      cases hp
      exact ⟨b :: bs, .definite (.intro hm ha), rfl⟩
  complete h := by
    cases h with
    | definite h =>
      obtain ⟨hm, ha⟩ := h
      refine (reads_byte _).bind ?_
      have := ha.lt
      rw [if_neg (not_not_intro hm), if_neg (by omega)]
      exact ((takes_argument _).complete ha).finish (.pure _)
    | indefinite hm h =>
      refine (reads_byte _).finish ?_
      rw [if_neg (not_not_intro hm), if_pos h]
      exact .pure none

/-! ## Strings and integers -/

/-- A byte string, which its head gives the length of. -/
inductive IsBytes : Bytes → Bytes → Prop where
  | intro {head bs : Bytes} (h : IsHead .bytes head bs.length) : IsBytes (head ++ bs) bs

/-- A text in UTF-8. -/
inductive IsText : Bytes → String → Prop where
  | intro {head : Bytes} {s : String} (h : IsHead .text head (Bytes.ofString s).length) :
      IsText (head ++ Bytes.ofString s) s

/-- An integer, which has a kind of its own if it is negative. -/
inductive IsInteger : Bytes → Int → Prop where
  | unsigned {bs : Bytes} {n : Nat} (h : IsHead .unsigned bs n) : IsInteger bs n
  | negative {bs : Bytes} {n : Nat} (h : IsHead .negative bs n) : IsInteger bs (-1 - (n : Int))

theorem IsInteger.bounds {bs : Bytes} {n : Int} (h : IsInteger bs n) :
    -2 ^ 64 ≤ n ∧ n < 2 ^ 64 := by
  cases h with
  | unsigned h | negative h =>
    have := h.lt_two_pow
    omega

theorem takes_bytes : Takes Reader.bytes IsBytes where
  sound h := by
    obtain ⟨n, hb, mid, hh, rfl, hn⟩ := (takes_head .bytes).split h
    obtain ⟨bs, ⟨rfl, rfl⟩, rfl⟩ := (takes_take n).sound hn
    exact ⟨hb ++ bs, .intro hh, (List.append_assoc ..).symm⟩
  complete h := by
    obtain ⟨hh⟩ := h
    exact ((takes_head .bytes).complete hh).bind (.take _)

theorem takes_text : Takes Reader.text IsText where
  sound h := by
    obtain ⟨n, hb, mid, hh, rfl, hn⟩ := (takes_head .text).split h
    obtain ⟨bs, _, mid, ⟨rfl, rfl⟩, rfl, hs⟩ := (takes_take n).split hn
    cases ht : Bytes.toString? _ with
    | none =>
      rw [ht] at hs
      cases hs
    | some s =>
      rw [ht] at hs
      cases hs
      obtain rfl := Bytes.toString?_eq_some_iff.1 ht
      exact ⟨_, .intro hh, (List.append_assoc ..).symm⟩
  complete h := by
    obtain ⟨hh⟩ := h
    refine ((takes_head .text).complete hh).bind ((Reads.take _).finish ?_)
    rw [Bytes.toString?_ofString]
    exact .pure _

theorem takes_integer : Takes Reader.integer IsInteger where
  sound h := by
    obtain ⟨b, _, mid, rfl, rfl, hb⟩ := takes_byte.split h
    obtain ⟨n, bs, mid, ha, rfl, hn⟩ := (takes_argument _).split hb
    split at hn
    · cases hn
      exact ⟨b :: bs, .unsigned (.intro ‹_› ha), rfl⟩
    split at hn
    · cases hn
      exact ⟨b :: bs, .negative (.intro ‹_› ha), rfl⟩
    · cases hn
  complete h := by
    cases h with
    | unsigned h =>
      obtain ⟨hm, ha⟩ := h
      refine (reads_byte _).bind (((takes_argument _).complete ha).finish ?_)
      rw [if_pos hm]
      exact .pure _
    | negative h =>
      obtain ⟨hm, ha⟩ := h
      refine (reads_byte _).bind (((takes_argument _).complete ha).finish ?_)
      rw [hm, if_neg (by decide), if_pos rfl]
      exact .pure _

/-! ## Single bytes -/

theorem reads_bool (b : Bool) : Reads Reader.bool (bool b) b := by
  cases b <;> exact fun _ => rfl

theorem reads_null : Reads Reader.null null () := fun _ => rfl

theorem takes_bool : Takes Reader.bool fun bs b => bs = bool b where
  sound h := by
    obtain ⟨b, _, mid, rfl, rfl, hn⟩ := takes_byte.split h
    split at hn
    · cases hn
      exact ⟨_, rfl, rfl⟩
    · cases hn
      exact ⟨_, rfl, rfl⟩
    · cases hn
  complete := by
    rintro _ b rfl
    exact reads_bool b

theorem takes_null : Takes Reader.null fun bs _ => bs = null where
  sound h := by
    obtain ⟨b, _, mid, rfl, rfl, hn⟩ := takes_byte.split h
    split at hn
    · rename_i hb
      subst hb
      cases hn
      exact ⟨_, rfl, rfl⟩
    · cases hn
  complete := by
    rintro _ ⟨⟩ rfl
    exact reads_null

/-! ## The next item -/

variable {m : Major} {n : Nat}

/-- A head shows its kind, and is as long as that takes. -/
theorem peek_of_isHead (h : IsHead m bs n) (rest : Bytes) :
    ∃ b, Reader.peek (bs ++ rest) = some (b, bs ++ rest) ∧ b.toNat / 32 = m.code := by
  obtain @⟨b, bs, n, hm, ha⟩ := h
  refine ⟨b, ?_, hm⟩
  match hr : bs ++ rest with
  | [] =>
    -- Only a short argument has no bytes of its own.
    have hb : b.toNat % 32 < 24 := by
      obtain ⟨rfl, -⟩ := List.append_eq_nil_iff.1 hr
      generalize b.toNat % 32 = info at ha
      cases ha with
      | short h => exact h
      | long hk hl =>
        have := Nat.two_pow_pos ‹_›
        rw [List.length_nil] at hl
        omega
    rw [List.cons_append, hr, Reader.peek, if_neg (by omega)]
  | _ :: _ => rw [List.cons_append, hr, Reader.peek]; simp

/-- A look at the next byte takes nothing. -/
theorem rest_of_look {test : UInt8 → Bool} {input rest : Bytes} {c : Bool}
    (h : (do return test (← Reader.peek) : Reader Bool) input = some (c, rest)) :
    rest = input := by
  obtain ⟨⟨b, mid⟩, hp, hn⟩ := Option.bind_eq_some_iff.1 h
  cases hn
  simp only [Reader.peek] at hp
  split at hp
  · cases hp
  · split at hp
    · cases hp
    · cases hp
      rfl
  · cases hp
    rfl

theorem rest_of_nextIsTag {input rest : Bytes} {c : Bool}
    (h : Reader.nextIsTag input = some (c, rest)) : rest = input :=
  rest_of_look h

theorem rest_of_nextIsNull {input rest : Bytes} {c : Bool}
    (h : Reader.nextIsNull input = some (c, rest)) : rest = input :=
  rest_of_look h

/-- A look at what comes next answers `c`, whatever follows, and takes nothing. -/
def Shows (look : Reader Bool) (bs : Bytes) (c : Bool) : Prop :=
  ∀ rest, look (bs ++ rest) = some (c, bs ++ rest)

theorem Shows.append {look : Reader Bool} {c : Bool} (h : Shows look bs c) (bs' : Bytes) :
    Shows look (bs ++ bs') c := fun rest => by
  rw [List.append_assoc]
  exact h (bs' ++ rest)

theorem Shows.eq {look : Reader Bool} {c d : Bool} {rest : Bytes} (h : Shows look bs c)
    (hl : look (bs ++ rest) = some (d, bs ++ rest)) : c = d := by
  have := (h rest).symm.trans hl
  simpa using this

theorem nextIsTag_of_isHead (h : IsHead m bs n) : Shows Reader.nextIsTag bs (m = .tag) := by
  intro rest
  obtain ⟨b, hb, hm⟩ := peek_of_isHead h rest
  show (Reader.peek (bs ++ rest)).bind _ = _
  rw [hb, Option.bind_some]
  show some (decide (b.toNat / 32 = Major.tag.code), _) = _
  rw [hm]
  cases m <;> rfl

theorem nextIsNull_of_isHead (h : IsHead m bs n) (hm : m ≠ .simple) :
    Shows Reader.nextIsNull bs false := by
  intro rest
  obtain ⟨b, hb, hc⟩ := peek_of_isHead h rest
  show (Reader.peek (bs ++ rest)).bind _ = _
  have : b ≠ 0xf6 := by
    rintro rfl
    cases m <;> simp [Major.code] at hc hm
  rw [hb, Option.bind_some]
  show some (decide (b = 0xf6), _) = _
  rw [decide_eq_false this]

theorem nextIsNull_null : Shows Reader.nextIsNull null true := by
  rintro (_ | _) <;> rfl

theorem nextIsNull_bool (b : Bool) : Shows Reader.nextIsNull (bool b) false := by
  rintro (_ | _) <;> cases b <;> rfl

/-! ## Whole items -/

/-- A whole item, and within it definite lengths only. -/
inductive IsItem : Bytes → Prop where
  | integer {bs : Bytes} {n : Int} (h : IsInteger bs n) : IsItem bs
  | bytes {bs a : Bytes} (h : IsBytes bs a) : IsItem bs
  | text {bs : Bytes} {s : String} (h : IsText bs s) : IsItem bs
  | array {hb : Bytes} {items : List Bytes} (hn : IsHead .array hb items.length)
      (h : ∀ i ∈ items, IsItem i) : IsItem (hb ++ items.flatten)
  | map {hb : Bytes} {items : List Bytes} {n : Nat} (hn : IsHead .map hb n)
      (hl : items.length = 2 * n) (h : ∀ i ∈ items, IsItem i) : IsItem (hb ++ items.flatten)
  | tag {hb bs : Bytes} {n : Nat} (ht : IsHead .tag hb n) (h : IsItem bs) : IsItem (hb ++ bs)
  | simple {bs : Bytes} {n : Nat} (h : IsHead .simple bs n) : IsItem bs

namespace IsItem

/-- An array whose items are given one after the other. -/
theorem listed {hb : Bytes} (items : List Bytes) (hn : IsHead .array hb items.length)
    (h : ∀ i ∈ items, IsItem i) (hb' : bs = hb ++ items.flatten) : IsItem bs :=
  hb' ▸ .array hn h

theorem null : IsItem null :=
  .simple (.intro (by decide) (.short (by decide)))

theorem bool (b : Bool) : IsItem (bool b) := by
  cases b <;> exact .simple (.intro (by decide) (.short (by decide)))

theorem length_pos (h : IsItem bs) : 0 < bs.length := by
  cases h with
  | integer h => cases h with | unsigned h | negative h => exact h.length_pos
  | simple h => exact h.length_pos
  | bytes h | text h =>
    obtain ⟨h⟩ := h
    exact Nat.lt_of_lt_of_le h.length_pos (by simp)
  | array h | map h | tag h => exact Nat.lt_of_lt_of_le h.length_pos (by simp)

end IsItem

end FlowAccess.Cbor
