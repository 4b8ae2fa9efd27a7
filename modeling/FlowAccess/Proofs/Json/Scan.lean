import FlowAccess.Json.Node
import FlowAccess.Json.Printer
import FlowAccess.Proofs.Literals

/-!
# Scanning printed trees

The text of a tree is cut into the tokens that the tree is made of (`scan_chars`). Nothing but a
word needs to know what follows it, as a word ends where a mark begins.

Text keeps the trees that are `Plain`: their numbers are integers of 64 bits, and their members
stand in ascending order.
-/

namespace FlowAccess.Json
open Text

mutual

/-- Numbers are integers of 64 bits, and the members of objects are in ascending order. -/
def Plain : Json → Prop
  | .number (.integer n) => -2 ^ 63 ≤ n ∧ n < 2 ^ 64
  | .number (.real _) => False
  | .array items => PlainItems items
  | .object members => members.Pairwise (·.1 < ·.1) ∧ PlainMembers members
  | _ => True

def PlainItems : List Json → Prop
  | [] => True
  | item :: rest => Plain item ∧ PlainItems rest

def PlainMembers : List (String × Json) → Prop
  | [] => True
  | (_, value) :: rest => Plain value ∧ PlainMembers rest

end

/-- The code points of a string. -/
def units (s : String) : List Nat := s.toList.map Char.toNat

mutual

/-- The tokens that a tree is written in. -/
def tokens : Json → List Token
  | .null => [.word "null".toList]
  | .bool true => [.word "true".toList]
  | .bool false => [.word "false".toList]
  | .number n => [.word n.chars]
  | .string s => [.string (units s)]
  | .array [] => [.openArray, .closeArray]
  | .array (item :: rest) => .openArray :: (tokens item ++ tokensItems rest)
  | .object [] => [.openObject, .closeObject]
  | .object ((name, value) :: rest) =>
    .openObject :: .string (units name) :: .colon :: (tokens value ++ tokensMembers rest)

/-- The items after the first, and the end of the array. -/
def tokensItems : List Json → List Token
  | [] => [.closeArray]
  | item :: rest => .comma :: (tokens item ++ tokensItems rest)

/-- The members after the first, and the end of the object. -/
def tokensMembers : List (String × Json) → List Token
  | [] => [.closeObject]
  | (name, value) :: rest =>
    .comma :: .string (units name) :: .colon :: (tokens value ++ tokensMembers rest)

end

/-! ## Marks and words -/

/-- A character that neither ends a word nor stands outside of one. -/
def WordChar (c : Char) : Prop := isBlank c = false ∧ c ≠ '"' ∧ punctuation? c = none

instance (c : Char) : Decidable (WordChar c) := inferInstanceAs (Decidable (_ ∧ _ ∧ _))

/-- A mark or the end of the text comes next. -/
def Ends : List Char → Prop
  | [] => True
  | c :: _ => isBlank c = false ∧ c ≠ '"' ∧ punctuation? c ≠ none

variable {c : Char} {cs rest : List Char}

theorem scan_mark {t : Token} (hb : isBlank c = false) (hq : c ≠ '"')
    (h : punctuation? c = some t) :
    scan .outside (c :: cs) = (scan .outside cs).map (t :: ·) := by
  rw [scan, if_neg (by simp [hb]), if_neg hq, h]

theorem scan_word_append {read w : List Char} (hw : ∀ c ∈ w, WordChar c) (hr : Ends rest) :
    scan (.word read) (w ++ rest) =
      (scan .outside rest).map (.word (read.reverse ++ w) :: ·) := by
  induction w generalizing read with
  | nil =>
    cases rest with
    | nil => simp [scan]
    | cons c cs =>
      obtain ⟨hb, hq, hp⟩ := hr
      obtain ⟨t, ht⟩ := Option.ne_none_iff_exists'.1 hp
      rw [scan_mark hb hq ht, List.nil_append, scan, if_neg (by simp [hb]), if_neg hq, ht]
      simp [Function.comp_def]
  | cons c w ih =>
    obtain ⟨hb, hq, hp⟩ := hw c (.head _)
    rw [List.cons_append, scan, if_neg (by simp [hb]), if_neg hq, hp]
    dsimp only
    rw [ih fun c hc => hw c (.tail _ hc)]
    simp

theorem scan_word {w : List Char} (hn : w ≠ []) (hw : ∀ c ∈ w, WordChar c) (hr : Ends rest) :
    scan .outside (w ++ rest) = (scan .outside rest).map (.word w :: ·) := by
  obtain ⟨c, w, rfl⟩ := List.exists_cons_of_ne_nil hn
  obtain ⟨hb, hq, hp⟩ := hw c (.head _)
  rw [List.cons_append, scan, if_neg (by simp [hb]), if_neg hq, hp]
  exact scan_word_append (fun c hc => hw c (.tail _ hc)) hr

theorem wordChar_of_mem {w : List Char} (h : w.all (fun c => decide (WordChar c)) = true) :
    ∀ c ∈ w, WordChar c := fun c hc =>
  of_decide_eq_true (List.all_eq_true.1 h c hc)

theorem wordChar_of_isDigit (h : Numeral.isDigit c = true) : WordChar c := by
  have hne {d : Char} (hd : Numeral.isDigit d = false) : c ≠ d := by
    rintro rfl
    rw [h] at hd
    cases hd
  refine ⟨?_, hne (by decide), ?_⟩
  · simp only [isBlank, Bool.or_eq_false_iff, decide_eq_false_iff_not]
    exact ⟨⟨⟨hne (by decide), hne (by decide)⟩, hne (by decide)⟩, hne (by decide)⟩
  · unfold punctuation?
    split <;> first | rfl | exact absurd rfl (hne (by decide))

theorem wordChar_of_mem_integer {n : Int} (h : c ∈ (Number.integer n).chars) : WordChar c := by
  unfold Number.chars at h
  dsimp only at h
  split at h
  · rcases List.mem_cons.1 h with rfl | h
    · decide
    · exact wordChar_of_isDigit (Numeral.isDigit_of_mem_digits h)
  · exact wordChar_of_isDigit (Numeral.isDigit_of_mem_digits h)

theorem integer_chars_ne_nil (n : Int) : (Number.integer n).chars ≠ [] := by
  unfold Number.chars
  dsimp only
  split
  · exact List.cons_ne_nil _ _
  · exact Numeral.digits_ne_nil _

/-! ## Strings -/

theorem hex4?_hexDigits4 {n : Nat} (h : n < 65536) {a b c d : Char}
    (hd : hexDigits4 n = [a, b, c, d]) : hex4? a b c d = some n := by
  simp only [hexDigits4, List.cons.injEq, and_true] at hd
  obtain ⟨rfl, rfl, rfl, rfl⟩ := hd
  have hm (m : Nat) : Hex.digit? (Nat.digitChar (m % 16)) = some (m % 16) :=
    Hex.digit?_digitChar (Nat.mod_lt m (by decide))
  simp only [hex4?, hm, Option.bind_eq_bind, Option.bind_some, Option.pure_def, Option.some.injEq]
  omega

/-- A short escape is read as the code point it stands for. -/
theorem scan_short {c : Char} {n : Nat} (hu : c ≠ 'u') (h : unescape? c = some n) (read : List Nat)
    (cs : List Char) : scan (.string read) ('\\' :: c :: cs) = scan (.string (n :: read)) cs := by
  rw [scan]
  · simp [h]
  · simp [hu]

theorem scan_escape (c : Char) (read : List Nat) (cs : List Char) :
    scan (.string read) (escape c ++ cs) = scan (.string (c.toNat :: read)) cs := by
  unfold escape
  iterate 7
    split
    · subst c
      exact scan_short (by decide) rfl read cs
  split
  · obtain ⟨a, b, d, e, hd⟩ : ∃ a b d e, hexDigits4 c.toNat = [a, b, d, e] := ⟨_, _, _, _, rfl⟩
    have hx := hex4?_hexDigits4 (by omega) hd
    rw [hd]
    show scan (.string read) ('\\' :: 'u' :: a :: b :: d :: e :: cs) = _
    rw [scan, hx]
    rfl
  · rw [List.singleton_append, scan]
    · rw [if_neg (by simp [*])]
    · assumption
    · simp [*]
    · simp [*]

theorem scan_string_append (cs : List Char) (read : List Nat) (rest : List Char) :
    scan (.string read) (cs.flatMap escape ++ '"' :: rest) =
      (scan .outside rest).map (.string (read.reverse ++ cs.map Char.toNat) :: ·) := by
  induction cs generalizing read with
  | nil => simp [scan]
  | cons c cs ih =>
    rw [List.flatMap_cons, List.append_assoc, scan_escape, ih]
    simp

theorem scan_string (s : String) (rest : List Char) :
    scan .outside (stringChars s ++ rest) =
      (scan .outside rest).map (.string (units s) :: ·) := by
  show scan .outside ('"' :: ((s.toList.flatMap escape ++ ['"']) ++ rest)) = _
  rw [scan, if_neg (by decide), if_pos rfl, List.append_assoc]
  exact scan_string_append s.toList [] rest

/-! ## Trees -/

theorem ends_charsItems (items : List Json) (rest : List Char) :
    Ends (charsItems items ++ rest) := by
  cases items <;> exact ⟨rfl, by decide, by simp [punctuation?]⟩

theorem ends_charsMembers (members : List (String × Json)) (rest : List Char) :
    Ends (charsMembers members ++ rest) := by
  cases members <;> exact ⟨rfl, by decide, by simp [punctuation?]⟩

mutual

theorem scan_chars : (j : Json) → j.Plain → (rest : List Char) → Ends rest →
    scan .outside (chars j ++ rest) = (scan .outside rest).map (tokens j ++ ·)
  | .null, _, _, hr => scan_word (by decide) (wordChar_of_mem (by decide)) hr
  | .bool true, _, _, hr => scan_word (by decide) (wordChar_of_mem (by decide)) hr
  | .bool false, _, _, hr => scan_word (by decide) (wordChar_of_mem (by decide)) hr
  | .number (.integer n), _, _, hr =>
    scan_word (integer_chars_ne_nil n) (fun _ => wordChar_of_mem_integer) hr
  | .string s, _, rest, _ => scan_string s rest
  | .array [], _, rest, _ => by
    show scan .outside ('[' :: ']' :: rest) = _
    rw [scan_mark rfl (by decide) rfl, scan_mark rfl (by decide) rfl]
    simp [tokens, Function.comp_def]
  | .array (item :: more), h, rest, _ => by
    show scan .outside ('[' :: ((chars item ++ charsItems more) ++ rest)) = _
    rw [scan_mark rfl (by decide) rfl, List.append_assoc,
      scan_chars item h.1 _ (ends_charsItems more rest), scan_charsItems more h.2 rest]
    simp [tokens, Function.comp_def]
  | .object [], _, rest, _ => by
    show scan .outside ('\x7b' :: '\x7d' :: rest) = _
    rw [scan_mark rfl (by decide) rfl, scan_mark rfl (by decide) rfl]
    simp [tokens, Function.comp_def]
  | .object ((name, value) :: more), ⟨_, hv, hm⟩, rest, _ => by
    show scan .outside ('\x7b' ::
      ((stringChars name ++ ':' :: (chars value ++ charsMembers more)) ++ rest)) = _
    rw [scan_mark rfl (by decide) rfl, List.append_assoc, scan_string, List.cons_append,
      scan_mark rfl (by decide) rfl, List.append_assoc,
      scan_chars value hv _ (ends_charsMembers more rest), scan_charsMembers more hm rest]
    simp [tokens, Function.comp_def]

theorem scan_charsItems : (items : List Json) → PlainItems items → (rest : List Char) →
    scan .outside (charsItems items ++ rest) = (scan .outside rest).map (tokensItems items ++ ·)
  | [], _, rest => by
    show scan .outside (']' :: rest) = _
    rw [scan_mark rfl (by decide) rfl]
    simp [tokensItems]
  | item :: more, h, rest => by
    show scan .outside (',' :: ((chars item ++ charsItems more) ++ rest)) = _
    rw [scan_mark rfl (by decide) rfl, List.append_assoc,
      scan_chars item h.1 _ (ends_charsItems more rest), scan_charsItems more h.2 rest]
    simp [tokensItems, Function.comp_def]

theorem scan_charsMembers : (members : List (String × Json)) → PlainMembers members →
    (rest : List Char) →
    scan .outside (charsMembers members ++ rest) =
      (scan .outside rest).map (tokensMembers members ++ ·)
  | [], _, rest => by
    show scan .outside ('\x7d' :: rest) = _
    rw [scan_mark rfl (by decide) rfl]
    simp [tokensMembers]
  | (name, value) :: more, h, rest => by
    show scan .outside (',' ::
      ((stringChars name ++ ':' :: (chars value ++ charsMembers more)) ++ rest)) = _
    rw [scan_mark rfl (by decide) rfl, List.append_assoc, scan_string, List.cons_append,
      scan_mark rfl (by decide) rfl, List.append_assoc,
      scan_chars value h.1 _ (ends_charsMembers more rest), scan_charsMembers more h.2 rest]
    simp [tokensMembers, Function.comp_def]

end

theorem scan_render {j : Json} (h : j.Plain) : scan .outside j.render.toList = some (tokens j) := by
  have := scan_chars j h [] trivial
  rw [List.append_nil, scan, Option.map_some, List.append_nil] at this
  rw [render, String.toList_ofList, this]

end FlowAccess.Json
