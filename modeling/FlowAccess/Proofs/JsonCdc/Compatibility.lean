import FlowAccess.Proofs.JsonCdc.Canonical
import FlowAccess.Proofs.JsonCdc.Numbers

/-!
# Compatible mode

The mode of a reader matters at two kinds of trees, the older forms (`Legacy`): JSON numbers, which
only a compatible reader takes, and a `Void` with a payload, which only a strict one refuses.
Everywhere else both readers take the same steps, so that their outcomes differ only where the
strict one fails because of an older form somewhere in the tree (`extends_ofJson`).
-/

namespace FlowAccess

/-- Whether there is such a tree among a tree and all that it contains. -/
inductive Json.Somewhere (p : Json → Prop) : Json → Prop
  | here {json : Json} (h : p json) : Somewhere p json
  | item {items : List Json} {item : Json} (hm : item ∈ items) (h : Somewhere p item) :
    Somewhere p (.array items)
  | member {members : List (String × Json)} {name : String} {value : Json}
    (hm : (name, value) ∈ members) (h : Somewhere p value) : Somewhere p (.object members)

theorem Json.Somewhere.of_get? {p : Json → Prop} {json member : Json} {name : String}
    (hm : json.get? name = some member) (h : member.Somewhere p) : json.Somewhere p := by
  cases json with
  | object members =>
    obtain ⟨before, after, rfl, -⟩ := List.lookup_eq_some_iff.1 hm
    exact .member (List.mem_append_right before (.head after)) h
  | null | bool | number | string | array => cases hm

namespace Cadence.JsonCdc

/-- The older forms of the encoding: a number as such, and a `Void` with a payload. -/
inductive Legacy : Json → Prop
  | number (n : Json.Number) : Legacy (.number n)
  | void {json payload : Json} (ht : json.get? "type" = some (.string "Void"))
    (hv : json.get? "value" = some payload) : Legacy json

/-! ## Outcomes that differ for a reason -/

/-- The second outcome is the first, or the first is a failure for some reason. -/
def Extends {α : Type} (why : Prop) (x y : Except Error α) : Prop :=
  y = x ∨ (∃ e, x = .error e) ∧ why

namespace Extends

variable {α β : Type} {p q : Prop} {x y : Except Error α} {f g : α → Except Error β}

theorem refl (x : Except Error α) : Extends p x x := .inl rfl

theorem mono (h : Extends p x y) (hpq : p → q) : Extends q x y :=
  h.imp_right fun ⟨he, hp⟩ => ⟨he, hpq hp⟩

theorem of_ok (h : Extends p x y) {a : α} (hx : x = .ok a) : y = .ok a := by
  rcases h with rfl | ⟨⟨e, he⟩, -⟩
  · exact hx
  · rw [hx] at he
    cases he

theorem eq_of_not (h : Extends p x y) (hp : ¬p) : y = x := h.resolve_right fun hq => hp hq.2

/-- Steps that differ for a reason make for outcomes that do. -/
theorem bind (h : Extends p x y) (hf : ∀ a, x = .ok a → Extends p (f a) (g a)) :
    Extends p (x >>= f) (y >>= g) := by
  rcases h with rfl | ⟨⟨e, rfl⟩, hp⟩
  · cases y with
    | error e => exact refl _
    | ok a => exact hf a rfl
  · exact .inr ⟨⟨e, rfl⟩, hp⟩

/-- A step that both take. -/
theorem bind_same (hf : ∀ a, x = .ok a → Extends p (f a) (g a)) :
    Extends p (x >>= f) (x >>= g) :=
  (refl x).bind hf

end Extends

/-! ## What is read of a tree -/

theorem get?_of_need {fault : JsonCdcFault} {json member : Json} {name : String} {hlt}
    (h : need fault (member? json name) = .ok ⟨member, hlt⟩) : json.get? name = some member :=
  get?_of_member? (need_eq_ok_iff.1 h)

/-- The name of the kind that a tree says to have. -/
theorem get?_type_of_need {fault : JsonCdcFault} {json : Json} {kind : String}
    (h : need fault ((json.get? "type").bind Json.string?) = .ok kind) :
    json.get? "type" = some (.string kind) := by
  obtain ⟨j, hj, hs⟩ := Option.bind_eq_some_iff.1 (need_eq_ok_iff.1 h)
  cases j with
  | string s =>
    cases hs
    exact hj
  | null | bool | number | array | object => cases hs

/-! ## Both readers -/

/-- On that tree the compatible reader extends the strict one. -/
def Extended (json : Json) : Prop :=
  Extends (json.Somewhere Legacy) (ofJson ⟨false⟩ json) (ofJson ⟨true⟩ json)

theorem extends_readNumber (kind : NumberKind) (payload : Json) :
    Extends (Legacy payload) (readNumber ⟨false⟩ kind payload)
      (readNumber ⟨true⟩ kind payload) := by
  cases payload with
  | number n =>
    by_cases hk : kind.isFixed = true
    · simp only [readNumber, if_pos hk]
      exact .refl _
    · simp only [readNumber, if_neg hk]
      exact .inr ⟨⟨_, rfl⟩, .number n⟩
  | null | bool | string | array | object => exact .refl _

theorem extends_readSimple? (kind : String) (payload : Json) :
    Option.Rel (Extends (Legacy payload)) (readSimple? ⟨false⟩ kind payload)
      (readSimple? ⟨true⟩ kind payload) := by
  unfold readSimple?
  split
  · exact .some (.refl _)
  · exact .some (.refl _)
  · exact .some (.refl _)
  · exact .some (.refl _)
  · cases NumberKind.ofName? kind with
    | none => exact .none
    | some k => exact .some (extends_readNumber k payload)

section

variable {items entries fields : List Json}

theorem somewhere_head {item : Json} (h : item.Somewhere Legacy) :
    (Json.array (item :: items)).Somewhere Legacy :=
  .item (.head _) h

theorem somewhere_head_member {fault : JsonCdcFault} {item member : Json} {name : String} {hlt}
    (hm : need fault (member? item name) = .ok ⟨member, hlt⟩) (h : member.Somewhere Legacy) :
    (Json.array (item :: items)).Somewhere Legacy :=
  somewhere_head (h.of_get? (get?_of_need hm))

theorem somewhere_tail {item : Json} (h : (Json.array items).Somewhere Legacy) :
    (Json.array (item :: items)).Somewhere Legacy := by
  cases h with
  | here h =>
    cases h with
    | void ht => cases ht
  | item hm h => exact .item (.tail _ hm) h

theorem extends_readItems (ih : ∀ j, sizeOf j < sizeOf items → Extended j) :
    Extends ((Json.array items).Somewhere Legacy) (readItems ⟨false⟩ items)
      (readItems ⟨true⟩ items) := by
  induction items with
  | nil =>
    rw [readItems, readItems]
    exact .refl _
  | cons item rest hrest =>
    have hhead := ih item (sizeOf_head_lt item rest)
    have htail := hrest fun j hj => ih j (hj.trans (sizeOf_tail_lt item rest))
    rw [readItems, readItems]
    refine (hhead.mono somewhere_head).bind fun v _ => ?_
    exact (htail.mono somewhere_tail).bind fun vs _ => .refl _

theorem extends_readEntries (ih : ∀ j, sizeOf j < sizeOf entries → Extended j) :
    Extends ((Json.array entries).Somewhere Legacy) (readEntries ⟨false⟩ entries)
      (readEntries ⟨true⟩ entries) := by
  induction entries with
  | nil =>
    rw [readEntries, readEntries]
    exact .refl _
  | cons entry rest hrest =>
    have hhead {j : Json} (hj : sizeOf j < sizeOf entry) : Extended j :=
      ih j (hj.trans (sizeOf_head_lt entry rest))
    have htail := hrest fun j hj => ih j (hj.trans (sizeOf_tail_lt entry rest))
    rw [readEntries, readEntries]
    refine .bind_same fun ⟨key, hk⟩ hkey => .bind_same fun ⟨value, hv⟩ hvalue => ?_
    refine ((hhead hk).mono (somewhere_head_member hkey)).bind fun k _ => ?_
    refine ((hhead hv).mono (somewhere_head_member hvalue)).bind fun v _ => ?_
    exact (htail.mono somewhere_tail).bind fun vs _ => .refl _

theorem extends_readFields (ih : ∀ j, sizeOf j < sizeOf fields → Extended j) :
    Extends ((Json.array fields).Somewhere Legacy) (readFields ⟨false⟩ fields)
      (readFields ⟨true⟩ fields) := by
  induction fields with
  | nil =>
    rw [readFields, readFields]
    exact .refl _
  | cons field rest hrest =>
    have htail := hrest fun j hj => ih j (hj.trans (sizeOf_tail_lt field rest))
    rw [readFields, readFields]
    refine .bind_same fun name _ => .bind_same fun ⟨value, hv⟩ hvalue => ?_
    have hhead := ih value (hv.trans (sizeOf_head_lt field rest))
    refine (hhead.mono (somewhere_head_member hvalue)).bind fun v _ => ?_
    exact (htail.mono somewhere_tail).bind fun vs _ => .refl _

end

section

variable {json payload : Json}

theorem extends_readComposite (kind : CompositeKind)
    (ih : ∀ j, sizeOf j < sizeOf payload → Extended j) :
    Extends (payload.Somewhere Legacy) (readComposite ⟨false⟩ kind payload)
      (readComposite ⟨true⟩ kind payload) := by
  cases payload with
  | object members =>
    rw [readComposite, readComposite]
    refine .bind_same fun id _ => ?_
    split
    · rename_i fields hlt hm
      have hm := get?_of_member? hm
      have hf := extends_readFields fun j hj => ih j (hj.trans ((sizeOf_lt_array fields).trans hlt))
      exact (hf.mono (.of_get? hm)).bind fun vs _ => .refl _
    · exact .refl _
  | null | bool | number | string | array =>
    rw [readComposite, readComposite]
    · exact .refl _
    all_goals
      intro members hm
      cases hm

/-- The step of the recursion, from all smaller trees to a tree. -/
theorem extended_of_lt (ih : ∀ j, sizeOf j < sizeOf json → Extended j) : Extended json := by
  cases json with
  | object members =>
    rw [Extended, ofJson, ofJson]
    refine .bind_same fun kind hkind => ?_
    by_cases hvoid : kind = "Void"
    · simp only [if_pos hvoid]
      cases hv : (Json.object members).get? "value" with
      | none => exact .refl _
      | some payload =>
        subst hvoid
        exact .inr ⟨⟨_, rfl⟩, .here (.void (get?_type_of_need hkind) hv)⟩
    simp only [if_neg hvoid]
    refine .bind_same ?_
    rintro ⟨payload, smaller⟩ hp
    have hget := get?_of_need hp
    have hsimple := extends_readSimple? kind payload
    have hpayload (j : Json) (hj : sizeOf j < sizeOf payload) : Extended j :=
      ih j (hj.trans smaller)
    have hitems {items : List Json} (hi : payload = .array items) (j : Json)
        (hj : sizeOf j < sizeOf items) : Extended j :=
      hpayload j (hj.trans (hi ▸ sizeOf_lt_array items))
    dsimp only
    generalize readSimple? ⟨false⟩ kind payload = x at hsimple
    generalize readSimple? ⟨true⟩ kind payload = y at hsimple
    cases hsimple with
    | some h => exact h.mono fun hl => .of_get? hget (.here hl)
    | none =>
      dsimp only
      split
      · split
        · exact .refl _
        · exact ((ih _ smaller).mono (.of_get? hget)).bind fun v _ => .refl _
      · split
        · exact ((extends_readItems (hitems rfl)).mono (.of_get? hget)).bind fun vs _ => .refl _
        · exact .refl _
      · split
        · exact ((extends_readEntries (hitems rfl)).mono (.of_get? hget)).bind fun vs _ => .refl _
        · exact .refl _
      · exact (extends_readComposite .struct hpayload).mono (.of_get? hget)
      · exact (extends_readComposite .event hpayload).mono (.of_get? hget)
      · exact .refl _
  | null | bool | number | string | array =>
    rw [Extended, ofJson, ofJson]
    · exact .refl _
    all_goals
      intro members hm
      cases hm

end

/-- Where the readers differ, the strict one fails and there is an older form in the tree. -/
theorem extends_ofJson (json : Json) : Extended json :=
  extended_of_lt fun j _ => extends_ofJson j
termination_by sizeOf json

/-! ## Payloads of integers -/

/-- What a strict reader accepts a compatible one accepts with the same value, and a tree without
older forms is the same to both, failures too. An integer of either mode is read of the texts that
spell a number in the range of its kind, and a JSON number is read in compatible mode, if it is an
integer and in the range: as itself. -/
theorem compatible_extends (json : Json) :
    (∀ v, ofJson ⟨false⟩ json = .ok v → ofJson ⟨true⟩ json = .ok v) ∧
    (¬json.Somewhere Legacy → ofJson ⟨true⟩ json = ofJson ⟨false⟩ json) ∧
    ∀ (options : ValueOptions) (kind : NumberKind) (signed : Bool) (least greatest : ℤ),
      KindRange kind false signed least greatest →
      json.get? "type" = some (.string kind.name) →
      (∀ s, json.get? "value" = some (.string s) → ∀ v, ofJson options json = .ok v ↔
        ∃ z, Number.Spells signed s.toList z ∧ least ≤ z ∧ z ≤ greatest ∧
          ∃ n : Number, n.kind = kind ∧ n.raw = z ∧ v = .number n) ∧
      ∀ x, json.get? "value" = some (.number x) → ∀ v, ofJson options json = .ok v ↔
        options.compatible = true ∧ ∃ z, x = .integer z ∧ least ≤ z ∧ z ≤ greatest ∧
          ∃ n : Number, n.kind = kind ∧ n.raw = z ∧ v = .number n := by
  have hextends := extends_ofJson json
  refine ⟨fun v => hextends.of_ok, hextends.eq_of_not,
    fun options kind signed least greatest hrange ht => ⟨fun s hs v => ?_, fun x hx v => ?_⟩⟩
  · rw [ofJson_number ht hs, readNumber_string_iff hrange.isFixed_eq, hrange.signed_eq]
    exact hrange.exists_number_iff
  · rw [ofJson_number ht hx, readNumber_number_iff hrange.isFixed_eq]
    exact and_congr_right fun _ => hrange.exists_number_iff (p := (x = .integer ·))

/-- A tree of a kind and a string has no older form in it, whatever the string. -/
theorem not_somewhere_tagged {kind : String} (hk : kind ≠ "Void") (s : String) :
    ¬(tagged kind (.string s)).Somewhere Legacy := by
  have hstring {s : String} (h : (Json.string s).Somewhere Legacy) : False := by
    cases h with
    | here h =>
      cases h with
      | void ht => cases ht
  intro h
  cases h with
  | here h =>
    cases h with
    | void ht =>
      cases ht
      exact hk rfl
  | member hm h =>
    rcases List.mem_pair.1 hm with hm | hm
    · cases hm
      exact hstring h
    · cases hm
      exact hstring h

/-- The bounds of a kind: the least is read of a string in both modes, the greatest of a number in
one of them, and what follows it in neither. -/
theorem compatible_extends_bounds :
    (∃ n : Number, n.kind = .int8 ∧ n.raw = -128 ∧
      ofJson ⟨false⟩ (tagged "Int8" (.string "-128")) = .ok (.number n) ∧
      ofJson ⟨true⟩ (tagged "Int8" (.string "-128")) = .ok (.number n)) ∧
    (∃ n : Number, n.kind = .int8 ∧ n.raw = 127 ∧
      ofJson ⟨true⟩ (tagged "Int8" (.number (.integer 127))) = .ok (.number n)) ∧
    ofJson ⟨true⟩ (tagged "Int8" (.string "128")) =
      ofJson ⟨false⟩ (tagged "Int8" (.string "128")) := by
  have hspells : Number.Spells true "-128".toList (-128) := Number.integer?_eq_some_iff.1 rfl
  refine ⟨?_, ?_, (compatible_extends _).2.1 (not_somewhere_tagged (by decide) _)⟩
  · obtain ⟨hok, -, hread⟩ := compatible_extends (tagged "Int8" (.string "-128"))
    let n : Number := ⟨.int8, -128, by decide, by decide⟩
    have hstrict := ((hread ⟨false⟩ _ _ _ _ .int8 rfl).1 _ rfl (.number n)).2
      ⟨_, hspells, by decide, by decide, n, rfl, rfl, rfl⟩
    exact ⟨n, rfl, rfl, hstrict, hok _ hstrict⟩
  · obtain ⟨-, -, hread⟩ := compatible_extends (tagged "Int8" (.number (.integer 127)))
    let n : Number := ⟨.int8, 127, by decide, by decide⟩
    exact ⟨n, rfl, rfl, ((hread ⟨true⟩ _ _ _ _ .int8 rfl).2 _ rfl (.number n)).2
      ⟨rfl, _, rfl, by decide, by decide, n, rfl, rfl, rfl⟩⟩

end Cadence.JsonCdc
end FlowAccess
