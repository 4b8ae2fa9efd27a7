import FlowAccess.Proofs.Literals
import FlowAccess.Timestamp

/-!
# Points in time read back

The date of a number of days exists and has that number of days (`CivilDate.toDays_ofDays`). So a
point in time whose year has four digits is read back from its text, leap seconds included
(`Timestamp.parse?_format`).
-/

namespace FlowAccess

/-! ## Calendar -/

namespace CivilDate

/-- The date of a day of a year, both counted from March. -/
def ofYearDay (year day : Int) : CivilDate :=
  let shifted := (5 * day + 2) / 153
  let month := if shifted < 10 then shifted + 3 else shifted - 9
  ⟨year + (if month ≤ 2 then 1 else 0), month.toNat, (day - (153 * shifted + 2) / 5 + 1).toNat⟩

/-- The days of an era of 400 years: a century, four years of it, a year of these, and a day of
that year. A year has 366 days if it is the last of four, but not if it is the last of a century,
unless it is the last of the era. -/
structure EraDay (dayOfEra : Int) where
  century : Int
  four : Int
  one : Int
  day : Int
  century_le : 0 ≤ century ∧ century ≤ 3
  four_le : 0 ≤ four ∧ four ≤ 24
  one_le : 0 ≤ one ∧ one ≤ 3
  day_le : 0 ≤ day ∧ day ≤ 365
  leap : day = 365 → one = 3 ∧ (four = 24 → century = 3)
  eq : dayOfEra = 36524 * century + 1461 * four + 365 * one + day

theorem exists_eraDay (days : Int) : Nonempty (EraDay ((days + 719468) % 146097)) := by
  obtain ⟨dayOfEra, hd⟩ : ∃ d, d = (days + 719468) % 146097 := ⟨_, rfl⟩
  have h : 0 ≤ dayOfEra := by omega
  have hlt : dayOfEra < 146097 := by omega
  rw [← hd]
  let century := min (dayOfEra / 36524) 3
  let four := min ((dayOfEra - 36524 * century) / 1461) 24
  let one := min ((dayOfEra - 36524 * century - 1461 * four) / 365) 3
  have hc : century = min (dayOfEra / 36524) 3 := rfl
  have hf : four = min ((dayOfEra - 36524 * century) / 1461) 24 := rfl
  have ho : one = min ((dayOfEra - 36524 * century - 1461 * four) / 365) 3 := rfl
  exact ⟨⟨century, four, one, dayOfEra - 36524 * century - 1461 * four - 365 * one,
    by omega, by omega, by omega, by omega, by omega, by omega⟩⟩

/-- The year of an era in which a day of the era lies. -/
def yearOfEra (dayOfEra : Int) : Int :=
  (dayOfEra - dayOfEra / 1460 + dayOfEra / 36524 - dayOfEra / 146096) / 365

/-- The year of an era. -/
def EraDay.year {dayOfEra : Int} (e : EraDay dayOfEra) : Int :=
  100 * e.century + 4 * e.four + e.one

theorem EraDay.year_div {dayOfEra : Int} (e : EraDay dayOfEra) (era : Int) :
    (400 * era + e.year) / 4 = 100 * era + 25 * e.century + e.four ∧
      (400 * era + e.year) / 100 = 4 * era + e.century ∧ (400 * era + e.year) / 400 = era := by
  obtain ⟨c, f, o, d, hc, hf, ho, hd, hl, heq⟩ := e
  dsimp only [year]
  refine ⟨?_, ?_, ?_⟩ <;> omega

/-- The quotients of a day of an era correct the division by 365: one counts the leap days so far,
the others the centuries. -/
theorem EraDay.yearOfEra_eq {dayOfEra : Int} (e : EraDay dayOfEra) :
    yearOfEra dayOfEra = e.year := by
  obtain ⟨c, f, o, d, hc, hf, ho, hd, hl, rfl⟩ := e
  dsimp only [year]
  have hcentury : (36524 * c + 1461 * f + 365 * o + d) / 36524 -
      (36524 * c + 1461 * f + 365 * o + d) / 146096 = c := by
    -- only on the last day of the era are there four whole centuries
    have hlt : 1461 * f + 365 * o + d < 36524 ∨ c = 3 ∧ 1461 * f + 365 * o + d = 36524 := by omega
    rcases hlt with hlt | ⟨rfl, heq⟩
    · have h1 : (36524 * c + 1461 * f + 365 * o + d) / 36524 = c := by omega
      have h2 : (36524 * c + 1461 * f + 365 * o + d) / 146096 = 0 := by omega
      rw [h1, h2, Int.sub_zero]
    · omega
  have hleap : (36524 * c + 1461 * f + 365 * o + d) / 1460 = 25 * c + f ∧
        24 * c + f + 365 * o + d < 1460 ∨
      (36524 * c + 1461 * f + 365 * o + d) / 1460 = 25 * c + f + 1 ∧
        1460 ≤ 24 * c + f + 365 * o + d := by omega
  unfold yearOfEra
  omega

theorem ofDays_eq {days : Int} (e : EraDay ((days + 719468) % 146097)) :
    ofDays days = ofYearDay (400 * ((days + 719468) / 146097) + e.year) e.day := by
  have hd : (days + 719468) % 146097 - (365 * e.year + e.year / 4 - e.year / 100) = e.day := by
    have heq := e.eq
    obtain ⟨h4, h100, -⟩ := e.year_div 0
    rw [Int.mul_zero, Int.zero_add] at h4 h100
    unfold EraDay.year at *
    omega
  unfold ofDays
  dsimp only
  rw [← yearOfEra, e.yearOfEra_eq, hd]
  unfold ofYearDay
  congr 1
  omega

/-- The parts of a date: January and February belong to the year before. -/
theorem ofYearDay_cases (year : Int) {day : Int} (h : 0 ≤ day ∧ day ≤ 365) :
    ∃ shifted month dayOfMonth : Nat, (ofYearDay year day).month = month ∧
      (ofYearDay year day).day = dayOfMonth ∧
      day = (153 * shifted + 2) / 5 + dayOfMonth - 1 ∧ 1 ≤ dayOfMonth ∧
      day < (153 * (shifted + 1) + 2) / 5 ∧
      (shifted ≤ 9 ∧ month = shifted + 3 ∧ (ofYearDay year day).year = year ∨
        10 ≤ shifted ∧ shifted ≤ 11 ∧ month + 9 = shifted ∧
          (ofYearDay year day).year = year + 1) := by
  refine ⟨((5 * day + 2) / 153).toNat, (ofYearDay year day).month, (ofYearDay year day).day,
    rfl, rfl, ?_⟩
  unfold ofYearDay
  dsimp only
  by_cases hs : (5 * day + 2) / 153 < 10
  · have hm : ¬(5 * day + 2) / 153 + 3 ≤ 2 := by omega
    rw [if_pos hs, if_neg hm]
    omega
  · have hm : (5 * day + 2) / 153 - 9 ≤ 2 := by omega
    rw [if_neg hs, if_pos hm]
    omega

theorem toDays_ofYearDay {year day : Int} (h : 0 ≤ day ∧ day ≤ 365) :
    (ofYearDay year day).toDays =
      365 * year + year / 4 - year / 100 + year / 400 + day - 719468 := by
  obtain ⟨shifted, month, dayOfMonth, hm, hd, hday, -, -, hc⟩ := ofYearDay_cases year h
  unfold toDays
  dsimp only
  rw [hm, hd]
  obtain ⟨hs, rfl, hy⟩ | ⟨hs, -, rfl, hy⟩ := hc
  · rw [if_neg (by omega), if_neg (by omega), hy]
    omega
  · rw [if_pos (by omega), if_pos (by omega), hy]
    omega

/-- A year that is counted from March has a leap day if the year in which it ends is a leap year. -/
theorem isValid_ofYearDay {year day : Int} (h : 0 ≤ day ∧ day ≤ 365)
    (hl : day = 365 → isLeapYear (year + 1)) : (ofYearDay year day).isValid := by
  obtain ⟨shifted, month, dayOfMonth, hm, hd, hday, hpos, hlt, hc⟩ :=
    ofYearDay_cases year h
  simp only [isValid, daysInMonth, hm, hd, decide_eq_true_eq]
  obtain ⟨hs, rfl, -⟩ | ⟨hs, hs', rfl, hy⟩ := hc
  · rw [if_neg (by omega)]
    split <;> omega
  · rw [hy]
    by_cases hfeb : month = 2
    · rw [if_pos hfeb]
      by_cases hleap : day = 365
      · rw [if_pos (hl hleap)]
        omega
      · split <;> omega
    · rw [if_neg hfeb, if_neg (by omega)]
      omega

theorem toDays_ofDays (days : Int) : (ofDays days).toDays = days := by
  obtain ⟨e⟩ := exists_eraDay days
  obtain ⟨h4, h100, h400⟩ := e.year_div ((days + 719468) / 146097)
  rw [ofDays_eq e, toDays_ofYearDay e.day_le, h4, h100, h400]
  have heq := e.eq
  unfold EraDay.year
  omega

theorem isValid_ofDays (days : Int) : (ofDays days).isValid := by
  obtain ⟨e⟩ := exists_eraDay days
  rw [ofDays_eq e]
  refine isValid_ofYearDay e.day_le fun hd => ?_
  obtain ⟨ho, hf⟩ := e.leap hd
  have hc := e.century_le
  have hf' := e.four_le
  refine decide_eq_true ?_
  unfold EraDay.year
  by_cases h24 : e.four = 24
  · have := hf h24
    omega
  · omega

theorem lt_of_isValid {d : CivilDate} (h : d.isValid) : d.month < 100 ∧ d.day < 100 := by
  simp only [isValid, decide_eq_true_eq] at h
  have hd : daysInMonth d.year d.month ≤ 31 := by
    unfold daysInMonth
    split
    · split <;> decide
    · split <;> decide
  omega

end CivilDate

/-! ## Text -/

namespace Timestamp

open Text

theorem digits?_padded {width n : Nat} (hw : 0 < width) (h : n < 10 ^ width) (rest : List Char) :
    digits? width (Numeral.padded width n ++ rest) = some (n, rest) := by
  have hl := Numeral.length_padded hw h
  have ht : (Numeral.padded width n ++ rest).take width = Numeral.padded width n := by
    rw [← hl, hl, List.take_left' hl]
  have hd : (Numeral.padded width n ++ rest).drop width = rest := List.drop_left' hl
  rw [digits?, ht, hd, if_pos ⟨hl, Numeral.all_isDigit_padded width n⟩, Numeral.value_padded]

theorem digits?_cons_of_not_isDigit {n : Nat} (hn : 0 < n) {c : Char}
    (hc : Numeral.isDigit c = false) (rest : List Char) : digits? n (c :: rest) = none := by
  obtain ⟨n, rfl⟩ := Nat.exists_eq_succ_of_ne_zero (Nat.ne_of_gt hn)
  rw [digits?, if_neg]
  rintro ⟨-, hall⟩
  rw [List.take_succ_cons, List.all_cons, hc] at hall
  cases hall

theorem mark?_cons {c : Char} {allowed : List Char} (h : c ∈ allowed) (rest : List Char) :
    mark? allowed (c :: rest) = some rest := if_pos h

/-- A fraction of up to nine places, before something that is no digit. -/
theorem fraction?_places {places n : Nat} (hp : 0 < places) (h9 : places ≤ 9) (h : n < 10 ^ places)
    {c : Char} (hc : Numeral.isDigit c = false) (rest : List Char) :
    fraction? ('.' :: (Numeral.padded places n ++ c :: rest)) =
      some (n * 10 ^ (9 - places), c :: rest) := by
  have hl := Numeral.length_padded hp h
  have hall : ∀ d ∈ Numeral.padded places n, Numeral.isDigit d = true :=
    List.all_eq_true.1 (Numeral.all_isDigit_padded places n)
  have ht : (Numeral.padded places n ++ c :: rest).takeWhile Numeral.isDigit =
      Numeral.padded places n := by
    rw [List.takeWhile_append_of_pos hall, List.takeWhile_cons_of_neg (by simp [hc]),
      List.append_nil]
  have hd : (Numeral.padded places n ++ c :: rest).dropWhile Numeral.isDigit = c :: rest := by
    rw [List.dropWhile_append_of_pos hall, List.dropWhile_cons_of_neg (by simp [hc])]
  have hne : Numeral.padded places n ≠ [] := fun hn => by
    rw [hn] at hl
    exact absurd hl (Nat.ne_of_lt hp)
  have hk : (Numeral.padded places n).take 9 = Numeral.padded places n :=
    List.take_of_length_le (by omega)
  rw [fraction?, ht, hd]
  dsimp only
  rw [if_neg hne, hk, Numeral.value_padded, hl]
  rfl

theorem fraction?_fractionChars {nanos : Nat} (h : nanos < 10 ^ 9) {c : Char}
    (hc : Numeral.isDigit c = false) (hp : c ≠ '.') (rest : List Char) :
    fraction? (fractionChars nanos ++ c :: rest) = some (nanos, c :: rest) := by
  unfold fractionChars
  split
  · rename_i h0
    rw [h0, List.nil_append]
    unfold fraction?
    split
    · rename_i heq
      cases heq
      exact absurd rfl hp
    · rfl
  · split
    · rw [List.cons_append, fraction?_places (by decide) (by decide) (by omega) hc]
      simp only [Option.some.injEq, Prod.mk.injEq, and_true]
      omega
    · split
      · rw [List.cons_append, fraction?_places (by decide) (by decide) (by omega) hc]
        simp only [Option.some.injEq, Prod.mk.injEq, and_true]
        omega
      · rw [List.cons_append, fraction?_places (by decide) (by decide) (by omega) hc]
        simp

/-- The date of a point in time. -/
def date (t : Timestamp) : CivilDate := CivilDate.ofDays (t.seconds / 86400)

/-- The year has four digits. -/
def HasPlainYear (t : Timestamp) : Prop := 0 ≤ t.date.year ∧ t.date.year ≤ 9999

instance (t : Timestamp) : Decidable t.HasPlainYear := inferInstanceAs (Decidable (_ ∧ _))

/-- What is read from the parts of a text. -/
theorem parseChars?_parts {year month day hour minute second nanos : Nat} (hy : year < 10000)
    (hm : month < 100) (hd : day < 100) (hh : hour < 100) (hmin : minute < 100)
    (hs : second < 100) (hn : nanos < 10 ^ 9) :
    parseChars? (Numeral.padded 4 year ++ '-' :: Numeral.padded 2 month ++
        '-' :: Numeral.padded 2 day ++ 'T' :: Numeral.padded 2 hour ++
        ':' :: Numeral.padded 2 minute ++ ':' :: Numeral.padded 2 second ++
        fractionChars nanos ++ ['Z']) =
      if CivilDate.isValid ⟨year, month, day⟩ ∧ hour ≤ 23 ∧ minute ≤ 59 ∧ second ≤ 60 then
        ofUnix? (86400 * CivilDate.toDays ⟨year, month, day⟩ + 3600 * hour + 60 * minute +
          min second 59) (if second = 60 then nanos + 1000000000 else nanos)
      else none := by
  have hz : offset? ['Z'] = some (0, []) := rfl
  simp only [List.append_assoc, List.cons_append]
  -- one reader after the other: a rewriting of the whole chain visits its end once for each of them
  rw [parseChars?, digits?_padded (by decide) hy]
  dsimp only [Option.bind_eq_bind, Option.bind_some]
  rw [mark?_cons (List.mem_singleton.2 rfl), Option.bind_some, digits?_padded (by decide) hm]
  dsimp only [Option.bind_some]
  rw [mark?_cons (List.mem_singleton.2 rfl), Option.bind_some, digits?_padded (by decide) hd]
  dsimp only [Option.bind_some]
  rw [mark?_cons (.head _), Option.bind_some, digits?_padded (by decide) hh]
  dsimp only [Option.bind_some]
  rw [mark?_cons (List.mem_singleton.2 rfl), Option.bind_some, digits?_padded (by decide) hmin]
  dsimp only [Option.bind_some]
  rw [mark?_cons (List.mem_singleton.2 rfl), Option.bind_some, digits?_padded (by decide) hs]
  dsimp only [Option.bind_some]
  rw [fraction?_fractionChars hn (by decide : Numeral.isDigit 'Z' = false) (by decide)]
  dsimp only [Option.bind_some]
  rw [hz]
  simp only [Option.bind_some, true_and, Int.mul_zero, Int.sub_zero]

/-- A point in time is read back from its text, in years of four digits. -/
theorem parse?_format {t : Timestamp} (h : t.HasPlainYear) : parse? t.format = some t := by
  obtain ⟨-, -, hnanos, hleap⟩ := t.valid
  have hvalid := CivilDate.isValid_ofDays (t.seconds / 86400)
  have hdays := CivilDate.toDays_ofDays (t.seconds / 86400)
  rw [parse?, format, String.toList_ofList, chars]
  unfold HasPlainYear date at h
  generalize hdate : CivilDate.ofDays (t.seconds / 86400) = d at h hvalid hdays
  obtain ⟨year, month, day⟩ := d
  obtain ⟨hm, hd⟩ := CivilDate.lt_of_isValid hvalid
  dsimp only at h hm hd ⊢
  have hy : ((year.toNat : Nat) : Int) = year := Int.toNat_of_nonneg h.1
  rw [yearChars, if_pos h]
  by_cases hl : 1000000000 ≤ t.nanos
  · simp only [hl, if_true]
    rw [parseChars?_parts (by omega) hm hd (by omega) (by omega) (by omega) (by omega), hy,
      if_pos ⟨hvalid, by omega⟩, hdays]
    refine (congrArg₂ ofUnix? (by omega) ?_).trans t.ofUnix?_self
    rw [if_pos (by omega)]
    omega
  · simp only [hl, if_false]
    rw [parseChars?_parts (by omega) hm hd (by omega) (by omega) (by omega) (by omega), hy,
      if_pos ⟨hvalid, by omega⟩, hdays]
    refine (congrArg₂ ofUnix? (by omega) ?_).trans t.ofUnix?_self
    rw [if_neg (by omega)]

/-- Other years are written with a sign in front. -/
theorem exists_yearChars_eq_cons {y : Int} (h : ¬(0 ≤ y ∧ y ≤ 9999)) :
    ∃ sign digits, yearChars y = sign :: digits ∧ Numeral.isDigit sign = false := by
  refine ⟨_, _, if_neg h, ?_⟩
  split <;> rfl

/-- A point in time in another year is not read back. -/
theorem parse?_format_eq_none {t : Timestamp} (h : ¬t.HasPlainYear) : parse? t.format = none := by
  obtain ⟨sign, digits, hy, hsign⟩ := exists_yearChars_eq_cons h
  rw [parse?, format, String.toList_ofList, chars]
  unfold date at hy
  simp only [hy, List.cons_append, parseChars?]
  rw [digits?_cons_of_not_isDigit (by decide) hsign]
  rfl

end Timestamp
end FlowAccess
