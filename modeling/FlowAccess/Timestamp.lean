import FlowAccess.Text.Numeral

/-!
# Points in time

A point in time is a Unix second and a count of nanoseconds within it. The last second of a minute
may be followed by a leap second, whose nanoseconds count on from `10 ^ 9`. The text form is that
of RFC 3339, in the proleptic Gregorian calendar.
-/

namespace FlowAccess

/-! ## Calendar -/

/-- A day of the proleptic Gregorian calendar. -/
structure CivilDate where
  year : Int
  month : Nat
  day : Nat
  deriving DecidableEq

namespace CivilDate

def isLeapYear (y : Int) : Bool := (y % 4 = 0 ∧ y % 100 ≠ 0) ∨ y % 400 = 0

def daysInMonth (y : Int) (m : Nat) : Nat :=
  if m = 2 then if isLeapYear y then 29 else 28
  else if m = 4 ∨ m = 6 ∨ m = 9 ∨ m = 11 then 30
  else 31

/-- Whether the month and the day exist. -/
def isValid (d : CivilDate) : Bool :=
  1 ≤ d.month ∧ d.month ≤ 12 ∧ 1 ≤ d.day ∧ d.day ≤ daysInMonth d.year d.month

/-- Days since 1970-01-01. Years are counted from March, so that the leap day comes last. -/
def toDays (d : CivilDate) : Int :=
  let y := if d.month ≤ 2 then d.year - 1 else d.year
  let shifted : Int := if d.month ≤ 2 then d.month + 9 else d.month - 3
  let dayOfYear := (153 * shifted + 2) / 5 + d.day - 1
  365 * y + y / 4 - y / 100 + y / 400 + dayOfYear - 719468

/-- The date of a number of days since 1970-01-01. -/
def ofDays (days : Int) : CivilDate :=
  let z := days + 719468
  let era := z / 146097
  let dayOfEra := z % 146097
  let yearOfEra := (dayOfEra - dayOfEra / 1460 + dayOfEra / 36524 - dayOfEra / 146096) / 365
  let dayOfYear := dayOfEra - (365 * yearOfEra + yearOfEra / 4 - yearOfEra / 100)
  let shifted := (5 * dayOfYear + 2) / 153
  let day := dayOfYear - (153 * shifted + 2) / 5 + 1
  let month := if shifted < 10 then shifted + 3 else shifted - 9
  let year := yearOfEra + 400 * era + (if month ≤ 2 then 1 else 0)
  ⟨year, month.toNat, day.toNat⟩

end CivilDate

/-! ## Points in time -/

/-- Whether a second and its nanoseconds are a point in time: the second within the years that are
counted, and a leap second only at the end of a minute. -/
def isPointInTime (seconds : Int) (nanos : Nat) : Prop :=
  -8334601228800 ≤ seconds ∧ seconds ≤ 8210266876799 ∧ nanos < 2000000000 ∧
    (nanos < 1000000000 ∨ seconds % 60 = 59)

instance (seconds : Int) (nanos : Nat) : Decidable (isPointInTime seconds nanos) :=
  inferInstanceAs (Decidable (_ ∧ _))

/-- A point in time. -/
structure Timestamp where
  seconds : Int
  nanos : Nat
  valid : isPointInTime seconds nanos
  deriving DecidableEq

namespace Timestamp

def ofUnix? (seconds : Int) (nanos : Nat) : Option Timestamp :=
  if h : isPointInTime seconds nanos then some ⟨seconds, nanos, h⟩ else none

/-- The start of Unix time. -/
def epoch : Timestamp := ⟨0, 0, by decide⟩

instance : Inhabited Timestamp := ⟨epoch⟩

theorem ofUnix?_self (t : Timestamp) : ofUnix? t.seconds t.nanos = some t := dif_pos t.valid

/-! ## Text -/

open Text

/-- A year of four digits, or of five and more with a sign where four do not do. -/
def yearChars (y : Int) : List Char :=
  if 0 ≤ y ∧ y ≤ 9999 then Numeral.padded 4 y.toNat
  else (if y < 0 then '-' else '+') :: Numeral.padded 4 y.natAbs

/-- The shortest of no, three, six and nine places that loses nothing. -/
def fractionChars (nanos : Nat) : List Char :=
  if nanos = 0 then []
  else if nanos % 1000000 = 0 then '.' :: Numeral.padded 3 (nanos / 1000000)
  else if nanos % 1000 = 0 then '.' :: Numeral.padded 6 (nanos / 1000)
  else '.' :: Numeral.padded 9 nanos

/-- A leap second is second 60 of its minute. -/
def chars (t : Timestamp) : List Char :=
  let date := CivilDate.ofDays (t.seconds / 86400)
  let time := (t.seconds % 86400).toNat
  let leap := 1000000000 ≤ t.nanos
  let second := time % 60 + (if leap then 1 else 0)
  let nanos := if leap then t.nanos - 1000000000 else t.nanos
  yearChars date.year ++ '-' :: Numeral.padded 2 date.month ++ '-' :: Numeral.padded 2 date.day ++
    'T' :: Numeral.padded 2 (time / 3600) ++ ':' :: Numeral.padded 2 (time / 60 % 60) ++
    ':' :: Numeral.padded 2 second ++ fractionChars nanos ++ ['Z']

def format (t : Timestamp) : String := String.ofList t.chars

/-- A number of exactly `n` digits from the front of a text. -/
def digits? (n : Nat) (cs : List Char) : Option (Nat × List Char) :=
  let ds := cs.take n
  if ds.length = n ∧ ds.all Numeral.isDigit then some (Numeral.value ds, cs.drop n) else none

/-- One character from the front of a text. -/
def mark? (allowed : List Char) : List Char → Option (List Char)
  | [] => none
  | c :: rest => if c ∈ allowed then some rest else none

/-- The nanoseconds of a fraction of a second; digits after the ninth do not count. -/
def fraction? : List Char → Option (Nat × List Char)
  | '.' :: rest =>
    let ds := rest.takeWhile Numeral.isDigit
    if ds = [] then none
    else
      let kept := ds.take 9
      some (Numeral.value kept * Nat.pow 10 (9 - kept.length), rest.dropWhile Numeral.isDigit)
  | rest => some (0, rest)

/-- The minutes by which a local time is ahead. The minus sign may be the typographic one. -/
def offset? : List Char → Option (Int × List Char)
  | [] => none
  | c :: rest =>
    if c = 'Z' ∨ c = 'z' then some (0, rest)
    else if c = '+' ∨ c = '-' ∨ c = '\u2212' then do
      let (hours, rest) ← digits? 2 rest
      let rest ← mark? [':'] rest
      let (minutes, rest) ← digits? 2 rest
      if hours ≤ 23 ∧ minutes ≤ 59 then
        let ahead : Int := 60 * hours + minutes
        some (if c = '+' then ahead else -ahead, rest)
      else none
    else none

def parseChars? (cs : List Char) : Option Timestamp := do
  let (year, cs) ← digits? 4 cs
  let cs ← mark? ['-'] cs
  let (month, cs) ← digits? 2 cs
  let cs ← mark? ['-'] cs
  let (day, cs) ← digits? 2 cs
  let cs ← mark? ['T', 't', ' '] cs
  let (hour, cs) ← digits? 2 cs
  let cs ← mark? [':'] cs
  let (minute, cs) ← digits? 2 cs
  let cs ← mark? [':'] cs
  let (second, cs) ← digits? 2 cs
  let (nanos, cs) ← fraction? cs
  let (ahead, cs) ← offset? cs
  let date : CivilDate := ⟨year, month, day⟩
  if cs = [] ∧ date.isValid ∧ hour ≤ 23 ∧ minute ≤ 59 ∧ second ≤ 60 then
    let local_ : Int := 86400 * date.toDays + 3600 * hour + 60 * minute + min second 59
    ofUnix? (local_ - 60 * ahead) (if second = 60 then nanos + 1000000000 else nanos)
  else none

/-- Reads a date, a time of day and an offset. -/
def parse? (text : String) : Option Timestamp := parseChars? text.toList

end Timestamp
end FlowAccess
