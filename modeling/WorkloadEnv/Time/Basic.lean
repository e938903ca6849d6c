/-! # Points in time

    A point in time is a date of the Gregorian calendar, counted on before its
    introduction and before the year zero, and a time of day, both in UTC and to
    the second.  The second 60 is kept: it is how a leap second is written. -/

namespace WorkloadEnv

/-! ## Dates -/

/-- A date of the Gregorian calendar; the year before 1 is 0. -/
structure Date where
  year : Int
  month : Nat
  day : Nat
  deriving DecidableEq, Repr

namespace Date

def isLeapYear (year : Int) : Bool :=
  year % 4 = 0 && (year % 100 ≠ 0 || year % 400 = 0)

def daysInMonth (year : Int) (month : Nat) : Nat :=
  if month = 2 then (if isLeapYear year then 29 else 28)
  else if month = 4 ∨ month = 6 ∨ month = 9 ∨ month = 11 then 30
  else 31

/-- The first and last year that can be told. -/
def firstYear : Int := -262143

def lastYear : Int := 262142

/-- A date that the calendar has and that lies within the range of years. -/
def Valid (d : Date) : Prop :=
  firstYear ≤ d.year ∧ d.year ≤ lastYear ∧ 1 ≤ d.month ∧ d.month ≤ 12 ∧
    1 ≤ d.day ∧ d.day ≤ daysInMonth d.year d.month

instance (d : Date) : Decidable d.Valid := by unfold Valid; infer_instance

/-- The day after. -/
def next (d : Date) : Date :=
  if d.day < daysInMonth d.year d.month then { d with day := d.day + 1 }
  else if d.month < 12 then ⟨d.year, d.month + 1, 1⟩
  else ⟨d.year + 1, 1, 1⟩

/-- The day before. -/
def previous (d : Date) : Date :=
  if 1 < d.day then { d with day := d.day - 1 }
  else if 1 < d.month then ⟨d.year, d.month - 1, daysInMonth d.year (d.month - 1)⟩
  else ⟨d.year - 1, 12, 31⟩

end Date

/-! ## Instants -/

/-- A point in time, in UTC. -/
structure Instant where
  date : Date
  hour : Nat
  minute : Nat
  second : Nat
  deriving DecidableEq, Repr

namespace Instant

/-- A date that can be told, and a time of day with a second of at most 60. -/
def Valid (t : Instant) : Prop :=
  t.date.Valid ∧ t.hour < 24 ∧ t.minute < 60 ∧ t.second ≤ 60

instance (t : Instant) : Decidable t.Valid := by unfold Valid; infer_instance

/-- Moves by a number of minutes of less than a day. -/
def shift (t : Instant) (minutes : Int) : Instant :=
  let total : Int := t.hour * 60 + t.minute + minutes
  let date :=
    if total < 0 then t.date.previous else if total < 1440 then t.date else t.date.next
  let inDay := (total % 1440).toNat
  { date, hour := inDay / 60, minute := inDay % 60, second := t.second }

/-! ## Written form -/

/-- Decimal digits, padded with zeros to the given width. -/
def padded (width n : Nat) : List Char :=
  let ds := Nat.toDigits 10 n
  List.replicate (width - ds.length) '0' ++ ds

/-- Four digits; with a sign where they are not enough or the year is negative. -/
def yearText (year : Int) : List Char :=
  if year < 0 then '-' :: padded 4 year.natAbs
  else if 9999 < year then '+' :: padded 4 year.natAbs
  else padded 4 year.natAbs

/-- The characters of the written form, such as `2024-05-01T10:00:00Z`. -/
def chars (t : Instant) : List Char :=
  yearText t.date.year ++ '-' :: padded 2 t.date.month ++ '-' :: padded 2 t.date.day ++
    'T' :: padded 2 t.hour ++ ':' :: padded 2 t.minute ++ ':' :: padded 2 t.second ++ ['Z']

/-- The written form, in UTC and to the second. -/
def text (t : Instant) : String := String.ofList t.chars

end Instant

end WorkloadEnv
