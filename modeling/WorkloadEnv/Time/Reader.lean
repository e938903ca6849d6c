import WorkloadEnv.Decode.Error
import WorkloadEnv.Text.Blank
import WorkloadEnv.Number.Range
import WorkloadEnv.Time.Basic

/-! # Reading points in time

    The relaxed form of the date and time of the Internet: fields of one digit
    are allowed, and blanks before a field, before its separator and before the
    offset.  A field out of its range is an error where it stands; a day that
    its month lacks, and an offset of a day or more, are one at the end, and so
    is a point in time that in UTC has a year that cannot be told. -/

namespace WorkloadEnv.Instant

/-- A reader takes what is left of the text. -/
abbrev Reader (α : Type) := List Char → Except TimeFault (α × List Char)

/-- The number that decimal digits stand for. -/
def digitsValue (ds : List Char) : Nat := ds.foldl (fun n d => 10 * n + (d.toNat - 48)) 0

/-- One decimal digit at least, `width` at most. -/
def readDigits (width : Nat) : Reader Nat
  | [] => .error .tooShort
  | cs =>
    let ds := (cs.take width).takeWhile Char.isDigit
    if ds.isEmpty then .error .invalid else .ok (digitsValue ds, cs.drop ds.length)

/-- A field of one or two digits from `low` to `high`, after blanks. -/
def readField (low high : Nat) : Reader Nat := fun cs => do
  let (n, cs) ← readDigits 2 (Text.skipBlanks cs)
  if low ≤ n ∧ n ≤ high then .ok (n, cs) else .error .outOfRange

/-- The separator of two fields, after blanks. -/
def readSeparator (separator : Char) : Reader Unit := fun cs =>
  match Text.skipBlanks cs with
  | [] => .error .tooShort
  | c :: cs => if c = separator then .ok ((), cs) else .error .invalid

/-- A year: up to four digits, or any number of them after a sign. -/
def readYear : Reader Int := fun cs => do
  let cs := Text.skipBlanks cs
  let (year, cs) ← match cs with
    | '-' :: cs => (readDigits cs.length cs).map fun r => (-(r.1 : Int), r.2)
    | '+' :: cs => (readDigits cs.length cs).map fun r => ((r.1 : Int), r.2)
    | cs => (readDigits 4 cs).map fun r => ((r.1 : Int), r.2)
  if (IntRange.signed 32).contains year then .ok (year, cs) else .error .outOfRange

/-- The character between date and time. -/
def readBetween : Reader Unit
  | [] => .error .tooShort
  | c :: cs => if c = 'T' ∨ c = 't' ∨ c = ' ' then .ok ((), cs) else .error .invalid

/-- The fraction of a second is read and left out. -/
def readFraction : Reader Unit
  | '.' :: cs => (readDigits 9 cs).map fun r => ((), r.2.dropWhile Char.isDigit)
  | cs => .ok ((), cs)

/-- The next two characters, which have to be there. -/
def readPair : Reader (Char × Char)
  | a :: b :: cs => .ok ((a, b), cs)
  | [c] => if c.utf8Size = 1 then .error .tooShort else .error .invalid
  | [] => .error .tooShort

/-- The minutes of an offset after its sign: two digits of hours and two of minutes. -/
def readOffsetMinutes : Reader Nat := fun cs => do
  let ((a, b), cs) ← readPair cs
  if !(a.isDigit && b.isDigit) then .error .invalid
  else
    let hours := digitsValue [a, b]
    let ((c, d), cs) ← readPair (cs.dropWhile fun c => c = ':' || Text.isBlank c)
    if !(c.isDigit && d.isDigit) then .error .invalid
    else if '6' ≤ c then .error .outOfRange
    else .ok (hours * 60 + digitsValue [c, d], cs)

/-- The offset from UTC in minutes: `Z`, `UTC`, or a sign and its hours and minutes. -/
def readOffset : Reader Int := fun cs =>
  match cs with
  | [] => .error .tooShort
  | c :: rest =>
    if c = 'Z' ∨ c = 'z' then .ok (0, rest)
    else if (cs.take 3).map Char.toUpper = ['U', 'T', 'C'] then .ok (0, cs.drop 3)
    else if c = '+' then (readOffsetMinutes rest).map fun r => ((r.1 : Int), r.2)
    else if c = '-' ∨ c = '\u2212' then (readOffsetMinutes rest).map fun r => (-(r.1 : Int), r.2)
    else .error .invalid

/-- Date, time of day and offset as they are written. -/
def readLocal : Reader (Instant × Int) := fun cs => do
  let (year, cs) ← readYear cs
  let (_, cs) ← readSeparator '-' cs
  let (month, cs) ← readField 1 12 cs
  let (_, cs) ← readSeparator '-' cs
  let (day, cs) ← readField 1 31 cs
  let (_, cs) ← readBetween cs
  let (hour, cs) ← readField 0 23 cs
  let (_, cs) ← readSeparator ':' cs
  let (minute, cs) ← readField 0 59 cs
  let (_, cs) ← readSeparator ':' cs
  let (second, cs) ← readField 0 60 cs
  let (_, cs) ← readFraction cs
  let (offset, cs) ← readOffset (Text.skipBlanks cs)
  .ok ((⟨⟨year, month, day⟩, hour, minute, second⟩, offset), cs)

/-- The point in time that a text tells. -/
def parse (s : String) : Except TimeFault Instant := do
  let ((t, offset), rest) ← readLocal s.toList
  if Text.skipBlanks rest ≠ [] then .error .tooLong
  else
    let utc := t.shift (-offset)
    if t.date.Valid ∧ offset.natAbs < 1440 then
      if utc.date.Valid then .ok utc else .error .impossible
    else .error .outOfRange

end WorkloadEnv.Instant
