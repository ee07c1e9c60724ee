import FeatureFlags.Text.Blank
import FeatureFlags.Text.Digits

/-!
# Points in time

A `Timestamp` is a point in universal time by the fields of the proleptic Gregorian calendar. It is
written in the form of RFC 3339 with `Z` for the offset and as many digits of the second's fraction
as are needed in steps of three.

`parse` reads that form with any offset, and is lenient about blanks before a number, signs and
more digits of the year, and the separators.
-/

namespace FeatureFlags

/-- Why a text is no timestamp. -/
inductive TimestampError where
  | outOfRange
  /-- The point in time lies beyond the calendar once the offset is taken off. -/
  | impossible
  /-- A part of the text is left out. -/
  | notEnough
  | invalid
  | tooShort
  | tooLong
  deriving DecidableEq

namespace TimestampError

def message : TimestampError → String
  | outOfRange => "input is out of range"
  | impossible => "no possible date and time matching input"
  | notEnough => "input is not enough for unique date and time"
  | invalid => "input contains invalid characters"
  | tooShort => "premature end of input"
  | tooLong => "trailing input"

end TimestampError

/-- A day of the calendar. -/
structure CalendarDay where
  year : Int
  month : Nat
  day : Nat
  deriving DecidableEq

namespace CalendarDay

def isLeapYear (year : Int) : Bool := year % 4 == 0 && (year % 100 != 0 || year % 400 == 0)

def daysInMonth (year : Int) (month : Nat) : Nat :=
  if month = 2 then if isLeapYear year then 29 else 28
  else if month = 4 ∨ month = 6 ∨ month = 9 ∨ month = 11 then 30
  else 31

/-- The days that the calendar covers. -/
def Valid (d : CalendarDay) : Prop :=
  -262143 ≤ d.year ∧ d.year ≤ 262142 ∧ 1 ≤ d.month ∧ d.month ≤ 12 ∧
  1 ≤ d.day ∧ d.day ≤ daysInMonth d.year d.month

instance (d : CalendarDay) : Decidable d.Valid := inferInstanceAs (Decidable (_ ∧ _))

/-- The number of days from 1 March of the year 0 on. Years that begin in March end with the leap
day, and their months have the lengths 31, 30, 31, 30, 31 over and over. -/
def number (d : CalendarDay) : Int :=
  let year := if d.month ≤ 2 then d.year - 1 else d.year
  let month := (d.month + 9) % 12
  365 * year + year / 4 - year / 100 + year / 400 +
    (((153 * month + 2) / 5 + d.day - 1 : Nat) : Int)

/-- The day with the given number. -/
def ofNumber (n : Int) : CalendarDay :=
  let era := n / 146097
  let dayOfEra := (n % 146097).toNat
  let yearOfEra := (dayOfEra - dayOfEra / 1460 + dayOfEra / 36524 - dayOfEra / 146096) / 365
  let dayOfYear := dayOfEra - (365 * yearOfEra + yearOfEra / 4 - yearOfEra / 100)
  let month := (5 * dayOfYear + 2) / 153
  let year : Int := yearOfEra + 400 * era
  { year := if month < 10 then year else year + 1
    month := if month < 10 then month + 3 else month - 9
    day := dayOfYear - (153 * month + 2) / 5 + 1 }

end CalendarDay

/-- A point in universal time. A second may be the sixtieth of its minute: a leap second. -/
structure Timestamp where
  date : CalendarDay
  hour : Nat
  minute : Nat
  second : Nat
  nanosecond : Nat
  date_valid : date.Valid
  hour_lt : hour < 24
  minute_lt : minute < 60
  second_le : second ≤ 60
  nanosecond_lt : nanosecond < 1000000000
  deriving DecidableEq

namespace Timestamp

/-- The beginning of the year 1970. -/
def epoch : Timestamp where
  date := ⟨1970, 1, 1⟩
  hour := 0
  minute := 0
  second := 0
  nanosecond := 0
  date_valid := by decide
  hour_lt := by decide
  minute_lt := by decide
  second_le := by decide
  nanosecond_lt := by decide

instance : Inhabited Timestamp := ⟨epoch⟩

/-- A number in at least `width` decimal digits. -/
def padded (width n : Nat) : List Char :=
  let digits := Nat.toDigits 10 n
  List.replicate (width - digits.length) '0' ++ digits

/-- A year in four digits; outside of these it has a sign. -/
def renderYear (year : Int) : List Char :=
  if 0 ≤ year ∧ year ≤ 9999 then padded 4 year.toNat
  else (if year < 0 then '-' else '+') :: padded 4 year.natAbs

/-- The fraction of a second in none, three, six or nine digits. -/
def renderFraction (nanosecond : Nat) : List Char :=
  if nanosecond = 0 then []
  else if nanosecond % 1000000 = 0 then '.' :: padded 3 (nanosecond / 1000000)
  else if nanosecond % 1000 = 0 then '.' :: padded 6 (nanosecond / 1000)
  else '.' :: padded 9 nanosecond

/-- The text of a timestamp. -/
def render (t : Timestamp) : List Char :=
  renderYear t.date.year ++ '-' :: (padded 2 t.date.month ++ '-' :: (padded 2 t.date.day ++
  'T' :: (padded 2 t.hour ++ ':' :: (padded 2 t.minute ++ ':' :: (padded 2 t.second ++
  (renderFraction t.nanosecond ++ ['Z']))))))

def text (t : Timestamp) : String := String.ofList t.render

/-- The digits at the start of a text, at least one and at most `most` of them if there is a
limit. -/
def parseDigits (most : Option Nat) (cs : List Char) :
    Except TimestampError (List Char × List Char) :=
  let digits := cs.takeWhile Char.isDigit
  let digits := match most with
    | some n => digits.take n
    | none => digits
  match cs, digits with
  | [], _ => .error .tooShort
  | _ :: _, [] => .error .invalid
  | cs, digits => .ok (digits, cs.drop digits.length)

/-- A number of one or two digits up to a bound, behind blanks. -/
def parseField (least greatest : Nat) (cs : List Char) :
    Except TimestampError (Nat × List Char) := do
  let (digits, rest) ← parseDigits (some 2) (Text.trimStart cs)
  let n := Text.decimalValue digits
  if least ≤ n ∧ n ≤ greatest then return (n, rest) else throw .outOfRange

/-- A year: up to four digits, or any number of them behind a sign. -/
def parseYear (cs : List Char) : Except TimestampError (Int × List Char) := do
  let (sign, most, cs) : Int × Option Nat × List Char := match Text.trimStart cs with
    | '-' :: rest => (-1, none, rest)
    | '+' :: rest => (1, none, rest)
    | rest => (1, some 4, rest)
  let (digits, rest) ← parseDigits most cs
  let n := sign * Text.decimalValue digits
  if -0x80000000 ≤ n ∧ n < 0x80000000 then return (n, rest) else throw .outOfRange

/-- A separator behind blanks. -/
def parseMark (mark : Char) (cs : List Char) : Except TimestampError (List Char) :=
  match Text.trimStart cs with
  | [] => .error .tooShort
  | c :: rest => if c = mark then .ok rest else .error .invalid

/-- The fraction of a second in nanoseconds, if there is one; further digits do not count. -/
def parseFraction : List Char → Except TimestampError (Nat × List Char)
  | '.' :: rest => do
    let (digits, rest) ← parseDigits (some 9) rest
    return (Text.decimalValue digits * Nat.pow 10 (9 - digits.length), rest.dropWhile Char.isDigit)
  | cs => .ok (0, cs)

/-- Two decimal digits, the first of them at most `most`. -/
def parsePair (cs : List Char) : Except TimestampError (Nat × List Char) :=
  match cs with
  | a :: b :: rest =>
    if a.isDigit && b.isDigit then .ok (Text.decimalValue [a, b], rest) else .error .invalid
  | [a] => if a.utf8Size < 2 then .error .tooShort else .error .invalid
  | [] => .error .tooShort

/-- The offset from universal time in minutes. -/
def parseOffset (cs : List Char) : Except TimestampError (Int × List Char) :=
  match cs with
  | [] => .error .tooShort
  | sign :: rest =>
    if sign = 'Z' ∨ sign = 'z' then .ok (0, rest)
    else if sign = '+' ∨ sign = '-' ∨ sign = '\u2212' then do
      let (hours, rest) ← parsePair rest
      let (minutes, rest) ← parsePair (rest.dropWhile fun c => c == ':' || Text.isBlank c)
      if 60 ≤ minutes then throw .outOfRange
      let size : Int := hours * 60 + minutes
      return (if sign = '+' then size else -size, rest)
    else .error .invalid

/-- The word for universal time, or an offset. -/
def parseZone (cs : List Char) : Except TimestampError (Int × List Char) :=
  match cs with
  | u :: t :: c :: rest =>
    if u.toUpper = 'U' ∧ t.toUpper = 'T' ∧ c.toUpper = 'C' then .ok (0, rest) else parseOffset cs
  | cs => parseOffset cs

/-- The point in time at the given local date and time. -/
def ofLocal (date : CalendarDay) (hour minute second nanosecond : Nat) (offset : Int) :
    Except TimestampError Timestamp :=
  let minutes : Int := date.number * 1440 + hour * 60 + minute - offset
  let date := if offset = 0 then date else CalendarDay.ofNumber (minutes / 1440)
  let hour := if offset = 0 then hour else (minutes % 1440 / 60).toNat
  let minute := if offset = 0 then minute else (minutes % 60).toNat
  if h : date.Valid ∧ hour < 24 ∧ minute < 60 ∧ second ≤ 60 ∧ nanosecond < 1000000000 then
    .ok ⟨date, hour, minute, second, nanosecond, h.1, h.2.1, h.2.2.1, h.2.2.2.1, h.2.2.2.2⟩
  else .error .impossible

/-- Reads a timestamp. -/
def parseChars (cs : List Char) : Except TimestampError Timestamp := do
  let (year, cs) ← parseYear cs
  let cs ← parseMark '-' cs
  let (month, cs) ← parseField 1 12 cs
  let cs ← parseMark '-' cs
  let (day, cs) ← parseField 1 31 cs
  let cs ← match cs with
    | [] => throw .notEnough
    | c :: rest => if c = 'T' ∨ c = 't' ∨ c = ' ' then pure rest else throw .invalid
  let (hour, cs) ← parseField 0 23 cs
  let cs ← parseMark ':' cs
  let (minute, cs) ← parseField 0 59 cs
  let cs ← parseMark ':' cs
  let (second, cs) ← parseField 0 60 cs
  let (nanosecond, cs) ← parseFraction cs
  let cs := Text.trimStart cs
  if cs.isEmpty then throw .notEnough
  let (offset, cs) ← parseZone cs
  if !(Text.trimStart cs).isEmpty then throw .tooLong
  let date : CalendarDay := ⟨year, month, day⟩
  if ¬date.Valid ∨ 1440 ≤ offset.natAbs then throw .outOfRange
  ofLocal date hour minute second nanosecond offset

/-- Reads a timestamp. -/
def parse (s : String) : Except TimestampError Timestamp := parseChars s.toList

end Timestamp

end FeatureFlags
