import Docbase.Number.Reading

namespace Docbase.Calendar

structure Date where
  year : Int
  month : Nat
  day : Nat
  deriving DecidableEq, Repr

/-- The date that lies `days` after the first of January 1970. Years are counted from March, in
eras of 400 years, so that the leap day is the last day of a year. -/
def dateOfDays (days : Int) : Date :=
  let shifted := days + 719468
  let era := shifted.fdiv 146097
  let dayOfEra := (shifted.fmod 146097).toNat
  let yearOfEra := (dayOfEra - dayOfEra / 1460 + dayOfEra / 36524 - dayOfEra / 146096) / 365
  let dayOfYear := dayOfEra - (365 * yearOfEra + yearOfEra / 4 - yearOfEra / 100)
  let monthFromMarch := (5 * dayOfYear + 2) / 153
  let day := dayOfYear - (153 * monthFromMarch + 2) / 5 + 1
  let month := if monthFromMarch < 10 then monthFromMarch + 3 else monthFromMarch - 9
  let year := (yearOfEra : Int) + era * 400 + (if month ≤ 2 then 1 else 0)
  ⟨year, month, day⟩

def daysOfDate (date : Date) : Int :=
  let year := if date.month ≤ 2 then date.year - 1 else date.year
  let yearOfEra := (year.fmod 400).toNat
  let monthFromMarch := if date.month ≤ 2 then date.month + 9 else date.month - 3
  let dayOfYear := (153 * monthFromMarch + 2) / 5 + date.day - 1
  let dayOfEra := yearOfEra * 365 + yearOfEra / 4 - yearOfEra / 100 + dayOfYear
  year.fdiv 400 * 146097 + dayOfEra - 719468

def date? (year month day : Nat) : Option Date :=
  let date : Date := ⟨year, month, day⟩
  if dateOfDays (daysOfDate date) = date then some date else none

def padded (width n : Nat) : String :=
  let digits := Nat.toDigits 10 n
  String.ofList (List.replicate (width - digits.length) '0' ++ digits)

/-- Thousandths of a second without trailing zeros, but with one digit at least. -/
def fraction (millis : Nat) : String :=
  if millis % 100 = 0 then padded 1 (millis / 100)
  else if millis % 10 = 0 then padded 2 (millis / 10)
  else padded 3 millis

/-- Date and time of day in UTC, or the bare count where the year has more than four digits. -/
def text (millis : Int) : String :=
  let date := dateOfDays (millis.fdiv 86400000)
  let time := (millis.fmod 86400000).toNat
  if date.year < -9999 || 9999 < date.year then toString millis
  else
    let sign := if date.year < 0 then "-" else ""
    sign ++ padded 4 date.year.natAbs ++ "-" ++ padded 2 date.month ++ "-" ++ padded 2 date.day ++
      " " ++ toString (time / 3600000) ++ ":" ++ padded 2 (time / 60000 % 60) ++ ":" ++
      padded 2 (time / 1000 % 60) ++ "." ++ fraction (time % 1000) ++ " +00:00:00"

def number? (width : Nat) (cs : List Char) : Option (Nat × List Char) :=
  if cs.length < width then none
  else (Number.natOfDigits? (cs.take width)).map fun n => (n, cs.drop width)

def sign? (c : Char) : List Char → Option (List Char)
  | first :: rest => if first = c then some rest else none
  | [] => none

/-- Takes the nanoseconds behind a point off the front, if there is a point. Digits behind the ninth
do not count. -/
def nanoseconds? : List Char → Option (Nat × List Char)
  | '.' :: cs =>
    let digits := cs.takeWhile Char.isDigit
    (Number.natOfDigits? ((digits ++ List.replicate 9 '0').take 9)).bind fun n =>
      if digits.isEmpty then none else some (n, cs.dropWhile Char.isDigit)
  | cs => some (0, cs)

/-- The minutes by which a place is ahead of UTC: `Z`, or a sign, hours and minutes. Nothing may
follow. -/
def offset? : List Char → Option Int
  | ['Z'] | ['z'] => some 0
  | sign :: cs => do
    let (hours, cs) ← number? 2 cs
    let (minutes, cs) ← number? 2 (← sign? ':' cs)
    let size : Int := 60 * hours + minutes
    if 23 < hours || 59 < minutes || !cs.isEmpty then none
    else if sign = '+' then some size
    else if sign = '-' then some (-size)
    else none
  | [] => none

def separator? : List Char → Option (List Char)
  | c :: rest => if c.toNat < 128 then some rest else none
  | [] => none

/-- The milliseconds of a date in the internet format, in which any ASCII character may stand
between date and time of day. A sixtieth second is allowed at the end of a month in UTC and counts
as the last instant before it. -/
def ofText? (s : String) : Option Int := do
  let (year, cs) ← number? 4 s.toList
  let (month, cs) ← number? 2 (← sign? '-' cs)
  let (day, cs) ← number? 2 (← sign? '-' cs)
  let (hour, cs) ← number? 2 (← separator? cs)
  let (minute, cs) ← number? 2 (← sign? ':' cs)
  let (second, cs) ← number? 2 (← sign? ':' cs)
  let (nanos, cs) ← nanoseconds? cs
  let ahead ← offset? cs
  let date ← date? year month day
  let leap := second = 60
  let minutes := daysOfDate date * 1440 + 60 * hour + minute - ahead
  let next := dateOfDays ((minutes + 1).fdiv 1440)
  if 23 < hour || 59 < minute || 60 < second then none
  else if leap && !((minutes + 1).fmod 1440 = 0 && next.day = 1) then none
  else
    let seconds := minutes * 60 + if leap then 59 else second
    some ((seconds * 1000000000 + if leap then 999999999 else nanos).tdiv 1000000)

end Docbase.Calendar
