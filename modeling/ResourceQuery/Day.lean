import ResourceQuery.Text.Integer

/-!
# Calendar days

A day of the proleptic Gregorian calendar, and three ways in which a text may write one: alone,
with a time of day after it, or as an RFC 3339 timestamp, whose own local date counts. `written`
gives the day with four digits of the year or more, so that texts of the years 0 to 9999 sort as
the days do.
-/
namespace ResourceQuery

/-- A year, month and day. -/
structure Day where
  /-- The year, the year before 1 being 0. -/
  year : Int
  /-- The month from 1 to 12. -/
  month : Nat
  /-- The day of the month from 1. -/
  day : Nat
deriving DecidableEq

namespace Day

/-- The year has a 29th of February. -/
def isLeapYear (year : Int) : Bool := (year % 4 == 0 && year % 100 != 0) || year % 400 == 0

/-- The number of days of a month, none for a number that is no month. -/
def daysInMonth (year : Int) : Nat → Nat
  | 2 => if isLeapYear year then 29 else 28
  | 4 | 6 | 9 | 11 => 30
  | 1 | 3 | 5 | 7 | 8 | 10 | 12 => 31
  | _ => 0

/-- The day is one of the calendar, whose years go from -262143 to 262142. -/
def isValid (date : Day) : Bool :=
  decide (-262143 ≤ date.year) && decide (date.year ≤ 262142) && decide (1 ≤ date.day)
    && decide (date.day ≤ daysInMonth date.year date.month)

/-- The number written by exactly so many digits, and the text after it. -/
def readExact? (count : Nat) (text : List Char) : Option (Nat × List Char) :=
  let digits := text.take count
  if digits.length = count && digits.all Char.isDigit then
    some (Nat.ofDigitChars 10 digits 0, text.drop count)
  else none

/-- The number written by one digit or more, and the text after it; `most` bounds the digits. -/
def readDigits? (most : Option Nat) (text : List Char) : Option (Nat × List Char) :=
  let digits := ((most.map text.take).getD text).takeWhile Char.isDigit
  if digits.isEmpty then none
  else some (Nat.ofDigitChars 10 digits 0, text.drop digits.length)

/-- The number written by one or two digits after any blanks, and the text after it. -/
def readNumber? (text : List Char) : Option (Nat × List Char) :=
  readDigits? (some 2) (Text.trimStart text)

/-- The year written after any blanks, and the text after it: up to four digits, or a sign and any
number of them. -/
def readYear? (text : List Char) : Option (Int × List Char) :=
  match Text.trimStart text with
  | '-' :: rest => (readDigits? none rest).map fun (year, rest) => (-(year : Int), rest)
  | '+' :: rest => (readDigits? none rest).map fun (year, rest) => ((year : Int), rest)
  | rest => (readDigits? (some 4) rest).map fun (year, rest) => ((year : Int), rest)

/-- The text after a character at its front. -/
def skip? (character : Char) : List Char → Option (List Char)
  | first :: rest => if first = character then some rest else none
  | [] => none

/-- A valid day. -/
def check? (date : Day) : Option Day := if date.isValid then some date else none

/-- The fields of a day between hyphens, each after any blanks, and the text after them. -/
def readFields? (text : List Char) : Option (Day × List Char) := do
  let (year, text) ← readYear? text
  let text ← skip? '-' text
  let (month, text) ← readNumber? text
  let text ← skip? '-' text
  let (day, text) ← readNumber? text
  return (⟨year, month, day⟩, text)

/-- A day alone. -/
def ofDate? (text : List Char) : Option Day := do
  let (date, rest) ← readFields? text
  if rest.isEmpty then date.check? else none

/-- The hour, minute and second are ones of a day, which may end with a leap second. -/
def isTime (hour minute second : Nat) : Bool :=
  decide (hour ≤ 23) && decide (minute ≤ 59) && decide (second ≤ 60)

/-- A day with a time of day after it, any blanks or none between. -/
def ofDateTime? (text : List Char) : Option Day := do
  let (date, text) ← readFields? text
  let (hour, text) ← readNumber? text
  let text ← skip? ':' text
  let (minute, text) ← readNumber? text
  let text ← skip? ':' text
  let (second, rest) ← readNumber? text
  if rest.isEmpty && isTime hour minute second then date.check? else none

/-- The text after a fraction of a second, which has at least one digit after its point. -/
def skipFraction? : List Char → Option (List Char)
  | '.' :: rest => (readDigits? none rest).map Prod.snd
  | rest => some rest

/-- The text is an offset from universal time of less than a day. -/
def isOffset : List Char → Bool
  | ['Z'] | ['z'] => true
  | sign :: rest =>
    (sign == '+' || sign == '-' || sign == '\u2212') &&
      (match readExact? 2 rest with
      | some (hour, ':' :: rest) =>
        match readExact? 2 rest with
        | some (minute, []) => decide (hour ≤ 23) && decide (minute ≤ 59)
        | _ => false
      | _ => false)
  | [] => false

/-- The local date of an RFC 3339 timestamp. -/
def ofTimestamp? (text : List Char) : Option Day := do
  let (year, text) ← readExact? 4 text
  let text ← skip? '-' text
  let (month, text) ← readExact? 2 text
  let text ← skip? '-' text
  let (day, text) ← readExact? 2 text
  let text ← (skip? 'T' text).or ((skip? 't' text).or (skip? ' ' text))
  let (hour, text) ← readExact? 2 text
  let text ← skip? ':' text
  let (minute, text) ← readExact? 2 text
  let text ← skip? ':' text
  let (second, text) ← readExact? 2 text
  let offset ← skipFraction? text
  if isTime hour minute second && isOffset offset then check? ⟨year, month, day⟩ else none

/-- The day that a text writes, blanks around it apart. -/
def ofText? (text : String) : Option Day :=
  let text := Text.trim text.toList
  ((ofDate? text).or (ofDateTime? text)).or (ofTimestamp? text)

/-- A number with zeros in front of it up to a width. -/
def padded (width value : Nat) : List Char :=
  let digits := Nat.toDigits 10 value
  List.replicate (width - digits.length) '0' ++ digits

/-- The day with hyphens, the year with a sign outside 0 to 9999. -/
def written (date : Day) : List Char :=
  let sign := if date.year < 0 then ['-'] else if 9999 < date.year then ['+'] else []
  sign ++ padded 4 date.year.natAbs ++ '-' :: padded 2 date.month ++ '-' :: padded 2 date.day

/-- The first second of the day. -/
def start (date : Day) : String := String.ofList (date.written ++ " 00:00:00".toList)

/-- The last second of the day. -/
def finish (date : Day) : String := String.ofList (date.written ++ " 23:59:59".toList)

end Day

end ResourceQuery
