import Mathlib.Data.List.TakeWhile
import ResourceQuery.Day
import ResourceQuery.Proofs.Text.FixedWidth

/-!
# Spellings of a day

A day of the years 0 to 9999 is spelled alone, with a time of day after it, or as a timestamp in which it is the
local date, whatever the offset. Every spelling, with blanks around it or without, is read as the day
(`Day.ofText?_eq_some`).
-/
namespace ResourceQuery

open Text (lastDigits length_lastDigits isDigit_of_mem_lastDigits ofDigitChars_lastDigits)

/-- A time of day. -/
structure Time where
  /-- The hour. -/
  hour : Nat
  /-- The minute. -/
  minute : Nat
  /-- The second. -/
  second : Nat

namespace Time

/-- The time as `hh:mm:ss`. -/
def text (time : Time) : List Char :=
  lastDigits 2 time.hour ++ ':' :: (lastDigits 2 time.minute ++ ':' :: lastDigits 2 time.second)

/-- The time is one of a day whose minutes have so many seconds after their first. -/
structure Within (time : Time) (seconds : Nat) : Prop where
  /-- The hour is one of a day. -/
  hour : time.hour ≤ 23
  /-- The minute is one of an hour. -/
  minute : time.minute ≤ 59
  /-- The second is one of a minute. -/
  second : time.second ≤ seconds

namespace Within

variable {time : Time} {seconds : Nat}

/-- The hour has two digits. -/
theorem hour_lt (within : time.Within seconds) : time.hour < 10 ^ 2 :=
  Nat.lt_of_le_of_lt within.hour (by decide)

/-- The minute has two digits. -/
theorem minute_lt (within : time.Within seconds) : time.minute < 10 ^ 2 :=
  Nat.lt_of_le_of_lt within.minute (by decide)

/-- The second has two digits. -/
theorem second_lt (within : time.Within 60) : time.second < 10 ^ 2 :=
  Nat.lt_of_le_of_lt within.second (by decide)

/-- A time is one of a day whose minutes have more seconds. -/
theorem mono {more : Nat} (within : time.Within seconds) (fewer : seconds ≤ more) : time.Within more :=
  ⟨within.hour, within.minute, Nat.le_trans within.second fewer⟩

/-- The time passes the check of times of day. -/
theorem isTime_eq (within : time.Within 60) : Day.isTime time.hour time.minute time.second = true := by
  simp only [Day.isTime, within.hour, within.minute, within.second, decide_true, Bool.and_self]

end Within

end Time

namespace Day

/-! ### Spellings -/

/-- A day of the calendar whose year has four digits. -/
structure IsCommon (date : Day) : Prop where
  /-- It is a day of the calendar. -/
  valid : date.isValid = true
  /-- It is not before the year 0. -/
  early : 0 ≤ date.year
  /-- It is not after the year 9999. -/
  late : date.year ≤ 9999

/-- The day as `YYYY-MM-DD`. -/
def text (date : Day) : List Char :=
  lastDigits 4 date.year.toNat ++ '-' :: (lastDigits 2 date.month ++ '-' :: lastDigits 2 date.day)

/-- An offset from universal time. -/
inductive Offset : List Char → Prop where
  /-- None, by a letter. -/
  | universal {letter : Char} (known : letter = 'Z' ∨ letter = 'z') : Offset [letter]
  /-- Hours and minutes, less than a day. -/
  | shifted {sign : Char} {hour minute : Nat} (known : sign = '+' ∨ sign = '-') (hours : hour ≤ 23)
      (minutes : minute ≤ 59) : Offset (sign :: (lastDigits 2 hour ++ ':' :: lastDigits 2 minute))

/-- A fraction of a second, or none. -/
inductive Fraction : List Char → Prop where
  /-- None. -/
  | none : Fraction []
  /-- Digits after a point. -/
  | digits {digits : List Char} (numeral : Text.IsNumeral digits) : Fraction ('.' :: digits)

/-- The ways to spell a day; the last second of a day may be a leap second. -/
inductive Spells (date : Day) : List Char → Prop where
  /-- Alone. -/
  | alone : Spells date date.text
  /-- With a time of day. -/
  | timed {time : Time} (within : time.Within 60) : Spells date (date.text ++ ' ' :: time.text)
  /-- As a timestamp, in which the day is the local one. -/
  | stamped {mark : Char} {time : Time} {fraction offset : List Char} (known : mark = 'T' ∨ mark = 't' ∨ mark = ' ')
      (within : time.Within 60) (part : Fraction fraction) (shift : Offset offset) :
      Spells date (date.text ++ mark :: (time.text ++ (fraction ++ offset)))

/-- A text writes the day: it is a spelling of the day between blanks. -/
def Writes (text : String) (date : Day) : Prop := ∃ spelling, Text.Between text.toList spelling ∧ Spells date spelling

/-! ### Fields -/

/-- A month has thirty-one days at most. -/
theorem daysInMonth_le (year : Int) (month : Nat) : daysInMonth year month ≤ 31 := by
  unfold daysInMonth
  split
  · split <;> decide
  all_goals decide

/-- A month that has days is one of twelve. -/
theorem month_le_of_daysInMonth {year : Int} {month : Nat} (present : 0 < daysInMonth year month) : month ≤ 12 := by
  unfold daysInMonth at present
  split at present <;> omega

namespace IsCommon

variable {date : Day} (common : date.IsCommon)

include common

/-- The year has four digits. -/
theorem year_lt : date.year.toNat < 10 ^ 4 := by
  have late := common.late
  omega

/-- The day is one of its month. -/
theorem day_mem : 1 ≤ date.day ∧ date.day ≤ daysInMonth date.year date.month := by
  have valid := common.valid
  simp only [isValid, Bool.and_eq_true, decide_eq_true_eq] at valid
  exact ⟨valid.1.2, valid.2⟩

/-- The month has two digits. -/
theorem month_lt : date.month < 10 ^ 2 := by
  obtain ⟨first, last⟩ := common.day_mem
  have twelve := month_le_of_daysInMonth (Nat.lt_of_lt_of_le first last)
  omega

/-- The day of the month has two digits. -/
theorem day_lt : date.day < 10 ^ 2 := by
  have last := Nat.le_trans common.day_mem.2 (daysInMonth_le date.year date.month)
  omega

/-- The year is the number of its digits. -/
theorem toNat_year : (date.year.toNat : Int) = date.year := Int.toNat_of_nonneg common.early

/-- The day passes the check. -/
theorem check?_eq : check? date = some date := if_pos common.valid

end IsCommon

/-! ### Readings of digits -/

section Digits

variable {width value : Nat}

/-- Digits of fixed width are taken from the front of a text. -/
theorem take_lastDigits (rest : List Char) : (lastDigits width value ++ rest).take width = lastDigits width value :=
  List.take_left' (length_lastDigits width value)

/-- What follows digits of fixed width is left. -/
theorem drop_lastDigits (rest : List Char) : (lastDigits width value ++ rest).drop width = rest :=
  List.drop_left' (length_lastDigits width value)

/-- Exactly so many digits are read as their number, whatever follows them. -/
theorem readExact?_lastDigits (fits : value < 10 ^ width) (rest : List Char) :
    readExact? width (lastDigits width value ++ rest) = some (value, rest) := by
  have digits : (lastDigits width value).all Char.isDigit = true :=
    List.all_eq_true.2 fun digit member => isDigit_of_mem_lastDigits member
  simp only [readExact?, take_lastDigits, drop_lastDigits, length_lastDigits, digits, decide_true, Bool.and_self,
    if_true, ofDigitChars_lastDigits fits]

/-- Digits of some width begin with a digit. -/
theorem exists_lastDigits_eq_cons (value : Nat) (positive : 0 < width) :
    ∃ digit digits, lastDigits width value = digit :: digits ∧ digit.isDigit = true := by
  cases found : lastDigits width value with
  | nil =>
    have length := length_lastDigits width value
    rw [found, List.length_nil] at length
    omega
  | cons digit digits =>
    have member : digit ∈ lastDigits width value := found ▸ List.mem_cons_self
    exact ⟨digit, digits, rfl, isDigit_of_mem_lastDigits member⟩

/-- Digits are no blanks. -/
theorem isBlank_of_mem_lastDigits {digit : Char} (member : digit ∈ lastDigits width value) :
    Text.isBlank digit = false := Text.isBlank_of_isDigit (isDigit_of_mem_lastDigits member)

/-- Digits of some width neither begin nor end with a blank. -/
theorem solid_lastDigits (positive : 0 < width) : Text.Solid (lastDigits width value) := by
  obtain ⟨digit, digits, found, -⟩ := exists_lastDigits_eq_cons value positive
  exact .of_forall (found ▸ List.cons_ne_nil digit digits) fun _ => isBlank_of_mem_lastDigits

/-- Digits are read as their number where no more digits may be read, whatever follows them. -/
theorem readDigits?_lastDigits (positive : 0 < width) (fits : value < 10 ^ width) (rest : List Char) :
    readDigits? (some width) (lastDigits width value ++ rest) = some (value, rest) := by
  have whole : (lastDigits width value).takeWhile Char.isDigit = lastDigits width value :=
    List.takeWhile_eq_self_iff.2 fun digit member => isDigit_of_mem_lastDigits member
  have present : (lastDigits width value).isEmpty = false := by
    obtain ⟨digit, digits, found, -⟩ := exists_lastDigits_eq_cons value positive
    rw [found]
    rfl
  simp only [readDigits?, Option.map_some, Option.getD_some, take_lastDigits, whole, present, length_lastDigits,
    drop_lastDigits, ofDigitChars_lastDigits fits, Bool.false_eq_true, if_false]

/-- Two digits after any blanks are read as their number, whatever follows them. -/
theorem readNumber?_lastDigits (blanks : List Char) (blank : ∀ character ∈ blanks, Text.isBlank character = true)
    (fits : value < 10 ^ 2) (rest : List Char) :
    readNumber? (blanks ++ (lastDigits 2 value ++ rest)) = some (value, rest) := by
  rw [readNumber?, (solid_lastDigits (by decide)).trimStart_append blank]
  exact readDigits?_lastDigits (by decide) fits rest

/-- Four digits are read as a year without a sign, whatever follows them. -/
theorem readYear?_lastDigits (fits : value < 10 ^ 4) (rest : List Char) :
    readYear? (lastDigits 4 value ++ rest) = some ((value : Int), rest) := by
  have solid : Text.Solid (lastDigits 4 value) := solid_lastDigits (by decide)
  have kept : Text.trimStart ([] ++ (lastDigits 4 value ++ rest)) = lastDigits 4 value ++ rest :=
    solid.trimStart_append (List.forall_mem_nil _) rest
  rw [List.nil_append] at kept
  obtain ⟨digit, digits, found, isDigit⟩ := exists_lastDigits_eq_cons value (show 0 < 4 by decide)
  have unsigned : ∀ sign others, lastDigits 4 value ++ rest = sign :: others → sign.isDigit = true := by
    intro sign others begins
    rw [found, List.cons_append] at begins
    rw [← (List.cons.inj begins).1]
    exact isDigit
  unfold readYear?
  rw [kept]
  split
  · next begins => exact absurd (unsigned _ _ begins) (by decide)
  · next begins => exact absurd (unsigned _ _ begins) (by decide)
  · rw [readDigits?_lastDigits (by decide) fits rest]
    rfl

end Digits

/-! ### Ends of spellings -/

/-- A written time neither begins nor ends with a blank. -/
theorem solid_time (time : Time) : Text.Solid time.text := by
  have hour : Text.Solid (lastDigits 2 time.hour) := solid_lastDigits (by decide)
  have second : Text.Solid (lastDigits 2 time.second) := solid_lastDigits (by decide)
  simpa [Time.text] using hour.append second (':' :: (lastDigits 2 time.minute ++ [':']))

/-- A written day neither begins nor ends with a blank. -/
theorem solid_text (date : Day) : Text.Solid date.text := by
  have year : Text.Solid (lastDigits 4 date.year.toNat) := solid_lastDigits (by decide)
  have day : Text.Solid (lastDigits 2 date.day) := solid_lastDigits (by decide)
  simpa [text] using year.append day ('-' :: (lastDigits 2 date.month ++ ['-']))

/-- An offset neither begins nor ends with a blank. -/
theorem Offset.solid {offset : List Char} (shift : Offset offset) : Text.Solid offset := by
  cases shift with
  | universal known =>
    rcases known with rfl | rfl
    · exact .of_forall (List.cons_ne_nil _ _) (List.forall_mem_singleton.2 (by decide))
    · exact .of_forall (List.cons_ne_nil _ _) (List.forall_mem_singleton.2 (by decide))
  | @shifted sign hour minute known =>
    have first : Text.Solid [sign] := by
      rcases known with rfl | rfl
      · exact .of_forall (List.cons_ne_nil _ _) (List.forall_mem_singleton.2 (by decide))
      · exact .of_forall (List.cons_ne_nil _ _) (List.forall_mem_singleton.2 (by decide))
    have last : Text.Solid (lastDigits 2 minute) := solid_lastDigits (by decide)
    simpa using first.append last (lastDigits 2 hour ++ [':'])

/-- An offset is not empty. -/
theorem Offset.ne_nil {offset : List Char} (shift : Offset offset) : offset ≠ [] := by
  cases shift with
  | universal known => exact List.cons_ne_nil _ _
  | shifted known => exact List.cons_ne_nil _ _

/-- A spelling neither begins nor ends with a blank. -/
theorem Spells.solid {date : Day} {spelling : List Char} (spells : Spells date spelling) : Text.Solid spelling := by
  cases spells with
  | alone => exact solid_text date
  | @timed time => exact (solid_text date).append (solid_time time) [' ']
  | @stamped mark time fraction offset known within part shift =>
    simpa using (solid_text date).append shift.solid (mark :: (time.text ++ fraction))

/-! ### Readings of spellings -/

/-- A character is skipped where it stands at the front. -/
theorem skip?_self (character : Char) (rest : List Char) : skip? character (character :: rest) = some rest :=
  if_pos rfl

namespace IsCommon

variable {date : Day} (common : date.IsCommon)

include common

/-- The fields of a spelled day are read, whatever follows them. -/
theorem readFields?_text (rest : List Char) : readFields? (date.text ++ rest) = some (date, rest) := by
  have month : readNumber? (lastDigits 2 date.month ++ _) = some (date.month, _) :=
    readNumber?_lastDigits [] nofun common.month_lt ('-' :: (lastDigits 2 date.day ++ rest))
  have day : readNumber? (lastDigits 2 date.day ++ rest) = some (date.day, rest) :=
    readNumber?_lastDigits [] nofun common.day_lt rest
  simp only [readFields?, text, List.append_assoc, List.cons_append, readYear?_lastDigits common.year_lt,
    skip?_self, month, day, Option.bind_eq_bind, Option.bind_some, common.toNat_year]
  rfl

/-- A day alone is read as the day. -/
theorem ofDate?_text : ofDate? date.text = some date := by
  have read := common.readFields?_text []
  rw [List.append_nil] at read
  rw [ofDate?, read]
  exact common.check?_eq

/-- A day with something after it is no day alone. -/
theorem ofDate?_append {rest : List Char} (more : rest ≠ []) : ofDate? (date.text ++ rest) = none := by
  rw [ofDate?, common.readFields?_text]
  cases rest with
  | nil => contradiction
  | cons => rfl

/-- A day with a time of day after blanks is read as the day, if nothing follows. -/
theorem ofDateTime?_text {time : Time} (within : time.Within 60) (blanks : List Char)
    (blank : ∀ character ∈ blanks, Text.isBlank character = true) (rest : List Char) :
    ofDateTime? (date.text ++ (blanks ++ (time.text ++ rest))) = if rest.isEmpty then some date else none := by
  have hour := readNumber?_lastDigits blanks blank within.hour_lt
    (':' :: (lastDigits 2 time.minute ++ ':' :: (lastDigits 2 time.second ++ rest)))
  have minute : readNumber? (lastDigits 2 time.minute ++ _) = some (time.minute, _) :=
    readNumber?_lastDigits [] nofun within.minute_lt (':' :: (lastDigits 2 time.second ++ rest))
  have second : readNumber? (lastDigits 2 time.second ++ rest) = some (time.second, rest) :=
    readNumber?_lastDigits [] nofun within.second_lt rest
  simp only [ofDateTime?, common.readFields?_text, Time.text, List.append_assoc, List.cons_append, hour,
    skip?_self, minute, second, Option.bind_eq_bind, Option.bind_some, within.isTime_eq, Bool.and_true,
    common.check?_eq]

/-- A day before something that is neither a blank nor a digit has no time of day. -/
theorem ofDateTime?_cons {mark : Char} (solid : Text.isBlank mark = false) (apart : mark.isDigit = false)
    (rest : List Char) : ofDateTime? (date.text ++ mark :: rest) = none := by
  have unread : readNumber? (mark :: rest) = none := by
    rw [readNumber?, Text.trimStart, List.dropWhile_cons_of_neg (by simp [solid]), readDigits?]
    simp [apart]
  simp only [ofDateTime?, common.readFields?_text, Option.bind_eq_bind, Option.bind_some, unread, Option.bind_none]

end IsCommon

/-- An offset does not go on with digits. -/
theorem Offset.takeWhile_isDigit {offset : List Char} (shift : Offset offset) :
    offset.takeWhile Char.isDigit = [] := by
  cases shift with
  | universal known => rcases known with rfl | rfl <;> rfl
  | shifted known => rcases known with rfl | rfl <;> rfl

/-- An offset is recognised. -/
theorem Offset.isOffset_eq {offset : List Char} (shift : Offset offset) : isOffset offset = true := by
  cases shift with
  | universal known => rcases known with rfl | rfl <;> rfl
  | @shifted sign hour minute known hours minutes =>
    have first := readExact?_lastDigits (show hour < 10 ^ 2 by omega) (':' :: lastDigits 2 minute)
    have second := readExact?_lastDigits (show minute < 10 ^ 2 by omega) []
    rw [List.append_nil] at second
    rcases known with rfl | rfl <;> simp [isOffset, first, second, hours, minutes]

/-- A fraction before an offset is skipped. -/
theorem Fraction.skipFraction?_append {fraction offset : List Char} (part : Fraction fraction)
    (shift : Offset offset) : skipFraction? (fraction ++ offset) = some offset := by
  cases part with
  | none =>
    cases shift with
    | universal known => rcases known with rfl | rfl <;> rfl
    | shifted known => rcases known with rfl | rfl <;> rfl
  | @digits digits numeral =>
    have whole : (digits ++ offset).takeWhile Char.isDigit = digits := by
      rw [List.takeWhile_append_of_pos numeral.2, shift.takeWhile_isDigit, List.append_nil]
    have present : digits.isEmpty = false := List.isEmpty_eq_false_iff.2 numeral.1
    rw [List.cons_append, skipFraction?, readDigits?]
    simp only [Option.map_none, Option.getD_none, whole, present, Bool.false_eq_true, if_false, Option.map_some,
      List.drop_left]

namespace IsCommon

variable {date : Day} (common : date.IsCommon)

include common

/-- A timestamp is read as its local date. -/
theorem ofTimestamp?_text {mark : Char} {time : Time} {fraction offset : List Char}
    (known : mark = 'T' ∨ mark = 't' ∨ mark = ' ') (within : time.Within 60) (part : Fraction fraction)
    (shift : Offset offset) :
    ofTimestamp? (date.text ++ mark :: (time.text ++ (fraction ++ offset))) = some date := by
  have marked : ∀ rest, (skip? 'T' (mark :: rest)).or ((skip? 't' (mark :: rest)).or (skip? ' ' (mark :: rest))) =
      some rest := by
    intro rest
    rcases known with rfl | rfl | rfl <;> rfl
  have second := readExact?_lastDigits within.second_lt (fraction ++ offset)
  simp only [ofTimestamp?, text, Time.text, List.append_assoc, List.cons_append, skip?_self,
    readExact?_lastDigits common.year_lt, readExact?_lastDigits common.month_lt,
    readExact?_lastDigits common.day_lt, readExact?_lastDigits within.hour_lt,
    readExact?_lastDigits within.minute_lt, second, marked, part.skipFraction?_append shift, Option.bind_eq_bind,
    Option.bind_some, within.isTime_eq, shift.isOffset_eq, Bool.and_self, if_true, common.toNat_year,
    common.check?_eq]

/-- Every spelling of a day is read as the day. -/
theorem ofText?_eq_some {text : String} (writes : Writes text date) : ofText? text = some date := by
  obtain ⟨spelling, between, spells⟩ := writes
  have space : ∀ character ∈ [' '], Text.isBlank character = true := List.forall_mem_singleton.2 (by decide)
  rw [ofText?, Text.trim_between between spells.solid]
  cases spells with
  | alone => rw [common.ofDate?_text, Option.some_or, Option.some_or]
  | @timed time within =>
    have read : ofDateTime? (date.text ++ ' ' :: time.text) = some date := by
      simpa using common.ofDateTime?_text within [' '] space []
    rw [common.ofDate?_append (List.cons_ne_nil _ _), read, Option.none_or, Option.some_or]
  | @stamped mark time fraction offset known within part shift =>
    -- The time of the second reading is not the last of the text, or does not begin at all.
    have second : ofDateTime? (date.text ++ mark :: (time.text ++ (fraction ++ offset))) = none := by
      rcases known with rfl | rfl | rfl
      · exact common.ofDateTime?_cons (by decide) (by decide) _
      · exact common.ofDateTime?_cons (by decide) (by decide) _
      · have read := common.ofDateTime?_text within [' '] space (fraction ++ offset)
        rwa [List.isEmpty_eq_false_iff.2 (List.append_ne_nil_of_right_ne_nil fraction shift.ne_nil)] at read
    rw [common.ofDate?_append (List.cons_ne_nil _ _), second, Option.none_or, Option.none_or]
    exact common.ofTimestamp?_text known within part shift

end IsCommon

end Day

end ResourceQuery
