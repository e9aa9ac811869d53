import ResourceQuery.Proofs.Day.Spellings
import ResourceQuery.Proofs.Operation.ColumnOperations

/-!
# Creation within whole days

The filter by time of creation compares texts, byte by byte. Moments written as `YYYY-MM-DD hh:mm:ss` stand in
the order of the calendar (`Day.bytes_moment_lt_iff`), so the two bounds of the filter keep exactly the moments of
the days asked for, from the first to the last (`created_between_selects_days`).
-/
namespace ResourceQuery

open Text (lastDigits)

/-! ### Comparing texts -/

/-- A stored text compares with another in this way, byte by byte; other comparisons than of order hold for no
texts. -/
def Comparison.HoldsFor (comparison : Comparison) (stored other : String) : Prop :=
  match comparison with
  | .equal => Text.bytes stored = Text.bytes other
  | .notEqual => Text.bytes stored ≠ Text.bytes other
  | .greater => Text.bytes other < Text.bytes stored
  | .atLeast => Text.bytes other ≤ Text.bytes stored
  | .less => Text.bytes stored < Text.bytes other
  | .atMost => Text.bytes stored ≤ Text.bytes other
  | _ => False

/-- A row of texts meets a predicate, which compares its column with a text. -/
def Predicate.MetBy (predicate : Predicate) (row : String → String) : Prop :=
  ∃ text, predicate.value = .string text ∧ predicate.comparison.HoldsFor (row predicate.column) text

/-- A predicate on a text is met as its comparison holds for the text. -/
theorem Predicate.metBy_string {column : String} {comparison : Comparison} {text : String} {row : String → String} :
    (Predicate.mk column comparison (.string text)).MetBy row ↔ comparison.HoldsFor (row column) text := by
  constructor
  · rintro ⟨other, same, holds⟩
    obtain rfl := Json.string.inj same
    exact holds
  · intro holds
    exact ⟨text, rfl, holds⟩

/-! ### The calendar -/

/-- The day comes before another in the calendar. -/
def Day.Before (date other : Day) : Prop :=
  date.year < other.year ∨ date.year = other.year ∧
    (date.month < other.month ∨ date.month = other.month ∧ date.day < other.day)

/-- The time comes before another of a day. -/
def Time.Before (time other : Time) : Prop :=
  time.hour < other.hour ∨ time.hour = other.hour ∧
    (time.minute < other.minute ∨ time.minute = other.minute ∧ time.second < other.second)

namespace Day

/-! ### Written days -/

/-- A number that fits in a width is padded to the digits of the width. -/
theorem padded_eq_lastDigits {width value : Nat} (positive : 0 < width) (fits : value < 10 ^ width) :
    padded width value = lastDigits width value := by
  induction width generalizing value with
  | zero => contradiction
  | succ width ih =>
    rcases Nat.lt_or_ge value 10 with single | several
    · have front : value / 10 = 0 := Nat.div_eq_of_lt single
      have last : value % 10 = value := Nat.mod_eq_of_lt single
      rw [padded, Nat.toDigits_of_lt_base single, lastDigits, front, last, Text.lastDigits_zero]
      rfl
    · rw [Nat.pow_succ] at fits
      have more : 0 < width := by
        rcases Nat.eq_zero_or_pos width with rfl | more
        · omega
        · exact more
      have shorter : width + 1 - ((Nat.toDigits 10 (value / 10)).length + 1) =
          width - (Nat.toDigits 10 (value / 10)).length := by omega
      rw [lastDigits, ← ih more (by omega), padded, padded, Nat.toDigits_of_base_le (by decide) several]
      simp only [List.length_append, List.length_singleton, shorter, List.append_assoc]

/-- A day of the years 0 to 9999 is written as `YYYY-MM-DD`. -/
theorem IsCommon.written_eq_text {date : Day} (common : date.IsCommon) : date.written = date.text := by
  have early := common.early
  have late := common.late
  have year : date.year.natAbs = date.year.toNat := by omega
  rw [written, if_neg (by omega), if_neg (by omega), year, padded_eq_lastDigits (by decide) common.year_lt,
    padded_eq_lastDigits (by decide) common.month_lt, padded_eq_lastDigits (by decide) common.day_lt]
  simp [text]

/-! ### Moments -/

/-- A time on a day as `YYYY-MM-DD hh:mm:ss`. -/
def moment (date : Day) (time : Time) : String := String.ofList (date.text ++ ' ' :: time.text)

/-- The places of the numbers of a moment. -/
def momentLayout : Text.Layout := [([], 4), (['-'], 2), (['-'], 2), ([' '], 2), ([':'], 2), ([':'], 2)]

/-- The numbers of a moment. -/
def momentNumbers (date : Day) (time : Time) : List Nat :=
  [date.year.toNat, date.month, date.day, time.hour, time.minute, time.second]

/-- The bytes of a moment are those of its layout. -/
theorem bytes_moment (date : Day) (time : Time) :
    Text.bytes (date.moment time) = Text.encoded (Text.fill momentLayout (momentNumbers date time)) := by
  rw [moment, Text.bytes_ofList]
  simp [text, Time.text, momentLayout, momentNumbers, Text.fill]

/-- The numbers of a moment fit in their places. -/
theorem fits_moment {date : Day} {time : Time} (common : date.IsCommon) (within : time.Within 60) :
    Text.Fits momentLayout (momentNumbers date time) :=
  ⟨common.year_lt, common.month_lt, common.day_lt, within.hour_lt, within.minute_lt, within.second_lt, trivial⟩

/-- Moments stand in the order of the calendar, byte by byte: in that of their days, and on one day in that of their
times. -/
theorem bytes_moment_lt_iff {date other : Day} {time otherTime : Time} (common : date.IsCommon)
    (commonOther : other.IsCommon) (within : time.Within 60) (withinOther : otherTime.Within 60) :
    Text.bytes (date.moment time) < Text.bytes (other.moment otherTime) ↔
      date.Before other ∨ date = other ∧ time.Before otherTime := by
  have early := common.early
  have earlyOther := commonOther.early
  rw [bytes_moment, bytes_moment,
    Text.encoded_fill_lt_iff (fits_moment common within) (fits_moment commonOther withinOther)]
  have less : date.year.toNat < other.year.toNat ↔ date.year < other.year := by omega
  have same : date.year.toNat = other.year.toNat ↔ date.year = other.year := by omega
  have whole : date = other ↔ date.year = other.year ∧ date.month = other.month ∧ date.day = other.day := by
    cases date
    cases other
    rw [mk.injEq]
  simp only [momentNumbers, List.cons_lt_cons_iff, List.not_lt_nil, and_false, or_false, less, same, whole, Before,
    Time.Before, and_or_left, or_assoc, and_assoc]

/-! ### Whole days -/

namespace IsCommon

variable {date other : Day} {time : Time} (common : date.IsCommon)

include common

/-- The first moment of a day. -/
theorem start_eq : date.start = date.moment ⟨0, 0, 0⟩ := by
  rw [start, common.written_eq_text]
  rfl

/-- The last moment of a day. -/
theorem finish_eq : date.finish = date.moment ⟨23, 59, 59⟩ := by
  rw [finish, common.written_eq_text]
  rfl

/-- The moments before the first one of a day are those of earlier days. -/
theorem bytes_moment_lt_start_iff (commonOther : other.IsCommon) (within : time.Within 60) :
    Text.bytes (date.moment time) < Text.bytes other.start ↔ date.Before other := by
  have first : (⟨0, 0, 0⟩ : Time).Within 60 := ⟨by decide, by decide, by decide⟩
  have earliest : ¬ time.Before ⟨0, 0, 0⟩ := by
    simp only [Time.Before]
    omega
  rw [commonOther.start_eq, bytes_moment_lt_iff common commonOther within first]
  exact or_iff_left fun also => earliest also.2

/-- The moments after the last one of a day are those of later days, leap seconds apart. -/
theorem finish_lt_bytes_moment_iff (commonOther : other.IsCommon) (within : time.Within 59) :
    Text.bytes other.finish < Text.bytes (date.moment time) ↔ other.Before date := by
  have last : (⟨23, 59, 59⟩ : Time).Within 60 := ⟨by decide, by decide, by decide⟩
  have latest : ¬ (⟨23, 59, 59⟩ : Time).Before time := by
    have hour := within.hour
    have minute := within.minute
    have second := within.second
    simp only [Time.Before]
    omega
  rw [commonOther.finish_eq, bytes_moment_lt_iff commonOther common last (within.mono (by decide))]
  exact or_iff_left fun also => latest also.2

end IsCommon

end Day

/-! ### The filter -/

/-- The filter by time of creation is found under its key. -/
theorem find?_creationFilters :
    creationFilters.find? (camelKey "created_between") =
      some (.binary fun first last => Query.filterBy (withinDays first last)) := by
  rw [creationFilters, Operations.find?_register, if_pos rfl]

/-- Two readable days make two predicates, others none. -/
theorem withinDays_cases (first last : String) :
    (withinDays first last = [] ∧ (Day.ofText? first = none ∨ Day.ofText? last = none)) ∨
      (withinDays first last).length = 2 ∧ (Day.ofText? first).isSome ∧ (Day.ofText? last).isSome := by
  unfold withinDays
  cases Day.ofText? first with
  | none => exact .inl ⟨rfl, .inl rfl⟩
  | some start =>
    cases Day.ofText? last with
    | none => exact .inl ⟨rfl, .inr rfl⟩
    | some finish => exact .inr ⟨rfl, rfl, rfl⟩

/-- The bounds of whole days keep the moments from the first day to the last. -/
theorem forall_metBy_withinDays_iff {first last : String} {start finish date : Day} {time : Time}
    {row : String → String} (commonStart : start.IsCommon) (commonFinish : finish.IsCommon) (common : date.IsCommon)
    (within : time.Within 59) (readFirst : Day.ofText? first = some start) (readLast : Day.ofText? last = some finish)
    (stored : row createdAt = date.moment time) :
    (∀ predicate ∈ withinDays first last, predicate.MetBy row) ↔ ¬ date.Before start ∧ ¬ finish.Before date := by
  have low : (Predicate.mk createdAt .atLeast (.string start.start)).MetBy row ↔ ¬ date.Before start := by
    rw [← common.bytes_moment_lt_start_iff commonStart (within.mono (by decide)), List.not_lt, ← stored]
    exact Predicate.metBy_string
  have high : (Predicate.mk createdAt .atMost (.string finish.finish)).MetBy row ↔ ¬ finish.Before date := by
    rw [← common.finish_lt_bytes_moment_iff commonFinish within, List.not_lt, ← stored]
    exact Predicate.metBy_string
  simp only [withinDays, readFirst, readLast]
  rw [List.forall_mem_cons, List.forall_mem_singleton, low, high]

/-- The filter by time of creation adds two predicates to a plan or none, none exactly if one of the two days is
unreadable. Each day of the years 0 to 9999 is read alike from all its spellings: alone, with a time of day, and as
a timestamp of which it is the local date, whatever the offset and the blanks around. For two such days the moments
whose texts meet both predicates, compared byte by byte, are those of the days from the first to the last. -/
theorem created_between_selects_days (registry : Registry) (plan : Plan) :
    (∀ date : Day, date.IsCommon → ∀ text, Day.Writes text date → Day.ofText? text = some date) ∧
    ∀ (first last : String) (others : List String),
      let called := plan.filter (registry.setFilters plan.entity [creationFilters])
        ⟨[("created_between", first :: last :: others)]⟩;
      ∃ added, called = plan.mapSelection (fun selection => selection.filterBy added) ∧
        ((added = [] ∧ (Day.ofText? first = none ∨ Day.ofText? last = none)) ∨
          added.length = 2 ∧ (Day.ofText? first).isSome ∧ (Day.ofText? last).isSome) ∧
        ∀ start finish : Day, start.IsCommon → finish.IsCommon → Day.Writes first start → Day.Writes last finish →
          ∀ date : Day, date.IsCommon → ∀ time : Time, time.Within 59 → ∀ row, row createdAt = date.moment time →
            ((∀ predicate ∈ added, predicate.MetBy row) ↔ ¬ date.Before start ∧ ¬ finish.Before date) := by
  constructor
  · intro date common text writes
    exact common.ofText?_eq_some writes
  · intro first last others called
    refine ⟨withinDays first last, ?_, withinDays_cases first last, ?_⟩
    · have added := plan.filter_setFilters registry creationFilters "created_between" (first :: last :: others)
      rw [find?_creationFilters] at added
      exact added
    · intro start finish commonStart commonFinish writesFirst writesLast date common time within row stored
      have readFirst := commonStart.ofText?_eq_some writesFirst
      have readLast := commonFinish.ofText?_eq_some writesLast
      exact forall_metBy_withinDays_iff commonStart commonFinish common within readFirst readLast stored

/-- Messages as they are stored. -/
def messagePlan : Plan := .ofQuery (.node (.ofEntity (.ofTable "message" "messages")) [])

/-- The leap day of 2016. -/
def leapDay : Day := ⟨2016, 2, 29⟩

/-- The last second of a leap day is kept where the first day is a timestamp, of which the local date counts, and the
last is the day alone. -/
theorem leap_day_kept :
    leapDay.IsCommon ∧ Day.Writes "\u20032016-02-29T23:30:00.5-11:00\n" leapDay ∧ Day.Writes "2016-02-29" leapDay ∧
      ∃ added, messagePlan.filter (Registry.empty.setFilters "message" [creationFilters])
          ⟨[("created_between", ["\u20032016-02-29T23:30:00.5-11:00\n", "2016-02-29"])]⟩ =
            messagePlan.mapSelection (fun selection => selection.filterBy added) ∧
        ∀ predicate ∈ added, predicate.MetBy fun _ => "2016-02-29 23:59:59" := by
  have common : leapDay.IsCommon := ⟨by decide, by decide, by decide⟩
  have late : (⟨23, 30, 0⟩ : Time).Within 60 := ⟨by decide, by decide, by decide⟩
  have last : (⟨23, 59, 59⟩ : Time).Within 59 := ⟨by decide, by decide, by decide⟩
  have offset : Day.Offset ['-', '1', '1', ':', '0', '0'] :=
    @Day.Offset.shifted '-' 11 0 (.inr rfl) (by decide) (by decide)
  have fraction : Day.Fraction ['.', '5'] := .digits ⟨by decide, List.forall_mem_singleton.2 (by decide)⟩
  have writesFirst : Day.Writes "\u20032016-02-29T23:30:00.5-11:00\n" leapDay :=
    ⟨_, ⟨['\u2003'], ['\n'], by decide, List.forall_mem_singleton.2 (by decide),
      List.forall_mem_singleton.2 (by decide)⟩, .stamped (.inl rfl) late fraction offset⟩
  have writesLast : Day.Writes "2016-02-29" leapDay := ⟨_, ⟨[], [], by decide, nofun, nofun⟩, .alone⟩
  obtain ⟨added, called, -, kept⟩ := (created_between_selects_days .empty messagePlan).2
    "\u20032016-02-29T23:30:00.5-11:00\n" "2016-02-29" []
  have within : ¬ leapDay.Before leapDay := by
    simp [Day.Before]
  have stored : "2016-02-29 23:59:59" = leapDay.moment ⟨23, 59, 59⟩ := by decide
  have met := kept leapDay leapDay common common writesFirst writesLast leapDay common ⟨23, 59, 59⟩ last
    (fun _ => "2016-02-29 23:59:59") stored
  exact ⟨common, writesFirst, writesLast, added, called, met.2 ⟨within, within⟩⟩

end ResourceQuery
