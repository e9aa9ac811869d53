import ResourceQuery.Proofs.Parameter.AskedValues

/-!
# The integer at the front of a text

A text opens with blanks, a sign or none, and digits, each as many as there are (`Text.Opening`), and the digits
with the sign write an integer. The integer that is read from the text is this one, moved once to the nearest end
of the range where it is outside (`Text.integerPrefix_exact`): nothing is lost by saturating at every digit.
-/
namespace ResourceQuery.Text

/-! ### Openings -/

/-- The characters that are signs. -/
def isSign (character : Char) : Bool := character == '+' || character == '-'

/-- How a text opens: with blanks, a sign or none, and digits, each as many as there are, before a rest. -/
structure Opening (text : List Char) where
  /-- The leading blanks. -/
  blanks : List Char
  /-- The sign, if there is one. -/
  sign : List Char
  /-- The run of digits. -/
  digits : List Char
  /-- What follows. -/
  rest : List Char
  /-- These are the text. -/
  whole : text = blanks ++ (sign ++ (digits ++ rest))
  /-- The blanks are blank. -/
  blank : ∀ character ∈ blanks, isBlank character = true
  /-- No more blanks follow them. -/
  noBlank : Stops isBlank (sign ++ (digits ++ rest))
  /-- There is no more than one sign. -/
  oneSign : sign = [] ∨ sign = ['+'] ∨ sign = ['-']
  /-- And there is one if one follows the blanks. -/
  noSign : sign = [] → Stops isSign (digits ++ rest)
  /-- The digits are digits. -/
  digit : ∀ character ∈ digits, character.isDigit = true
  /-- No more digits follow them. -/
  noDigit : Stops Char.isDigit rest

/-- The integer that the digits write, negated after a minus; zero without digits. -/
def Opening.integer {text : List Char} (opening : Opening text) : Int :=
  if opening.sign = ['-'] then -(Nat.ofDigitChars 10 opening.digits 0 : Int)
  else Nat.ofDigitChars 10 opening.digits 0

/-- A text that goes on with no sign has none to take. -/
theorem takeSign_of_stops {text : List Char} (stops : Stops isSign text) : takeSign text = (false, text) := by
  unfold takeSign
  split
  · exact absurd (stops '-' rfl) (by decide)
  · exact absurd (stops '+' rfl) (by decide)
  · rfl

/-- What is taken of the sign of a text after its blanks. -/
theorem Opening.takeSign_trimStart {text : List Char} (opening : Opening text) :
    takeSign (trimStart text) = (decide (opening.sign = ['-']), opening.digits ++ opening.rest) := by
  have trimmed : trimStart text = opening.sign ++ (opening.digits ++ opening.rest) :=
    (congrArg trimStart opening.whole).trans (dropWhile_append_of_stops opening.blank opening.noBlank)
  rw [trimmed]
  rcases opening.oneSign with none | plus | minus
  · rw [none]
    exact takeSign_of_stops (opening.noSign none)
  · rw [plus]
    rfl
  · rw [minus]
    rfl

/-- A text opens in some way. -/
theorem nonempty_opening (text : List Char) : Nonempty (Opening text) := by
  have blanks := takeWhile_append_trimStart text
  have noBlank : Stops isBlank (trimStart text) := stops_dropWhile isBlank text
  have blank : ∀ character ∈ text.takeWhile isBlank, isBlank character = true :=
    List.all_eq_true.1 List.all_takeWhile
  -- Of the text after the blanks and the sign, the digits are the longest run.
  have opens (sign body : List Char) (trimmed : trimStart text = sign ++ body)
      (oneSign : sign = [] ∨ sign = ['+'] ∨ sign = ['-']) (noSign : sign = [] → Stops isSign body) :
      Nonempty (Opening text) := by
    have run : body.takeWhile Char.isDigit ++ body.dropWhile Char.isDigit = body :=
      List.takeWhile_append_dropWhile
    exact ⟨{
      blanks := text.takeWhile isBlank
      sign := sign
      digits := body.takeWhile Char.isDigit
      rest := body.dropWhile Char.isDigit
      whole := by rw [run, ← trimmed, blanks]
      blank := blank
      noBlank := by rwa [run, ← trimmed]
      oneSign := oneSign
      noSign := by rwa [run]
      digit := List.all_eq_true.1 List.all_takeWhile
      noDigit := stops_dropWhile Char.isDigit body }⟩
  cases trimmed : trimStart text with
  | nil => exact opens [] [] trimmed (.inl rfl) fun _ character first => nomatch first
  | cons first others =>
    by_cases plus : first = '+'
    · exact opens ['+'] others (plus ▸ trimmed) (.inr (.inl rfl)) fun none => nomatch none
    by_cases minus : first = '-'
    · exact opens ['-'] others (minus ▸ trimmed) (.inr (.inr rfl)) fun none => nomatch none
    · refine opens [] (first :: others) trimmed (.inl rfl) fun _ character head => ?_
      obtain rfl := Option.some.inj head
      simp [isSign, plus, minus]

/-- The integer at the front of a text is the one that its opening writes, as exact as the range allows. However
a text opens, that integer is read, clamped once into the range; and every text opens in some way. In
particular saturation at every digit is one saturation of the number of all digits, zeros in front of the digits
change nothing, and a written integer is read as itself clamped, so the least integer is reached exactly. -/
theorem integerPrefix_exact (text : List Char) :
    (∀ opening : Opening text, integerPrefix text = max int64Min (min opening.integer int64Max)) ∧
    Nonempty (Opening text) ∧
    (∀ (negative : Bool) (digits : List Char), digits.foldl (appendDigit negative) 0 =
      max int64Min (min (signed negative (Nat.ofDigitChars 10 digits 0)) int64Max)) ∧
    (∀ (negative : Bool) (zeros : Nat) (digits : List Char),
      (List.replicate zeros '0' ++ digits).foldl (appendDigit negative) 0 =
        digits.foldl (appendDigit negative) 0) ∧
    (∀ value : Int, integerPrefix (decimal value) = max int64Min (min value int64Max)) ∧
    integerPrefix (decimal int64Min) = int64Min := by
  have appended (negative : Bool) (digits : List Char) : digits.foldl (appendDigit negative) 0 =
      saturate (signed negative (Nat.ofDigitChars 10 digits 0)) := by
    have zero : saturate (signed negative 0) = 0 := by cases negative <;> decide
    have run := foldl_appendDigit negative digits 0
    rwa [zero] at run
  refine ⟨fun opening => ?_, nonempty_opening text, appended, fun negative zeros digits => ?_,
    integerPrefix_decimal, integerPrefix_decimal int64Min⟩
  · have run := takeWhile_append_of_stops opening.digit opening.noDigit
    rw [integerPrefix, opening.takeSign_trimStart]
    show ((opening.digits ++ opening.rest).takeWhile Char.isDigit).foldl (appendDigit _) 0 = _
    rw [run, appended, signed, Opening.integer, saturate]
    simp only [decide_eq_true_eq]
  · rw [appended, appended, Nat.ofDigitChars_append, Nat.ofDigitChars_replicate_zero, Nat.mul_zero]

end ResourceQuery.Text
