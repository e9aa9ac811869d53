import ResourceQuery.Proofs.Parameter.AskedValues

/-!
# Blanks around texts, and integer literals

A text between blanks is what trimming leaves of it (`Text.trim_between`), as long as it neither begins nor ends
with a blank itself. The literals of integers are digits after a sign or none (`Text.WritesInteger`), and exactly
those whose integer has 64 bits are read, each as its integer (`Text.integerLiteral?_eq_some_iff`).
-/
namespace ResourceQuery.Text

/-! ### Blanks around a text -/

/-- A text is another one between blanks. -/
def Between (text core : List Char) : Prop :=
  ∃ before after, text = before ++ (core ++ after) ∧ (∀ character ∈ before, isBlank character = true) ∧
    ∀ character ∈ after, isBlank character = true

/-- A text begins and ends with characters that are no blanks. -/
structure Solid (text : List Char) : Prop where
  /-- The first character is no blank. -/
  first : ∃ character, text.head? = some character ∧ isBlank character = false
  /-- Nor is the last. -/
  last : ∃ character, text.getLast? = some character ∧ isBlank character = false

/-- A text without blanks begins and ends with no blank. -/
theorem Solid.of_forall {text : List Char} (present : text ≠ [])
    (all : ∀ character ∈ text, isBlank character = false) : Solid text where
  first := ⟨text.head present, List.head?_eq_some_head present, all _ (List.head_mem present)⟩
  last := ⟨text.getLast present, List.getLast?_eq_some_getLast present, all _ (List.getLast_mem present)⟩

/-- A text that begins and ends as two such texts do neither begins nor ends with a blank. -/
theorem Solid.append {front back : List Char} (first : Solid front) (last : Solid back) (middle : List Char) :
    Solid (front ++ (middle ++ back)) where
  first := by
    obtain ⟨character, begins, apart⟩ := first.first
    refine ⟨character, ?_, apart⟩
    rw [List.head?_append, begins, Option.some_or]
  last := by
    obtain ⟨character, ends, apart⟩ := last.last
    refine ⟨character, ?_, apart⟩
    rw [← List.append_assoc, List.getLast?_append, ends, Option.some_or]

/-- Blanks in front of a text that begins with none are taken off. -/
theorem trimStart_append {blanks text : List Char} (blank : ∀ character ∈ blanks, isBlank character = true)
    (first : ∃ character, text.head? = some character ∧ isBlank character = false) :
    trimStart (blanks ++ text) = text := by
  obtain ⟨character, begins, solid⟩ := first
  obtain ⟨rest, rfl⟩ := List.head?_eq_some_iff.1 begins
  exact dropWhile_append_of_stops blank (stops_cons solid)

/-- Blanks in front of a text that neither begins nor ends with one are taken off, whatever follows it. -/
theorem Solid.trimStart_append {blanks core : List Char} (solid : Solid core)
    (blank : ∀ character ∈ blanks, isBlank character = true) (after : List Char) :
    trimStart (blanks ++ (core ++ after)) = core ++ after := by
  obtain ⟨character, begins, apart⟩ := solid.first
  refine Text.trimStart_append blank ⟨character, ?_, apart⟩
  rw [List.head?_append, begins, Option.some_or]

/-- A text that neither begins nor ends with a blank keeps this when it is turned round. -/
theorem Solid.reverse {core : List Char} (solid : Solid core) : Solid core.reverse where
  first := by
    rw [List.head?_reverse]
    exact solid.last
  last := by
    rw [List.getLast?_reverse]
    exact solid.first

/-- Trimming a text between blanks leaves the text. -/
theorem trim_between {text core : List Char} (between : Between text core) (solid : Solid core) :
    trim text = core := by
  obtain ⟨before, after, rfl, leading, trailing⟩ := between
  have front : trimStart (before ++ (core ++ after)) = core ++ after := solid.trimStart_append leading after
  have blank : ∀ character ∈ after.reverse, isBlank character = true :=
    fun character member => trailing character (List.mem_reverse.1 member)
  have back : trimStart (after.reverse ++ core.reverse) = core.reverse := trimStart_append blank solid.reverse.first
  rw [trim, front, trimEnd, List.reverse_append, ← trimStart, back, List.reverse_reverse]

/-- A text is what trimming leaves of it, between blanks. -/
theorem between_trim (text : List Char) : Between text (trim text) := by
  have trailing : (trimStart text).reverse.takeWhile isBlank ++ (trimEnd (trimStart text)).reverse =
      (trimStart text).reverse := by
    rw [trimEnd, List.reverse_reverse]
    exact takeWhile_append_trimStart _
  refine ⟨text.takeWhile isBlank, ((trimStart text).reverse.takeWhile isBlank).reverse, ?_, ?_, ?_⟩
  · have whole := congrArg List.reverse trailing
    rw [List.reverse_append, List.reverse_reverse, List.reverse_reverse] at whole
    rw [trim, whole, takeWhile_append_trimStart]
  · exact List.all_eq_true.1 List.all_takeWhile
  · intro character member
    exact List.all_eq_true.1 List.all_takeWhile character (List.mem_reverse.1 member)

/-! ### Literals -/

/-- Digits, at least one. -/
def IsNumeral (digits : List Char) : Prop := digits ≠ [] ∧ ∀ digit ∈ digits, digit.isDigit = true

/-- The text writes the integer: a numeral after a sign or none. -/
inductive WritesInteger : List Char → Int → Prop where
  /-- Without a sign. -/
  | bare {digits : List Char} (numeral : IsNumeral digits) : WritesInteger digits (Nat.ofDigitChars 10 digits 0)
  /-- After a plus. -/
  | plus {digits : List Char} (numeral : IsNumeral digits) :
    WritesInteger ('+' :: digits) (Nat.ofDigitChars 10 digits 0)
  /-- After a minus. -/
  | minus {digits : List Char} (numeral : IsNumeral digits) :
    WritesInteger ('-' :: digits) (-(Nat.ofDigitChars 10 digits 0 : Int))

/-- A literal begins and ends with no blank. -/
theorem WritesInteger.solid {text : List Char} {value : Int} (writes : WritesInteger text value) : Solid text := by
  have digits : ∀ {digits : List Char}, IsNumeral digits → ∀ digit ∈ digits, isBlank digit = false :=
    fun numeral digit member => isBlank_of_isDigit (numeral.2 digit member)
  cases writes with
  | bare numeral => exact .of_forall numeral.1 (digits numeral)
  | plus numeral =>
    refine .of_forall (List.cons_ne_nil _ _) fun character member => ?_
    rcases List.mem_cons.1 member with rfl | member
    · decide
    · exact digits numeral character member
  | minus numeral =>
    refine .of_forall (List.cons_ne_nil _ _) fun character member => ?_
    rcases List.mem_cons.1 member with rfl | member
    · decide
    · exact digits numeral character member

/-- A text begins with a minus, or with a plus, or has no sign to take. -/
theorem takeSign_cases (text : List Char) :
    (∃ digits, text = '-' :: digits ∧ takeSign text = (true, digits)) ∨
    (∃ digits, text = '+' :: digits ∧ takeSign text = (false, digits)) ∨ takeSign text = (false, text) := by
  unfold takeSign
  split
  · exact .inl ⟨_, rfl, rfl⟩
  · exact .inr (.inl ⟨_, rfl, rfl⟩)
  · exact .inr (.inr rfl)

/-- A text writes an integer when a numeral is left after its sign, of which the integer is the number. -/
theorem writesInteger_iff {text : List Char} {value : Int} : WritesInteger text value ↔
    IsNumeral (takeSign text).2 ∧ value = signed (takeSign text).1 (Nat.ofDigitChars 10 (takeSign text).2 0) := by
  constructor
  · intro writes
    cases writes with
    | bare numeral =>
      rw [takeSign_of_digits numeral.2]
      exact ⟨numeral, rfl⟩
    | plus numeral => exact ⟨numeral, rfl⟩
    | minus numeral => exact ⟨numeral, rfl⟩
  · rintro ⟨numeral, rfl⟩
    rcases takeSign_cases text with ⟨digits, rfl, taken⟩ | ⟨digits, rfl, taken⟩ | taken
    · exact .minus numeral
    · exact .plus numeral
    · rw [taken] at numeral ⊢
      exact .bare numeral

/-- A literal is read exactly if its integer has 64 bits, and as that integer. -/
theorem integerLiteral?_eq_some_iff {text : List Char} {value : Int} :
    integerLiteral? text = some value ↔ WritesInteger text value ∧ IsInt64 value := by
  rw [writesInteger_iff]
  simp only [integerLiteral?, List.all_eq_true]
  split
  · next numeral =>
    change (if IsInt64 (signed (takeSign text).1 (Nat.ofDigitChars 10 (takeSign text).2 0)) then
      some (signed (takeSign text).1 (Nat.ofDigitChars 10 (takeSign text).2 0)) else none) = some value ↔ _
    split
    · next fits =>
      constructor
      · intro found
        obtain rfl := Option.some.inj found
        exact ⟨⟨numeral, rfl⟩, fits⟩
      · rintro ⟨⟨-, rfl⟩, -⟩
        rfl
    · next wide =>
      refine iff_of_false (Option.some_ne_none value).symm ?_
      rintro ⟨⟨-, rfl⟩, fits⟩
      exact wide fits
  · next other =>
    refine iff_of_false (Option.some_ne_none value).symm ?_
    rintro ⟨⟨numeral, -⟩, -⟩
    exact other numeral

/-- The decimal digits of an integer write it. -/
theorem writesInteger_decimal (value : Int) : WritesInteger (decimal value) value := by
  have numeral : IsNumeral (Nat.toDigits 10 value.natAbs) := ⟨by simp, fun _ => isDigit_of_mem_toDigits⟩
  have number : Nat.ofDigitChars 10 (Nat.toDigits 10 value.natAbs) 0 = value.natAbs :=
    Nat.ofDigitChars_toDigits (by decide) (by decide)
  unfold decimal
  split
  · next below =>
    have magnitude : value = -(value.natAbs : Int) := by omega
    have writes := WritesInteger.minus numeral
    rwa [number, ← magnitude] at writes
  · next above =>
    have magnitude : value = (value.natAbs : Int) := by omega
    have writes := WritesInteger.bare numeral
    rwa [number, ← magnitude] at writes

end ResourceQuery.Text
