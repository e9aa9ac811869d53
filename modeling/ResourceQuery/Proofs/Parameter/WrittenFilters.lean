import ResourceQuery.Parameter.Expression
import ResourceQuery.Proofs.Text.Pieces

/-!
# Written filters are read back

A well-formed filter value is a list of written expressions between commas: a qualified name alone,
or with a bracketed list of written arguments, each bare or quoted. The scanners give back exactly what
was written, and leave what follows as it is: a quoted span (`takeQuoted?_written`), a list of
arguments (`takeList_written`), an expression (`expressions_written`) and the arguments in its brackets
(`arguments_written`). So a value that begins with written expressions assigns their calls first, and
then those of the rest (`filters_written`).
-/
namespace ResourceQuery.Parameter

/-- One unit of a quoted argument. -/
inductive QuotedUnit where
  /-- A character that is neither the quote nor the backslash. -/
  | plain (character : Char) (regular : character ≠ '"' ∧ character ≠ '\\')
  /-- A backslash and a character that is no line feed. -/
  | escaped (character : Char) (sameLine : character ≠ '\n')

/-- The characters of a unit. -/
def QuotedUnit.characters : QuotedUnit → List Char
  | plain character _ => [character]
  | escaped character _ => ['\\', character]

/-- One argument as it is written. -/
inductive WrittenArgument where
  /-- At least one character, none of which is a comma, a bracket or a quote. -/
  | bare (first : Char) (rest : List Char) (regular : ∀ character ∈ first :: rest,
      character ≠ ',' ∧ character ≠ '[' ∧ character ≠ ']' ∧ character ≠ '"')
  /-- Units between quotes. -/
  | quoted (units : List QuotedUnit)

namespace WrittenArgument

/-- The text that an argument stands for: what is written, without the quotes around it. -/
def text : WrittenArgument → List Char
  | bare first rest _ => first :: rest
  | quoted units => units.flatMap QuotedUnit.characters

/-- The characters of an argument. -/
def characters : WrittenArgument → List Char
  | bare first rest _ => first :: rest
  | quoted units => '"' :: units.flatMap QuotedUnit.characters ++ ['"']

end WrittenArgument

/-- Texts with a comma between any two. -/
def joined (texts : List (List Char)) : List Char := [','].intercalate texts

/-- One filter expression as it is written. -/
structure WrittenExpression where
  /-- The first character of the qualified name. -/
  first : Char
  /-- The other characters of the qualified name. -/
  rest : List Char
  /-- The qualified name has neither a comma nor a colon. -/
  regular : ∀ character ∈ first :: rest, character ≠ ',' ∧ character ≠ ':'
  /-- The arguments, none for a name alone. -/
  arguments : List WrittenArgument

namespace WrittenExpression

/-- The qualified name. -/
def qualified (expression : WrittenExpression) : List Char := expression.first :: expression.rest

/-- The characters of an expression. -/
def characters (expression : WrittenExpression) : List Char :=
  if expression.arguments.isEmpty then expression.qualified
  else expression.qualified ++ ':' :: '[' ::
    joined (expression.arguments.map WrittenArgument.characters) ++ [']']

/-- The call that an expression writes. -/
def call (expression : WrittenExpression) : FilterCall :=
  ⟨(Path.splitName expression.qualified).1, (Path.splitName expression.qualified).2,
    expression.arguments.map fun argument => String.ofList argument.text⟩

end WrittenExpression

/-- One text with nothing to join is itself. -/
theorem joined_singleton (text : List Char) : joined [text] = text := List.append_nil text

/-- A comma stands after the first of several texts. -/
theorem joined_cons_cons (first second : List Char) (rest : List (List Char)) :
    joined (first :: second :: rest) = first ++ ',' :: joined (second :: rest) := rfl

/-- What follows an expression does so at a comma or not at all. -/
abbrev Ends (after : List Char) : Prop := ∀ character ∈ after.head?, character = ','

/-! ### Quoted spans -/

/-- A character that is neither the quote nor the backslash is taken as it is. -/
theorem takeQuoted?_regular {character : Char} (regular : character ≠ '"' ∧ character ≠ '\\')
    (rest : List Char) : takeQuoted? (character :: rest) =
      (takeQuoted? rest).map fun (inside, after) => (character :: inside, after) := by
  rw [takeQuoted?]
  · exact regular.1
  · exact fun backslash _ => regular.2 backslash
  · exact fun _ _ backslash _ => regular.2 backslash

/-- A character that neither ends a text as a backslash nor escapes what comes after it is no backslash. -/
theorem ne_backslash {character : Char} {rest : List Char} (notLast : character = '\\' → rest = [] → False)
    (notEscape : ∀ escaped others, character = '\\' → rest = escaped :: others → False) :
    character ≠ '\\' := by
  intro backslash
  cases rest with
  | nil => exact notLast backslash rfl
  | cons escaped others => exact notEscape escaped others backslash rfl

/-- Written units are taken up to the quote after them. -/
theorem takeQuoted?_written (units : List QuotedUnit) (after : List Char) :
    takeQuoted? (units.flatMap QuotedUnit.characters ++ '"' :: after) =
      some (units.flatMap QuotedUnit.characters, after) := by
  induction units with
  | nil => rfl
  | cons unit rest ih =>
    cases unit with
    | plain character regular =>
      show takeQuoted? (character :: (rest.flatMap QuotedUnit.characters ++ '"' :: after)) = _
      rw [takeQuoted?_regular regular, ih]
      rfl
    | escaped character sameLine =>
      show takeQuoted? ('\\' :: character :: (rest.flatMap QuotedUnit.characters ++ '"' :: after)) = _
      rw [takeQuoted?, if_neg sameLine, ih]
      rfl

/-! ### Lists of arguments -/

/-- A written argument is taken whole, up to the comma or the bracket after it. -/
theorem takeList_argument (argument : WrittenArgument) {delimiter : Char} {rest : List Char}
    (delimits : delimiter = ',' ∨ delimiter = ']') (closed : ']' ∈ delimiter :: rest) :
    takeList (argument.characters ++ delimiter :: rest) =
      (argument.characters ++ (takeList (delimiter :: rest)).1, (takeList (delimiter :: rest)).2) := by
  cases argument with
  | bare first others regular =>
    obtain ⟨noComma, -, noBracket, noQuote⟩ := regular first (.head others)
    have item : ∀ character ∈ others, isListItem character = true := by
      intro character member
      obtain ⟨noComma, -, noBracket, -⟩ := regular character (.tail first member)
      simp [isListItem, noComma, noBracket]
    have stop : isListItem delimiter = false := by
      rcases delimits with rfl | rfl <;> rfl
    have run : (others ++ delimiter :: rest).takeWhile isListItem = others :=
      Text.takeWhile_append_of_stops item (Text.stops_cons stop)
    have remainder : (others ++ delimiter :: rest).dropWhile isListItem = delimiter :: rest :=
      Text.dropWhile_append_of_stops item (Text.stops_cons stop)
    show takeList (first :: (others ++ delimiter :: rest)) = _
    rw [takeList]
    · rw [if_neg noQuote, run, remainder]
      rfl
    · exact noBracket
    · exact noComma
  | quoted units =>
    have shape : (WrittenArgument.quoted units).characters ++ delimiter :: rest =
        '"' :: (units.flatMap QuotedUnit.characters ++ '"' :: (delimiter :: rest)) := by
      simp [WrittenArgument.characters]
    rw [shape, takeList]
    · have taken := takeQuoted?_written units (delimiter :: rest)
      rw [if_pos rfl]
      split
      · next inside others found =>
        obtain ⟨rfl, rfl⟩ := Prod.mk.inj (Option.some.inj (found.symm.trans taken))
        rw [if_pos closed]
        simp [WrittenArgument.characters]
      · next found => rw [taken] at found; contradiction
    · exact fun same => absurd same (by decide)
    · exact fun same => absurd same (by decide)

/-- Written arguments are taken through the bracket after them. -/
theorem takeList_written (arguments : List WrittenArgument) (after : List Char) :
    takeList (joined (arguments.map WrittenArgument.characters) ++ ']' :: after) =
      (joined (arguments.map WrittenArgument.characters) ++ [']'], after) := by
  induction arguments with
  | nil =>
    show takeList (']' :: after) = ([']'], after)
    rw [takeList]
  | cons argument rest ih =>
    cases rest with
    | nil =>
      rw [List.map_singleton, joined_singleton, takeList_argument argument (.inr rfl) (.head after),
        takeList]
    | cons next others =>
      have closed : ']' ∈ ',' :: (joined ((next :: others).map WrittenArgument.characters) ++
          ']' :: after) := by simp
      rw [List.map_cons, List.map_cons, joined_cons_cons, ← List.map_cons, List.append_assoc,
        List.cons_append, takeList_argument argument (.inl rfl) closed, takeList, ih]
      simp

/-! ### Expressions -/

/-- A qualified name is taken up to the colon, the comma or the end after it. -/
theorem span_qualified (expression : WrittenExpression) (after : List Char)
    (stops : Text.Stops isNameCharacter after) :
    (expression.qualified ++ after).takeWhile isNameCharacter = expression.qualified ∧
      (expression.qualified ++ after).dropWhile isNameCharacter = after := by
  have named : ∀ character ∈ expression.qualified, isNameCharacter character = true := by
    intro character member
    obtain ⟨noComma, noColon⟩ := expression.regular character member
    simp [isNameCharacter, noComma, noColon]
  exact ⟨Text.takeWhile_append_of_stops named stops, Text.dropWhile_append_of_stops named stops⟩

/-- The characters of an expression with arguments. -/
theorem characters_of_arguments {expression : WrittenExpression}
    (bracketed : expression.arguments ≠ []) : expression.characters = expression.qualified ++
      ':' :: '[' :: (joined (expression.arguments.map WrittenArgument.characters) ++ [']']) := by
  have present : expression.arguments.isEmpty = false := by simpa using bracketed
  rw [WrittenExpression.characters, present]
  simp

/-- The characters of an expression without arguments are its name. -/
theorem characters_of_name {expression : WrittenExpression} (alone : expression.arguments = []) :
    expression.characters = expression.qualified := by
  rw [WrittenExpression.characters, alone]
  rfl

/-- No argument begins with a closing bracket. -/
theorem head?_joined_arguments {arguments : List WrittenArgument} (present : arguments ≠ [])
    (after : List Char) :
    (joined (arguments.map WrittenArgument.characters) ++ after).head? ≠ some ']' := by
  have begins : ∀ argument : WrittenArgument, ∀ tail,
      (argument.characters ++ tail).head? ≠ some ']' := by
    intro argument tail
    cases argument with
    | bare first rest regular =>
      obtain ⟨-, -, noBracket, -⟩ := regular first (.head rest)
      exact fun same => noBracket (Option.some.inj same)
    | quoted units => exact fun same => absurd (Option.some.inj same) (by decide)
  cases arguments with
  | nil => exact absurd rfl present
  | cons argument rest =>
    cases rest with
    | nil =>
      rw [List.map_singleton, joined_singleton]
      exact begins argument after
    | cons next others =>
      rw [List.map_cons, List.map_cons, joined_cons_cons, List.append_assoc]
      exact begins argument _

/-- A name with arguments is taken with its brackets. -/
theorem takeBracketed?_written {expression : WrittenExpression}
    (bracketed : expression.arguments ≠ []) (after : List Char) :
    takeBracketed? (expression.characters ++ after) = some (expression.characters, after) := by
  have shape : expression.characters ++ after = expression.qualified ++ ':' :: '[' ::
      (joined (expression.arguments.map WrittenArgument.characters) ++ ']' :: after) := by
    rw [characters_of_arguments bracketed]
    simp
  have span := span_qualified expression (':' :: '[' ::
    (joined (expression.arguments.map WrittenArgument.characters) ++ ']' :: after))
    (fun character here => Option.some.inj here ▸ rfl)
  have opens : expression.qualified ≠ [] ∧
      (joined (expression.arguments.map WrittenArgument.characters) ++ ']' :: after).head? ≠ some ']' ∧
      ']' ∈ joined (expression.arguments.map WrittenArgument.characters) ++ ']' :: after :=
    ⟨List.cons_ne_nil _ _, head?_joined_arguments bracketed _, by simp⟩
  rw [shape, takeBracketed?, span.1, span.2]
  simp only [if_pos opens, takeList_written]
  rw [characters_of_arguments bracketed]

/-- A name alone is no bracketed expression. -/
theorem takeBracketed?_name (expression : WrittenExpression) {after : List Char} (ends : Ends after) :
    takeBracketed? (expression.qualified ++ after) = none := by
  have span := span_qualified expression after
    (fun character here => by rw [ends character here]; rfl)
  rw [takeBracketed?, span.1, span.2]
  cases after with
  | nil => rfl
  | cons character rest =>
    have same := ends character rfl
    subst same
    rfl

/-- Where a bracketed expression begins, it is the first one. -/
theorem expressions_bracketed {character : Char} {rest expression after : List Char}
    (noComma : character ≠ ',')
    (taken : takeBracketed? (character :: rest) = some (expression, after)) :
    expressions (character :: rest) = expression :: expressions after := by
  unfold expressions
  rw [tiles]
  · split
    · next found =>
      rw [taken] at found
      obtain ⟨rfl, rfl⟩ := Prod.mk.inj (Option.some.inj found)
      rfl
    · next refused => rw [taken] at refused; contradiction
  · exact noComma

/-- Where no bracketed expression begins, the first one runs to the next comma. -/
theorem expressions_bare {character : Char} {rest : List Char} (noComma : character ≠ ',')
    (refused : takeBracketed? (character :: rest) = none) :
    expressions (character :: rest) =
      (character :: rest.takeWhile (· != ',')) :: expressions (rest.dropWhile (· != ',')) := by
  unfold expressions
  rw [tiles]
  · split
    · next found => rw [refused] at found; contradiction
    · rfl
  · exact noComma

/-- A comma separates expressions and belongs to none. -/
theorem expressions_comma (rest : List Char) : expressions (',' :: rest) = expressions rest := by
  unfold expressions
  rw [tiles]
  rfl

/-- A written expression is read as it was written, and what follows is read after it. -/
theorem expressions_written (expression : WrittenExpression) {after : List Char} (ends : Ends after) :
    expressions (expression.characters ++ after) = expression.characters :: expressions after := by
  have noComma : expression.first ≠ ',' := (expression.regular _ (.head _)).1
  by_cases alone : expression.arguments = []
  · have refused : takeBracketed? (expression.first :: (expression.rest ++ after)) = none :=
      takeBracketed?_name expression ends
    have within : ∀ character ∈ expression.rest, (character != ',') = true := by
      intro character member
      have regular := (expression.regular character (.tail _ member)).1
      simp [regular]
    have stops : Text.Stops (· != ',') after := fun character first => by simp [ends character first]
    have run := Text.takeWhile_append_of_stops within stops
    have remainder := Text.dropWhile_append_of_stops within stops
    rw [characters_of_name alone]
    have bare := expressions_bare noComma refused
    rw [run, remainder] at bare
    exact bare
  · have taken := takeBracketed?_written alone after
    have begins : expression.characters ++ after = expression.first :: (expression.rest ++
        ':' :: '[' :: (joined (expression.arguments.map WrittenArgument.characters) ++ [']']) ++ after) := by
      rw [characters_of_arguments alone]
      rfl
    rw [begins] at taken ⊢
    exact expressions_bracketed noComma taken

/-- Written expressions between commas are read one by one, and then those of what follows. -/
theorem expressions_joined (written : List WrittenExpression) {after : List Char}
    (ends : Ends after) :
    expressions (joined (written.map WrittenExpression.characters) ++ after) =
      written.map WrittenExpression.characters ++ expressions after := by
  induction written with
  | nil => rfl
  | cons expression rest ih =>
    cases rest with
    | nil =>
      rw [List.map_singleton, joined_singleton, expressions_written expression ends]
      rfl
    | cons next others =>
      have comma : Ends (',' :: (joined ((next :: others).map WrittenExpression.characters) ++ after)) :=
        fun character here => (Option.some.inj here).symm
      rw [List.map_cons, List.map_cons, joined_cons_cons, ← List.map_cons, List.append_assoc,
        List.cons_append, expressions_written expression comma, expressions_comma, ih]
      rfl

/-! ### Arguments -/

/-- A comma or a bracket between arguments belongs to none. -/
theorem arguments_delimiter {delimiter : Char} (rest : List Char)
    (delimits : delimiter = ',' ∨ delimiter = '[' ∨ delimiter = ']') :
    arguments (delimiter :: rest) = arguments rest := by
  have apart : delimiter ≠ '"' ∧ isArgumentCharacter delimiter = false := by
    rcases delimits with rfl | rfl | rfl <;> decide
  rw [arguments, if_neg apart.1, if_neg (by simp [apart.2])]

/-- A written argument is read as its text, up to the comma or the bracket after it. -/
theorem arguments_argument (argument : WrittenArgument) {delimiter : Char} (rest : List Char)
    (delimits : delimiter = ',' ∨ delimiter = ']') :
    arguments (argument.characters ++ delimiter :: rest) =
      argument.text :: arguments (delimiter :: rest) := by
  cases argument with
  | bare first others regular =>
    have allowed : ∀ character ∈ first :: others, isArgumentCharacter character = true := by
      intro character member
      obtain ⟨noComma, noOpening, noClosing, noQuote⟩ := regular character member
      simp [isArgumentCharacter, noComma, noOpening, noClosing, noQuote]
    have noQuote : first ≠ '"' := (regular first (.head others)).2.2.2
    have within : ∀ character ∈ others, isArgumentCharacter character = true :=
      fun character member => allowed character (.tail first member)
    have stop : isArgumentCharacter delimiter = false := by
      rcases delimits with rfl | rfl <;> decide
    have run : (others ++ delimiter :: rest).takeWhile isArgumentCharacter = others :=
      Text.takeWhile_append_of_stops within (Text.stops_cons stop)
    have remainder : (others ++ delimiter :: rest).dropWhile isArgumentCharacter =
        delimiter :: rest :=
      Text.dropWhile_append_of_stops within (Text.stops_cons stop)
    show arguments (first :: (others ++ delimiter :: rest)) = _
    rw [arguments, if_neg noQuote, if_pos (allowed first (.head others)), run, remainder]
    rfl
  | quoted units =>
    have taken := takeQuoted?_written units (delimiter :: rest)
    have shape : (WrittenArgument.quoted units).characters ++ delimiter :: rest =
        '"' :: (units.flatMap QuotedUnit.characters ++ '"' :: (delimiter :: rest)) := by
      simp [WrittenArgument.characters]
    rw [shape, arguments, if_pos rfl]
    split
    · next inside others found =>
      obtain ⟨rfl, rfl⟩ := Prod.mk.inj (Option.some.inj (found.symm.trans taken))
      rfl
    · next found => rw [taken] at found; contradiction

/-- Written arguments in brackets are read one by one. -/
theorem arguments_written (written : List WrittenArgument) :
    arguments (joined (written.map WrittenArgument.characters) ++ [']']) =
      written.map WrittenArgument.text := by
  have closing : arguments [']'] = [] := by
    rw [arguments_delimiter [] (.inr (.inr rfl)), arguments]
  induction written with
  | nil => exact closing
  | cons argument rest ih =>
    cases rest with
    | nil =>
      rw [List.map_singleton, joined_singleton, arguments_argument argument [] (.inr rfl), closing]
      rfl
    | cons next others =>
      rw [List.map_cons, List.map_cons, joined_cons_cons, ← List.map_cons, List.append_assoc,
        List.cons_append, arguments_argument argument _ (.inl rfl), arguments_delimiter _ (.inl rfl),
        ih]
      rfl

/-- A written expression is read as the call that it writes. -/
theorem ofExpression_written (expression : WrittenExpression) :
    FilterCall.ofExpression expression.characters = expression.call := by
  have noColon : ':' ∉ expression.qualified := fun member =>
    (expression.regular ':' member).2 rfl
  by_cases alone : expression.arguments = []
  · have uncut : Text.splitFirst? ':' expression.qualified = none := by
      cases cut : Text.splitFirst? ':' expression.qualified with
      | none => rfl
      | some parts =>
        obtain ⟨whole, -⟩ := Text.splitFirst?_eq_some_iff.1 cut
        exact absurd (whole ▸ by simp) noColon
    rw [characters_of_name alone, FilterCall.ofExpression, uncut, WrittenExpression.call, alone]
    rfl
  · have cut : Text.splitFirst? ':' expression.characters = some (expression.qualified,
        '[' :: (joined (expression.arguments.map WrittenArgument.characters) ++ [']'])) :=
      Text.splitFirst?_eq_some_iff.2 ⟨characters_of_arguments alone, noColon⟩
    rw [FilterCall.ofExpression, cut]
    simp only
    rw [arguments_delimiter _ (.inr (.inl rfl)), arguments_written, List.map_map]
    rfl

/-! ### Filter values -/

/-- A value that begins with written expressions, followed by a comma and any text, assigns their calls in
their order, and then those of the expressions of that text. Without anything after them it assigns their
calls and nothing else. -/
theorem filters_written (written : List WrittenExpression) :
    filters (joined (written.map WrittenExpression.characters)) =
        (written.map WrittenExpression.call).foldl assignCall .empty ∧
      ∀ rest, filters (joined (written.map WrittenExpression.characters) ++ ',' :: rest) =
        ((expressions rest).map FilterCall.ofExpression).foldl assignCall
          ((written.map WrittenExpression.call).foldl assignCall .empty) := by
  have calls : (written.map WrittenExpression.characters).map FilterCall.ofExpression =
      written.map WrittenExpression.call := by
    rw [List.map_map]
    exact List.map_congr_left fun expression _ => ofExpression_written expression
  constructor
  · have nothing : Ends [] := fun _ here => by contradiction
    have read := expressions_joined written nothing
    have none : expressions [] = [] := by
      unfold expressions
      rw [tiles]
      rfl
    rw [List.append_nil, none, List.append_nil] at read
    rw [filters, read, calls]
  · intro rest
    have comma : Ends (',' :: rest) := fun _ here => (Option.some.inj here).symm
    rw [filters, expressions_joined written comma, expressions_comma, List.map_append, calls,
      List.foldl_append]

end ResourceQuery.Parameter
