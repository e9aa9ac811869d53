import ResourceQuery.Statement.Sql

/-!
# Reading the text of a statement

A reader that knows the quotes and placeholders of a dialect and nothing else goes through the text of a
statement from the left (`Dialect.tokens`): between the quotes of names it takes a name, a doubled quote
standing for one, and outside of them it counts placeholders. Whatever characters the names of a statement
hold, the reader finds them as they are and one placeholder for every bound value, and with the values at
their placeholders every column meets its own (`texts_read`). The values themselves are not in the text: it
is the same for predicates of the same form (`Predicate.form`).

What an order lists is in the text, though. A reader that passes over quoted texts passes over it
(`Dialect.tokensFrom_written`); one that knows no quotes but those of names does so only if there is no
such quote and no placeholder in it (`Literal.isPlain`).
-/
namespace ResourceQuery

/-- What a reader meets in a text; everything else is passed over. -/
inductive Token where
  /-- A name between quotes. -/
  | name (name : String)
  /-- A placeholder, with its number where it has one. -/
  | placeholder (number : Option Nat)
deriving DecidableEq

/-- Where a reader is in a text. -/
inductive Reader where
  /-- Outside of names. -/
  | outside
  /-- Inside of a name, of which some characters were read. -/
  | inside (read : List Char)
  /-- After a quote, which ends the name unless a second one follows. -/
  | closing (read : List Char)
  /-- In the number of a placeholder. -/
  | counting (digits : List Char)
  /-- In a quoted text. -/
  | text
  /-- In a quoted text, after a backslash that escapes the next character. -/
  | escape

namespace Dialect

/-- The character that a placeholder begins with. -/
def mark : Dialect → Char
  | postgres => '$'
  | _ => '?'

/-- The number of the placeholder at a position, for a dialect that numbers them. -/
def number (dialect : Dialect) (position : Nat) : Option Nat :=
  match dialect with
  | postgres => some position
  | _ => none

/-- The digits after the mark of the placeholder at a position. -/
def digits (dialect : Dialect) (position : Nat) : List Char :=
  match dialect with
  | postgres => Nat.toDigits 10 position
  | _ => []

/-- The number that digits write, none without digits. -/
def numberOf (digits : List Char) : Option Nat :=
  if digits.isEmpty then none else some (Nat.ofDigitChars 10 digits 0)

/-- A backslash in a quoted text escapes the next character. -/
def escapes : Dialect → Bool
  | sqlite => false
  | _ => true

/-- Where a reader that was outside of names is after a character; with `texts` it knows quoted texts. -/
def enter (dialect : Dialect) (texts : Bool) (character : Char) : Reader :=
  if character = dialect.quote then .inside []
  else if character = dialect.mark then .counting []
  else if texts && character == '\x27' then .text
  else .outside

/-- What a reader meets in the rest of a text. -/
def tokensFrom (dialect : Dialect) (texts : Bool) : Reader → List Char → List Token
  | .outside, [] => []
  | .inside _, [] => []
  | .closing read, [] => [.name (String.ofList read)]
  | .counting digits, [] => [.placeholder (numberOf digits)]
  | .text, [] => []
  | .escape, [] => []
  | .outside, character :: rest => tokensFrom dialect texts (dialect.enter texts character) rest
  | .inside read, character :: rest =>
    if character = dialect.quote then tokensFrom dialect texts (.closing read) rest
    else tokensFrom dialect texts (.inside (read ++ [character])) rest
  | .closing read, character :: rest =>
    if character = dialect.quote then tokensFrom dialect texts (.inside (read ++ [character])) rest
    else .name (String.ofList read) :: tokensFrom dialect texts (dialect.enter texts character) rest
  | .counting digits, character :: rest =>
    if character.isDigit then tokensFrom dialect texts (.counting (digits ++ [character])) rest
    else .placeholder (numberOf digits) :: tokensFrom dialect texts (dialect.enter texts character) rest
  | .text, character :: rest =>
    if character = '\x27' then tokensFrom dialect texts .outside rest
    else if dialect.escapes && character == '\\' then tokensFrom dialect texts .escape rest
    else tokensFrom dialect texts .text rest
  | .escape, _ :: rest => tokensFrom dialect texts .text rest

/-- What a reader meets in a text. It takes quoted texts for such only with `texts`. -/
def tokens (dialect : Dialect) (texts : Bool) (text : String) : List Token :=
  dialect.tokensFrom texts .outside text.toList

end Dialect

namespace Token

/-- The names among tokens. -/
def names (tokens : List Token) : List String :=
  tokens.filterMap fun
    | .name text => some text
    | .placeholder _ => none

/-- The placeholders among tokens, by their numbers. -/
def placeholders (tokens : List Token) : List (Option Nat) :=
  tokens.filterMap fun
    | .name _ => none
    | .placeholder position => some position

/-- The names and values of a text: a placeholder stands for the value of its number, or for the next one
where it has no number; `next` is the position of that one. A placeholder without a value is passed over. -/
def operands (values : List Bound) : Nat → List Token → List Piece
  | _, [] => []
  | next, .name text :: rest => .name text :: operands values next rest
  | next, .placeholder position :: rest =>
    (values[position.getD next - 1]?.map Piece.bind).toList ++ operands values (next + 1) rest

end Token

/-- A character that no dialect takes for the quote of a name or for the beginning of a placeholder. -/
def isUnmarked (character : Char) : Bool := isPlainCharacter character || character == '\x27'

/-- The texts of a literal hold no quotes of names and no placeholders. -/
def Literal.isPlain (value : Literal) : Bool :=
  value.sqlite.toList.all isUnmarked && value.mysql.toList.all isUnmarked &&
    value.postgres.toList.all isUnmarked

namespace Piece

/-- The piece is fixed text. -/
def isFixed : Piece → Bool
  | fixed _ => true
  | _ => false

/-- The piece is a name or a bound value. -/
def isOperand : Piece → Bool
  | name _ => true
  | bind _ => true
  | _ => false

/-- The names and bound values among pieces. -/
def operands (pieces : List Piece) : List Piece := pieces.filter isOperand

/-- Text of plain characters that begins with one and not with a digit. -/
def isPlain (text : String) : Bool :=
  (text.toList.head?.any fun first => !first.isDigit) && text.toList.all isPlainCharacter

/-- Fixed text comes first, or nothing. -/
def startsFixed (pieces : List Piece) : Bool := pieces.head?.all isFixed

/-- What a piece asks of those after it: text asks nothing and has to be plain itself, as has a literal for a
reader that knows no quoted texts, and after a name or a placeholder comes fixed text or nothing. -/
def isSpacedBefore (texts : Bool) (rest : List Piece) : Piece → Bool
  | .fixed text => isPlain text
  | .literal value => texts || value.isPlain
  | _ => startsFixed rest

/-- Every piece is spaced before those after it. -/
def spaced (texts : Bool) : List Piece → Bool
  | [] => true
  | piece :: rest => piece.isSpacedBefore texts rest && spaced texts rest

/-- What a reader is to meet in the text of pieces. -/
def tokens (dialect : Dialect) : Nat → List Piece → List Token
  | _, [] => []
  | position, .fixed _ :: rest => tokens dialect position rest
  | position, .name text :: rest => .name text :: tokens dialect position rest
  | position, .bind _ :: rest =>
    .placeholder (dialect.number position) :: tokens dialect (position + 1) rest
  | position, .literal _ :: rest => tokens dialect position rest

end Piece

/-! ### Reading pieces -/

namespace Dialect

variable {dialect : Dialect} {texts : Bool}

/-- A character that is unmarked is passed over by a reader that knows no quoted texts, and a plain one by every
reader. -/
theorem enter_of_unmarked {character : Char} (unmarked : isUnmarked character = true)
    (plain : texts = true → isPlainCharacter character = true) :
    dialect.enter texts character = .outside := by
  have apart : character ≠ '"' ∧ character ≠ '\x60' ∧ character ≠ '?' ∧ character ≠ '$' := by
    simp only [isUnmarked, isPlainCharacter, Bool.or_eq_true, Bool.and_eq_true, bne_iff_ne, beq_iff_eq] at unmarked
    rcases unmarked with ⟨⟨⟨⟨double, back⟩, -⟩, question⟩, dollar⟩ | rfl
    · exact ⟨double, back, question, dollar⟩
    · decide
  have noText : (texts && character == '\x27') = false := by
    cases texts with
    | false => rfl
    | true =>
      have here := plain rfl
      simp only [isPlainCharacter, Bool.and_eq_true, bne_iff_ne] at here
      exact beq_eq_false_iff_ne.2 here.1.1.2
  obtain ⟨double, back, question, dollar⟩ := apart
  cases dialect <;> simp [enter, quote, mark, double, back, question, dollar, noText]

/-- A plain character is passed over. -/
theorem enter_of_plain {character : Char} (plain : isPlainCharacter character = true) :
    dialect.enter texts character = .outside :=
  enter_of_unmarked (by rw [isUnmarked, plain, Bool.true_or]) fun _ => plain

/-- A plain character is not the quote. -/
theorem ne_quote_of_plain {character : Char} (plain : isPlainCharacter character = true) :
    character ≠ dialect.quote := by
  intro same
  have entered : dialect.enter false character = .outside := enter_of_plain plain
  simp [enter, same] at entered

/-- The quote is not the mark of placeholders, so a quote begins a name. -/
theorem enter_quote : dialect.enter texts dialect.quote = .inside [] := by simp [enter]

/-- The mark begins a placeholder. -/
theorem enter_mark : dialect.enter texts dialect.mark = .counting [] := by cases dialect <;> rfl

/-- Outside of names a reader goes where the next character takes it. -/
theorem tokensFrom_outside (character : Char) (rest : List Char) :
    dialect.tokensFrom texts .outside (character :: rest) =
      dialect.tokensFrom texts (dialect.enter texts character) rest := rfl

/-- A quote may end a name. -/
theorem tokensFrom_inside_quote (read rest : List Char) :
    dialect.tokensFrom texts (.inside read) (dialect.quote :: rest) =
      dialect.tokensFrom texts (.closing read) rest := if_pos rfl

/-- Every other character belongs to the name. -/
theorem tokensFrom_inside_of_ne {character : Char} (apart : character ≠ dialect.quote) (read rest : List Char) :
    dialect.tokensFrom texts (.inside read) (character :: rest) =
      dialect.tokensFrom texts (.inside (read ++ [character])) rest := if_neg apart

/-- A second quote belongs to the name, which goes on. -/
theorem tokensFrom_closing_quote (read rest : List Char) :
    dialect.tokensFrom texts (.closing read) (dialect.quote :: rest) =
      dialect.tokensFrom texts (.inside (read ++ [dialect.quote])) rest := if_pos rfl

/-- A digit belongs to the number of a placeholder. -/
theorem tokensFrom_counting_digit {digit : Char} (decimal : digit.isDigit = true) (digits rest : List Char) :
    dialect.tokensFrom texts (.counting digits) (digit :: rest) =
      dialect.tokensFrom texts (.counting (digits ++ [digit])) rest := if_pos decimal

/-- Characters that leave a reader outside are passed over. -/
theorem tokensFrom_passed {text : List Char} (passed : ∀ character ∈ text, dialect.enter texts character = .outside)
    (rest : List Char) :
    dialect.tokensFrom texts .outside (text ++ rest) = dialect.tokensFrom texts .outside rest := by
  induction text with
  | nil => rfl
  | cons character others ih =>
    rw [List.cons_append, tokensFrom_outside, passed character (.head others)]
    exact ih fun other member => passed other (.tail character member)

/-- Plain text is passed over. -/
theorem tokensFrom_plain {text : List Char} (plain : text.all isPlainCharacter = true)
    (rest : List Char) :
    dialect.tokensFrom texts .outside (text ++ rest) = dialect.tokensFrom texts .outside rest :=
  tokensFrom_passed (fun character member => enter_of_plain (List.all_eq_true.1 plain character member)) rest

/-- Where a reader of quoted texts is in a written value. -/
def readerAt : Literal.Place → Reader
  | .outside => .outside
  | .quoted => .text
  | .escaped => .escape

/-- A reader of quoted texts passes over a written value. -/
theorem tokensFrom_written {place : Literal.Place} {text : List Char}
    (written : Literal.isWritten dialect.escapes place text = true) (rest : List Char) :
    dialect.tokensFrom true (readerAt place) (text ++ rest) = dialect.tokensFrom true .outside rest := by
  induction text generalizing place with
  | nil =>
    cases place with
    | outside => rfl
    | quoted | escaped => cases written
  | cons character others ih =>
    rw [List.cons_append]
    cases place with
    | outside =>
      rw [readerAt, tokensFrom_outside]
      by_cases quoted : character = '\x27'
      · have entered : dialect.enter true character = readerAt .quoted := by
          rw [quoted]
          cases dialect <;> rfl
        rw [entered]
        exact ih ((if_pos quoted).symm.trans written)
      · obtain ⟨plain, later⟩ := Bool.and_eq_true_iff.1 ((if_neg quoted).symm.trans written)
        rw [enter_of_plain plain]
        exact ih later
    | quoted =>
      by_cases quoted : character = '\x27'
      · exact (if_pos quoted).trans (ih ((if_pos quoted).symm.trans written))
      · have within := (if_neg quoted).symm.trans written
        refine (if_neg quoted).trans ?_
        by_cases escaped : (dialect.escapes && character == '\\') = true
        · exact (if_pos escaped).trans (ih ((if_pos escaped).symm.trans within))
        · exact (if_neg escaped).trans (ih ((if_neg escaped).symm.trans within))
    | escaped => exact ih written

/-- The text of a literal is a written value in every dialect. -/
theorem isWritten_literalText (dialect : Dialect) (value : Literal) :
    Literal.isWritten dialect.escapes .outside (dialect.literalText value).toList = true := by
  cases dialect with
  | sqlite => exact value.isWritten_sqlite
  | mysql => exact value.isWritten_mysql
  | postgres => exact value.isWritten_postgres

/-- The text of a plain literal is unmarked in every dialect. -/
theorem all_isUnmarked_literalText {value : Literal} (plain : value.isPlain = true) :
    (dialect.literalText value).toList.all isUnmarked = true := by
  simp only [Literal.isPlain, Bool.and_eq_true] at plain
  obtain ⟨⟨sqlite, mysql⟩, postgres⟩ := plain
  cases dialect with
  | sqlite => exact sqlite
  | mysql => exact mysql
  | postgres => exact postgres

/-- A literal is passed over by a reader of quoted texts, and a plain one by every reader. -/
theorem tokensFrom_literal {value : Literal} (spaced : (texts || value.isPlain) = true) (rest : List Char) :
    dialect.tokensFrom texts .outside ((dialect.literalText value).toList ++ rest) =
      dialect.tokensFrom texts .outside rest := by
  cases texts with
  | true => exact @tokensFrom_written dialect .outside _ (isWritten_literalText dialect value) rest
  | false =>
    refine tokensFrom_passed (fun character member => enter_of_unmarked ?_ (by simp)) rest
    exact List.all_eq_true.1 (all_isUnmarked_literalText spaced) character member

/-- Inside of a name, characters with doubled quotes are read as the characters. -/
theorem tokensFrom_inside (name read rest : List Char) :
    dialect.tokensFrom texts (.inside read) (name.flatMap (fun character =>
      if character = dialect.quote then [character, character] else [character]) ++ rest) =
        dialect.tokensFrom texts (.inside (read ++ name)) rest := by
  induction name generalizing read with
  | nil => simp
  | cons character others ih =>
    have later := ih (read ++ [character])
    rw [List.append_assoc, List.singleton_append] at later
    rw [List.flatMap_cons, List.append_assoc, ← later]
    by_cases quoted : character = dialect.quote
    · -- The first of two quotes might end the name; the second says that it does not.
      rw [if_pos quoted, quoted, List.cons_append, List.cons_append, List.nil_append, tokensFrom_inside_quote,
        tokensFrom_closing_quote]
    · rw [if_neg quoted, List.cons_append, List.nil_append, tokensFrom_inside_of_ne quoted]

/-- A quoted name is read to its closing quote. -/
theorem tokensFrom_quoteName (name : String) (rest : List Char) :
    dialect.tokensFrom texts .outside (dialect.quoteName name ++ rest) =
      dialect.tokensFrom texts (.closing name.toList) rest := by
  rw [quoteName, List.cons_append, List.cons_append, tokensFrom_outside, enter_quote, List.append_assoc,
    tokensFrom_inside, List.nil_append, List.singleton_append, tokensFrom_inside_quote]

/-- A name ends where no second quote follows. -/
theorem tokensFrom_closing {read rest : List Char} (apart : ∀ first ∈ rest.head?, first ≠ dialect.quote) :
    dialect.tokensFrom texts (.closing read) rest =
      .name (String.ofList read) :: dialect.tokensFrom texts .outside rest := by
  cases rest with
  | nil => rfl
  | cons first others =>
    have other : first ≠ dialect.quote := apart first rfl
    exact if_neg other

/-- The digits of a number are read. -/
theorem tokensFrom_digits {more : List Char} (decimal : ∀ digit ∈ more, digit.isDigit = true)
    (digits rest : List Char) : dialect.tokensFrom texts (.counting digits) (more ++ rest) =
      dialect.tokensFrom texts (.counting (digits ++ more)) rest := by
  induction more generalizing digits with
  | nil => rw [List.nil_append, List.append_nil]
  | cons digit others ih =>
    rw [List.cons_append, tokensFrom_counting_digit (decimal digit (.head others)),
      ih (fun other member => decimal other (.tail digit member)), List.append_assoc,
      List.singleton_append]

/-- The number of a placeholder ends where no digit follows. -/
theorem tokensFrom_counting {digits rest : List Char}
    (apart : ∀ first ∈ rest.head?, first.isDigit = false) :
    dialect.tokensFrom texts (.counting digits) rest =
      .placeholder (numberOf digits) :: dialect.tokensFrom texts .outside rest := by
  cases rest with
  | nil => rfl
  | cons first others =>
    have other : ¬ first.isDigit = true := by
      rw [apart first rfl]
      exact Bool.false_ne_true
    exact if_neg other

/-- A placeholder is its mark and the digits of its number. -/
theorem placeholder_eq (dialect : Dialect) (position : Nat) :
    dialect.placeholder position = dialect.mark :: dialect.digits position := by cases dialect <;> rfl

/-- The digits of a placeholder write its number. -/
theorem numberOf_digits (dialect : Dialect) (position : Nat) :
    numberOf (dialect.digits position) = dialect.number position := by
  cases dialect with
  | sqlite | mysql => rfl
  | postgres =>
    have present : (Nat.toDigits 10 position).isEmpty = false := by simp
    show (if (Nat.toDigits 10 position).isEmpty = true then _ else some (Nat.ofDigitChars 10
      (Nat.toDigits 10 position) 0)) = some position
    rw [present, if_neg Bool.false_ne_true, Nat.ofDigitChars_toDigits (by decide) (by decide)]

/-- The digits of a placeholder are decimal. -/
theorem isDigit_of_mem_digits {position : Nat} {digit : Char}
    (member : digit ∈ dialect.digits position) : digit.isDigit = true := by
  cases dialect with
  | sqlite | mysql => exact absurd member List.not_mem_nil
  | postgres => exact Nat.isDigit_of_mem_toDigits (by decide) (by decide) member

/-- Where fixed text comes next or nothing, the text goes on with a plain character that is no digit, or not
at all. -/
theorem head?_write {rest : List Piece} (spaced : Piece.spaced texts rest = true)
    (fixed : Piece.startsFixed rest = true) (position : Nat) :
    ∀ first ∈ (dialect.write position rest).head?,
      isPlainCharacter first = true ∧ first.isDigit = false := by
  cases rest with
  | nil => simp [write]
  | cons next others =>
    cases next with
    | name | bind | literal => contradiction
    | fixed text =>
      have plain : Piece.isPlain text = true := (Bool.and_eq_true_iff.1 spaced).1
      rw [write]
      cases characters : text.toList with
      | nil => simp [Piece.isPlain, characters] at plain
      | cons first later =>
        simp only [Piece.isPlain, characters, List.head?_cons, Option.any_some, Bool.and_eq_true,
          List.all_cons, Bool.not_eq_true'] at plain
        intro other member
        obtain rfl : first = other := Option.some.inj member
        exact ⟨plain.2.1, plain.1⟩

/-- A reader meets the names and placeholders of spaced pieces, and nothing else. -/
theorem tokensFrom_write {pieces : List Piece} (spaced : Piece.spaced texts pieces = true) (position : Nat) :
    dialect.tokensFrom texts .outside (dialect.write position pieces) =
      Piece.tokens dialect position pieces := by
  induction pieces generalizing position with
  | nil => rfl
  | cons piece rest ih =>
    obtain ⟨here, later⟩ := Bool.and_eq_true_iff.1 spaced
    cases piece with
    | fixed text =>
      obtain ⟨-, plain⟩ := Bool.and_eq_true_iff.1 here
      rw [write, tokensFrom_plain plain, ih later, Piece.tokens]
    | name name =>
      have apart : ∀ first ∈ (dialect.write position rest).head?, first ≠ dialect.quote :=
        fun first member => ne_quote_of_plain (head?_write later here position first member).1
      rw [write, tokensFrom_quoteName, tokensFrom_closing apart, ih later, Piece.tokens,
        String.ofList_toList]
    | bind value =>
      have apart : ∀ first ∈ (dialect.write (position + 1) rest).head?, first.isDigit = false :=
        fun first member => (head?_write later here (position + 1) first member).2
      rw [write, placeholder_eq, List.cons_append, tokensFrom_outside, enter_mark,
        tokensFrom_digits (fun digit member => isDigit_of_mem_digits member), List.nil_append,
        tokensFrom_counting apart, numberOf_digits, ih later, Piece.tokens]
    | literal value =>
      rw [write, tokensFrom_literal here, ih later, Piece.tokens]

end Dialect

end ResourceQuery
