import ResourceQuery.Catalog
import ResourceQuery.Json.Basic

/-!
# Selections

What is asked of the rows of one entity: the columns, the predicates that all have to hold, the
order, and a window of rows. Without a column list every column is selected; a restricted
selection has exactly the columns added to it, each once (`selects_addColumn`).
-/
namespace ResourceQuery

/-- How a column is compared. -/
inductive Comparison where
  /-- Equal to the value. -/
  | equal
  /-- Different from the value. -/
  | notEqual
  /-- Greater than the value. -/
  | greater
  /-- Greater than or equal to the value. -/
  | atLeast
  /-- Less than the value. -/
  | less
  /-- Less than or equal to the value. -/
  | atMost
  /-- Matching the pattern. -/
  | like
  /-- Not matching the pattern. -/
  | notLike
  /-- One of the values. -/
  | among
  /-- None of the values. -/
  | notAmong
  /-- Without a value. -/
  | isNull
  /-- With a value. -/
  | isNotNull
deriving DecidableEq

/-- A condition on one column. -/
structure Predicate where
  /-- The column compared. -/
  column : String
  /-- The comparison. -/
  comparison : Comparison
  /-- What it is compared with; an array for a comparison with several values. -/
  value : Json

/-- A character that no dialect takes for a quote or for the beginning of a placeholder. -/
def isPlainCharacter (character : Char) : Bool :=
  character != '"' && character != '\x60' && character != '\x27' && character != '?' && character != '$'

/-- Where one is in a value that is written into a statement. -/
inductive Literal.Place where
  /-- Outside of quoted texts. -/
  | outside
  /-- In a quoted text. -/
  | quoted
  /-- In a quoted text, after a backslash that escapes the next character. -/
  | escaped

/-- Characters are the rest of a written value: quoted texts are closed, and outside of them every character
is plain. A quote in a quoted text is escaped, where the dialect has escapes, or it is doubled, which closes
one text and opens the next. -/
def Literal.isWritten (escapes : Bool) : Literal.Place → List Char → Bool
  | .outside, [] => true
  | .quoted, [] => false
  | .escaped, [] => false
  | .outside, character :: rest =>
    if character = '\x27' then isWritten escapes .quoted rest
    else isPlainCharacter character && isWritten escapes .outside rest
  | .quoted, character :: rest =>
    if character = '\x27' then isWritten escapes .outside rest
    else if escapes && character == '\\' then isWritten escapes .escaped rest
    else isWritten escapes .quoted rest
  | .escaped, _ :: rest => isWritten escapes .quoted rest

/-- A value that is written into the text of a statement instead of being bound, as it stands in each
dialect. -/
structure Literal where
  /-- Its text for SQLite. -/
  sqlite : String
  /-- Its text for MySQL. -/
  mysql : String
  /-- Its text for PostgreSQL. -/
  postgres : String
  /-- The text for SQLite is a written value, without escapes. -/
  isWritten_sqlite : Literal.isWritten false .outside sqlite.toList = true
  /-- The text for MySQL is a written value. -/
  isWritten_mysql : Literal.isWritten true .outside mysql.toList = true
  /-- The text for PostgreSQL is a written value. -/
  isWritten_postgres : Literal.isWritten true .outside postgres.toList = true
deriving DecidableEq

/-- The direction of an order. -/
inductive Direction where
  /-- The least first. -/
  | ascending
  /-- The greatest first. -/
  | descending
  /-- The listed values first, in their order, and all others after them. -/
  | listed (values : List Literal)
deriving DecidableEq

/-- One key of an order. -/
structure SortKey where
  /-- The column that orders. -/
  column : String
  /-- The direction. -/
  direction : Direction
deriving DecidableEq

/-- What is asked of the rows of one entity. -/
structure Selection where
  /-- The entity of the rows. -/
  entity : String
  /-- The table of the rows. -/
  table : String
  /-- The column that identifies a row. -/
  primaryKey : String
  /-- The column by which rows are matched with their parents, for a relation. -/
  foreignKey : Option String
  /-- The columns selected, none meaning all. -/
  columns : Option (List String)
  /-- The predicates that rows meet. -/
  conditions : List Predicate
  /-- The keys of the order, the first deciding first. -/
  orders : List SortKey
  /-- The number of rows passed over. -/
  offset : Option Nat
  /-- The greatest number of rows. -/
  limit : Option Nat

namespace Selection

/-- Every column of every row of an entity. -/
def ofEntity (entity : Entity) : Selection :=
  ⟨entity.name, entity.table, entity.primaryKey, none, none, [], [], none, none⟩

/-- The rows that a relation loads from its target. -/
def ofRelation (relation : Relation) (target : Entity) : Selection :=
  { ofEntity target with foreignKey := some relation.childColumn }

/-- Only listed columns are selected. -/
def isRestricted (selection : Selection) : Bool := selection.columns.isSome

/-- The column is selected. -/
def selects (selection : Selection) (column : String) : Bool :=
  match selection.columns with
  | none => true
  | some columns => columns.contains column

/-- The selection without any column. -/
def restrict (selection : Selection) : Selection := { selection with columns := some [] }

/-- The selection with a column, which changes nothing where the column is selected already. -/
def addColumn (selection : Selection) (column : String) : Selection :=
  if selection.selects column then selection
  else { selection with columns := selection.columns.map (· ++ [column]) }

/-- An added column is selected, and no other column becomes so. -/
theorem selects_addColumn (selection : Selection) (column other : String) :
    (selection.addColumn column).selects other = (selection.selects other || other == column) := by
  unfold addColumn
  cases held : selection.selects column with
  | true =>
    by_cases h : other = column
    · subst h
      simp [held]
    · simp [h]
  | false =>
    unfold selects at held ⊢
    cases shape : selection.columns with
    | none => simp [shape] at held
    | some columns =>
      by_cases h : other = column
      · simp [h]
      · simp [h]

/-- The selection with more predicates. -/
def filterBy (selection : Selection) (predicates : List Predicate) : Selection :=
  { selection with conditions := selection.conditions ++ predicates }

/-- Without more predicates the selection is as it was. -/
@[simp] theorem filterBy_nil (selection : Selection) : selection.filterBy [] = selection := by
  rw [filterBy, List.append_nil]

/-- The selection with more sort keys, which decide after the present ones. -/
def orderBy (selection : Selection) (keys : List SortKey) : Selection :=
  { selection with orders := selection.orders ++ keys }

/-- Without more sort keys the selection is as it was. -/
@[simp] theorem orderBy_nil (selection : Selection) : selection.orderBy [] = selection := by
  simp [orderBy]

/-- The selection passing over so many rows. -/
def skip (selection : Selection) (count : Nat) : Selection :=
  { selection with offset := some count }

/-- The selection of at most so many rows. -/
def take (selection : Selection) (count : Nat) : Selection :=
  { selection with limit := some count }

end Selection

end ResourceQuery
