import ResourceQuery.Statement.Basic
import ResourceQuery.Json.Text

/-!
# SQL text

A statement is written as pieces: fixed text, names, bound values and literals. Names go between the
quotes of a dialect, a quote inside being doubled; a bound value never enters the text, where a
placeholder stands for it. So the text of a statement depends on its values through their number
alone. The values that an order lists are the only ones written into the text.
-/
namespace ResourceQuery

/-- A value bound to a placeholder. -/
inductive Bound where
  /-- A truth value. -/
  | bool (value : Bool)
  /-- An integer of 64 bits. -/
  | integer (value : Int)
  /-- A number of rows. -/
  | count (value : Nat)
  /-- A side of a constant comparison. -/
  | constant (value : Nat)
  /-- A text, or no value. -/
  | text (value : Option String)
  /-- The encoding of a binary64 value. -/
  | double (bits : UInt64)
deriving DecidableEq

/-- A part of a statement's text. -/
inductive Piece where
  /-- Text of the language. -/
  | fixed (text : String)
  /-- The name of a table or column. -/
  | name (name : String)
  /-- A placeholder with its value. -/
  | bind (value : Bound)
  /-- A value written into the text. -/
  | literal (value : Literal)
deriving DecidableEq

namespace Bound

/-- The value that a JSON value binds: a null as no text, a list or object as its compact text. -/
def ofJson : Json → Bound
  | .null => text none
  | .bool value => bool value
  | .number (.integer value) =>
    if Text.int64Min ≤ value ∧ value ≤ Text.int64Max then integer value
    else double ((Decimal.nearest? value.natAbs 1).getD 0)
  | .number (.float bits) => double bits
  | .string value => text (some value)
  | json => text (some json.text)

/-- The pattern that a JSON value is, its compact text unless it is a text. -/
def pattern : Json → Bound
  | .string value => text (some value)
  | json => text (some json.text)

/-- The values of a list; a value that is no list stands for itself. -/
def list : Json → List Bound
  | .array items => items.map ofJson
  | json => [ofJson json]

end Bound

namespace Piece

/-- Pieces with a fixed text between any two. -/
def separate (separator : String) : List (List Piece) → List Piece :=
  [fixed separator].intercalate

/-- A column compared with one value. -/
def compareWith (column operator : String) (value : Bound) : List Piece :=
  [name column, fixed operator, bind value]

/-- A column compared with a list of values; without values the comparison is a constant. -/
def member (column operator : String) (equalWhenEmpty : Bool) : List Bound → List Piece
  | [] => [bind (.constant 1), fixed " = ", bind (.constant (if equalWhenEmpty then 1 else 2))]
  | values =>
    [name column, fixed operator, fixed " ("] ++ separate ", " (values.map fun value => [bind value])
      ++ [fixed ")"]

/-- A predicate. A comparison of equality with null tests for the absence of a value. -/
def ofPredicate (predicate : Predicate) : List Piece :=
  let column := predicate.column
  let value := predicate.value
  match predicate.comparison with
  | .equal =>
    if value.isNull then [name column, fixed " IS NULL"] else compareWith column " = " (.ofJson value)
  | .notEqual =>
    if value.isNull then [name column, fixed " IS NOT NULL"]
    else compareWith column " <> " (.ofJson value)
  | .greater => compareWith column " > " (.ofJson value)
  | .atLeast => compareWith column " >= " (.ofJson value)
  | .less => compareWith column " < " (.ofJson value)
  | .atMost => compareWith column " <= " (.ofJson value)
  | .like => compareWith column " LIKE " (.pattern value)
  | .notLike => compareWith column " NOT LIKE " (.pattern value)
  | .among => member column " IN" false (Bound.list value)
  | .notAmong => member column " NOT IN" true (Bound.list value)
  | .isNull => [name column, fixed " IS NULL"]
  | .isNotNull => [name column, fixed " IS NOT NULL"]

/-- The condition that all predicates hold, nothing where there are none. -/
def whereClause : List Predicate → List Piece
  | [] => []
  | conditions => fixed " WHERE " :: separate " AND " (conditions.map ofPredicate)

/-- The place of a listed value in an order. -/
def ofListed (column : String) (value : Literal) (place : Nat) : List Piece :=
  [fixed "WHEN ", name column, fixed "=", literal value, fixed (" THEN " ++ toString place ++ " ")]

/-- One key of an order. Listed values are compared with the column one by one. -/
def ofSortKey (key : SortKey) : List Piece :=
  match key.direction with
  | .ascending => [name key.column, fixed " ASC"]
  | .descending => [name key.column, fixed " DESC"]
  | .listed values =>
    fixed "CASE " :: values.zipIdx.flatMap (fun (value, place) => ofListed key.column value place) ++
      [fixed ("ELSE " ++ toString values.length ++ " END")]

/-- The order, nothing where there is none. -/
def orderClause : List SortKey → List Piece
  | [] => []
  | orders => fixed " ORDER BY " :: separate ", " (orders.map ofSortKey)

/-- A bound on the number of rows. -/
def windowClause (keyword : String) : Option Nat → List Piece
  | none => []
  | some count => [fixed keyword, bind (.count count)]

/-- The columns selected. -/
def ofColumns : Option (List String) → List Piece
  | none => [fixed "*"]
  | some columns => separate ", " (columns.map fun column => [name column])

end Piece

/-- The pieces of a statement. -/
def Statement.pieces : Statement → List Piece
  | rows columns table conditions orders limit offset =>
    .fixed "SELECT " :: Piece.ofColumns columns ++ .fixed " FROM " :: .name table ::
      Piece.whereClause conditions ++ Piece.orderClause orders ++
      Piece.windowClause " LIMIT " limit ++ Piece.windowClause " OFFSET " offset
  | count table conditions =>
    .fixed "SELECT COUNT(*) AS " :: .name "count" :: .fixed " FROM " :: .name table ::
      Piece.whereClause conditions

/-- The values bound by pieces, in the order of their placeholders. -/
def boundValues (pieces : List Piece) : List Bound :=
  pieces.filterMap fun
    | .bind value => some value
    | _ => none

/-- A dialect of the language. -/
inductive Dialect where
  /-- Names between double quotes, anonymous placeholders. -/
  | sqlite
  /-- Names between backticks, anonymous placeholders. -/
  | mysql
  /-- Names between double quotes, numbered placeholders. -/
  | postgres
deriving DecidableEq

namespace Dialect

/-- The quote around names. -/
def quote : Dialect → Char
  | mysql => '\x60'
  | _ => '"'

/-- The placeholder of the value at a position, counted from one. -/
def placeholder (dialect : Dialect) (position : Nat) : List Char :=
  match dialect with
  | postgres => '$' :: Nat.toDigits 10 position
  | _ => ['?']

/-- The text of a literal. -/
def literalText (dialect : Dialect) (value : Literal) : String :=
  match dialect with
  | sqlite => value.sqlite
  | mysql => value.mysql
  | postgres => value.postgres

/-- A name between quotes, a quote inside doubled. -/
def quoteName (dialect : Dialect) (name : String) : List Char :=
  dialect.quote :: name.toList.flatMap (fun character =>
    if character = dialect.quote then [character, character] else [character]) ++ [dialect.quote]

/-- The text of pieces, the first placeholder having the given position. -/
def write (dialect : Dialect) : Nat → List Piece → List Char
  | _, [] => []
  | position, .fixed text :: rest => text.toList ++ dialect.write position rest
  | position, .name name :: rest => dialect.quoteName name ++ dialect.write position rest
  | position, .bind _ :: rest => dialect.placeholder position ++ dialect.write (position + 1) rest
  | position, .literal value :: rest =>
    (dialect.literalText value).toList ++ dialect.write position rest

end Dialect

/-- The text of a statement. -/
def Statement.sql (dialect : Dialect) (statement : Statement) : String :=
  String.ofList (dialect.write 1 statement.pieces)

/-- The values bound by a statement. -/
def Statement.values (statement : Statement) : List Bound := boundValues statement.pieces

end ResourceQuery
