import ResourceQuery.Query.Selection

/-!
# Statements

What is sent to a database: the rows of a selection, or the number of rows that meet its
predicates whatever the columns, the order and the window (`countStatement` reads the table and
the predicates alone).
-/
namespace ResourceQuery

/-- A statement. -/
inductive Statement where
  /-- Rows of a table. -/
  | rows (columns : Option (List String)) (table : String) (conditions : List Predicate)
    (orders : List SortKey) (limit offset : Option Nat)
  /-- The number of rows of a table. -/
  | count (table : String) (conditions : List Predicate)

namespace Selection

/-- The statement for the rows of a selection. -/
def rowsStatement (selection : Selection) : Statement :=
  .rows selection.columns selection.table selection.conditions selection.orders selection.limit
    selection.offset

/-- The statement for the number of rows that meet the predicates. -/
def countStatement (selection : Selection) : Statement :=
  .count selection.table selection.conditions

end Selection

end ResourceQuery
