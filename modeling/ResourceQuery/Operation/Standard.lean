import ResourceQuery.Operation.Filter
import ResourceQuery.Day

/-!
# Standard operations

Filters by equality and orders by value for listed columns, and the filter and orders of the time
of creation. Columns whose operations have the same key replace one another in the order of the
list.
-/
namespace ResourceQuery

/-- A column equal to the first argument, to the empty text without one. -/
def equalsArgument (column : String) : FilterOperation :=
  .adding 0 fun arguments => [⟨column, .equal, .string (arguments.headD "")⟩]

/-- One filter by equality for every column. -/
def columnFilters (columns : List String) : FilterTable :=
  columns.foldl (fun table column => Operations.register table column (equalsArgument column))
    .empty

/-- The orders of one column: ascending under its own name and with `_asc`, descending with
`_desc`. -/
def columnOrders (column : String) : List (String × SortKey) :=
  [(column, ⟨column, .ascending⟩), (column ++ "_asc", ⟨column, .ascending⟩),
    (column ++ "_desc", ⟨column, .descending⟩)]

/-- The orders of every column. -/
def columnSorts (columns : List String) : SortTable :=
  (columns.flatMap columnOrders).foldl
    (fun table entry => Operations.register table entry.1 (Query.orderBy [entry.2])) .empty

/-- The column of the time of creation. -/
def createdAt : String := "created_at"

/-- Creation within whole days, both included; an unreadable day makes no predicate. -/
def withinDays (first last : String) : List Predicate :=
  match Day.ofText? first, Day.ofText? last with
  | some first, some last =>
    [⟨createdAt, .atLeast, .string first.start⟩, ⟨createdAt, .atMost, .string last.finish⟩]
  | _, _ => []

/-- The filter by time of creation. -/
def creationFilters : FilterTable :=
  Operations.register .empty "created_between"
    (.binary fun first last => Query.filterBy (withinDays first last))

/-- The newest first, and the oldest first. -/
def creationSorts : SortTable :=
  Operations.register
    (Operations.register .empty "latest" (Query.orderBy [⟨createdAt, .descending⟩])) "oldest"
    (Query.orderBy [⟨createdAt, .ascending⟩])

end ResourceQuery
