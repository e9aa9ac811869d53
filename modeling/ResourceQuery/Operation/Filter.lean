import ResourceQuery.Operation.Table
import ResourceQuery.Query.Basic

/-!
# Operations on queries

A filter changes a query by the arguments of a call; with fewer arguments than it takes it does not
run at all (`run?_eq_none_iff`). A sort changes a query as it is. What they change is for the server
to say: most add predicates or sort keys (`FilterOperation.adding`, `Query.orderBy`), but one may as
well select columns, set a window, include relations, or put another query in place of its own.
-/
namespace ResourceQuery

/-- What a filter does to a query. -/
structure FilterOperation where
  /-- The least number of arguments. -/
  arity : Nat
  /-- What a call with these arguments makes of a query. -/
  effect : List String → Query → Query

namespace FilterOperation

/-- The query after a call, none at all when arguments are missing. -/
def run? (operation : FilterOperation) (arguments : List String) (query : Query) : Option Query :=
  if arguments.length < operation.arity then none else some (operation.effect arguments query)

/-- An operation does not run exactly when arguments are missing. -/
theorem run?_eq_none_iff {operation : FilterOperation} {arguments : List String} {query : Query} :
    operation.run? arguments query = none ↔ arguments.length < operation.arity := by
  simp [run?]

/-- An operation that takes no arguments. -/
def nullary (effect : Query → Query) : FilterOperation := ⟨0, fun _ => effect⟩

/-- An operation on the first argument. -/
def unary (effect : String → Query → Query) : FilterOperation where
  arity := 1
  effect
    | argument :: _ => effect argument
    | [] => id

/-- An operation on the first two arguments. -/
def binary (effect : String → String → Query → Query) : FilterOperation where
  arity := 2
  effect
    | first :: second :: _ => effect first second
    | _ => id

/-- An operation that adds the predicates that the arguments of a call make. -/
def adding (arity : Nat) (predicates : List String → List Predicate) : FilterOperation :=
  ⟨arity, fun arguments => Query.filterBy (predicates arguments)⟩

end FilterOperation

/-- What a sort does to a query. -/
abbrev SortOperation := Query → Query

/-- The filters of an entity. -/
abbrev FilterTable := Operations FilterOperation

/-- The orders of an entity. -/
abbrev SortTable := Operations SortOperation

/-- Decisions whether relations may be included. -/
abbrev InclusionTable := Operations Bool

end ResourceQuery
