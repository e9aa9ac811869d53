import ResourceQuery.Query.Basic
import ResourceQuery.Statement.Basic

/-!
# Databases

A database answers statements with rows, which are JSON values, or fails. Its state is whatever
it needs (`σ`): none for a database that answers every statement as a function of the statement,
the answers still to come for one that follows a script. The state survives a failure, so what
was run before it stays visible. A row source answers whole queries.
-/
namespace ResourceQuery

/-- Why a statement failed. -/
inductive DatabaseError where
  /-- A record that has to exist does not. -/
  | recordNotFound (message : String)
  /-- Any other failure. -/
  | failed (kind message : String)
deriving DecidableEq

/-- A computation on a database state that may fail. -/
abbrev Session (σ : Type) := ExceptT DatabaseError (StateM σ)

/-- What answers statements. -/
structure Database (σ : Type) where
  /-- The rows of a statement. -/
  run : Statement → Session σ (List Json)

/-- What answers queries. -/
structure RowSource (σ : Type) where
  /-- The rows of a query with the rows of its included relations. -/
  rows : Query → Session σ (List Json)
  /-- The number of rows that meet the predicates of a query. -/
  total : Query → Session σ Nat

end ResourceQuery
