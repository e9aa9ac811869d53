import ResourceQuery.Database.Basic
import ResourceQuery.Json.Text

/-!
# Loading included relations

The rows of a query are loaded level by level: one statement for the query itself, then for every
included relation one statement for the related rows of all rows at once, those whose child column
holds one of the keys of the rows. The related rows come with their own relations and are then
attached to the rows with the same key. A relation none of whose rows has a key runs no statement.
-/
namespace ResourceQuery

/-- The text that a join column's value is matched by; null matches nothing. -/
def Json.key? : Json → Option String
  | .null => none
  | .string text => some text
  | json => some json.text

/-- Values without those whose key an earlier value has, and without those that have no key. -/
def firstByKey : List Json → List Json
  | [] => []
  | value :: rest =>
    match value.key? with
    | none => firstByKey rest
    | some key => value :: (firstByKey rest).filter fun other => other.key? != some key

/-- The values of distinct keys are among the values. -/
theorem firstByKey_sublist (values : List Json) : (firstByKey values).Sublist values := by
  induction values with
  | nil => exact List.Sublist.slnil
  | cons value rest ih =>
    unfold firstByKey
    cases value.key? with
    | none => exact ih.cons value
    | some key => exact (List.filter_sublist.trans ih).cons_cons value

namespace Relation

/-- The key by which a row finds its related rows. -/
def parentKey? (relation : Relation) (row : Json) : Option String :=
  (row.member? relation.parentColumn).bind Json.key?

/-- The key by which a related row is found. -/
def childKey? (relation : Relation) (row : Json) : Option String :=
  (row.member? relation.childColumn).bind Json.key?

/-- The distinct keys of rows, in the order of the rows. -/
def joinKeys (relation : Relation) (rows : List Json) : List Json :=
  firstByKey (rows.filterMap (Json.member? relation.parentColumn))

/-- The predicate of the related rows of some keys. -/
def joinPredicate (relation : Relation) (keys : List Json) : Predicate :=
  ⟨relation.childColumn, .among, .array keys⟩

/-- The related rows of one row, those that have its key. -/
def childrenOf (relation : Relation) (related : List Json) (row : Json) : List Json :=
  match relation.parentKey? row with
  | none => []
  | some key => related.filter fun child => relation.childKey? child == some key

/-- The member that holds related rows: all of them, or the first or null. -/
def gather (relation : Relation) (children : List Json) : Json :=
  match relation.kind with
  | .many => .array children
  | .one | .owner => children.headD .null

/-- The row with its related rows. -/
def attach (relation : Relation) (related : List Json) (row : Json) : Json :=
  row.setMember relation.name (relation.gather (relation.childrenOf related row))

end Relation

namespace Database

variable {σ : Type}

mutual

/-- The rows that also meet some predicates, with the rows of the included relations. -/
def loadWhere (database : Database σ) (predicates : List Predicate) :
    Query → Session σ (List Json)
  | .node selection includes => do
    let rows ← database.run (selection.filterBy predicates).rowsStatement
    database.attachAll includes rows

/-- Rows with the related rows of every included relation in turn. -/
def attachAll (database : Database σ) : List (Relation × Query) → List Json → Session σ (List Json)
  | [], rows => pure rows
  | (relation, query) :: rest, rows => do
    let keys := relation.joinKeys rows
    let related ←
      if keys.isEmpty then pure []
      else database.loadWhere [relation.joinPredicate keys] query
    database.attachAll rest (rows.map (relation.attach related))

end

/-- The rows of a query with the rows of the included relations. -/
def load (database : Database σ) (query : Query) : Session σ (List Json) :=
  database.loadWhere [] query

/-- The number that the first row of a count gives, negative ones being zero; no row is zero. -/
def countOf (rows : List Json) : Except DatabaseError Nat :=
  match rows with
  | [] => .ok 0
  | row :: _ =>
    match (row.member? "count").bind Json.int64? with
    | some value => .ok value.toNat
    | none => .error (.failed "count" "the count is no integer of 64 bits")

/-- The number of rows that meet the predicates of a query. -/
def total (database : Database σ) (query : Query) : Session σ Nat := do
  let rows ← database.run query.selection.countStatement
  MonadExcept.ofExcept (countOf rows)

/-- The source that loads relations with batched statements. -/
def rowSource (database : Database σ) : RowSource σ := ⟨database.load, database.total⟩

end Database

end ResourceQuery
