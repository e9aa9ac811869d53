import ResourceQuery.Plan.Joins
import ResourceQuery.Parameter.Filters
import ResourceQuery.Registry
import ResourceQuery.Surplus

/-!
# Plans

A plan is a query with the surplus fields that its answer has to lose. Filters, orders and
relations enter the query only as far as the registry allows them. Restricting the fields keeps
the primary key, and the foreign key of a relation, among the columns; they are surplus unless the
fields name them.
-/
namespace ResourceQuery

/-- A query and the surplus of its answer. -/
structure Plan where
  /-- The query. -/
  query : Query
  /-- The fields that leave the answer. -/
  surplus : Surplus

namespace Plan

/-- The plan of a query as it is. -/
def ofQuery (query : Query) : Plan := ⟨query, .empty⟩

/-- The entity of the rows. -/
def entity (plan : Plan) : String := plan.query.selection.entity

/-- The plan with its selection changed. -/
def mapSelection (change : Selection → Selection) (plan : Plan) : Plan :=
  { plan with query := plan.query.mapSelection change }

/-- The plan after the filters of a set, in its order; what the registry does not know, or cannot run
for want of arguments, changes nothing. -/
def filter (registry : Registry) (filters : Filters) (plan : Plan) : Plan :=
  { plan with query := registry.filterAll filters.entries plan.query }

/-- The plan after the orders of names, in their order. -/
def sort (registry : Registry) (names : List String) (plan : Plan) : Plan :=
  { plan with query := registry.sortAll names plan.query }

/-- The columns of a selection that identify and match its rows. -/
def keyColumns (selection : Selection) : List String :=
  selection.primaryKey :: selection.foreignKey.toList

/-- The plan restricted to fields, all of them where none are named. -/
def restrict (fields : List String) (plan : Plan) : Plan :=
  if fields.isEmpty then plan
  else
    let keys := keyColumns plan.query.selection
    { query := plan.query.mapSelection fun selection =>
        (keys ++ fields).foldl Selection.addColumn selection.restrict
      surplus := fields.foldl Surplus.erase
        (keys.foldl (fun surplus key => surplus.insert .root key) plan.surplus) }

/-- The plan passing over so many rows. -/
def skip (count : Nat) (plan : Plan) : Plan := plan.mapSelection fun selection => selection.skip count

/-- The plan of at most so many rows. -/
def take (count : Nat) (plan : Plan) : Plan := plan.mapSelection fun selection => selection.take count

/-- The plan with a relation, configured on its own plan, if the registry allows the relation and
the catalog knows it; otherwise the plan as it is and no answer. There is no answer and no surplus
either where the relation is not reached (see `Query.configureAt`). -/
def withRelation {α : Type} (registry : Registry) (catalog : Catalog) (relation : String)
    (configure : Plan → α × Plan) (plan : Plan) : Option α × Plan :=
  if registry.allows plan.entity relation then
    let path := Path.ofText relation
    let configureQuery (query : Query) : (α × Surplus) × Query :=
      let (answer, configured) := configure (ofQuery query)
      ((answer, configured.surplus), configured.query)
    match plan.query.configure? catalog path.segments configureQuery with
    | some (some (answer, surplus), query) =>
      (some answer, ⟨query, plan.surplus.unionAt path surplus⟩)
    | some (none, query) => (none, ⟨query, plan.surplus⟩)
    | none => (none, plan)
  else (none, plan)

/-- The plan with the join columns of every node, which are surplus where they were missing. -/
def finish (plan : Plan) : Plan where
  query := plan.query.withJoinColumns
  surplus := (plan.query.joinColumns .root).foldl
    (fun surplus (path, column) => surplus.insert path column) plan.surplus

end Plan

end ResourceQuery
