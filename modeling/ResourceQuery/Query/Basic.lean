import ResourceQuery.Query.Selection

/-!
# Query trees

A query is a selection with the queries of the relations included with its rows. `configure?`
includes the relation at the end of a chain of relation names, or finds it where it is included
already, and hands its query to a configuration; the nodes on the way are made where they are
missing. It refuses an empty chain and a chain that the catalog does not resolve.

In a query that has grown from an entity by the relations of one catalog, the end of a chain that is
not refused is always reached (`configureAt_of_reach?`). It may be missed only where a node on the way
was given rows of another entity, which the relations of the catalog do not lead on from: then the
configuration is not run, and the nodes made so far stay.
-/
namespace ResourceQuery

/-- A selection with the queries of the included relations in the order of their inclusion. -/
inductive Query where
  /-- The selection and the included relations. -/
  | node (selection : Selection) (includes : List (Relation × Query))

namespace Query

/-- What is asked of the rows themselves. -/
def selection : Query → Selection
  | node selection _ => selection

/-- The included relations with their queries. -/
def includes : Query → List (Relation × Query)
  | node _ includes => includes

/-- The query with its selection changed. -/
def mapSelection (change : Selection → Selection) : Query → Query
  | node selection includes => node (change selection) includes

/-- The query with more predicates. -/
def filterBy (predicates : List Predicate) (query : Query) : Query :=
  query.mapSelection fun selection => selection.filterBy predicates

/-- The query with more sort keys, which decide after the present ones. -/
def orderBy (keys : List SortKey) (query : Query) : Query :=
  query.mapSelection fun selection => selection.orderBy keys

/-- Every row of an entity. -/
def ofEntity (entity : Entity) : Query := node (.ofEntity entity) []

/-- The rows that a relation loads. -/
def ofRelation (relation : Relation) (target : Entity) : Query :=
  node (.ofRelation relation target) []

/-- The query included under a relation name. -/
def child? (query : Query) (name : String) : Option Query :=
  (query.includes.find? fun included => included.1.name = name).map Prod.snd

/-- The query at the end of a chain of relation names. -/
def at? (query : Query) : List String → Option Query
  | [] => some query
  | name :: rest => (query.child? name).bind fun child => child.at? rest

variable {α : Type}

/-- Configure the query included under a name; where none is, include `fresh` first. Without either there is
nothing to configure. -/
def configureChild (name : String) (fresh : Option (Relation × Query))
    (configure : Query → Option α × Query) :
    List (Relation × Query) → Option α × List (Relation × Query)
  | [] =>
    match fresh with
    | none => (none, [])
    | some (relation, query) =>
      let (answer, query) := configure query
      (answer, [(relation, query)])
  | (relation, query) :: rest =>
    if relation.name = name then
      let (answer, query) := configure query
      (answer, (relation, query) :: rest)
    else
      let (answer, rest) := configureChild name fresh configure rest
      (answer, (relation, query) :: rest)

/-- Configure the query at the end of a chain of relation names. The answer is none where the chain breaks off,
and nothing was configured. -/
def configureAt (catalog : Catalog) (configure : Query → α × Query) :
    List String → Query → Option α × Query
  | [], query =>
    let (answer, query) := configure query
    (some answer, query)
  | name :: rest, node selection includes =>
    let fresh := (catalog.step? selection.entity name).map fun (relation, target) =>
      (relation, ofRelation relation target)
    let (answer, includes) :=
      configureChild name fresh (configureAt catalog configure rest) includes
    (answer, node selection includes)

/-- Include the relation at the end of a chain and configure its query, with what the
configuration answers. A chain that is empty or not resolved is refused. -/
def configure? (catalog : Catalog) (chain : List String) (configure : Query → α × Query)
    (query : Query) : Option (Option α × Query) :=
  if chain.isEmpty || !catalog.resolves query.selection.entity chain then none
  else some (configureAt catalog configure chain query)

end Query

end ResourceQuery
