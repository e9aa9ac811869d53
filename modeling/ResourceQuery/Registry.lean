import ResourceQuery.Operation.Filter

/-!
# Registry

The operations that a server allows on each entity, in lists of tables. The first table that has
the key of a name decides, also when it decides against: a filter whose arguments are missing and
a relation that is denied do not fall through to a later table. Setting the tables of an entity
replaces those set before.
-/
namespace ResourceQuery

/-- One entry of the list that says which relations may be included. -/
inductive InclusionRule where
  /-- Exactly this path may be included. -/
  | path (text : String)
  /-- The relations in the table are decided by it. -/
  | table (decisions : InclusionTable)

/-- What a rule decides about a path, if anything. -/
def InclusionRule.decide? (rule : InclusionRule) (relation : String) : Option Bool :=
  match rule with
  | path text => if text = relation then some true else none
  | table decisions => decisions.find? (camelKey relation)

/-- The tables of every entity, the latest setting first. -/
structure Registry where
  /-- The filter tables. -/
  filters : List (String × List FilterTable)
  /-- The sort tables. -/
  sorts : List (String × List SortTable)
  /-- The inclusion rules. -/
  inclusions : List (String × List InclusionRule)

namespace Registry

/-- The registry that allows nothing. -/
def empty : Registry := ⟨[], [], []⟩

/-- The registry with the filter tables of an entity set. -/
def setFilters (registry : Registry) (entity : String) (tables : List FilterTable) : Registry :=
  { registry with filters := (entity, tables) :: registry.filters }

/-- The registry with the sort tables of an entity set. -/
def setSorts (registry : Registry) (entity : String) (tables : List SortTable) : Registry :=
  { registry with sorts := (entity, tables) :: registry.sorts }

/-- The registry with the inclusion rules of an entity set. -/
def setInclusions (registry : Registry) (entity : String) (rules : List InclusionRule) :
    Registry :=
  { registry with inclusions := (entity, rules) :: registry.inclusions }

/-- The filter operation that a name stands for on an entity. -/
def filter? (registry : Registry) (entity name : String) : Option FilterOperation :=
  ((registry.filters.lookup entity).getD []).findSome? fun table =>
    table.find? (camelKey name)

/-- The sort operation that a name stands for on an entity. -/
def sort? (registry : Registry) (entity name : String) : Option SortOperation :=
  ((registry.sorts.lookup entity).getD []).findSome? fun table => table.find? (camelKey name)

/-- The query after a filter call, none at all when no table of its entity has the name or arguments
are missing. -/
def filtered? (registry : Registry) (name : String) (arguments : List String) (query : Query) :
    Option Query :=
  (registry.filter? query.selection.entity name).bind fun operation => operation.run? arguments query

/-- The query after a sort, none at all when no table of its entity has the name. -/
def sorted? (registry : Registry) (name : String) (query : Query) : Option Query :=
  (registry.sort? query.selection.entity name).map fun operation => operation query

/-- The query after filter calls, each on what the calls before it left of the query; a call that does
not run leaves it as it is. -/
def filterAll (registry : Registry) (calls : List (String × List String)) (query : Query) : Query :=
  calls.foldl (fun query (name, arguments) => (registry.filtered? name arguments query).getD query) query

/-- The query after sorts, each on what those before it left of the query; a name that is not known
leaves it as it is. -/
def sortAll (registry : Registry) (names : List String) (query : Query) : Query :=
  names.foldl (fun query name => (registry.sorted? name query).getD query) query

/-- The relation may be included with the rows of an entity: the first rule that decides allows
it. -/
def allows (registry : Registry) (entity relation : String) : Bool :=
  (((registry.inclusions.lookup entity).getD []).findSome? fun rule =>
    rule.decide? relation).getD false

end Registry

end ResourceQuery
