import ResourceQuery.Operation.Standard
import ResourceQuery.Plan.Basic
import ResourceQuery.Proofs.Query.Node

/-!
# What operations do to queries

An operation may change a query in any way. Most results about requests ask no more of the operations of a
registry than one of three bounds, each closer than the one before. They may keep the included relations, and
which rows are read (`Registry.KeepsTrees`). They may change what is asked of the rows alone, without a look at
the included relations (`Registry.Local`). And they may only add predicates and sort keys
(`Registry.AppendOnly`), as the standard operations do. What each operation does, runs over filters and sorts do
(`Registry.Each.filterAll`, `Registry.filterAll_eq`).
-/
namespace ResourceQuery

namespace Query

/-- A change keeps the included relations of every query, and which rows it reads. -/
def KeepsTree (effect : Query → Query) : Prop := ∀ query, (effect query).SameTree query

/-- A change is one of what is asked of the rows, the same whatever is included with them. -/
structure ChangesSelection (effect : Query → Query) : Prop where
  /-- The included relations stay, and make no difference. -/
  includes : ∀ selection includes,
    effect (.node selection includes) = .node (effect (.node selection [])).selection includes
  /-- The same rows are read. -/
  bare : ∀ selection, (effect (.node selection [])).selection.bare = selection.bare

/-- A property of changes that runs over operations have if each operation has it. -/
structure Lasts (property : (Query → Query) → Prop) : Prop where
  /-- To change nothing has it. -/
  id : property id
  /-- One change after another has it. -/
  comp : ∀ {effect other}, property effect → property other → property fun query => other (effect query)
  /-- What is done by the entity of a query has it. -/
  byEntity : ∀ {effects : String → Query → Query}, (∀ entity, property (effects entity)) →
    property fun query => effects query.selection.entity query

/-- Changes one after the other keep the included relations, if each does. -/
theorem lasts_keepsTree : Lasts KeepsTree where
  id _ := ⟨rfl, rfl⟩
  comp first second query :=
    ⟨(second _).includes.trans (first query).includes, (second _).bare.trans (first query).bare⟩
  byEntity each query := each _ query

/-- A query is its selection with what it includes. -/
@[simp] theorem node_selection_includes (query : Query) : node query.selection query.includes = query := by
  cases query
  rfl

namespace ChangesSelection

variable {effect : Query → Query}

/-- What includes nothing still includes nothing. -/
theorem leaf (own : ChangesSelection effect) (selection : Selection) :
    effect (.node selection []) = .node (effect (.node selection [])).selection [] :=
  own.includes selection []

/-- A change of the selection that reads the same rows. -/
theorem mapSelection {change : Selection → Selection} (same : ∀ selection, (change selection).bare = selection.bare) :
    ChangesSelection fun query => query.mapSelection change :=
  ⟨fun _ _ => rfl, same⟩

/-- A change of what is asked of the rows keeps the included relations. -/
theorem keepsTree (own : ChangesSelection effect) : KeepsTree effect := by
  intro query
  rw [← node_selection_includes query, own.includes]
  exact ⟨rfl, own.bare query.selection⟩

end ChangesSelection

/-- Changes one after the other change what is asked of the rows alone, if each does. -/
theorem lasts_changesSelection : Lasts ChangesSelection where
  id := ⟨fun _ _ => rfl, fun _ => rfl⟩
  comp {effect other} first second := by
    constructor
    · intro selection includes
      rw [first.includes, second.includes, first.leaf selection]
      rfl
    · intro selection
      rw [first.leaf selection, second.bare, first.bare]
  byEntity each :=
    ⟨fun selection => (each selection.entity).includes selection,
      fun selection => (each selection.entity).bare selection⟩

/-- Predicates are added to what is asked of the rows. -/
@[simp] theorem selection_filterBy (predicates : List Predicate) (query : Query) :
    (query.filterBy predicates).selection = query.selection.filterBy predicates := by
  cases query
  rfl

/-- Sort keys are added to what is asked of the rows. -/
@[simp] theorem selection_orderBy (keys : List SortKey) (query : Query) :
    (query.orderBy keys).selection = query.selection.orderBy keys := by
  cases query
  rfl

/-- Without more predicates the query is as it was. -/
@[simp] theorem filterBy_nil (query : Query) : query.filterBy [] = query := by
  obtain ⟨selection, includes⟩ := query
  exact congrArg (node · includes) selection.filterBy_nil

/-- Without more sort keys the query is as it was. -/
@[simp] theorem orderBy_nil (query : Query) : query.orderBy [] = query := by
  obtain ⟨selection, includes⟩ := query
  exact congrArg (node · includes) selection.orderBy_nil

/-- Predicates added and then more are all of them added. -/
theorem filterBy_filterBy (first second : List Predicate) (query : Query) :
    (query.filterBy first).filterBy second = query.filterBy (first ++ second) := by
  obtain ⟨selection, includes⟩ := query
  simp [filterBy, mapSelection, Selection.filterBy]

/-- Sort keys added and then more are all of them added. -/
theorem orderBy_orderBy (first second : List SortKey) (query : Query) :
    (query.orderBy first).orderBy second = query.orderBy (first ++ second) := by
  obtain ⟨selection, includes⟩ := query
  simp [orderBy, mapSelection, Selection.orderBy]

/-- A query of which nothing is asked. -/
def blank : Query := .ofEntity (.ofTable "" "")

end Query

/-! ### Operations and registries -/

namespace FilterOperation

/-- What a filter does to a query has a property, whatever the arguments that it runs with. -/
def Always (property : (Query → Query) → Prop) (operation : FilterOperation) : Prop :=
  ∀ arguments : List String, operation.arity ≤ arguments.length → property (operation.effect arguments)

/-- The predicates that a call adds to a query of which nothing is asked. -/
def predicates (operation : FilterOperation) (arguments : List String) : List Predicate :=
  (operation.effect arguments .blank).selection.conditions

/-- A filter adds predicates, which the arguments of a call make, and does nothing else. -/
def Adds (operation : FilterOperation) : Prop :=
  ∀ arguments : List String, operation.arity ≤ arguments.length →
    operation.effect arguments = Query.filterBy (operation.predicates arguments)

/-- An operation made of predicates adds them. -/
theorem Adds.adding (arity : Nat) (predicates : List String → List Predicate) :
    (FilterOperation.adding arity predicates).Adds := fun _ _ => rfl

/-- An operation on one argument that adds the predicates it makes adds them. -/
theorem Adds.unary (predicates : String → List Predicate) :
    (FilterOperation.unary fun argument => Query.filterBy (predicates argument)).Adds := by
  intro arguments enough
  match arguments, enough with
  | _ :: _, _ => rfl

/-- An operation on two arguments that adds the predicates they make adds them. -/
theorem Adds.binary (predicates : String → String → List Predicate) :
    (FilterOperation.binary fun first second => Query.filterBy (predicates first second)).Adds := by
  intro arguments enough
  match arguments, enough with
  | _ :: _ :: _, _ => rfl

end FilterOperation

namespace SortOperation

/-- The sort keys that a sort adds to a query of which nothing is asked. -/
def keys (operation : SortOperation) : List SortKey := (operation .blank).selection.orders

/-- A sort adds sort keys, and does nothing else. -/
def Adds (operation : SortOperation) : Prop := operation = Query.orderBy (keys operation)

/-- An operation made of sort keys adds them. -/
theorem Adds.orderBy (keys : List SortKey) : Adds (Query.orderBy keys) := rfl

end SortOperation

namespace Registry

/-- Every filter and every sort of a registry has a property. -/
structure Each (ofFilter : FilterOperation → Prop) (ofSort : SortOperation → Prop) (registry : Registry) : Prop where
  /-- The filters have it. -/
  filter : ∀ {entity name operation}, registry.filter? entity name = some operation → ofFilter operation
  /-- The sorts have it. -/
  sort : ∀ {entity name operation}, registry.sort? entity name = some operation → ofSort operation

/-- The operations of a registry keep the included relations of a query, and which rows it reads. -/
class KeepsTrees (registry : Registry) : Prop where
  /-- Each of them does. -/
  each : registry.Each (FilterOperation.Always Query.KeepsTree) Query.KeepsTree

/-- The operations of a registry change what is asked of the rows of a query and nothing else, the same
whatever is included with them. -/
class Local (registry : Registry) : Prop where
  /-- Each of them does. -/
  each : registry.Each (FilterOperation.Always Query.ChangesSelection) Query.ChangesSelection

/-- The filters of a registry only add predicates, and its sorts only add sort keys. -/
class AppendOnly (registry : Registry) : Prop where
  /-- Each of them does. -/
  each : registry.Each FilterOperation.Adds SortOperation.Adds

variable {registry : Registry}

/-- Operations that change what is asked of the rows alone keep the included relations. -/
instance (priority := low) [registry.Local] : registry.KeepsTrees where
  each := {
    filter found arguments enough := (Local.each.filter found arguments enough).keepsTree
    sort found := (Local.each.sort found).keepsTree }

/-- Operations that only add predicates and sort keys change what is asked of the rows alone. -/
instance (priority := low) [registry.AppendOnly] : registry.Local where
  each := {
    filter found arguments enough := by
      rw [AppendOnly.each.filter found arguments enough]
      exact .mapSelection fun _ => rfl
    sort found := by
      rw [show _ = Query.orderBy _ from AppendOnly.each.sort found]
      exact .mapSelection fun _ => rfl }

/-! ### Runs over filters and sorts -/

/-- What a filter call does to the queries of an entity; nothing, if no table has the name or arguments are
missing. -/
def filterEffect (registry : Registry) (entity name : String) (arguments : List String) (query : Query) : Query :=
  ((registry.filter? entity name).bind fun operation => operation.run? arguments query).getD query

/-- What a sort does to the queries of an entity; nothing, if no table has the name. -/
def sortEffect (registry : Registry) (entity name : String) (query : Query) : Query :=
  ((registry.sort? entity name).map fun operation => operation query).getD query

/-- A call does nothing, or what its operation does. -/
theorem filterEffect_cases (registry : Registry) (entity name : String) (arguments : List String) :
    registry.filterEffect entity name arguments = id ∨
      ∃ operation, registry.filter? entity name = some operation ∧ operation.arity ≤ arguments.length ∧
        registry.filterEffect entity name arguments = operation.effect arguments := by
  unfold filterEffect
  cases registry.filter? entity name with
  | none => exact .inl rfl
  | some operation =>
    by_cases missing : arguments.length < operation.arity
    · left
      funext query
      rw [Option.bind_some, FilterOperation.run?, if_pos missing]
      rfl
    · refine .inr ⟨operation, rfl, Nat.le_of_not_lt missing, funext fun query => ?_⟩
      rw [Option.bind_some, FilterOperation.run?, if_neg missing]
      rfl

/-- A sort does nothing, or what its operation does. -/
theorem sortEffect_cases (registry : Registry) (entity name : String) :
    registry.sortEffect entity name = id ∨
      ∃ operation, registry.sort? entity name = some operation ∧ registry.sortEffect entity name = operation := by
  unfold sortEffect
  cases registry.sort? entity name with
  | none => exact .inl rfl
  | some operation => exact .inr ⟨operation, rfl, rfl⟩

/-- Filter calls run on what the first of them leaves of the query. -/
theorem filterAll_cons (registry : Registry) (call : String × List String) (rest : List (String × List String))
    (query : Query) : registry.filterAll (call :: rest) query =
      registry.filterAll rest (registry.filterEffect query.selection.entity call.1 call.2 query) := rfl

/-- Sorts run on what the first of them leaves of the query. -/
theorem sortAll_cons (registry : Registry) (name : String) (rest : List String) (query : Query) :
    registry.sortAll (name :: rest) query =
      registry.sortAll rest (registry.sortEffect query.selection.entity name query) := rfl

section Each

variable {property : (Query → Query) → Prop} (lasts : Query.Lasts property)
  (each : registry.Each (FilterOperation.Always property) property)

include lasts each

/-- What every filter does, filter calls do. -/
theorem Each.filterAll (calls : List (String × List String)) : property (registry.filterAll calls) := by
  induction calls with
  | nil => exact lasts.id
  | cons call rest ih =>
    have one : ∀ entity, property (registry.filterEffect entity call.1 call.2) := by
      intro entity
      rcases registry.filterEffect_cases entity call.1 call.2 with none | ⟨operation, found, enough, runs⟩
      · exact none ▸ lasts.id
      · exact runs ▸ each.filter found call.2 enough
    exact (lasts.comp (lasts.byEntity one) ih :)

/-- What every sort does, sorts do. -/
theorem Each.sortAll (names : List String) : property (registry.sortAll names) := by
  induction names with
  | nil => exact lasts.id
  | cons name rest ih =>
    have one : ∀ entity, property (registry.sortEffect entity name) := by
      intro entity
      rcases registry.sortEffect_cases entity name with none | ⟨operation, found, runs⟩
      · exact none ▸ lasts.id
      · exact runs ▸ each.sort found
    exact (lasts.comp (lasts.byEntity one) ih :)

end Each

/-! ### Operations that only add -/

/-- The predicates that a filter call adds to the queries of an entity, none at all when no table has the name or
arguments are missing. -/
def predicates? (registry : Registry) (entity name : String) (arguments : List String) : Option (List Predicate) :=
  (registry.filter? entity name).bind fun operation =>
    if arguments.length < operation.arity then none else some (operation.predicates arguments)

/-- The sort keys that a sort adds to the queries of an entity, none at all when no table has the name. -/
def sortKeys? (registry : Registry) (entity name : String) : Option (List SortKey) :=
  (registry.sort? entity name).map SortOperation.keys

/-- The predicates of filter calls on an entity, in the order of the calls. -/
def predicates (registry : Registry) (entity : String) (filters : Filters) : List Predicate :=
  filters.entries.flatMap fun call => (registry.predicates? entity call.1 call.2).getD []

/-- The sort keys of names on an entity, in the order of the names. -/
def sortKeys (registry : Registry) (entity : String) (names : List String) : List SortKey :=
  names.flatMap fun name => (registry.sortKeys? entity name).getD []

section AppendOnly

variable [registry.AppendOnly]

/-- A filter call adds its predicates. -/
theorem filterEffect_eq (entity name : String) (arguments : List String) (query : Query) :
    registry.filterEffect entity name arguments query =
      query.filterBy ((registry.predicates? entity name arguments).getD []) := by
  unfold filterEffect predicates?
  cases found : registry.filter? entity name with
  | none => exact query.filterBy_nil.symm
  | some operation =>
    simp only [Option.bind_some, FilterOperation.run?]
    split
    · exact query.filterBy_nil.symm
    · next enough => exact congrFun (AppendOnly.each.filter found arguments (Nat.le_of_not_lt enough)) query

/-- A sort adds its sort keys. -/
theorem sortEffect_eq (entity name : String) (query : Query) :
    registry.sortEffect entity name query = query.orderBy ((registry.sortKeys? entity name).getD []) := by
  unfold sortEffect sortKeys?
  cases found : registry.sort? entity name with
  | none => exact query.orderBy_nil.symm
  | some operation => exact congrFun (AppendOnly.each.sort found) query

/-- The filter calls of a set add their predicates, in the order of the set. -/
theorem filterAll_eq (filters : Filters) (query : Query) :
    registry.filterAll filters.entries query =
      query.filterBy (registry.predicates query.selection.entity filters) := by
  unfold predicates
  induction filters.entries generalizing query with
  | nil => exact query.filterBy_nil.symm
  | cons call rest ih =>
    rw [filterAll_cons, filterEffect_eq, ih, Query.filterBy_filterBy, Query.selection_filterBy, List.flatMap_cons]
    rfl

/-- Sorts add their sort keys, in the order of the names. -/
theorem sortAll_eq (names : List String) (query : Query) :
    registry.sortAll names query = query.orderBy (registry.sortKeys query.selection.entity names) := by
  unfold sortKeys
  induction names generalizing query with
  | nil => exact query.orderBy_nil.symm
  | cons name rest ih =>
    rw [sortAll_cons, sortEffect_eq, ih, Query.orderBy_orderBy, Query.selection_orderBy, List.flatMap_cons]
    rfl

end AppendOnly

end Registry

namespace Plan

variable (registry : Registry) [registry.AppendOnly] (plan : Plan)

/-- The filters of a set add their predicates to what is asked of the rows. -/
theorem filter_eq (filters : Filters) : plan.filter registry filters =
    plan.mapSelection fun selection => selection.filterBy (registry.predicates plan.entity filters) :=
  congrArg (fun query => Plan.mk query plan.surplus) (Registry.filterAll_eq filters plan.query)

/-- The orders of names add their sort keys to what is asked of the rows. -/
theorem sort_eq (names : List String) : plan.sort registry names =
    plan.mapSelection fun selection => selection.orderBy (registry.sortKeys plan.entity names) :=
  congrArg (fun query => Plan.mk query plan.surplus) (Registry.sortAll_eq names plan.query)

end Plan

/-! ### Registries of such operations -/

namespace Operations

variable {α : Type} {property : α → Prop} {table : Operations α}

/-- Every operation of a table has a property. -/
def Each (property : α → Prop) (table : Operations α) : Prop :=
  ∀ key operation, table.find? key = some operation → property operation

/-- A table without operations. -/
theorem each_empty : Each property (SortedMap.empty : Operations α) := by
  intro key operation found
  rw [SortedMap.find?_empty] at found
  contradiction

/-- A table with one more operation. -/
theorem Each.register (each : table.Each property) (name : String) {operation : α} (own : property operation) :
    (table.register name operation).Each property := by
  intro key other found
  rw [find?_register] at found
  split at found
  · exact Option.some.inj found ▸ own
  · exact each key other found

/-- A table with one more operation for each item of a list. -/
theorem Each.foldl_register {β : Type} (items : List β) (name : β → String) {operation : β → α}
    (own : ∀ item, property (operation item)) (each : table.Each property) :
    (items.foldl (fun table item => Operations.register table (name item) (operation item)) table).Each property := by
  induction items generalizing table with
  | nil => exact each
  | cons item rest ih => exact ih (each.register (name item) (own item))

end Operations

/-- Filters by equality only add predicates. -/
theorem each_columnFilters (columns : List String) : (columnFilters columns).Each FilterOperation.Adds :=
  .foldl_register columns _ (fun _ => .adding 0 _) Operations.each_empty

/-- The orders of columns only add sort keys. -/
theorem each_columnSorts (columns : List String) : (columnSorts columns).Each SortOperation.Adds :=
  .foldl_register _ _ (fun entry => .orderBy [entry.2]) Operations.each_empty

/-- The filter by time of creation only adds predicates. -/
theorem each_creationFilters : creationFilters.Each FilterOperation.Adds :=
  Operations.each_empty.register _ (.binary withinDays)

/-- The orders by time of creation only add sort keys. -/
theorem each_creationSorts : creationSorts.Each SortOperation.Adds :=
  (Operations.each_empty.register _ (.orderBy _)).register _ (.orderBy _)

namespace Registry.Each

variable {ofFilter : FilterOperation → Prop} {ofSort : SortOperation → Prop} {registry : Registry}

/-- A registry without operations. -/
theorem empty : Registry.empty.Each ofFilter ofSort where
  filter found := by cases found
  sort found := by cases found

/-- What may be included makes no difference. -/
theorem setInclusions (each : registry.Each ofFilter ofSort) (entity : String) (rules : List InclusionRule) :
    (registry.setInclusions entity rules).Each ofFilter ofSort where
  filter found := each.filter found
  sort found := each.sort found

/-- A registry with other filters for an entity. -/
theorem setFilters (each : registry.Each ofFilter ofSort) (entity : String) {tables : List FilterTable}
    (own : ∀ table ∈ tables, table.Each ofFilter) : (registry.setFilters entity tables).Each ofFilter ofSort where
  filter {other name operation} found := by
    rw [filter?, Registry.setFilters, Assoc.lookup_cons] at found
    split at found
    · obtain ⟨table, listed, known⟩ := List.exists_of_findSome?_eq_some found
      exact own table listed _ _ known
    · exact each.filter found
  sort found := each.sort found

/-- A registry with other sorts for an entity. -/
theorem setSorts (each : registry.Each ofFilter ofSort) (entity : String) {tables : List SortTable}
    (own : ∀ table ∈ tables, table.Each ofSort) : (registry.setSorts entity tables).Each ofFilter ofSort where
  filter found := each.filter found
  sort {other name operation} found := by
    rw [sort?, Registry.setSorts, Assoc.lookup_cons] at found
    split at found
    · obtain ⟨table, listed, known⟩ := List.exists_of_findSome?_eq_some found
      exact own table listed _ _ known
    · exact each.sort found

end Registry.Each

/-- A registry of the standard operations only adds, whatever columns they are for. -/
example (columns : List String) : Registry.AppendOnly ((Registry.empty.setFilters "users"
    [columnFilters columns, creationFilters]).setSorts "users" [columnSorts columns, creationSorts]) :=
  ⟨(Registry.Each.empty.setFilters _ (List.forall_mem_cons.2 ⟨each_columnFilters columns,
    List.forall_mem_singleton.2 each_creationFilters⟩)).setSorts _ (List.forall_mem_cons.2
      ⟨each_columnSorts columns, List.forall_mem_singleton.2 each_creationSorts⟩)⟩

end ResourceQuery
