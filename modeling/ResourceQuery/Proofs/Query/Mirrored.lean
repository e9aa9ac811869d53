import ResourceQuery.Proofs.Query.Operations

/-!
# Query trees mirror the catalog

A query that grew from all rows of an entity says at every node what the catalog says (`Query.Mirrored`): the
relations included there are those of its entity, each once, and the query of each is one for the rows of the
target, matched by the column that the relation names. Where columns are listed, each is listed once. Every
operation keeps this, however deep it reaches (`Query.grown_mirrored`).
-/
namespace ResourceQuery

/-- No column is listed twice. -/
def Selection.ColumnsOnce (selection : Selection) : Prop :=
  ∀ columns, selection.columns = some columns → columns.Nodup

namespace Selection

variable {selection : Selection}

/-- A selection of all columns lists none twice. -/
theorem columnsOnce_of_columns_none (every : selection.columns = none) : selection.ColumnsOnce := by
  intro columns listed
  rw [every] at listed
  contradiction

/-- A column is listed only where it is missing. -/
theorem ColumnsOnce.addColumn (once : selection.ColumnsOnce) (column : String) :
    (selection.addColumn column).ColumnsOnce := by
  unfold Selection.addColumn
  cases present : selection.selects column with
  | true => exact once
  | false =>
    intro columns listed
    obtain ⟨held, shape, rfl⟩ := Option.map_eq_some_iff.1 listed
    have absent : column ∉ held := by simpa [selects, shape] using present
    exact List.nodup_append.2 ⟨once held shape, List.pairwise_singleton _ column,
      fun other member _ added same => absent (List.mem_singleton.1 added ▸ same ▸ member)⟩

end Selection

namespace Query

variable {catalog : Catalog}

/-- A query is another one or, at any depth, that of an included relation. -/
inductive Within : Query → Query → Prop
  /-- It is the same. -/
  | self (query : Query) : Within query query
  /-- It is within that of an included relation. -/
  | of_included {part whole child : Query} {relation : Relation} (included : (relation, child) ∈ whole.includes)
      (within : Within part child) : Within part whole

/-- In a query that mirrors a catalog, a chain leads to every query within it. -/
theorem Mirrors.exists_at? {query node : Query} (mirrors : query.Mirrors catalog) (within : node.Within query) :
    ∃ chain, query.at? chain = some node := by
  induction within with
  | self => exact ⟨[], rfl⟩
  | @of_included whole child relation included _ ih =>
    have there : whole.at? [relation.name] = some child :=
      mirrors.at?_included (rfl : whole.at? [] = some whole) included
    obtain ⟨chain, found⟩ := ih (mirrors.at there)
    refine ⟨relation.name :: chain, ?_⟩
    rw [← List.singleton_append, at?_append, there]
    exact found

/-- A node says what the catalog says of its entity. -/
structure Mirrored (catalog : Catalog) (node : Query) : Prop where
  /-- No column is listed twice. -/
  columns : node.selection.ColumnsOnce
  /-- No two included relations have one name. -/
  names : (node.includes.map includedName).Nodup
  /-- An included relation is the one that the catalog has under its name. -/
  relation : ∀ included ∈ node.includes,
    catalog.relation? node.selection.entity included.1.name = some included.1
  /-- Its query is for the rows of the target, which it matches by the child column. -/
  rows : ∀ included ∈ node.includes, ∃ target, catalog.entity? included.1.target = some target ∧
    included.2.selection.entity = target.name ∧ included.2.selection.table = target.table ∧
    included.2.selection.primaryKey = target.primaryKey ∧
    included.2.selection.foreignKey = some included.1.childColumn

/-- The nodes of a query that mirrors a catalog say what the catalog says, if they list no column twice. -/
theorem Mirrors.mirrored {query node : Query} (mirrors : query.Mirrors catalog)
    (once : query.EveryNode Selection.ColumnsOnce) (within : node.Within query) : node.Mirrored catalog := by
  obtain ⟨chain, found⟩ := mirrors.exists_at? within
  have own := once chain _ (selectionAt?_of_at? found)
  have here := mirrors.at found
  obtain ⟨selection, includes⟩ := node
  obtain ⟨names, known, -⟩ := here
  refine ⟨own, names, fun included member => ?_, fun included member => ?_⟩
  · obtain ⟨target, step, -⟩ := known included member
    exact (Catalog.step?_eq_some_iff.1 step).1
  · obtain ⟨target, step, rows⟩ := known included member
    exact ⟨target, (Catalog.step?_eq_some_iff.1 step).2, congrArg Selection.entity rows,
      congrArg Selection.table rows, congrArg Selection.primaryKey rows, congrArg Selection.foreignKey rows⟩

/-- Operations list no column twice at any node, if none of them does. -/
theorem Mirrors.columnsOnce_runEdits {edits : List Edit} (each : ∀ edit ∈ edits, ∀ {query : Query},
      query.Mirrors catalog → query.EveryNode Selection.ColumnsOnce →
        (edit.run catalog query).EveryNode Selection.ColumnsOnce)
    {query : Query} (mirrors : query.Mirrors catalog) (once : query.EveryNode Selection.ColumnsOnce) :
    (Query.runEdits catalog edits query).EveryNode Selection.ColumnsOnce := by
  induction edits generalizing query with
  | nil => exact once
  | cons edit rest ih =>
    rw [Query.runEdits]
    exact ih (fun other member => each other (.tail _ member)) (mirrors.run edit).1
      (each edit (.head rest) mirrors once)

/-- An operation lists no column twice at any node. -/
theorem Mirrors.columnsOnce_run {query : Query} (mirrors : query.Mirrors catalog)
    (once : query.EveryNode Selection.ColumnsOnce) (edit : Edit) :
    (edit.run catalog query).EveryNode Selection.ColumnsOnce := by
  induction edit using Edit.inductionOn generalizing query with
  | restrict => exact once.mapSelection fun _ columns listed => Option.some.inj listed ▸ List.nodup_nil
  | addColumn column => exact once.mapSelection fun held => held.addColumn column
  | filter predicate => exact once.mapSelection id
  | order key => exact once.mapSelection id
  | skip count => exact once.mapSelection id
  | take count => exact once.mapSelection id
  | load chain edits ih =>
    have fresh : ∀ relation target, (Selection.ofRelation relation target).ColumnsOnce :=
      fun _ _ => Selection.columnsOnce_of_columns_none rfl
    have keeps : ∀ node : Query, node.Mirrors catalog → (Query.runEdits catalog edits node).Mirrors catalog ∧
        (Query.runEdits catalog edits node).selection.bare = node.selection.bare := fun node mirrors =>
      Mirrors.runEdits (fun edit _ _ mirrors => mirrors.run edit) mirrors
    rw [Edit.run, eagerLoad]
    rcases configure?_cases (fun node => ((), Query.runEdits catalog edits node)) keeps chain mirrors with
      refused | ⟨reached, result, -, leads, computed, configured⟩
    · rw [refused]
      exact once
    · rw [computed]
      -- The nodes of the result are those of the query, fresh ones, and what the edits made of the node there.
      have node := once.nodeAt mirrors fresh (Option.isSome_iff_exists.2 ⟨reached, leads⟩)
      have made := Mirrors.columnsOnce_runEdits (fun edit member => ih edit member)
        (nodeAt_spec mirrors leads).1 node
      exact once.configuredAt fresh made configured

/-- Every query that grew from all rows of an entity mirrors the catalog: each of its nodes, at any depth, lists no
column twice and includes the catalog's relations of its entity, each at most once, with queries for the rows of
their targets that are matched by the child column. The root itself is still for the rows of the entity, and matches
no parent. -/
theorem grown_mirrored (catalog : Catalog) (entity : Entity) (edits : List Edit) :
    let query := runEdits catalog edits (.ofEntity entity)
    (∀ node : Query, node.Within query → node.Mirrored catalog) ∧
      query.selection.entity = entity.name ∧ query.selection.table = entity.table ∧
      query.selection.primaryKey = entity.primaryKey ∧ query.selection.foreignKey = none := by
  intro query
  have leaf : (Query.ofEntity entity).Mirrors catalog := .leaf catalog (.ofEntity entity)
  have fresh : (Query.ofEntity entity).EveryNode Selection.ColumnsOnce := by
    intro chain selection found
    cases chain with
    | nil => exact Option.some.inj found ▸ Selection.columnsOnce_of_columns_none rfl
    | cons name rest => exact nomatch found
  obtain ⟨mirrors, bare⟩ : query.Mirrors catalog ∧ query.selection.bare = .ofEntity entity :=
    Mirrors.runEdits (fun edit _ _ mirrors => mirrors.run edit) leaf
  have once : query.EveryNode Selection.ColumnsOnce :=
    Mirrors.columnsOnce_runEdits (fun edit _ _ mirrors once => mirrors.columnsOnce_run once edit) leaf fresh
  exact ⟨fun node within => mirrors.mirrored once within, congrArg Selection.entity bare,
    congrArg Selection.table bare, congrArg Selection.primaryKey bare, congrArg Selection.foreignKey bare⟩

/-- People with the person above each. -/
def staff : Entity := (Entity.ofTable "people" "people").relateOwner "manager" "people" "manager_id" "id"

/-- A manager's manager by name, twice asked for, before the managers themselves. -/
def twoLevels : List Edit :=
  [.load ["manager", "manager"] [.restrict, .addColumn "name", .addColumn "name"], .restrict, .addColumn "name",
    .load ["manager"] [.take 1]]

/-- A relation of people to people, included below itself and again, leaves one manager below each of two people,
and at both the manager is the catalog's. -/
theorem two_levels_mirrored :
    let catalog := Catalog.empty.insert staff
    let query := runEdits catalog twoLevels (.ofEntity staff)
    query.nodes.map (fun node => (node.1, node.2.columns, node.2.limit, node.2.foreignKey)) =
      [([], some ["name"], none, none), (["manager"], none, some 1, some "id"),
        (["manager", "manager"], some ["name"], none, some "id")] ∧
    ∃ manager, query.child? "manager" = some manager ∧ manager.Within query ∧ manager.Mirrored catalog := by
  intro catalog query
  have within : (query.child? "manager").get rfl |>.Within query := .of_included (.head _) (.self _)
  exact ⟨rfl, _, rfl, within, (grown_mirrored catalog staff twoLevels).1 _ within⟩

end Query

end ResourceQuery
