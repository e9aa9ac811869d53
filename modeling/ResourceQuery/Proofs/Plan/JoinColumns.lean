import ResourceQuery.Plan.Basic
import ResourceQuery.Proofs.Query.Columns
import ResourceQuery.Proofs.Query.Node
import ResourceQuery.Proofs.Surplus.Fields

/-!
# Join columns node by node

Finishing a plan adds to every node the parent columns of its included relations that it lacks
(`at?_withJoinColumns`), makes exactly these surplus at the path of the node
(`mem_fieldsAt_finish`), and leaves everything else that is asked of the rows as it is.
-/
namespace ResourceQuery

/-- A list without its repetitions has none. -/
theorem nodup_eraseDups {α : Type} [BEq α] [LawfulBEq α] : ∀ items : List α, items.eraseDups.Nodup
  | [] => List.nodup_nil
  | first :: rest => by
    rw [List.eraseDups_cons]
    refine List.nodup_cons.2 ⟨fun again => ?_, nodup_eraseDups _⟩
    have other := (List.mem_filter.1 (List.mem_eraseDups.1 again)).2
    simp at other
termination_by items => items.length
decreasing_by exact Nat.lt_succ_of_le (List.length_filter_le _ rest)

/-- A column is missing when an included relation matches by it and it is not selected. -/
theorem Selection.mem_missingColumns {selection : Selection} {includes : List (Relation × Query)}
    {column : String} : column ∈ selection.missingColumns includes ↔
      (∃ included ∈ includes, included.1.parentColumn = column) ∧ selection.selects column = false := by
  unfold missingColumns
  rw [List.mem_eraseDups, List.mem_filter, List.mem_map]
  simp

/-- No column is missing twice. -/
theorem Selection.nodup_missingColumns (selection : Selection) (includes : List (Relation × Query)) :
    (selection.missingColumns includes).Nodup := nodup_eraseDups _

namespace Query

/-- The join columns of every included query are those of the query. -/
theorem withAllJoinColumns_eq_map (includes : List (Relation × Query)) :
    withAllJoinColumns includes =
      includes.map fun included => (included.1, included.2.withJoinColumns) := by
  induction includes with
  | nil => rfl
  | cons included rest ih =>
    obtain ⟨relation, query⟩ := included
    rw [withAllJoinColumns, ih]
    rfl

/-- A query with its join columns is its selection with the missing columns over the included queries
with theirs. -/
theorem withJoinColumns_node (selection : Selection) (includes : List (Relation × Query)) :
    (node selection includes).withJoinColumns =
      node ((selection.missingColumns includes).foldl Selection.addColumn selection)
        (includes.map fun included => (included.1, included.2.withJoinColumns)) := by
  rw [withJoinColumns, withAllJoinColumns_eq_map]

/-- The relations included with join columns are the included ones. -/
theorem includes_withJoinColumns (query : Query) : query.withJoinColumns.includes =
    query.includes.map fun included => (included.1, included.2.withJoinColumns) := by
  obtain ⟨selection, includes⟩ := query
  rw [withJoinColumns_node]
  rfl

/-- The relations included with join columns have the names of the included ones. -/
theorem names_withJoinColumns (query : Query) :
    query.withJoinColumns.includes.map includedName = query.includes.map includedName := by
  rw [includes_withJoinColumns, List.map_map]
  rfl

/-- The child of a query with join columns is the child with its join columns. -/
theorem child?_withJoinColumns (query : Query) (name : String) :
    query.withJoinColumns.child? name = (query.child? name).map withJoinColumns := by
  obtain ⟨selection, includes⟩ := query
  rw [withJoinColumns_node, child?_node, child?_node, List.find?_map, Option.map_map, Option.map_map]
  rfl

/-- The node at a chain of a query with join columns is the node there with its join columns. -/
theorem at?_withJoinColumns (query : Query) (chain : List String) :
    query.withJoinColumns.at? chain = (query.at? chain).map withJoinColumns := by
  induction chain generalizing query with
  | nil => rfl
  | cons name rest ih =>
    rw [at?_cons, at?_cons, child?_withJoinColumns]
    cases query.child? name with
    | none => rfl
    | some child => exact ih child

/-- The selection of a query with join columns is the one with the missing columns. -/
theorem selection_withJoinColumns (query : Query) : query.withJoinColumns.selection =
    (query.selection.missingColumns query.includes).foldl Selection.addColumn query.selection := by
  obtain ⟨selection, includes⟩ := query
  rw [withJoinColumns_node]
  rfl

/-- A node with its join columns selects what it selected and the missing columns. -/
theorem selects_withJoinColumns (query : Query) (name : String) :
    query.withJoinColumns.selection.selects name = true ↔ query.selection.selects name = true ∨
      name ∈ query.selection.missingColumns query.includes := by
  rw [selection_withJoinColumns]
  exact Selection.selects_foldl_addColumn _ query.selection name

/-- A node with its join columns selects the parent column of every included relation. -/
theorem selects_parentColumn_withJoinColumns {query : Query} {included : Relation × Query}
    (member : included ∈ query.includes) :
    query.withJoinColumns.selection.selects included.1.parentColumn = true := by
  rw [selects_withJoinColumns]
  cases selected : query.selection.selects included.1.parentColumn with
  | true => exact .inl rfl
  | false => exact .inr (Selection.mem_missingColumns.2 ⟨⟨included, member, rfl⟩, selected⟩)

/-- The selection at a chain of a query with join columns is the one there with the missing
columns. -/
theorem selectionAt?_withJoinColumns (query : Query) (chain : List String) :
    query.withJoinColumns.selectionAt? chain = (query.at? chain).map fun node =>
      (node.selection.missingColumns node.includes).foldl Selection.addColumn node.selection := by
  rw [selectionAt?, at?_withJoinColumns, Option.map_map]
  congr 1
  funext node
  exact node.selection_withJoinColumns

/-- A query with join columns mirrors what the query mirrors. -/
theorem Mirrors.withJoinColumns {catalog : Catalog} {query : Query} (mirrors : query.Mirrors catalog) :
    query.withJoinColumns.Mirrors catalog := by
  induction query using inductionOn with
  | node selection includes ih =>
    obtain ⟨names, known, below⟩ := mirrors
    have entity : ((selection.missingColumns includes).foldl Selection.addColumn selection).entity =
        selection.entity := Selection.entity_of_bare (Selection.bare_foldl_addColumn _ selection)
    rw [withJoinColumns_node]
    refine .node ?_ (fun included member => ?_) (fun included member => ?_)
    · rw [List.map_map]
      exact names
    · obtain ⟨⟨relation, query⟩, listed, rfl⟩ := List.mem_map.1 member
      obtain ⟨target, step, rows⟩ := known (relation, query) listed
      refine ⟨target, ?_, ?_⟩
      · rw [entity]
        exact step
      · rw [query.selection_withJoinColumns, Selection.bare_foldl_addColumn]
        exact rows
    · obtain ⟨⟨relation, query⟩, listed, rfl⟩ := List.mem_map.1 member
      exact ih (relation, query) listed (below (relation, query) listed)

/-- The join columns of included queries are those of each, below its name. -/
theorem mem_allJoinColumns_iff {base : Path} {includes : List (Relation × Query)}
    {entry : Path × String} : entry ∈ allJoinColumns base includes ↔
      ∃ included ∈ includes, entry ∈ included.2.joinColumns (base.child included.1.name) := by
  induction includes with
  | nil => simp [allJoinColumns]
  | cons included rest ih =>
    obtain ⟨relation, query⟩ := included
    rw [allJoinColumns, List.mem_append, ih]
    simp

/-- A listed join column is one that the node at the end of its path lacks. -/
theorem mem_joinColumns_iff {catalog : Catalog} {query : Query} (mirrors : query.Mirrors catalog)
    {base path : Path} {column : String} : (path, column) ∈ query.joinColumns base ↔
      ∃ chain node, query.at? chain = some node ∧ path.segments = base.segments ++ chain ∧
        column ∈ node.selection.missingColumns node.includes := by
  induction query using inductionOn generalizing base with
  | node selection includes ih =>
    obtain ⟨names, -, below⟩ := mirrors
    rw [joinColumns, List.mem_append, mem_allJoinColumns_iff]
    constructor
    · rintro (here | ⟨included, member, listed⟩)
      · obtain ⟨missing, lacked, same⟩ := List.mem_map.1 here
        obtain ⟨rfl, rfl⟩ := Prod.mk.inj same
        exact ⟨[], .node selection includes, rfl, (List.append_nil _).symm, lacked⟩
      · obtain ⟨chain, node, found, along, lacked⟩ :=
          (ih included member (below included member)).1 listed
        refine ⟨included.1.name :: chain, node, ?_, ?_, lacked⟩
        · rw [at?_cons, child?_of_mem names member]
          exact found
        · rw [along, List.append_cons]
          rfl
    · rintro ⟨chain, node, found, along, lacked⟩
      cases chain with
      | nil =>
        have same := Option.some.inj found
        subst same
        have same : path = base := congrArg Path.mk (along.trans (List.append_nil _))
        exact .inl (List.mem_map.2 ⟨column, lacked, same ▸ rfl⟩)
      | cons name rest =>
        rw [at?_cons] at found
        obtain ⟨child, named, further⟩ := Option.bind_eq_some_iff.1 found
        obtain ⟨relation, member, rfl⟩ := mem_of_child? named
        refine .inr ⟨_, member, (ih _ member (below _ member)).2 ⟨rest, node, further, ?_, lacked⟩⟩
        rw [along, List.append_cons]
        rfl

end Query

/-- Inserting columns at their paths keeps the surplus in order, and adds each at its path. -/
theorem Surplus.foldl_insert_spec {surplus : Surplus} (ordered : surplus.Ordered)
    (columns : List (Path × String)) :
    (columns.foldl (fun surplus (path, column) => surplus.insert path column) surplus).Ordered ∧
      ∀ path name, name ∈ (columns.foldl (fun surplus (path, column) =>
          surplus.insert path column) surplus).fieldsAt path ↔
        name ∈ surplus.fieldsAt path ∨ (path, name) ∈ columns := by
  induction columns generalizing surplus with
  | nil => exact ⟨ordered, fun path name => by simp⟩
  | cons entry rest ih =>
    obtain ⟨place, column⟩ := entry
    obtain ⟨restOrdered, members⟩ := ih (ordered.insert place column)
    refine ⟨restOrdered, fun path name => ?_⟩
    rw [List.foldl_cons, members, fieldsAt_insert ordered, List.mem_cons, Prod.mk.injEq]
    split
    · next here =>
      rw [here, mem_addField]
      simp [or_assoc]
    · next elsewhere => simp [elsewhere]

namespace Plan

/-- The query of a finished plan is the query with its join columns. -/
theorem query_finish (plan : Plan) : plan.finish.query = plan.query.withJoinColumns := rfl

/-- What leaves the answer of a finished plan is what left before and, at every node, the columns that
its relations match by and that it lacked. -/
theorem mem_fieldsAt_finish {catalog : Catalog} {plan : Plan} (mirrors : plan.query.Mirrors catalog)
    (ordered : plan.surplus.Ordered) (path : Path) (name : String) :
    name ∈ plan.finish.surplus.fieldsAt path ↔ name ∈ plan.surplus.fieldsAt path ∨
      ∃ node, plan.query.at? path.segments = some node ∧
        name ∈ node.selection.missingColumns node.includes := by
  have added := (Surplus.foldl_insert_spec ordered (plan.query.joinColumns .root)).2 path name
  refine added.trans (or_congr_right ?_)
  rw [Query.mem_joinColumns_iff mirrors]
  constructor
  · rintro ⟨chain, node, found, along, lacked⟩
    exact ⟨node, by rwa [along], lacked⟩
  · rintro ⟨node, found, lacked⟩
    exact ⟨path.segments, node, found, rfl, lacked⟩

end Plan

end ResourceQuery
