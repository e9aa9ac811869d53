import ResourceQuery.Proofs.Plan.JoinColumns

/-!
# Queries without column lists

Forgetting the column lists of a query (`Query.unrestrict`) forgets nothing that decides which relations
are included: configurations that agree up to column lists make queries that agree up to column lists
(`configureAt_unrestrict`). A query without column lists lacks no join columns
(`withJoinColumns_unrestrict`).
-/
namespace ResourceQuery

/-- The selection of every column. -/
def Selection.unrestrict (selection : Selection) : Selection := { selection with columns := none }

/-- A selection without a column list is that of every column. -/
theorem Selection.unrestrict_of_columns_none {selection : Selection} (every : selection.columns = none) :
    selection.unrestrict = selection := by
  cases selection
  cases every
  rfl

/-- Every column of the rows with some columns is every column of the rows. -/
theorem Selection.unrestrict_foldl_addColumn (columns : List String) (selection : Selection) :
    (columns.foldl addColumn selection).unrestrict = selection.unrestrict := by
  obtain ⟨all, shape⟩ := foldl_addColumn_eq columns selection
  rw [shape]
  rfl

namespace Query

mutual

/-- The query of every column at every node. -/
def unrestrict : Query → Query
  | node selection includes => node selection.unrestrict (unrestrictAll includes)

/-- Included queries of every column. -/
def unrestrictAll : List (Relation × Query) → List (Relation × Query)
  | [] => []
  | (relation, query) :: rest => (relation, query.unrestrict) :: unrestrictAll rest

end

/-- Every included query loses its column lists. -/
theorem unrestrictAll_eq_map (includes : List (Relation × Query)) :
    unrestrictAll includes = includes.map fun included => (included.1, included.2.unrestrict) := by
  induction includes with
  | nil => rfl
  | cons included rest ih =>
    obtain ⟨relation, query⟩ := included
    rw [unrestrictAll, ih]
    rfl

/-- The selection of a query of every column. -/
@[simp] theorem selection_unrestrict (query : Query) :
    query.unrestrict.selection = query.selection.unrestrict := by
  cases query
  rw [unrestrict]
  rfl

/-- A fresh node selects every column. -/
theorem unrestrict_ofRelation (relation : Relation) (target : Entity) :
    (ofRelation relation target).unrestrict = ofRelation relation target := by
  rw [ofRelation, unrestrict, unrestrictAll]
  rfl

variable {α β : Type}

/-- Configurations of a child that agree up to column lists make included queries that do. -/
theorem configureChild_unrestrict {configure : Query → Option α × Query}
    {other : Query → Option β × Query}
    (agree : ∀ query : Query, (other query.unrestrict).2 = (configure query).2.unrestrict)
    (name : String) {fresh : Option (Relation × Query)}
    (made : fresh.map (fun included => (included.1, included.2.unrestrict)) = fresh)
    (includes : List (Relation × Query)) :
    (configureChild name fresh other (unrestrictAll includes)).2 =
      unrestrictAll (configureChild name fresh configure includes).2 := by
  induction includes with
  | nil =>
    cases fresh with
    | none => rfl
    | some included =>
      obtain ⟨relation, query⟩ := included
      have whole : query.unrestrict = query := congrArg Prod.snd (Option.some.inj made)
      have here := agree query
      rw [whole] at here
      simp only [unrestrictAll, configureChild, here]
  | cons included rest ih =>
    obtain ⟨relation, query⟩ := included
    by_cases found : relation.name = name
    · simp only [unrestrictAll, configureChild, if_pos found, agree query]
    · simp only [unrestrictAll, configureChild, if_neg found, ih]

/-- Configurations that agree up to column lists make queries that do. -/
theorem configureAt_unrestrict (catalog : Catalog) {configure : Query → α × Query}
    {other : Query → β × Query}
    (agree : ∀ query : Query, (other query.unrestrict).2 = (configure query).2.unrestrict)
    (chain : List String) (query : Query) :
    (configureAt catalog other chain query.unrestrict).2 =
      (configureAt catalog configure chain query).2.unrestrict := by
  induction chain generalizing query with
  | nil => exact agree query
  | cons name rest ih =>
    obtain ⟨selection, includes⟩ := query
    have made : ∀ found : Option (Relation × Entity),
        (found.map fun step => (step.1, ofRelation step.1 step.2)).map
          (fun included => (included.1, included.2.unrestrict)) =
        found.map fun step => (step.1, ofRelation step.1 step.2) := by
      intro found
      cases found with
      | none => rfl
      | some step => exact congrArg (fun query => some (step.1, query)) (unrestrict_ofRelation _ _)
    have below := configureChild_unrestrict ih name (made (catalog.step? selection.entity name)) includes
    rw [unrestrict]
    exact congrArg (node selection.unrestrict) below

/-- Including a relation by configurations that agree up to column lists makes queries that do. -/
theorem configure?_unrestrict (catalog : Catalog) {configure : Query → α × Query}
    {other : Query → β × Query}
    (agree : ∀ query : Query, (other query.unrestrict).2 = (configure query).2.unrestrict)
    (chain : List String) (query : Query) :
    (query.unrestrict.configure? catalog chain other).map Prod.snd =
      (query.configure? catalog chain configure).map fun result => result.2.unrestrict := by
  have entity : query.unrestrict.selection.entity = query.selection.entity := by
    rw [selection_unrestrict]
    rfl
  unfold configure?
  rw [entity]
  split
  · rfl
  · exact congrArg some (configureAt_unrestrict catalog agree chain query)

/-- A query of every column with its join columns is the query. -/
theorem withJoinColumns_unrestrict (query : Query) :
    query.unrestrict.withJoinColumns = query.unrestrict := by
  induction query using inductionOn with
  | node selection includes ih =>
    have nothing : ∀ others, selection.unrestrict.missingColumns others = [] := by
      intro others
      apply List.eq_nil_iff_forall_not_mem.2
      intro column lacked
      obtain ⟨-, unselected⟩ := Selection.mem_missingColumns.1 lacked
      exact Bool.noConfusion unselected
    rw [unrestrict, withJoinColumns_node, nothing, unrestrictAll_eq_map, List.map_map]
    congr 1
    apply List.map_congr_left
    intro included member
    exact congrArg (Prod.mk included.1) (ih included member)

/-- Every column of a query with its join columns is every column of the query. -/
theorem unrestrict_withJoinColumns (query : Query) :
    query.withJoinColumns.unrestrict = query.unrestrict := by
  induction query using inductionOn with
  | node selection includes ih =>
    rw [withJoinColumns_node, unrestrict, unrestrict, Selection.unrestrict_foldl_addColumn,
      unrestrictAll_eq_map, unrestrictAll_eq_map, List.map_map]
    congr 1
    apply List.map_congr_left
    intro included member
    exact congrArg (Prod.mk included.1) (ih included member)

end Query

end ResourceQuery
