import ResourceQuery.Proofs.Query.Columns
import ResourceQuery.Proofs.Query.Configuration

/-!
# Operations on a query

A query grows by operations: its columns are dropped or one is added, a predicate or a sort key is appended, the
window is set, and a relation is included whose own query is changed by further operations (`Query.Edit`). Every
operation asks for the same rows, and a query that mirrors the catalog mirrors it afterwards
(`Query.Mirrors.run`); so does every query that grew from all rows of an entity (`Query.mirrors_runEdits`).
-/
namespace ResourceQuery.Query

variable {α : Type} {catalog : Catalog}

/-- Include the relation at the end of a chain and configure its query. What the configuration answers says that
this was done; where the relation is refused there is no answer, and the query is as it was. -/
def eagerLoad (catalog : Catalog) (chain : List String) (configure : Query → α × Query) (query : Query) :
    Option α × Query :=
  (query.configure? catalog chain configure).getD (none, query)

/-- One operation on a query. -/
inductive Edit where
  /-- Select no column. -/
  | restrict
  /-- Select a column. -/
  | addColumn (column : String)
  /-- Ask for one more predicate. -/
  | filter (predicate : Predicate)
  /-- Order by one more key. -/
  | order (key : SortKey)
  /-- Pass over so many rows. -/
  | skip (count : Nat)
  /-- Ask for at most so many rows. -/
  | take (count : Nat)
  /-- Include the relation at the end of a chain, and change its query. -/
  | load (chain : List String) (edits : List Edit)

mutual

/-- The query after an operation. -/
def Edit.run (catalog : Catalog) : Edit → Query → Query
  | .restrict, query => query.mapSelection Selection.restrict
  | .addColumn column, query => query.mapSelection fun selection => selection.addColumn column
  | .filter predicate, query => query.mapSelection fun selection => selection.filterBy [predicate]
  | .order key, query => query.mapSelection fun selection => selection.orderBy [key]
  | .skip count, query => query.mapSelection fun selection => selection.skip count
  | .take count, query => query.mapSelection fun selection => selection.take count
  | .load chain edits, query => (query.eagerLoad catalog chain fun node => ((), runEdits catalog edits node)).2

/-- The query after operations, one after the other. -/
def runEdits (catalog : Catalog) : List Edit → Query → Query
  | [], query => query
  | edit :: rest, query => runEdits catalog rest (edit.run catalog query)

end

/-- Induction over an operation: including a relation is settled once the operations on its query are. -/
theorem Edit.inductionOn {motive : Edit → Prop} (restrict : motive .restrict)
    (addColumn : ∀ column, motive (.addColumn column)) (filter : ∀ predicate, motive (.filter predicate))
    (order : ∀ key, motive (.order key)) (skip : ∀ count, motive (.skip count))
    (take : ∀ count, motive (.take count))
    (load : ∀ chain edits, (∀ edit ∈ edits, motive edit) → motive (.load chain edits)) (edit : Edit) :
    motive edit :=
  @Edit.rec motive (fun edits => ∀ edit ∈ edits, motive edit) restrict addColumn filter order skip take load
    (fun _ member => absurd member List.not_mem_nil)
    (fun _ _ first others edit member => by
      rcases List.mem_cons.1 member with rfl | member
      · exact first
      · exact others edit member) edit

/-- Operations keep a query mirroring the catalog, and its rows the same, if each of them does. -/
theorem Mirrors.runEdits {edits : List Edit} (each : ∀ edit ∈ edits, ∀ {query : Query}, query.Mirrors catalog →
      (edit.run catalog query).Mirrors catalog ∧ (edit.run catalog query).selection.bare = query.selection.bare)
    {query : Query} (mirrors : query.Mirrors catalog) : (Query.runEdits catalog edits query).Mirrors catalog ∧
      (Query.runEdits catalog edits query).selection.bare = query.selection.bare := by
  induction edits generalizing query with
  | nil => exact ⟨mirrors, rfl⟩
  | cons edit rest ih =>
    obtain ⟨once, rows⟩ := each edit (.head rest) mirrors
    obtain ⟨later, same⟩ := ih (fun other member => each other (.tail _ member)) once
    rw [Query.runEdits]
    exact ⟨later, same.trans rows⟩

/-- An operation keeps a query mirroring the catalog, and its rows the same. -/
theorem Mirrors.run {query : Query} (mirrors : query.Mirrors catalog) (edit : Edit) :
    (edit.run catalog query).Mirrors catalog ∧
      (edit.run catalog query).selection.bare = query.selection.bare := by
  have changed : ∀ {query : Query} {change : Selection → Selection}, query.Mirrors catalog →
      (change query.selection).bare = query.selection.bare → (query.mapSelection change).Mirrors catalog ∧
        (query.mapSelection change).selection.bare = query.selection.bare := fun mirrors same =>
    ⟨mirrors.mapSelection same, by rw [selection_mapSelection, same]⟩
  induction edit using Edit.inductionOn generalizing query with
  | restrict => exact changed mirrors rfl
  | addColumn column => exact changed mirrors (Selection.bare_foldl_addColumn [column] _)
  | filter predicate => exact changed mirrors rfl
  | order key => exact changed mirrors rfl
  | skip count => exact changed mirrors rfl
  | take count => exact changed mirrors rfl
  | load chain edits ih =>
    have keeps : ∀ node : Query, node.Mirrors catalog → (Query.runEdits catalog edits node).Mirrors catalog ∧
        (Query.runEdits catalog edits node).selection.bare = node.selection.bare := fun node mirrors =>
      Mirrors.runEdits (fun edit member _ mirrors => ih edit member mirrors) mirrors
    rw [Edit.run, eagerLoad]
    rcases configure?_cases (fun node => ((), Query.runEdits catalog edits node)) keeps chain mirrors with
      refused | ⟨_, result, -, -, computed, configured⟩
    · rw [refused]
      exact ⟨mirrors, rfl⟩
    · rw [computed]
      exact ⟨configured.mirrors, configured.bare⟩

/-- Every query that grew from all rows of an entity mirrors the catalog. -/
theorem mirrors_runEdits (catalog : Catalog) (edits : List Edit) (entity : Entity) :
    (Query.runEdits catalog edits (.ofEntity entity)).Mirrors catalog :=
  (Mirrors.runEdits (fun edit _ _ mirrors => mirrors.run edit) (.leaf catalog _)).1

end ResourceQuery.Query
