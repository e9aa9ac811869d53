import ResourceQuery.Database.Script
import ResourceQuery.Proofs.Database.Projection
import ResourceQuery.Fault

/-!
# The statements of a load

Whatever a database answers, loading a query reads its nodes: first the node itself, then some of the nodes
below it in their order, each at most once (`Database.runs_loadWhere`). A reading is the statement of a node
with the predicates that are added to its own. The statements are those that a state keeps
(`Database.Logs`), such as the log of a script, and computations are put together by what they run (`Runs`).
-/
namespace ResourceQuery

variable {ε σ α β : Type}

/-! ### Running statements -/

/-- The state of a database keeps the statements that were run. -/
def Database.Logs (database : Database σ) (log : σ → List Statement) : Prop :=
  ∀ statement state, log ((database.run statement).run.run state).2 = log state ++ [statement]

/-- A script keeps the statements in its log. -/
theorem Script.logs_database : Script.database.Logs Script.log := by
  intro statement script
  obtain ⟨answers, log⟩ := script
  cases answers <;> rfl

/-- From every state, a computation runs statements with a property. -/
def Runs (log : σ → List Statement) (property : List Statement → Prop) (run : ExceptT ε (StateM σ) α) :
    Prop :=
  ∀ state, ∃ statements, property statements ∧ log (run.run.run state).2 = log state ++ statements

namespace Runs

variable {log : σ → List Statement} {property further whole : List Statement → Prop}

/-- A value that is at hand takes no statement. -/
theorem pure (none : property []) (value : α) :
    Runs log property (Pure.pure value : ExceptT ε (StateM σ) α) :=
  fun state => ⟨[], none, (List.append_nil (log state)).symm⟩

/-- A value that is at hand takes no statement at all. -/
theorem nothing_pure (value : α) : Runs log (· = []) (Pure.pure value : ExceptT ε (StateM σ) α) :=
  fun state => ⟨[], rfl, (List.append_nil (log state)).symm⟩

/-- A failure takes no statement at all. -/
theorem nothing_throw (error : ε) :
    Runs log (· = []) (MonadExcept.throw error : ExceptT ε (StateM σ) α) :=
  fun state => ⟨[], rfl, (List.append_nil (log state)).symm⟩

/-- A statement is run. -/
theorem run {database : Database σ} (logs : database.Logs log) {statement : Statement}
    (holds : property [statement]) : Runs log property (database.run statement) :=
  fun state => ⟨[statement], holds, logs statement state⟩

/-- One computation runs its statements and then, unless it fails, those of the next. -/
theorem bind {first : ExceptT ε (StateM σ) α} {next : α → ExceptT ε (StateM σ) β}
    (runs : Runs log property first) (later : ∀ value, Runs log further (next value))
    (alone : ∀ statements, property statements → whole statements)
    (both : ∀ before after, property before → further after → whole (before ++ after)) :
    Runs log whole (first >>= next) := by
  intro state
  have stepped : (first >>= next).run.run state =
      (ExceptT.bindCont next (first.run.run state).1).run (first.run.run state).2 := rfl
  obtain ⟨before, holds, logged⟩ := runs state
  rw [stepped]
  cases ran : first.run.run state with
  | mk result middle =>
    rw [ran] at logged
    cases result with
    | error error => exact ⟨before, alone before holds, logged⟩
    | ok value =>
      obtain ⟨after, holdsAfter, loggedAfter⟩ := later value middle
      refine ⟨before ++ after, both before after holds holdsAfter, loggedAfter.trans ?_⟩
      rw [logged, List.append_assoc]

/-- Where the next computation takes no statement, those of the first are run. -/
theorem bind_nothing {first : ExceptT ε (StateM σ) α} {next : α → ExceptT ε (StateM σ) β}
    (runs : Runs log property first) (later : ∀ value, Runs log (· = []) (next value)) :
    Runs log property (first >>= next) := by
  refine runs.bind later (fun _ holds => holds) ?_
  rintro before after holds rfl
  rwa [List.append_nil]

/-- What is run has every weaker property. -/
theorem mono {first : ExceptT ε (StateM σ) α} (runs : Runs log property first)
    (weaker : ∀ statements, property statements → whole statements) : Runs log whole first :=
  fun state => (runs state).imp fun statements holds => ⟨weaker statements holds.1, holds.2⟩

/-- A session as an outcome runs the statements of the session. -/
theorem ofSession {session : Session σ α} (runs : Runs log property session) :
    Runs log property (Outcome.ofSession session) := runs

end Runs

/-! ### Readings -/

/-- A node whose rows are read, with the predicates that are added to its own. -/
structure Reading where
  /-- The chain of the node. -/
  chain : List String
  /-- What is asked of its rows. -/
  selection : Selection
  /-- The predicates added. -/
  added : List Predicate

namespace Reading

/-- The statement that reads the rows. -/
def statement (reading : Reading) : Statement := (reading.selection.filterBy reading.added).rowsStatement

/-- The node. -/
def node (reading : Reading) : List String × Selection := (reading.chain, reading.selection)

/-- The reading as one below a relation. -/
def beneath (name : String) (reading : Reading) : Reading := { reading with chain := name :: reading.chain }

end Reading

/-- The statements read some of the nodes, in their order. -/
def ReadNodes (nodes : List (List String × Selection)) (statements : List Statement) : Prop :=
  ∃ readings : List Reading, statements = readings.map Reading.statement ∧
    (readings.map Reading.node).Sublist nodes

/-- The statements read the node of a query with added predicates, and then some of the nodes below it, in
their order. -/
def Query.ReadBy (query : Query) (added : List Predicate) (statements : List Statement) : Prop :=
  ∃ readings : List Reading,
    statements = ((⟨[], query.selection, added⟩ : Reading) :: readings).map Reading.statement ∧
      (readings.map Reading.node).Sublist (Query.includedNodes query.includes)

/-- Nothing that is read are some nodes. -/
theorem ReadNodes.nil (nodes : List (List String × Selection)) : ReadNodes nodes [] :=
  ⟨[], rfl, List.nil_sublist nodes⟩

/-- Nodes that are read after others. -/
theorem ReadNodes.append {nodes others : List (List String × Selection)} {before after : List Statement}
    (first : ReadNodes nodes before) (later : ReadNodes others after) :
    ReadNodes (nodes ++ others) (before ++ after) := by
  obtain ⟨readings, rfl, sublist⟩ := first
  obtain ⟨more, rfl, sublistToo⟩ := later
  exact ⟨readings ++ more, List.map_append.symm, by
    rw [List.map_append]
    exact sublist.append sublistToo⟩

/-- The nodes of an included query are read below the name of its relation. -/
theorem Query.ReadBy.beneath {query : Query} {added : List Predicate} {statements : List Statement}
    (reads : query.ReadBy added statements) (name : String) :
    ReadNodes (query.nodes.map fun (chain, selection) => (name :: chain, selection)) statements := by
  obtain ⟨readings, rfl, sublist⟩ := reads
  refine ⟨((⟨[], query.selection, added⟩ : Reading) :: readings).map (Reading.beneath name), ?_, ?_⟩
  · rw [List.map_map]
    rfl
  · obtain ⟨selection, includes⟩ := query
    have nodes : (((⟨[], selection, added⟩ : Reading) :: readings).map Reading.node).Sublist
        (Query.node selection includes).nodes := sublist.cons_cons ([], selection)
    have below := nodes.map fun (chain, selection) => (name :: chain, selection)
    rw [List.map_map] at below ⊢
    exact below

namespace Database

variable {database : Database σ} {log : σ → List Statement}

/-- Attaching related rows reads some of the included nodes, in their order, if loading an included query
reads its nodes. -/
theorem runs_attachAll {includes : List (Relation × Query)}
    (each : ∀ included ∈ includes, ∀ added,
      Runs log (included.2.ReadBy added) (database.loadWhere added included.2)) (rows : List Json) :
    Runs log (ReadNodes (Query.includedNodes includes)) (database.attachAll includes rows) := by
  induction includes generalizing rows with
  | nil => exact .pure (.nil _) rows
  | cons included rest ih =>
    obtain ⟨relation, query⟩ := included
    rw [attachAll_cons]
    have related : Runs log
        (ReadNodes (query.nodes.map fun (chain, selection) => (relation.name :: chain, selection)))
        (database.related relation query (relation.joinKeys rows)) := by
      unfold Database.related
      split
      · exact .pure (.nil _) []
      · exact (each _ (.head rest) _).mono fun statements reads => reads.beneath relation.name
    refine related.bind (fun value => ih (fun other member => each other (.tail _ member)) _)
      (fun statements reads => ?_) fun before after reads later => reads.append later
    have alone := reads.append (.nil (Query.includedNodes rest))
    rwa [List.append_nil] at alone

/-- Loading a query reads its node, and then some of the nodes below it, in their order. -/
theorem runs_loadWhere (logs : database.Logs log) (query : Query) (added : List Predicate) :
    Runs log (query.ReadBy added) (database.loadWhere added query) := by
  induction query using Query.inductionOn generalizing added with
  | node selection includes ih =>
    rw [loadWhere]
    have first : Runs log (· = [(selection.filterBy added).rowsStatement])
        (database.run (selection.filterBy added).rowsStatement) := .run logs rfl
    refine first.bind (runs_attachAll ih) ?_ ?_
    · rintro statements rfl
      exact ⟨[], rfl, List.nil_sublist _⟩
    · rintro before after rfl ⟨readings, rfl, sublist⟩
      exact ⟨readings, rfl, sublist⟩

/-- Counting runs the count statement of the query. -/
theorem runs_total (logs : database.Logs log) (query : Query) :
    Runs log (· = [query.selection.countStatement]) (database.total query) := by
  have counted : Runs log (· = [query.selection.countStatement])
      (database.run query.selection.countStatement) := .run logs rfl
  have read : ∀ rows, Runs log (· = [])
      (MonadExcept.ofExcept (countOf rows) : ExceptT DatabaseError (StateM σ) Nat) := by
    intro rows
    cases countOf rows with
    | error error => exact .nothing_throw error
    | ok total => exact .nothing_pure total
  exact counted.bind_nothing read

end Database

end ResourceQuery
