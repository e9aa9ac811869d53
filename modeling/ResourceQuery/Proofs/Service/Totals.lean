import ResourceQuery.Proofs.Database.Counting
import ResourceQuery.Proofs.Service.Noninterference
import ResourceQuery.Proofs.Service.Root
import ResourceQuery.Proofs.Statement.Clauses

/-!
# Totals

The rows of a page and their total come from two statements. Both are written from the root of the finished
plan, so they agree on the table and the conditions in every dialect (`Selection.countsItsRows`), and where
operations only add, of a request only the filters of the root enter the count (`countStatement_pagePlan`). Two
requests with the same filters there run the same count, whatever they ask for besides, and have one total
(`totals_agree`).
-/
namespace ResourceQuery

variable {σ : Type}

namespace Service

/-- The count statement of a page has the conditions of the query and those of the filters of the root. -/
theorem countStatement_pagePlan (service : Service) [service.registry.AppendOnly] (query : Query) :
    (service.pagePlan query).finish.query.selection.countStatement =
      .count query.selection.table (query.selection.conditions ++
        service.registry.predicates query.selection.entity (service.request.filters .root)) := by
  have root : (service.pagePlan query).query.selection = service.arrange .root query.selection := by
    rw [pagePlan, selection_withRelations, query_configure, Query.selection_mapSelection]
    rfl
  obtain ⟨columns, shape⟩ := Selection.foldl_addColumn_eq
    ((service.pagePlan query).query.selection.missingColumns (service.pagePlan query).query.includes)
    (service.pagePlan query).query.selection
  have table : (service.arrange .root query.selection).table = query.selection.table :=
    (congrArg Selection.table (bare_arrange service .root query.selection) :
      (service.arrange .root query.selection).bare.table = query.selection.bare.table)
  rw [Plan.query_finish, Query.selection_withJoinColumns, shape, root]
  show Statement.count (service.arrange .root query.selection).table
    (service.arrange .root query.selection).conditions = _
  rw [table, conditions_arrange]

/-- What a page exchanges with a database: first the statement for the rows of a selection, then others for rows
of relations, and last at most the count statement of that selection, whose answer is the total of the page. -/
structure PagedBy (database : Database σ) (root : Selection) (outcome : Except Fault Page)
    (exchanges : List Exchange) : Prop where
  /-- The rows of the root come first. -/
  first : (exchanges.map Exchange.statement).head? = some root.rowsStatement
  /-- All the statements but the count are for rows. -/
  counted : ∃ reads counted, exchanges = reads ++ counted ∧
    (∀ exchange ∈ reads, ∃ selection : Selection, exchange.statement = selection.rowsStatement) ∧
    database.CountedBy root.countStatement counted (outcome.map Page.total)

/-- The readings of a query come first with its own rows, and all of them are for rows. -/
theorem PagedBy.of_readBy {database : Database σ} {query : Query} {outcome : Except Fault Page}
    {reads counted : List Exchange} (read : query.ReadBy [] (reads.map Exchange.statement))
    (total : database.CountedBy query.selection.countStatement counted (outcome.map Page.total)) :
    PagedBy database query.selection outcome (reads ++ counted) := by
  obtain ⟨readings, same, -⟩ := read
  refine ⟨?_, reads, counted, rfl, fun exchange member => ?_, total⟩
  · rw [List.map_append, same]
    exact congrArg (fun selection => some selection.rowsStatement) query.selection.filterBy_nil
  · have listed := List.mem_map_of_mem (f := Exchange.statement) member
    rw [same] at listed
    obtain ⟨reading, -, same⟩ := List.mem_map.1 listed
    exact ⟨_, same.symm⟩

/-- A page is exchanged as its root says. -/
theorem exists_pagedBy (service : Service) (database : Database σ) (query : Query) (state : σ) :
    ∃ outcome after exchanges,
      Exchanging (service.page database.rowSource query) (service.page database.recording.rowSource query)
        state outcome after exchanges ∧
      PagedBy database (service.pagePlan query).finish.query.selection outcome exchanges := by
  obtain ⟨answer, after, reads, counted, paged, read, total⟩ :=
    (service.pagePlan query).exists_counted database state
  cases answer with
  | error fault => exact ⟨.error fault, after, reads ++ counted, paged.bind_error _ _, .of_readBy read total⟩
  | ok answer =>
    let made (answer : List Json × Nat) : Page :=
      ⟨answer.1.length, service.request.limit .root, service.request.offset .root, answer.2, answer.1⟩
    have whole : Exchanging (service.page database.rowSource query)
        (service.page database.recording.rowSource query) state (.ok (made answer)) after
        (reads ++ counted ++ []) := paged.bind_ok (.pure after (made answer))
    rw [List.append_nil] at whole
    exact ⟨.ok (made answer), after, reads ++ counted, whole, .of_readBy read total⟩

/-- The total of a page of a database that answers statements by themselves is the answer to the count statement
of its root. -/
theorem total_of_answering {answer : Statement → Except DatabaseError (List Json)} {service : Service}
    {query : Query} {state after : σ} {page : Page}
    (paged : (service.page (Database.answering answer).rowSource query).run.run state = (.ok page, after)) :
    (answer (service.pagePlan query).finish.query.selection.countStatement).bind Database.countOf =
      .ok page.total := by
  obtain ⟨outcome, last, exchanges, exchanged, bounds⟩ :=
    service.exists_pagedBy (Database.answering answer) query state
  obtain rfl : outcome = .ok page := congrArg Prod.fst (exchanged.plain.symm.trans paged)
  obtain ⟨reads, counted, -, -, middle, rows, answered, -, told⟩ := bounds.counted
  have given : answer (service.pagePlan query).finish.query.selection.countStatement = .ok rows := answered
  rw [given]
  exact told

/-- The total counts the rows that a page is taken from. In every dialect the statements for the rows of a
selection and for their number read one table under one text of conditions, and bind the same values but for the
bounds of the window. And where operations only add predicates and sort keys, for two requests with the same
filters of the root, whatever fields, orders, relations, windows and parameters of other paths they have, there
is one count statement: whatever a database answers, each of the two pages reads a root with this count, runs
no other count, and takes its total from the answer. So a database that answers statements by themselves gives
the pages one total. -/
theorem totals_agree (catalog : Catalog) (registry : Registry) [registry.AppendOnly] (query : Query)
    {left right : Request} (same : left.filters .root = right.filters .root) :
    (∀ (dialect : Dialect) (selection : Selection), selection.CountsItsRows dialect) ∧
    (∀ request ∈ [left, right], ∀ {σ : Type} (database : Database σ) (state : σ),
      ∃ root outcome after exchanges,
        Exchanging (page ⟨catalog, registry, request⟩ database.rowSource query)
          (page ⟨catalog, registry, request⟩ database.recording.rowSource query) state outcome after exchanges ∧
        PagedBy database root outcome exchanges ∧
        root.countStatement = .count query.selection.table (query.selection.conditions ++
          registry.predicates query.selection.entity (left.filters .root))) ∧
    ∀ {σ : Type} (answer : Statement → Except DatabaseError (List Json)) (state state' : σ) (one other : Page),
      ((page ⟨catalog, registry, left⟩ (Database.answering answer).rowSource query).run.run state).1 = .ok one →
      ((page ⟨catalog, registry, right⟩ (Database.answering answer).rowSource query).run.run state').1 =
        .ok other →
      one.total = other.total := by
  have counts : ∀ request ∈ [left, right],
      (pagePlan ⟨catalog, registry, request⟩ query).finish.query.selection.countStatement =
        .count query.selection.table (query.selection.conditions ++
          registry.predicates query.selection.entity (left.filters .root)) := by
    intro request listed
    have : (⟨catalog, registry, request⟩ : Service).registry.AppendOnly := ‹registry.AppendOnly›
    rw [countStatement_pagePlan]
    rcases List.mem_cons.1 listed with rfl | listed
    · rfl
    · rw [List.mem_singleton.1 listed, same]
  refine ⟨fun dialect selection => selection.countsItsRows dialect, ?_, ?_⟩
  · intro request listed σ database state
    obtain ⟨outcome, after, exchanges, exchanged, bounds⟩ :=
      exists_pagedBy ⟨catalog, registry, request⟩ database query state
    exact ⟨_, outcome, after, exchanges, exchanged, bounds, counts request listed⟩
  · intro σ answer state state' one other first second
    have ofOne := total_of_answering (Prod.ext first rfl)
    have ofOther := total_of_answering (Prod.ext second rfl)
    rw [counts left (.head _)] at ofOne
    rw [counts right (.tail _ (.head _)), ofOne] at ofOther
    exact Except.ok.inj ofOther

/-- The second user of a name, whole and without posts, though posts of a title would be the ones to come. -/
def laterRequest : Request where
  asked := {
    ParameterSet.empty with
    filters := (SortedMap.empty.insert .root ⟨[("name", ["Ada"])]⟩).insert ⟨["posts"]⟩ ⟨[("title", ["Notes"])]⟩
    limits := SortedMap.empty.insert .root 1
    offsets := SortedMap.empty.insert .root 1 }
  supplied := .empty
  settings := .standard

/-- The filters of users and the sorts of posts only add. -/
instance : postRegistry.AppendOnly :=
  ⟨((Registry.Each.empty.setFilters "users" (List.forall_mem_cons.2 ⟨each_columnFilters ["name"],
    List.forall_mem_singleton.2 each_creationFilters⟩)).setSorts "posts"
      (List.forall_mem_singleton.2 each_creationSorts)).setInclusions "users" _⟩

/-- The users of a name have one total, with their posts or one by one. -/
theorem totals_of_name :
    let count := Statement.count "users" [⟨"name", .equal, .string "Ada"⟩]
    postRegistry.AppendOnly ∧ modestRequest.filters .root = laterRequest.filters .root ∧
    Dialect.postgres.conditions? (count.sql .postgres) = some " WHERE \"name\" = $1" ∧
    (∀ dialect : Dialect, everyUser.selection.CountsItsRows dialect) ∧
    (∀ request ∈ [modestRequest, laterRequest], ∀ {σ : Type} (database : Database σ) (state : σ),
      ∃ root outcome after exchanges,
        Exchanging (page ⟨postCatalog, postRegistry, request⟩ database.rowSource everyUser)
          (page ⟨postCatalog, postRegistry, request⟩ database.recording.rowSource everyUser) state outcome after
          exchanges ∧
        PagedBy database root outcome exchanges ∧ root.countStatement = count) := by
  intro count
  have same : modestRequest.filters .root = laterRequest.filters .root := rfl
  have text : Dialect.postgres.conditions? (count.sql .postgres) = some " WHERE \"name\" = $1" := by
    rw [Statement.conditions?_sql]
    rfl
  obtain ⟨agree, pages, -⟩ := totals_agree postCatalog postRegistry everyUser same
  exact ⟨inferInstance, same, text, fun dialect => agree dialect everyUser.selection, pages⟩

end Service

end ResourceQuery
