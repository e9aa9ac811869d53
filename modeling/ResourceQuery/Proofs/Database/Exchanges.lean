import ResourceQuery.Proofs.Database.Readings
import ResourceQuery.Proofs.Database.RowByRow

/-!
# Loads as exchanges with a database

Loading a query is an exchange of statements and answers. A recording database keeps both
(`Database.recording`), and what a load gives and what it runs are told from the answers alone: a query
with the rows that its statements were answered with (`Answered`) says which statements there are in turn
(`Answered.readings`) and what becomes of the rows (`Answered.complete`). Whatever a database answers, there
are such rows for the load, which runs the statements up to the first that fails
(`Database.exists_loadedAs`).
-/
namespace ResourceQuery

variable {ε σ α β : Type}

/-! ### Recording -/

/-- A statement that was run, with its answer. -/
structure Exchange where
  /-- The statement. -/
  statement : Statement
  /-- The rows, or the failure. -/
  answer : Except DatabaseError (List Json)

/-- The database that also keeps what was exchanged with it, the first statement first. -/
def Database.recording (database : Database σ) : Database (σ × List Exchange) :=
  ⟨fun statement => ExceptT.mk fun (state, past) =>
    let (answer, after) := (database.run statement).run.run state
    (answer, after, past ++ [⟨statement, answer⟩])⟩

/-- From a state a computation has an outcome and ends in another state, and so does the same computation on a
recording database, which adds some exchanges to whatever it kept before. -/
structure Exchanging (plain : ExceptT ε (StateM σ) α) (recorded : ExceptT ε (StateM (σ × List Exchange)) α)
    (state : σ) (outcome : Except ε α) (after : σ) (exchanges : List Exchange) : Prop where
  /-- The computation itself. -/
  plain : plain.run.run state = (outcome, after)
  /-- The computation on a recording database. -/
  recorded : ∀ past, recorded.run.run (state, past) = (outcome, after, past ++ exchanges)

namespace Exchanging

variable {state middle after : σ} {exchanges later : List Exchange}

/-- A value that is at hand is exchanged for nothing. -/
theorem pure (state : σ) (value : α) :
    Exchanging (ε := ε) (Pure.pure value) (Pure.pure value) state (.ok value) state [] :=
  ⟨rfl, fun past => by rw [List.append_nil]; rfl⟩

/-- A failure is exchanged for nothing. -/
theorem throw (state : σ) (error : ε) :
    Exchanging (α := α) (MonadExcept.throw error) (MonadExcept.throw error) state (.error error) state [] :=
  ⟨rfl, fun past => by rw [List.append_nil]; rfl⟩

/-- A statement is exchanged for its answer. -/
theorem run (database : Database σ) (statement : Statement) (state : σ) :
    Exchanging (database.run statement) (database.recording.run statement) state
      ((database.run statement).run.run state).1 ((database.run statement).run.run state).2
      [⟨statement, ((database.run statement).run.run state).1⟩] := ⟨rfl, fun _ => rfl⟩

/-- A computation that fails ends what it begins. -/
theorem bind_error {plain : ExceptT ε (StateM σ) α} {recorded : ExceptT ε (StateM (σ × List Exchange)) α}
    {error : ε} (first : Exchanging plain recorded state (.error error) after exchanges)
    (next : α → ExceptT ε (StateM σ) β) (nextRecorded : α → ExceptT ε (StateM (σ × List Exchange)) β) :
    Exchanging (plain >>= next) (recorded >>= nextRecorded) state (.error error) after exchanges := by
  refine ⟨?_, fun past => ?_⟩
  · show (ExceptT.bindCont next (plain.run.run state).1).run (plain.run.run state).2 = _
    rw [first.plain]
    rfl
  · show (ExceptT.bindCont nextRecorded (recorded.run.run (state, past)).1).run
      (recorded.run.run (state, past)).2 = _
    rw [first.recorded]
    rfl

/-- The exchanges of a computation come before those of the next one. -/
theorem bind_ok {plain : ExceptT ε (StateM σ) α} {recorded : ExceptT ε (StateM (σ × List Exchange)) α}
    {value : α} (first : Exchanging plain recorded state (.ok value) middle exchanges)
    {next : α → ExceptT ε (StateM σ) β} {nextRecorded : α → ExceptT ε (StateM (σ × List Exchange)) β}
    {outcome : Except ε β}
    (second : Exchanging (next value) (nextRecorded value) middle outcome after later) :
    Exchanging (plain >>= next) (recorded >>= nextRecorded) state outcome after (exchanges ++ later) := by
  refine ⟨?_, fun past => ?_⟩
  · show (ExceptT.bindCont next (plain.run.run state).1).run (plain.run.run state).2 = _
    rw [first.plain]
    exact second.plain
  · show (ExceptT.bindCont nextRecorded (recorded.run.run (state, past)).1).run
      (recorded.run.run (state, past)).2 = _
    rw [first.recorded, ← List.append_assoc]
    exact second.recorded _

end Exchanging

/-! ### Answered queries -/

/-- A set member changes no other member. -/
theorem Json.member?_setMember_of_ne {name other : String} (apart : other ≠ name) (json value : Json) :
    (json.setMember name value).member? other = json.member? other := by
  cases json with
  | object members => exact (Assoc.lookup_insert members name other value).trans (if_neg apart)
  | null | bool | number | string | array => rfl

/-- A query with the rows that its statement was answered with, and the same for every included relation. -/
inductive Answered where
  /-- The selection, its rows, and the included relations in their order. -/
  | node (selection : Selection) (rows : List Json) (related : List (Relation × Answered))

namespace Answered

/-- The rows of the statement of the query itself. -/
def rows : Answered → List Json
  | node _ rows _ => rows

/-- The included relations with their answered queries. -/
def related : Answered → List (Relation × Answered)
  | node _ _ related => related

mutual

/-- The query that was answered. -/
def query : Answered → Query
  | node selection _ related => .node selection (queries related)

/-- The included relations with the queries that were answered. -/
def queries : List (Relation × Answered) → List (Relation × Query)
  | [] => []
  | (relation, answered) :: rest => (relation, answered.query) :: queries rest

end

mutual

/-- The readings of a query in turn, each with its rows: that of its own rows, which also meet the added
predicates, and then those of the included relations. -/
def readings (chain : List String) (added : List Predicate) : Answered → List (Reading × List Json)
  | node selection rows related =>
    (⟨chain, selection, added⟩, rows) :: relatedReadings chain rows related

/-- The readings of included relations in turn: each is read for the keys of the rows, and without keys
neither the relation nor what is included below it is read. -/
def relatedReadings (chain : List String) (rows : List Json) :
    List (Relation × Answered) → List (Reading × List Json)
  | [] => []
  | (relation, answered) :: rest =>
    (if (relation.joinKeys rows).isEmpty then []
      else answered.readings (chain ++ [relation.name]) [relation.joinPredicate (relation.joinKeys rows)]) ++
    relatedReadings chain rows rest

end

mutual

/-- A row of the query with its related rows, completed with theirs. -/
def complete : Answered → Json → Json
  | node _ _ related, row => completeAll related row

/-- A row with the related rows of included relations in turn. -/
def completeAll : List (Relation × Answered) → Json → Json
  | [], row => row
  | (relation, answered) :: rest, row =>
    completeAll rest (relation.attach (answered.rows.map (complete answered)) row)

end

/-- An answered query is another one or, at any depth, that of an included relation. -/
inductive Within : Answered → Answered → Prop
  /-- It is the same. -/
  | self (answered : Answered) : Within answered answered
  /-- It is within that of an included relation. -/
  | of_included {part whole child : Answered} {relation : Relation} (included : (relation, child) ∈ whole.related)
      (within : Within part child) : Within part whole

/-- Induction over an answered query: a node is settled once the queries included under it are. -/
theorem inductionOn {motive : Answered → Prop}
    (node : ∀ selection rows related, (∀ included ∈ related, motive included.2) →
      motive (.node selection rows related)) (answered : Answered) : motive answered :=
  @Answered.rec motive (fun related => ∀ included ∈ related, motive included.2)
    (fun included => motive included.2) (fun selection rows related below => node selection rows related below)
    (fun _ member => absurd member List.not_mem_nil)
    (fun _ _ first others included member => by
      rcases List.mem_cons.1 member with rfl | member
      · exact first
      · exact others included member)
    (fun _ _ below => below) answered

/-- The included relations of an answered query are those of the query. -/
theorem queries_eq_map (related : List (Relation × Answered)) :
    queries related = related.map fun included => (included.1, included.2.query) := by
  induction related with
  | nil => rfl
  | cons included rest ih =>
    obtain ⟨relation, answered⟩ := included
    rw [queries, ih]
    rfl

/-- The included relations are named as in the query. -/
theorem names_queries (related : List (Relation × Answered)) :
    (queries related).map Query.includedName = related.map fun included => included.1.name := by
  rw [queries_eq_map, List.map_map]
  rfl

/-- Completing rows changes no column that no relation is named as. -/
theorem member?_completeAll {related : List (Relation × Answered)} {name : String}
    (absent : name ∉ (queries related).map Query.includedName) (row : Json) :
    (completeAll related row).member? name = row.member? name := by
  induction related generalizing row with
  | nil => rfl
  | cons included rest ih =>
    obtain ⟨relation, answered⟩ := included
    rw [queries, List.map_cons, List.mem_cons, not_or] at absent
    rw [completeAll, ih absent.2]
    exact Json.member?_setMember_of_ne absent.1 row _

end Answered

/-- The exchange of a reading that is answered with rows. -/
def Reading.answeredWith (reading : Reading × List Json) : Exchange := ⟨reading.1.statement, .ok reading.2⟩

/-- Readings in turn were exchanged for their rows: all of them by a computation that gives a value, and by one
that fails those before the reading that failed, and this one last. -/
def RanInTurn (readings : List (Reading × List Json)) (outcome : Except DatabaseError α)
    (exchanges : List Exchange) : Prop :=
  match outcome with
  | .ok _ => exchanges = readings.map Reading.answeredWith
  | .error error => ∃ done reading rows rest, readings = done ++ (reading, rows) :: rest ∧
      exchanges = done.map Reading.answeredWith ++ [⟨reading.statement, .error error⟩]

namespace RanInTurn

variable {readings further : List (Reading × List Json)} {exchanges later : List Exchange}

/-- No readings were exchanged for nothing. -/
theorem nil (value : α) : RanInTurn [] (.ok value : Except DatabaseError α) [] := rfl

/-- The first of the readings is always exchanged, and the others at most. -/
theorem exists_cons {reading : Reading} {rows : List Json} {outcome : Except DatabaseError α}
    (ran : RanInTurn ((reading, rows) :: readings) outcome exchanges) :
    ∃ answer later, exchanges = ⟨reading.statement, answer⟩ :: later ∧ later.length ≤ readings.length := by
  cases outcome with
  | ok value =>
    obtain rfl : exchanges = _ := ran
    exact ⟨.ok rows, readings.map Reading.answeredWith, rfl, Nat.le_of_eq (List.length_map _)⟩
  | error error =>
    obtain ⟨done, failing, found, rest, same, rfl⟩ := ran
    cases done with
    | nil =>
      obtain ⟨rfl, -⟩ := Prod.mk.inj (List.cons.inj same).1
      exact ⟨.error error, [], rfl, Nat.zero_le _⟩
    | cons first others =>
      rw [List.cons_append] at same
      obtain ⟨rfl, rfl⟩ := List.cons.inj same
      refine ⟨.ok rows, others.map Reading.answeredWith ++ [⟨failing.statement, .error error⟩], rfl, ?_⟩
      simp only [List.length_append, List.length_map, List.length_cons, List.length_nil]
      omega

/-- Readings that are planned after a failure do not run. -/
theorem append_error {error : DatabaseError}
    (ran : RanInTurn readings (.error error : Except DatabaseError α) exchanges)
    (further : List (Reading × List Json)) :
    RanInTurn (readings ++ further) (.error error : Except DatabaseError β) exchanges := by
  obtain ⟨done, reading, rows, rest, rfl, same⟩ := ran
  exact ⟨done, reading, rows, rest ++ further, by rw [List.append_assoc, List.cons_append], same⟩

/-- Readings run after others that were answered. -/
theorem append_ok {value : α} (ran : RanInTurn readings (.ok value : Except DatabaseError α) exchanges)
    {outcome : Except DatabaseError β} (next : RanInTurn further outcome later) :
    RanInTurn (readings ++ further) outcome (exchanges ++ later) := by
  obtain rfl : exchanges = readings.map Reading.answeredWith := ran
  cases outcome with
  | ok result =>
    obtain rfl : later = further.map Reading.answeredWith := next
    exact List.map_append.symm
  | error error =>
    obtain ⟨done, reading, rows, rest, rfl, rfl⟩ := next
    exact ⟨readings ++ done, reading, rows, rest, by rw [List.append_assoc], by
      rw [List.map_append, List.append_assoc]⟩

end RanInTurn

/-! ### Loads -/

namespace Database

variable {database : Database σ}

/-- A load of a query from a state: what it runs are the readings of an answered query in turn, and its rows are
those that the query was answered with, each completed. -/
structure LoadedAs (database : Database σ) (query : Query) (chain : List String) (added : List Predicate)
    (state : σ) (answered : Answered) (outcome : Except DatabaseError (List Json)) (after : σ)
    (exchanges : List Exchange) : Prop where
  /-- It is the query that was answered. -/
  asked : answered.query = query
  /-- The exchanges are those of the load. -/
  exchanging : Exchanging (database.loadWhere added query) (database.recording.loadWhere added query)
    state outcome after exchanges
  /-- The readings ran. -/
  ran : RanInTurn (answered.readings chain added) outcome exchanges
  /-- The rows are completed. -/
  rows : ∀ rows, outcome = .ok rows → rows = answered.rows.map answered.complete

/-- Attaching related rows to rows that were changed: what it runs are the readings of answered relations in
turn, and each changed row is completed. -/
structure AttachedAs (database : Database σ) (includes : List (Relation × Query)) (chain : List String)
    (rows : List Json) (change : Json → Json) (state : σ) (related : List (Relation × Answered))
    (outcome : Except DatabaseError (List Json)) (after : σ) (exchanges : List Exchange) : Prop where
  /-- It is the relations that were answered. -/
  asked : Answered.queries related = includes
  /-- The exchanges are those of attaching. -/
  exchanging : Exchanging (database.attachAll includes (rows.map change))
    (database.recording.attachAll includes (rows.map change)) state outcome after exchanges
  /-- The readings ran. -/
  ran : RanInTurn (Answered.relatedReadings chain rows related) outcome exchanges
  /-- The rows are completed. -/
  rows : ∀ result, outcome = .ok result →
    result = rows.map fun row => Answered.completeAll related (change row)

variable {database : Database σ} {relation : Relation} {query : Query}

/-- The related rows of a relation are answered like any load, and not asked for where no row has a key: then
it does not matter with what they are answered. -/
theorem exists_answered_related
    (loads : ∀ chain added state, ∃ answered outcome after exchanges,
      database.LoadedAs query chain added state answered outcome after exchanges)
    (chain : List String) (rows : List Json) {change : Json → Json}
    (keeps : ∀ row, (change row).member? relation.parentColumn = row.member? relation.parentColumn)
    (state : σ) : ∃ (answered : Answered) (outcome : Except DatabaseError (List Json)) (after : σ)
        (exchanges : List Exchange), answered.query = query ∧
      Exchanging (database.related relation query (relation.joinKeys rows))
        (database.recording.related relation query (relation.joinKeys rows)) state outcome after exchanges ∧
      RanInTurn (if (relation.joinKeys rows).isEmpty then []
        else answered.readings chain [relation.joinPredicate (relation.joinKeys rows)]) outcome exchanges ∧
      ∀ related, outcome = .ok related → ∀ row ∈ rows, relation.attach related (change row) =
        relation.attach (answered.rows.map answered.complete) (change row) := by
  obtain ⟨answered, outcome, after, exchanges, loaded⟩ :=
    loads chain [relation.joinPredicate (relation.joinKeys rows)] state
  by_cases keyless : relation.joinKeys rows = []
  · refine ⟨answered, .ok [], state, [], loaded.asked, ?_, ?_, ?_⟩
    · rw [keyless]
      exact .pure state []
    · rw [keyless]
      exact .nil []
    · rintro related same row member
      obtain rfl := Except.ok.inj same
      have none : relation.parentKey? (change row) = none := by
        rw [Relation.parentKey?, keeps]
        exact Relation.joinKeys_eq_nil_iff.1 keyless row member
      unfold Relation.attach Relation.childrenOf
      rw [none]
  · have keyed : (relation.joinKeys rows).isEmpty = false := by simpa using keyless
    refine ⟨answered, outcome, after, exchanges, loaded.asked, ?_, ?_, ?_⟩
    · unfold related
      rw [keyed, if_neg Bool.false_ne_true, if_neg Bool.false_ne_true]
      exact loaded.exchanging
    · rw [keyed, if_neg Bool.false_ne_true]
      exact loaded.ran
    · rintro related same row -
      rw [loaded.rows related same]

/-- Whatever a database answers, attaching related rows is answered. -/
theorem exists_attachedAs (database : Database σ) {includes : List (Relation × Query)}
    (parents : ∀ included ∈ includes, included.1.parentColumn ∉ includes.map Query.includedName)
    (loads : ∀ included ∈ includes, ∀ chain added state, ∃ answered outcome after exchanges,
      database.LoadedAs included.2 chain added state answered outcome after exchanges)
    (chain : List String) (rows : List Json) (change : Json → Json)
    (keeps : ∀ included ∈ includes, ∀ row,
      (change row).member? included.1.parentColumn = row.member? included.1.parentColumn)
    (state : σ) : ∃ related outcome after exchanges,
      database.AttachedAs includes chain rows change state related outcome after exchanges := by
  induction includes generalizing change state with
  | nil =>
    refine ⟨[], .ok (rows.map change), state, [], rfl, .pure state _, .nil _, fun result same => ?_⟩
    exact (Except.ok.inj same).symm
  | cons included rest ih =>
    obtain ⟨relation, query⟩ := included
    obtain ⟨answered, found, middle, exchanges, asked, exchanging, ran, attached⟩ :=
      exists_answered_related (loads (relation, query) (.head rest)) (chain ++ [relation.name]) rows
        (keeps (relation, query) (.head rest)) state
    have keys : relation.joinKeys (rows.map change) = relation.joinKeys rows :=
      Relation.joinKeys_map fun row _ => keeps (relation, query) (.head rest) row
    -- The next relations find their keys in rows that the first one was attached to.
    have later := fun related : List Json => ih
      (fun included member held => parents included (.tail _ member) (.tail _ held))
      (fun included member => loads included (.tail _ member))
      (fun row => relation.attach related (change row)) fun included member row => by
        have apart : included.1.parentColumn ≠ relation.name := fun same =>
          parents included (.tail _ member) (same ▸ .head _)
        rw [Relation.attach, Json.member?_setMember_of_ne apart]
        exact keeps included (.tail _ member) row
    cases found with
    | error error =>
      obtain ⟨others, _, _, _, further⟩ := later [] middle
      refine ⟨(relation, answered) :: others, .error error, middle, exchanges, ?_, ?_, ?_,
        fun _ failed => nomatch failed⟩
      · rw [Answered.queries, asked, further.asked]
      · rw [attachAll_cons, attachAll_cons, keys]
        exact exchanging.bind_error _ _
      · exact ran.append_error _
    | ok related =>
      obtain ⟨others, outcome, after, more, further⟩ := later related middle
      refine ⟨(relation, answered) :: others, outcome, after, exchanges ++ more, ?_, ?_, ?_,
        fun result same => ?_⟩
      · rw [Answered.queries, asked, further.asked]
      · have next := further.exchanging
        rw [attachAll_cons, attachAll_cons, keys]
        refine exchanging.bind_ok ?_
        rw [List.map_map]
        exact next
      · exact ran.append_ok further.ran
      · rw [further.rows result same]
        refine List.map_congr_left fun row member => ?_
        rw [Answered.completeAll, attached related rfl row member]

/-- Whatever a database answers, a load is answered: its statements run in turn up to the first that fails, and
its rows are completed. -/
theorem exists_loadedAs (database : Database σ) {query : Query} (separate : query.Separate)
    (chain : List String) (added : List Predicate) (state : σ) : ∃ answered outcome after exchanges,
      database.LoadedAs query chain added state answered outcome after exchanges := by
  induction query using Query.inductionOn generalizing chain added state with
  | node selection includes ih =>
    obtain ⟨parents, -, below⟩ := separate
    have attaches := exists_attachedAs database parents
      (fun included member => ih included member (below included member)) chain
    have own := Exchanging.run database (selection.filterBy added).rowsStatement state
    cases answer : ((database.run (selection.filterBy added).rowsStatement).run.run state).1 with
    | error error =>
      rw [answer] at own
      obtain ⟨related, _, _, _, attached⟩ := attaches [] id (fun _ _ _ => rfl) state
      refine ⟨.node selection [] related, .error error,
        ((database.run (selection.filterBy added).rowsStatement).run.run state).2,
        [⟨(selection.filterBy added).rowsStatement, .error error⟩], ?_, ?_, ?_, fun _ failed => nomatch failed⟩
      · rw [Answered.query, attached.asked]
      · rw [loadWhere, loadWhere]
        exact own.bind_error _ _
      · exact ⟨[], ⟨chain, selection, added⟩, [], _, rfl, rfl⟩
    | ok rows =>
      rw [answer] at own
      obtain ⟨related, outcome, after, exchanges, attached⟩ :=
        attaches rows id (fun _ _ _ => rfl)
          ((database.run (selection.filterBy added).rowsStatement).run.run state).2
      have next := attached.exchanging
      rw [List.map_id] at next
      refine ⟨.node selection rows related, outcome, after,
        [⟨(selection.filterBy added).rowsStatement, .ok rows⟩] ++ exchanges, ?_, ?_, ?_, fun result same => ?_⟩
      · rw [Answered.query, attached.asked]
      · rw [loadWhere, loadWhere]
        exact own.bind_ok next
      · have first : RanInTurn [((⟨chain, selection, added⟩ : Reading), rows)]
            (.ok rows : Except DatabaseError (List Json))
            [⟨(selection.filterBy added).rowsStatement, .ok rows⟩] := rfl
        exact first.append_ok attached.ran
      · exact attached.rows result same

end Database

end ResourceQuery
