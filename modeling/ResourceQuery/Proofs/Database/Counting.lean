import ResourceQuery.Proofs.Database.Statements

/-!
# How pages are counted

Whatever a database answers, a page exchanges the statements that read its nodes and, unless one of these
fails, last the count statement of its root (`Plan.exists_counted`). The total of the page is what the answer
to this statement says; no other answer enters it. This holds for every query, whatever its relations are
named as.
-/
namespace ResourceQuery

variable {ε σ α β : Type}

/-- From every state, a computation on a recording database is an exchange of the computation itself. -/
def Recorded (plain : ExceptT ε (StateM σ) α) (recorded : ExceptT ε (StateM (σ × List Exchange)) α) : Prop :=
  ∀ state, ∃ outcome after exchanges, Exchanging plain recorded state outcome after exchanges

/-- Recorded computations one after the other are recorded. -/
theorem Recorded.bind {plain : ExceptT ε (StateM σ) α} {recorded : ExceptT ε (StateM (σ × List Exchange)) α}
    {next : α → ExceptT ε (StateM σ) β} {nextRecorded : α → ExceptT ε (StateM (σ × List Exchange)) β}
    (first : Recorded plain recorded) (later : ∀ value, Recorded (next value) (nextRecorded value)) :
    Recorded (plain >>= next) (recorded >>= nextRecorded) := by
  intro state
  obtain ⟨outcome, middle, exchanges, ran⟩ := first state
  cases outcome with
  | error error => exact ⟨_, _, _, ran.bind_error next nextRecorded⟩
  | ok value =>
    obtain ⟨ended, after, further, went⟩ := later value middle
    exact ⟨_, _, _, ran.bind_ok went⟩

namespace Database

/-- A recording database keeps the statements of what was exchanged with it. -/
theorem logs_recording (database : Database σ) :
    database.recording.Logs fun kept => kept.2.map Exchange.statement := by
  intro statement kept
  obtain ⟨state, past⟩ := kept
  exact List.map_append

/-- Attaching related rows is recorded, if loading each included query is. -/
theorem recorded_attachAll (database : Database σ) {includes : List (Relation × Query)}
    (each : ∀ included ∈ includes, ∀ added,
      Recorded (database.loadWhere added included.2) (database.recording.loadWhere added included.2))
    (rows : List Json) :
    Recorded (database.attachAll includes rows) (database.recording.attachAll includes rows) := by
  induction includes generalizing rows with
  | nil => exact fun state => ⟨_, _, _, .pure state rows⟩
  | cons included rest ih =>
    obtain ⟨relation, query⟩ := included
    rw [attachAll_cons, attachAll_cons]
    refine Recorded.bind ?_ fun related => ih (fun other member => each other (.tail _ member)) _
    unfold related
    split
    · exact fun state => ⟨_, _, _, .pure state []⟩
    · exact each _ (.head rest) _

/-- Loading a query is recorded. -/
theorem recorded_loadWhere (database : Database σ) (query : Query) (added : List Predicate) :
    Recorded (database.loadWhere added query) (database.recording.loadWhere added query) := by
  induction query using Query.inductionOn generalizing added with
  | node selection includes ih =>
    rw [loadWhere, loadWhere]
    exact Recorded.bind (fun state => ⟨_, _, _, .run database _ state⟩) (database.recorded_attachAll ih)

/-- Loading a query exchanges the readings of its nodes. -/
theorem exists_exchanging_load (database : Database σ) (query : Query) (state : σ) :
    ∃ outcome after exchanges,
      Exchanging (database.load query) (database.recording.load query) state outcome after exchanges ∧
        query.ReadBy [] (exchanges.map Exchange.statement) := by
  obtain ⟨outcome, after, exchanges, loaded⟩ := database.recorded_loadWhere query [] state
  obtain ⟨statements, reads, logged⟩ := runs_loadWhere database.logs_recording query [] (state, [])
  rw [loaded.recorded []] at logged
  obtain rfl : exchanges.map Exchange.statement = statements := logged
  exact ⟨outcome, after, exchanges, loaded, reads⟩

/-- What is exchanged for the number of rows: a total is what the database answers to the count statement from
some state, and where there is none the statement was run once at most. -/
def CountedBy (database : Database σ) (count : Statement) (exchanges : List Exchange) :
    Except Fault Nat → Prop
  | .ok total => ∃ state rows, ((database.run count).run.run state).1 = .ok rows ∧
      exchanges = [⟨count, .ok rows⟩] ∧ countOf rows = .ok total
  | .error _ => exchanges = [] ∨ ∃ answer, exchanges = [⟨count, answer⟩]

end Database

/-- A page exchanges the readings of its nodes, and then the count statement of its root for the total. -/
theorem Plan.exists_counted (database : Database σ) (plan : Plan) (state : σ) :
    ∃ outcome after reads counted,
      Exchanging (plan.page database.rowSource) (plan.page database.recording.rowSource) state outcome after
        (reads ++ counted) ∧
      plan.finish.query.ReadBy [] (reads.map Exchange.statement) ∧
      database.CountedBy plan.finish.query.selection.countStatement counted (outcome.map Prod.snd) := by
  obtain ⟨loadedOutcome, middle, reads, loaded, read⟩ := database.exists_exchanging_load plan.finish.query state
  cases loadedOutcome with
  | error error =>
    refine ⟨.error (Fault.ofDatabase error), middle, reads, [], ?_, read, .inl rfl⟩
    rw [List.append_nil]
    exact loaded.ofSession.bind_error _ _
  | ok rows =>
    cases ran : (database.run plan.finish.query.selection.countStatement).run.run middle with
    | mk answer after =>
      have total := (Database.exchanging_total ran).ofSession
      cases number : answer.bind Database.countOf with
      | error error =>
        rw [number] at total
        exact ⟨_, _, reads, _, loaded.ofSession.bind_ok (total.bind_error _ _), read, .inr ⟨_, rfl⟩⟩
      | ok count =>
        rw [number] at total
        obtain ⟨result, rfl, told⟩ : ∃ rows, answer = .ok rows ∧ Database.countOf rows = .ok count := by
          cases answer with
          | error error => cases number
          | ok result => exact ⟨result, rfl, number⟩
        exact ⟨.ok (rows.map plan.finish.surplus.strip, count), _, reads, _,
          loaded.ofSession.bind_ok (total.bind_ok (.pure _ (rows.map plan.finish.surplus.strip, count))), read,
          middle, result, congrArg Prod.fst ran, rfl, told⟩

end ResourceQuery
