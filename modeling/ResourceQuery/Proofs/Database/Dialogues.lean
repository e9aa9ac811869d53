import ResourceQuery.Proofs.Database.Counting

/-!
# Dialogues with a database

A request is a dialogue: it asks for the rows of a statement, goes on with these rows, and ends with a value
or a fault (`Dialogue`). It has nothing to go on with where a statement fails. That a computation is a
dialogue, whatever database it runs on, is kept by `bind` (`Conversed.bind`), and loads and counts are
dialogues (`Database.conversed_loadWhere`, `Database.conversed_total`). So a statement that fails is the last
that a dialogue exchanges (`Dialogue.ends`), and of another database it matters only that it answers alike up to
there (`Dialogue.replayed`).
-/
namespace ResourceQuery

variable {σ τ α β : Type}

/-- What is asked of a database, and what becomes of the rows. -/
inductive Dialogue (α : Type) where
  /-- It ends with a value. -/
  | value (result : α)
  /-- It ends with a fault of its own. -/
  | refuse (fault : Fault)
  /-- It asks for the rows of a statement and goes on with them. -/
  | ask (statement : Statement) (next : List Json → Dialogue α)

namespace Dialogue

/-- The dialogue with a database. -/
def run (database : Database σ) : Dialogue α → Outcome σ α
  | value result => pure result
  | refuse fault => throw fault
  | ask statement next =>
    Outcome.ofSession (database.run statement) >>= fun rows => (next rows).run database

/-- One dialogue after another. -/
def bind (next : α → Dialogue β) : Dialogue α → Dialogue β
  | value result => next result
  | refuse fault => refuse fault
  | ask statement later => ask statement fun rows => (later rows).bind next

/-- Dialogues one after the other are held one after the other. -/
theorem run_bind (database : Database σ) (next : α → Dialogue β) (dialogue : Dialogue α) :
    (dialogue.bind next).run database = dialogue.run database >>= fun result => (next result).run database := by
  induction dialogue with
  | value result => rfl
  | refuse fault => rfl
  | ask statement later ih => simp only [bind, run, ih, bind_assoc]

end Dialogue

/-- On every database the computation is one dialogue. -/
def Conversed (computation : ∀ σ, Database σ → Outcome σ α) : Prop :=
  ∃ dialogue : Dialogue α, ∀ σ (database : Database σ), computation σ database = dialogue.run database

namespace Conversed

/-- A value that is at hand needs no database. -/
theorem pure (result : α) : Conversed fun _ _ => Pure.pure result := ⟨.value result, fun _ _ => rfl⟩

/-- Nor does a fault. -/
theorem throw (fault : Fault) : Conversed (α := α) fun _ _ => MonadExcept.throw fault :=
  ⟨.refuse fault, fun _ _ => rfl⟩

/-- A statement is asked for. -/
theorem run (statement : Statement) : Conversed fun _ database => Outcome.ofSession (database.run statement) :=
  ⟨.ask statement .value, fun _ _ => (bind_pure _).symm⟩

/-- Dialogues one after the other are a dialogue. -/
theorem bind {first : ∀ σ, Database σ → Outcome σ α} {next : α → ∀ σ, Database σ → Outcome σ β}
    (conversed : Conversed first) (later : ∀ result, Conversed (next result)) :
    Conversed fun σ database => first σ database >>= fun result => next result σ database := by
  obtain ⟨dialogue, same⟩ := conversed
  obtain ⟨continued, goes⟩ := Classical.skolem.1 later
  refine ⟨dialogue.bind continued, fun σ database => ?_⟩
  rw [Dialogue.run_bind, ← same]
  exact congrArg (first σ database >>= ·) (funext fun result => goes result σ database)

end Conversed

/-- Sessions one after the other are outcomes one after the other. -/
theorem ofSession_bind (session : Session σ α) (next : α → Session σ β) :
    Outcome.ofSession (session >>= next) =
      Outcome.ofSession session >>= fun result => Outcome.ofSession (next result) := by
  funext state
  show ((ExceptT.bindCont next (session.run.run state).1).run (session.run.run state).2).map
      (Except.mapError Fault.ofDatabase) id =
    (ExceptT.bindCont (fun result => Outcome.ofSession (next result))
      ((session.run.run state).1.mapError Fault.ofDatabase)).run (session.run.run state).2
  cases (session.run.run state).1 <;> rfl

/-! ### Loads and counts -/

namespace Database

/-- Attaching related rows is a dialogue, if loading each included query is. -/
theorem conversed_attachAll {includes : List (Relation × Query)}
    (each : ∀ included ∈ includes, ∀ added,
      Conversed fun _ database => Outcome.ofSession (database.loadWhere added included.2))
    (rows : List Json) : Conversed fun _ database => Outcome.ofSession (database.attachAll includes rows) := by
  induction includes generalizing rows with
  | nil => exact .pure rows
  | cons included rest ih =>
    obtain ⟨relation, query⟩ := included
    simp only [attachAll_cons, ofSession_bind]
    refine Conversed.bind ?_ fun related => ih (fun other member => each other (.tail _ member)) _
    unfold related
    split
    · exact .pure []
    · exact each _ (.head rest) _

/-- Loading a query is a dialogue. -/
theorem conversed_loadWhere (query : Query) (added : List Predicate) :
    Conversed fun _ database => Outcome.ofSession (database.loadWhere added query) := by
  induction query using Query.inductionOn generalizing added with
  | node selection includes ih =>
    simp only [loadWhere, ofSession_bind]
    exact .bind (.run _) (conversed_attachAll ih)

/-- The number of rows is found in a dialogue. -/
theorem conversed_total (query : Query) :
    Conversed fun _ database => Outcome.ofSession (database.total query) := by
  simp only [total, ofSession_bind]
  refine .bind (.run _) fun rows => ?_
  cases countOf rows with
  | ok count => exact .pure count
  | error error => exact .throw (Fault.ofDatabase error)

end Database

/-! ### Failures -/

/-- From a state, the database answers statements one after the other as they were answered. -/
def Database.Replays (database : Database σ) : σ → List Exchange → σ → Prop
  | state, [], after => after = state
  | state, exchange :: rest, after => ∃ middle,
    (database.run exchange.statement).run.run state = (exchange.answer, middle) ∧
      database.Replays middle rest after

/-- What a computation does from a state is one thing. -/
theorem Exchanging.unique {ε : Type} {plain : ExceptT ε (StateM σ) α}
    {recorded : ExceptT ε (StateM (σ × List Exchange)) α} {state after ended : σ} {outcome other : Except ε α}
    {exchanges further : List Exchange} (left : Exchanging plain recorded state outcome after exchanges)
    (right : Exchanging plain recorded state other ended further) :
    outcome = other ∧ after = ended ∧ exchanges = further := by
  have same := (left.recorded []).symm.trans (right.recorded [])
  rw [List.nil_append, List.nil_append] at same
  exact ⟨(Prod.mk.inj same).1, (Prod.mk.inj (Prod.mk.inj same).2).1, (Prod.mk.inj (Prod.mk.inj same).2).2⟩

namespace Dialogue

/-- From every state, a dialogue exchanges something. -/
theorem recorded (database : Database σ) (dialogue : Dialogue α) :
    Recorded (dialogue.run database) (dialogue.run database.recording) := by
  induction dialogue with
  | value result => exact fun state => ⟨_, _, _, .pure state result⟩
  | refuse fault => exact fun state => ⟨_, _, _, .throw state fault⟩
  | ask statement next ih =>
    exact .bind (fun state => ⟨_, _, _, (Exchanging.run database statement state).ofSession⟩) ih

/-- A dialogue that asks goes on with the rows, or ends with the failure of the statement. -/
theorem exchanging_ask {database : Database σ} {statement : Statement} {next : List Json → Dialogue α}
    {state after : σ} {outcome : Except Fault α} {exchanges : List Exchange}
    (exchanging : Exchanging ((ask statement next).run database) ((ask statement next).run database.recording)
      state outcome after exchanges) :
    (∃ rows middle later, (database.run statement).run.run state = (.ok rows, middle) ∧
      exchanges = ⟨statement, .ok rows⟩ :: later ∧
        Exchanging ((next rows).run database) ((next rows).run database.recording) middle outcome after later) ∨
    ∃ error, (database.run statement).run.run state = (.error error, after) ∧
      exchanges = [⟨statement, .error error⟩] ∧ outcome = .error (Fault.ofDatabase error) := by
  have own := (Exchanging.run database statement state).ofSession
  cases answer : (database.run statement).run.run state with
  | mk result middle =>
    rw [answer] at own
    cases result with
    | ok rows =>
      obtain ⟨ended, final, later, further⟩ := (next rows).recorded database middle
      obtain ⟨rfl, rfl, rfl⟩ := exchanging.unique (own.bind_ok further)
      exact .inl ⟨rows, middle, later, rfl, rfl, further⟩
    | error error =>
      obtain ⟨rfl, rfl, rfl⟩ := exchanging.unique (own.bind_error _ _)
      exact .inr ⟨error, rfl, rfl, rfl⟩

variable {dialogue : Dialogue α} {database : Database σ} {state after : σ} {outcome : Except Fault α}
  {done later : List Exchange} {statement : Statement} {error : DatabaseError}

/-- A statement that fails is the last one, and its failure is the outcome. -/
theorem ends (exchanging : Exchanging (dialogue.run database) (dialogue.run database.recording) state outcome
      after (done ++ ⟨statement, .error error⟩ :: later)) :
    later = [] ∧ outcome = .error (Fault.ofDatabase error) := by
  induction dialogue generalizing state done with
  | value result => exact absurd (exchanging.unique (.pure state result)).2.2 (by simp)
  | refuse fault => exact absurd (exchanging.unique (.throw state fault)).2.2 (by simp)
  | ask asked next ih =>
    rcases exchanging_ask exchanging with ⟨rows, middle, more, -, whole, further⟩ | ⟨failure, -, whole, ended⟩
    · cases done with
      | nil => exact nomatch congrArg Exchange.answer (List.cons.inj whole).1
      | cons first others =>
        rw [List.cons_append] at whole
        exact ih rows ((List.cons.inj whole).2 ▸ further)
    · cases done with
      | nil =>
        obtain ⟨last, rfl⟩ := List.cons.inj whole
        obtain rfl := Except.error.inj (congrArg Exchange.answer last)
        exact ⟨rfl, ended⟩
      | cons first others =>
        rw [List.cons_append] at whole
        exact absurd (List.cons.inj whole).2 (by simp)

/-- Where another database answers alike up to the statement that fails, and fails there as well, it is asked
the same, and its failure is the outcome. -/
theorem replayed (exchanging : Exchanging (dialogue.run database) (dialogue.run database.recording) state
      outcome after (done ++ ⟨statement, .error error⟩ :: later))
    {other : Database τ} {start middle ended : τ} {failure : DatabaseError}
    (replays : other.Replays start done middle)
    (fails : (other.run statement).run.run middle = (.error failure, ended)) :
    Exchanging (dialogue.run other) (dialogue.run other.recording) start (.error (Fault.ofDatabase failure)) ended
      (done ++ [⟨statement, .error failure⟩]) := by
  induction dialogue generalizing state start done with
  | value result => exact absurd (exchanging.unique (.pure state result)).2.2 (by simp)
  | refuse fault => exact absurd (exchanging.unique (.throw state fault)).2.2 (by simp)
  | ask asked next ih =>
    have own := (Exchanging.run other asked start).ofSession
    rcases exchanging_ask exchanging with ⟨rows, _, more, -, whole, further⟩ | ⟨_, -, whole, -⟩
    · cases done with
      | nil => exact nomatch congrArg Exchange.answer (List.cons.inj whole).1
      | cons first others =>
        obtain ⟨rfl, rfl⟩ := List.cons.inj whole
        obtain ⟨reached, answered, replays⟩ := replays
        rw [answered] at own
        exact own.bind_ok (ih rows further replays)
    · cases done with
      | nil =>
        obtain ⟨last, -⟩ := List.cons.inj whole
        obtain rfl : statement = asked := congrArg Exchange.statement last
        obtain rfl : middle = start := replays
        rw [fails] at own
        exact own.bind_error _ _
      | cons first others =>
        rw [List.cons_append] at whole
        exact absurd (List.cons.inj whole).2 (by simp)

end Dialogue

end ResourceQuery
