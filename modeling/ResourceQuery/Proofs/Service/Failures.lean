import ResourceQuery.Http.Response
import ResourceQuery.Proofs.Database.Dialogues
import ResourceQuery.Proofs.Service.FieldProjection
import ResourceQuery.Proofs.Service.Root

/-!
# Failures leave no trace

Items, pages and projected rows are dialogues with a database. So a statement that fails is the last one that
is run, at whatever depth of the query it stands, and the client is told the same, whatever the failure and
whatever rows came before it (`FailsUntraced`). Two databases that answer alike up to a failure, and differ in
what it is, are asked the same and cannot be told apart (`Service.failures_untraced`).
-/
namespace ResourceQuery

variable {α : Type}

/-- The failure is not that of a missing record. -/
def DatabaseError.Hidden (error : DatabaseError) : Prop := ∀ message, error ≠ .recordNotFound message

/-- A hidden failure is a fault of the database. -/
theorem DatabaseError.Hidden.ofDatabase_eq {error : DatabaseError} (hidden : error.Hidden) :
    Fault.ofDatabase error = .database error := by
  cases error with
  | recordNotFound message => exact absurd rfl (hidden message)
  | failed kind message => rfl

/-- What a client is told where a statement fails. -/
def Http.Response.databaseFailed : Http.Response :=
  ⟨500, [("content-type", "application/json")], .json (.object [("error", .string "A database error occurred")])⟩

/-- From a state, a computation on a database has an outcome, ends in another state and makes exchanges. -/
def Exchanges {σ : Type} (computation : ∀ σ, Database σ → Outcome σ α) (database : Database σ) (state : σ)
    (outcome : Except Fault α) (after : σ) (exchanges : List Exchange) : Prop :=
  Exchanging (computation σ database) (computation _ database.recording) state outcome after exchanges

/-- On every database, a statement that fails for a hidden reason ends the computation without a trace of it. -/
structure FailsUntraced (computation : ∀ σ, Database σ → Outcome σ α) : Prop where
  /-- Whatever the database, there is an outcome. -/
  outcome : ∀ {σ : Type} (database : Database σ) (state : σ), ∃ outcome after exchanges,
    Exchanges computation database state outcome after exchanges
  /-- No statement is run after one that fails, and all that comes out is that one failed. -/
  ends : ∀ {σ : Type} {database : Database σ} {state after : σ} {outcome : Except Fault α}
    {done later : List Exchange} {statement : Statement} {error : DatabaseError}, error.Hidden →
    Exchanges computation database state outcome after (done ++ ⟨statement, .error error⟩ :: later) →
      later = [] ∧ outcome = .error (.database error) ∧
        outcome.mapError Http.Response.ofFault = .error .databaseFailed
  /-- On a database that answers alike up to there, and then fails for another hidden reason, the computation
  runs the same statements, and what comes out of it is the same for the client. -/
  alike : ∀ {σ τ : Type} {database : Database σ} {state after : σ} {outcome : Except Fault α}
    {done later : List Exchange} {statement : Statement} {error : DatabaseError}
    {other : Database τ} {start middle ended : τ} {failure : DatabaseError}, error.Hidden → failure.Hidden →
    Exchanges computation database state outcome after (done ++ ⟨statement, .error error⟩ :: later) →
    other.Replays start done middle → (other.run statement).run.run middle = (.error failure, ended) →
      ∃ result, Exchanges computation other start result ended (done ++ [⟨statement, .error failure⟩]) ∧
        result.mapError Http.Response.ofFault = outcome.mapError Http.Response.ofFault

/-- A dialogue fails without a trace. -/
theorem Conversed.failsUntraced {computation : ∀ σ, Database σ → Outcome σ α}
    (conversed : Conversed computation) : FailsUntraced computation := by
  obtain ⟨dialogue, same⟩ := conversed
  obtain rfl : computation = fun _ database => dialogue.run database :=
    funext fun σ => funext fun database => same σ database
  have told : ∀ {error : DatabaseError}, error.Hidden →
      (Except.error (Fault.ofDatabase error) : Except Fault α).mapError Http.Response.ofFault =
        .error .databaseFailed := fun hidden => by rw [hidden.ofDatabase_eq]; rfl
  constructor
  case outcome => exact fun database state => dialogue.recorded database state
  case ends =>
    intro σ database state after outcome done later statement error hidden exchanging
    obtain ⟨last, rfl⟩ := Dialogue.ends exchanging
    exact ⟨last, congrArg Except.error hidden.ofDatabase_eq, told hidden⟩
  case alike =>
    intro σ τ database state after outcome done later statement error other start middle ended failure hidden
      hiddenToo exchanging replays fails
    obtain ⟨-, rfl⟩ := Dialogue.ends exchanging
    exact ⟨_, Dialogue.replayed exchanging replays fails, (told hiddenToo).trans (told hidden).symm⟩

namespace Service

/-- An item is found in a dialogue. -/
theorem conversed_item (service : Service) (query : Query) :
    Conversed fun _ database => service.item database.rowSource query := by
  simp only [item_eq_bind]
  refine .bind (Database.conversed_loadWhere _ []) fun rows => ?_
  cases rows with
  | nil => exact .throw _
  | cons row rest => exact .pure _

/-- A page is found in a dialogue. -/
theorem conversed_page (service : Service) (query : Query) :
    Conversed fun _ database => service.page database.rowSource query := by
  simp only [page_eq_bind]
  exact .bind (Database.conversed_loadWhere _ []) fun rows =>
    .bind (Database.conversed_total _) fun total => .pure _

/-- A row is projected in a dialogue. -/
theorem conversed_project (service : Service) (name : String) (row : Json) :
    Conversed fun _ database => service.project database.rowSource name row := by
  unfold project
  cases service.catalog.entity? name with
  | none => exact .throw _
  | some entity =>
    cases row with
    | object members =>
      simp only
      cases service.loadingKey? entity members with
      | none => exact .pure _
      | some key => exact .bind (Database.conversed_loadWhere _ []) fun loaded => .pure _
    | null | bool | number | string | array => exact .pure _

/-- Whatever the request, a statement that fails ends items, pages and projected rows without a trace of its
cause. -/
theorem failures_untraced (service : Service) :
    (∀ query, FailsUntraced fun _ database => service.item database.rowSource query) ∧
    (∀ query, FailsUntraced fun _ database => service.page database.rowSource query) ∧
    ∀ name row, FailsUntraced fun _ database => service.project database.rowSource name row :=
  ⟨fun query => (service.conversed_item query).failsUntraced,
    fun query => (service.conversed_page query).failsUntraced,
    fun name row => (service.conversed_project name row).failsUntraced⟩

/-- A user as a database has it. -/
def readUser : Json := .ofMembers [("id", .natural 1), ("name", .string "Ada")]

/-- A user, then a failure, then whatever else the database may answer. -/
def failingAfterUser (failure : DatabaseError) (others : List (Except DatabaseError (List Json))) : Script :=
  ⟨.ok [readUser] :: .error failure :: others, []⟩

/-- Where the messages of users cannot be read, the client does not learn why, and the users that were read
before are not shown. -/
theorem failing_messages_untraced :
    let full : DatabaseError := .failed "Exec" "disk full"
    let lost : DatabaseError := .failed "Conn" "connection lost"
    full.Hidden ∧ lost.Hidden ∧
    ∃ result statements,
      (namesAndSubjects.page Script.database.rowSource (.ofEntity authors)).run.run
        (failingAfterUser lost [.ok []]) = (result, ⟨[.ok []], statements⟩) ∧
      statements.length = 2 ∧ (result.mapError Http.Response.ofFault).map Page.data =
        .error Http.Response.databaseFailed := by
  intro full lost
  have hidden : full.Hidden := fun message same => nomatch same
  have hiddenToo : lost.Hidden := fun message same => nomatch same
  obtain ⟨-, page, -⟩ := namesAndSubjects.failures_untraced
  obtain ⟨users, messages, ran⟩ : ∃ users messages, Exchanges
      (fun _ database => namesAndSubjects.page database.rowSource (.ofEntity authors)) Script.database
      (failingAfterUser full []) (.error (.database full)) ⟨[], [users, messages]⟩
      ([⟨users, .ok [readUser]⟩] ++ ⟨messages, .error full⟩ :: []) :=
    ⟨_, _, rfl, fun past => by rw [← List.append_assoc]; rfl⟩
  have replays : Script.database.Replays (failingAfterUser lost [.ok []]) [⟨users, .ok [readUser]⟩]
      ⟨[.error lost, .ok []], [users]⟩ := ⟨_, rfl, rfl⟩
  obtain ⟨-, -, told⟩ := (page _).ends hidden ran
  obtain ⟨result, other, same⟩ := (page _).alike hidden hiddenToo ran replays rfl
  refine ⟨hidden, hiddenToo, result, _, other.plain, rfl, ?_⟩
  rw [same, told]
  rfl

end Service

end ResourceQuery
