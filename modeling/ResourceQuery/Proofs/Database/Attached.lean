import ResourceQuery.Proofs.Database.Exchanges

/-!
# Related rows go to their rows

Whatever a database answers, attaching related rows changes nothing of a row but the members named after the
included relations, and each of these members holds the related rows that have the key of the row, in the order
and as often as they were answered (`Answered.Attaches`). So it is at every depth
(`Database.attachAll_attaches`). Only the names of the relations matter: none may take the place of a column
that matches rows (`Query.Separate`).
-/
namespace ResourceQuery

variable {σ : Type}

namespace Answered

/-- The answered rows that are related to a row, each completed: those whose child column has the key of the row's
parent column, in the order of the answer, and none where the parent column is missing or null. -/
def relatedTo (relation : Relation) (answered : Answered) (row : Json) : List Json :=
  match relation.parentKey? row with
  | none => []
  | some key => (answered.rows.filter fun child => relation.childKey? child == some key).map answered.complete

/-- What completing does to a row: it sets the members named after the included relations, and nothing else. -/
structure Attaches (answered : Answered) : Prop where
  /-- A row that is not an object stays as it is. -/
  other : ∀ row, (∀ members, row ≠ .object members) → answered.complete row = row
  /-- An object stays one, with its members in order. -/
  object : ∀ row : Json, row.IsObject → (answered.complete row).IsObject
  /-- The other members of a row stay as they are. -/
  columns : ∀ row : Json, ∀ name ∉ answered.related.map fun included => included.1.name,
    (answered.complete row).member? name = row.member? name
  /-- The member named after a relation holds the related rows: all of them, or the first or null. Of relations of
  one name the last counts. -/
  related : ∀ members before relation child after, answered.related = before ++ (relation, child) :: after →
    relation.name ∉ after.map (fun included => included.1.name) →
      (answered.complete (.object members)).member? relation.name =
        some (match relation.kind with
          | .many => .array (child.relatedTo relation (.object members))
          | .one | .owner => (child.relatedTo relation (.object members)).headD .null)

/-- Relations are attached after others. -/
theorem completeAll_append (before after : List (Relation × Answered)) (row : Json) :
    completeAll (before ++ after) row = completeAll after (completeAll before row) := by
  induction before generalizing row with
  | nil => rfl
  | cons included rest ih => exact ih _

/-- A row that is not an object stays as it is. -/
theorem completeAll_of_not_object (related : List (Relation × Answered)) {row : Json}
    (shape : ∀ members, row ≠ .object members) : completeAll related row = row := by
  induction related with
  | nil => rfl
  | cons included rest ih =>
    have same : ∀ name value, row.setMember name value = row := fun name value => by
      cases row with
      | object members => exact absurd rfl (shape members)
      | null | bool | number | string | array => rfl
    rw [completeAll, Relation.attach, same, ih]

/-- An object stays an object. -/
theorem exists_completeAll_object (related : List (Relation × Answered)) (members : List (String × Json)) :
    ∃ completed, completeAll related (.object members) = .object completed := by
  induction related generalizing members with
  | nil => exact ⟨members, rfl⟩
  | cons included rest ih => exact ih _

/-- An object with ordered members stays one. -/
theorem isObject_completeAll (related : List (Relation × Answered)) {row : Json} (shape : row.IsObject) :
    (completeAll related row).IsObject := by
  induction related generalizing row with
  | nil => exact shape
  | cons included rest ih => exact ih (shape.setMember _ _)

/-- Where no included relation is named as a column that matches rows, related rows are attached to their rows. -/
theorem attaches_of_separate {answered : Answered} (separate : answered.query.Separate) : answered.Attaches := by
  obtain ⟨selection, rows, related⟩ := answered
  obtain ⟨parents, children, -⟩ := separate
  refine ⟨fun row => completeAll_of_not_object related, fun row => isObject_completeAll related,
    fun row name absent => member?_completeAll (names_queries related ▸ absent) row, ?_⟩
  rintro members before relation child after (rfl : related = _) last
  have included : (relation, child.query) ∈ queries (before ++ (relation, child) :: after) := by
    rw [queries_eq_map]
    exact List.mem_map_of_mem (List.mem_append_right before (.head after))
  -- The relations before this one leave its parent column as it is.
  have parent : (completeAll before (.object members)).member? relation.parentColumn =
      (Json.object members).member? relation.parentColumn := by
    refine member?_completeAll (fun held => parents _ included ?_) _
    rw [names_queries] at held ⊢
    rw [List.map_append]
    exact List.mem_append_left _ held
  -- And the relations below it leave its child column as it is.
  have childColumn : ∀ row ∈ child.rows,
      (child.complete row).member? relation.childColumn = row.member? relation.childColumn := by
    intro row _
    obtain ⟨_, _, below⟩ := child
    exact member?_completeAll (children _ included) row
  obtain ⟨completed, object⟩ := exists_completeAll_object before members
  have attached : (relation.attach (child.rows.map child.complete) (.object completed)).member? relation.name =
      some (relation.gather (relation.childrenOf (child.rows.map child.complete) (.object completed))) :=
    (Assoc.lookup_insert completed relation.name relation.name _).trans (if_pos rfl)
  have found : (relation.childrenOf child.rows (.object members)).map child.complete =
      child.relatedTo relation (.object members) := by
    unfold Relation.childrenOf relatedTo
    cases relation.parentKey? (.object members) <;> rfl
  show (completeAll (before ++ (relation, child) :: after) (.object members)).member? relation.name = _
  rw [completeAll_append, completeAll, member?_completeAll (names_queries after ▸ last), object, attached,
    ← object, Relation.childrenOf_map parent childColumn, found]
  rfl

/-- What is asked of the names of a query holds for all that is within it. -/
theorem Within.separate {part whole : Answered} (within : part.Within whole) (separate : whole.query.Separate) :
    part.query.Separate := by
  induction within with
  | self => exact separate
  | @of_included whole child relation included _ ih =>
    obtain ⟨selection, rows, related⟩ := whole
    obtain ⟨-, -, below⟩ := separate
    refine ih (below (relation, child.query) ?_)
    rw [queries_eq_map]
    exact List.mem_map_of_mem included

end Answered

namespace Database

/-- Children are attached to exactly their parents. From every state and for any rows, attaching the included
relations of a query to the rows runs the readings of these relations in turn, up to the first that fails; and
unless one fails, it gives every row, in order, completed with what these readings were answered with: of what is
asked for at any depth, a row that is no object stays as it is, and of an object only the members named after the
relations change, which hold the answered rows that have the key of the row. -/
theorem attachAll_attaches (database : Database σ) {selection : Selection} {includes : List (Relation × Query)}
    (separate : (Query.node selection includes).Separate) (rows : List Json) (state : σ) :
    ∃ (related : List (Relation × Answered)) (outcome : Except DatabaseError (List Json)) (after : σ)
        (exchanges : List Exchange), Answered.queries related = includes ∧
      (database.attachAll includes rows).run.run state = (outcome, after) ∧
      (database.recording.attachAll includes rows).run.run (state, []) = (outcome, after, exchanges) ∧
      RanInTurn (Answered.relatedReadings [] rows related) outcome exchanges ∧
      (∀ result, outcome = .ok result → result = rows.map (Answered.completeAll related)) ∧
      ∀ part : Answered, part.Within (.node selection rows related) → part.Attaches := by
  have separateAbove := separate
  obtain ⟨parents, -, below⟩ := separate
  obtain ⟨related, outcome, after, exchanges, attached⟩ := exists_attachedAs database parents
    (fun included member => exists_loadedAs database (below included member)) [] rows id (fun _ _ _ => rfl) state
  have exchanging := attached.exchanging
  rw [List.map_id] at exchanging
  refine ⟨related, outcome, after, exchanges, attached.asked, exchanging.plain, exchanging.recorded [],
    attached.ran, attached.rows, fun part within => Answered.attaches_of_separate (within.separate ?_)⟩
  rw [Answered.query, attached.asked]
  exact separateAbove

/-- Users of whom two have the same key, one has none, one has null and one has no messages, and a row that is no
object. -/
def oddUsers : List Json :=
  [.ofMembers [("id", .natural 1), ("name", .string "Ada")], .ofMembers [("id", .string "1")],
    .ofMembers [("name", .string "Bob")], .ofMembers [("id", .null)], .natural 1, .ofMembers [("id", .natural 3)]]

/-- The answers about these users: a message that comes twice, one without a sender and one of somebody else; and
then two recipients of one key. -/
def oddAnswers : List (Except DatabaseError (List Json)) :=
  [.ok [.ofMembers [("sender", .natural 1), ("to", .natural 2)], .ofMembers [("to", .natural 2)],
      .ofMembers [("sender", .natural 9), ("to", .natural 4)],
      .ofMembers [("sender", .natural 1), ("to", .natural 2)]],
    .ok [.ofMembers [("id", .natural 2), ("name", .string "Cid")], .ofMembers [("id", .natural 2)]]]

/-- Odd answers are attached to odd users: a message that comes twice is there twice, under both users of its
sender's key, and of two recipients the first is there. -/
theorem attachAll_oddUsers :
    (Query.node sentMessages.selection sentMessages.includes).Separate ∧
    ((Script.database.attachAll sentMessages.includes oddUsers).run.run ⟨oddAnswers, []⟩).1 =
      (let recipient := Json.object [("id", .natural 2), ("name", .string "Cid")]
       let message := Json.object [("recipient", recipient), ("sender", .natural 1), ("to", .natural 2)]
       .ok [.object [("id", .natural 1), ("messages", .array [message, message]), ("name", .string "Ada")],
         .object [("id", .string "1"), ("messages", .array [message, message])],
         .object [("messages", .array []), ("name", .string "Bob")],
         .object [("id", .null), ("messages", .array [])], .natural 1,
         .object [("id", .natural 3), ("messages", .array [])]]) ∧
    ∃ (related : List (Relation × Answered)) (outcome : Except DatabaseError (List Json)) (after : Script)
        (exchanges : List Exchange), Answered.queries related = sentMessages.includes ∧
      (Script.database.attachAll sentMessages.includes oddUsers).run.run ⟨oddAnswers, []⟩ = (outcome, after) ∧
      (Script.database.recording.attachAll sentMessages.includes oddUsers).run.run (⟨oddAnswers, []⟩, []) =
        (outcome, after, exchanges) ∧
      RanInTurn (Answered.relatedReadings [] oddUsers related) outcome exchanges ∧
      (∀ result, outcome = .ok result → result = oddUsers.map (Answered.completeAll related)) ∧
      ∀ part : Answered, part.Within (.node sentMessages.selection oddUsers related) → part.Attaches :=
  ⟨separate_sentMessages, rfl,
    attachAll_attaches Script.database separate_sentMessages oddUsers ⟨oddAnswers, []⟩⟩

end Database

end ResourceQuery
