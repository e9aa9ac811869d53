import ResourceQuery.Fault
import ResourceQuery.Proofs.Database.RowByRow

/-!
# Related rows that rows carry

A row that is loaded for a query carries the rows related to it: under the name of every included relation
there is a member with all of them, with the one or with null, and they carry theirs
(`Database.yields_loadWhere`). Of a row with some members left out it says which relations are still there:
exactly those whose names the rule keeps (`Query.Carries.keep`).
-/
namespace ResourceQuery

/-- Every value that a computation gives has a property. -/
def Yields {ε σ α : Type} (property : α → Prop) (run : ExceptT ε (StateM σ) α) : Prop :=
  ∀ state value after, run.run.run state = (.ok value, after) → property value

namespace Yields

variable {ε σ α β : Type} {property : α → Prop} {further : β → Prop}

/-- A value that is at hand. -/
theorem pure {value : α} (holds : property value) :
    Yields property (Pure.pure value : ExceptT ε (StateM σ) α) := by
  intro state given after same
  cases same
  exact holds

/-- One computation after another. -/
theorem bind {first : ExceptT ε (StateM σ) α} {next : α → ExceptT ε (StateM σ) β}
    (yields : Yields property first) (later : ∀ value, property value → Yields further (next value)) :
    Yields further (first >>= next) := by
  intro state value after same
  have stepped : (first >>= next).run.run state =
      (ExceptT.bindCont next (first.run.run state).1).run (first.run.run state).2 := rfl
  cases ran : first.run.run state with
  | mk result middle =>
    rw [stepped, ran] at same
    cases result with
    | error error => cases same
    | ok given => exact later given (yields state given middle ran) middle value after same

/-- A session as an outcome gives what the session gives. -/
theorem ofSession {session : Session σ α} (yields : Yields property session) :
    Yields property (Outcome.ofSession session) := by
  intro state value after same
  have adapted : (Outcome.ofSession session).run.run state =
      ((session.run.run state).1.mapError Fault.ofDatabase, (session.run.run state).2) := rfl
  cases ran : session.run.run state with
  | mk result middle =>
    rw [adapted, ran] at same
    cases result with
    | error error => cases same
    | ok given =>
      cases same
      exact yields state _ _ ran

end Yields

/-! ### What rows carry -/

/-- The member of a relation holds related rows: all of them in an array, or one, or null. -/
def Relation.Holds (relation : Relation) (related : Json → Prop) (value : Json) : Prop :=
  match relation.kind with
  | .many => ∃ items, value = .array items ∧ ∀ item ∈ items, related item
  | .one | .owner => value = .null ∨ related value

/-- Gathered rows are held. -/
theorem Relation.holds_gather (relation : Relation) {related : Json → Prop} {children : List Json}
    (each : ∀ child ∈ children, related child) : relation.Holds related (relation.gather children) := by
  unfold Holds gather
  cases relation.kind with
  | many => exact ⟨children, rfl, each⟩
  | one | owner =>
    cases children with
    | nil => exact .inl rfl
    | cons child rest => exact .inr (each child (.head rest))

/-- What is kept of a member holds what is kept of the related rows. -/
theorem Relation.Holds.keep {relation : Relation} {related kept : Json → Prop} {value : Json}
    (holds : relation.Holds related value) (rule : KeepRule)
    (each : ∀ row, related row → kept (row.keep rule)) : relation.Holds kept (value.keep rule) := by
  unfold Holds at holds ⊢
  cases kind : relation.kind with
  | many =>
    rw [kind] at holds
    obtain ⟨items, rfl, rows⟩ := holds
    refine ⟨items.map (Json.keep rule), Json.keep_array rule items, fun item member => ?_⟩
    obtain ⟨row, listed, rfl⟩ := List.mem_map.1 member
    exact each row (rows row listed)
  | one | owner =>
    rw [kind] at holds
    rcases holds with rfl | row
    · exact .inl rfl
    · exact .inr (each value row)

namespace Query

mutual

/-- The row is an object with a member for every included relation whose name the rule keeps, in which the
related rows carry theirs, and without one for the others. -/
def Carries (rule : KeepRule) : Query → Json → Prop
  | node _ includes, row => row.IsObject ∧ CarriesAll rule includes row

/-- The row carries each of the relations whose names the rule keeps, and has no member for the others. -/
def CarriesAll (rule : KeepRule) : List (Relation × Query) → Json → Prop
  | [], _ => True
  | included :: rest, row => CarriesOne rule included row ∧ CarriesAll rule rest row

/-- The row has a member that holds the related rows, if the rule keeps the name of the relation, and
otherwise no member of that name. -/
def CarriesOne (rule : KeepRule) : Relation × Query → Json → Prop
  | (relation, query), row =>
    (rule [] relation.name = true → ∃ value, row.member? relation.name = some value ∧
      relation.Holds (Carries (rule.under relation.name) query) value) ∧
    (rule [] relation.name = false → row.member? relation.name = none)

end

/-- A row carries relations when it carries each. -/
theorem carriesAll_iff {rule : KeepRule} {includes : List (Relation × Query)} {row : Json} :
    CarriesAll rule includes row ↔ ∀ included ∈ includes, CarriesOne rule included row := by
  induction includes with
  | nil => simp [CarriesAll]
  | cons included rest ih => rw [CarriesAll, ih, List.forall_mem_cons]

/-- What a row carries is a matter of the included relations alone. -/
theorem carries_iff {rule : KeepRule} {query : Query} {row : Json} : query.Carries rule row ↔
    row.IsObject ∧ ∀ included ∈ query.includes, CarriesOne rule included row := by
  obtain ⟨selection, includes⟩ := query
  rw [Carries, carriesAll_iff]
  rfl

/-- The rule that keeps everything. -/
def everything : KeepRule := fun _ _ => true

/-- A row that carries everything carries, once a rule left members out, the relations whose names the rule
keeps. -/
theorem Carries.keep {query : Query} {row : Json} (carries : query.Carries everything row)
    (rule : KeepRule) : query.Carries rule (row.keep rule) := by
  induction query using inductionOn generalizing row rule with
  | node selection includes ih =>
    obtain ⟨shape, each⟩ := carries_iff.1 carries
    refine carries_iff.2 ⟨shape.keep rule, fun included member => ?_⟩
    obtain ⟨relation, query⟩ := included
    obtain ⟨present, -⟩ := each (relation, query) member
    obtain ⟨value, found, holds⟩ := present rfl
    constructor
    · intro kept
      refine ⟨value.keep (rule.under relation.name), ?_, holds.keep _ fun row below => ?_⟩
      · rw [Json.member?_keep, if_pos kept, found]
        rfl
      · exact ih (relation, query) member below _
    · intro dropped
      rw [Json.member?_keep, dropped, if_neg Bool.false_ne_true]

/-- What a row carries stays when a member is set that no relation is named as. -/
theorem CarriesOne.setMember {included : Relation × Query} {row : Json} {rule : KeepRule}
    (carries : CarriesOne rule included row) (shape : row.IsObject) {name : String}
    (apart : included.1.name ≠ name) (value : Json) :
    CarriesOne rule included (row.setMember name value) := by
  obtain ⟨relation, query⟩ := included
  obtain ⟨present, absent⟩ := carries
  have same : (row.setMember name value).member? relation.name = row.member? relation.name := by
    rw [Json.member?_setMember shape, if_neg apart]
  exact ⟨fun kept => same ▸ present kept, fun dropped => same ▸ absent dropped⟩

end Query

/-- A row to which the related rows of a relation are attached carries it. -/
theorem Relation.carriesOne_attach {relation : Relation} {query : Query} {related : List Json} {row : Json}
    (shape : row.IsObject) (each : ∀ child ∈ related, query.Carries Query.everything child) :
    Query.CarriesOne Query.everything (relation, query) (relation.attach related row) := by
  have children : ∀ child ∈ relation.childrenOf related row, child ∈ related := by
    intro child member
    unfold childrenOf at member
    split at member
    · exact absurd member List.not_mem_nil
    · exact (List.mem_filter.1 member).1
  refine ⟨fun _ => ⟨relation.gather (relation.childrenOf related row), ?_, ?_⟩, fun dropped => nomatch dropped⟩
  · rw [attach, Json.member?_setMember shape, if_pos rfl]
  · exact relation.holds_gather fun child member => each child (children child member)

namespace Database

variable {σ : Type}

/-- All rows that the database answers with are objects. -/
def GivesObjects (database : Database σ) : Prop :=
  ∀ statement, Yields (fun rows => ∀ row ∈ rows, row.IsObject) (database.run statement)

/-- Rows that carry some relations carry others as well once these are attached. -/
theorem yields_attachAll {database : Database σ} {rest : List (Relation × Query)}
    (loads : ∀ included ∈ rest, ∀ predicates, Yields
      (fun rows => ∀ row ∈ rows, included.2.Carries Query.everything row)
      (database.loadWhere predicates included.2))
    {selection : Selection} {done : List (Relation × Query)}
    (names : ((done ++ rest).map Query.includedName).Nodup) {rows : List Json}
    (carried : ∀ row ∈ rows, (Query.node selection done).Carries Query.everything row) :
    Yields (fun rows => ∀ row ∈ rows, (Query.node selection (done ++ rest)).Carries Query.everything row)
      (database.attachAll rest rows) := by
  induction rest generalizing done rows with
  | nil =>
    rw [List.append_nil, attachAll]
    exact .pure carried
  | cons included others ih =>
    obtain ⟨relation, query⟩ := included
    have whole : done ++ (relation, query) :: others = done ++ [(relation, query)] ++ others :=
      List.append_cons done (relation, query) others
    rw [attachAll_cons, whole]
    have found : Yields (fun rows => ∀ row ∈ rows, query.Carries Query.everything row)
        (database.related relation query (relation.joinKeys rows)) := by
      unfold related
      split
      · exact .pure fun row member => absurd member List.not_mem_nil
      · exact loads (relation, query) (.head _) _
    refine found.bind fun related each => ih (fun included member => loads included (.tail _ member))
      (whole ▸ names) fun row member => ?_
    obtain ⟨before, listed, rfl⟩ := List.mem_map.1 member
    obtain ⟨shape, others⟩ := Query.carries_iff.1 (carried before listed)
    refine Query.carries_iff.2 ⟨shape.setMember relation.name _, fun included member => ?_⟩
    rcases List.mem_append.1 member with earlier | last
    · have apart : included.1.name ≠ relation.name := by
        rw [List.map_append] at names
        exact (List.nodup_append.1 names).2.2 _ (List.mem_map_of_mem earlier) _ (.head _)
      exact (others included earlier).setMember shape apart _
    · obtain rfl := List.mem_singleton.1 last
      exact relation.carriesOne_attach shape each

/-- The rows that a query loads carry every included relation. -/
theorem yields_loadWhere {catalog : Catalog} {database : Database σ} (objects : database.GivesObjects)
    {query : Query} (mirrors : query.Mirrors catalog) (predicates : List Predicate) :
    Yields (fun rows => ∀ row ∈ rows, query.Carries Query.everything row)
      (database.loadWhere predicates query) := by
  induction query using Query.inductionOn generalizing predicates with
  | node selection includes ih =>
    obtain ⟨names, -, below⟩ := mirrors
    rw [loadWhere]
    refine (objects _).bind fun rows shapes => ?_
    have bare : ∀ row ∈ rows, (Query.node selection []).Carries Query.everything row := fun row member =>
      Query.carries_iff.2 ⟨shapes row member, fun included none => absurd none List.not_mem_nil⟩
    have loads := fun included member => ih included member (below included member)
    exact @yields_attachAll σ database includes loads selection [] names rows bare

end Database

end ResourceQuery
