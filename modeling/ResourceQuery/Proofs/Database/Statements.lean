import ResourceQuery.Plan.Answer
import ResourceQuery.Proofs.Database.Exchanges
import ResourceQuery.Proofs.Plan.JoinColumns

/-!
# The statements of a load are determined

What a load runs is told by what was answered before: its own statement, and then at most one statement for
every included relation, in their order, whatever the number of rows. The statement of an included relation is
its own with the keys of the rows it belongs to added (`Relation.KeysOf`), and without keys there is none, nor
any below (`Answered.Asks`). Nothing runs after a failure, and a page is counted when all its rows are loaded
(`Database.load_asks`).
-/
namespace ResourceQuery

variable {ε σ α : Type}

/-! ### Keys -/

/-- Leaving out repetitions and leaving out what fails a test can be done in either order. -/
theorem eraseDups_filter [BEq α] [LawfulBEq α] (test : α → Bool) :
    ∀ items : List α, (items.filter test).eraseDups = items.eraseDups.filter test
  | [] => rfl
  | first :: rest => by
    have shorter : (rest.filter fun other => !other == first).length < rest.length + 1 :=
      Nat.lt_succ_of_le (List.length_filter_le _ rest)
    have others := eraseDups_filter test (rest.filter fun other => !other == first)
    rw [List.eraseDups_cons, List.filter_cons, List.filter_cons, ← others, List.filter_filter]
    cases passes : test first with
    | true =>
      rw [if_pos rfl, if_pos rfl, List.eraseDups_cons, List.filter_filter]
      congr 2
      exact List.filter_congr fun other _ => Bool.and_comm _ _
    | false =>
      rw [if_neg Bool.false_ne_true, if_neg Bool.false_ne_true]
      congr 1
      refine List.filter_congr fun other _ => ?_
      by_cases same : other = first
      · rw [same, passes, Bool.false_and]
      · simp [same]
termination_by items => items.length

/-- The keys of the values of distinct keys are the keys of the values, each where it comes first. -/
theorem map_key?_firstByKey (values : List Json) :
    (firstByKey values).map Json.key? = (values.filterMap Json.key?).eraseDups.map some := by
  induction values with
  | nil => rfl
  | cons value rest ih =>
    rw [firstByKey]
    cases own : value.key? with
    | none => rw [List.filterMap_cons_none own, ih]
    | some key =>
      have others : ((firstByKey rest).filter fun other => other.key? != some key).map Json.key? =
          ((firstByKey rest).map Json.key?).filter (· != some key) := by
        rw [List.filter_map]
        rfl
      have same : ((· != some key) ∘ some : String → Bool) = fun other => !other == key := by
        funext other
        simp [bne]
      rw [List.filterMap_cons_some own, List.eraseDups_cons, List.map_cons, List.map_cons, own, others, ih,
        List.filter_map, same, eraseDups_filter]

/-- A value of distinct keys has a key. -/
theorem key?_ne_none_of_mem_firstByKey {values : List Json} {value : Json} (member : value ∈ firstByKey values) :
    value.key? ≠ none := by
  intro absent
  have listed : none ∈ (firstByKey values).map Json.key? := List.mem_map.2 ⟨value, member, absent⟩
  rw [map_key?_firstByKey] at listed
  obtain ⟨key, -, same⟩ := List.mem_map.1 listed
  exact Option.some_ne_none key same

/-- A value of distinct keys is the first of the values that has its key. -/
theorem find?_of_mem_firstByKey {values : List Json} {value : Json} (member : value ∈ firstByKey values) :
    values.find? (fun other => other.key? == value.key?) = some value := by
  induction values with
  | nil => contradiction
  | cons first rest ih =>
    rw [firstByKey] at member
    cases own : first.key? with
    | none =>
      rw [own] at member
      have apart : (first.key? == value.key?) = false := by
        rw [own, beq_eq_false_iff_ne]
        exact (key?_ne_none_of_mem_firstByKey member).symm
      rw [List.find?_cons, apart]
      exact ih member
    | some key =>
      simp only [own] at member
      rcases List.mem_cons.1 member with rfl | later
      · exact List.find?_cons_of_pos (beq_self_eq_true _)
      · obtain ⟨listed, other⟩ := List.mem_filter.1 later
        have apart : (first.key? == value.key?) = false := by
          rw [own, beq_eq_false_iff_ne]
          exact (bne_iff_ne.1 other).symm
        rw [List.find?_cons, apart]
        exact ih listed

/-- The values that a statement lists to find the rows related to some rows. -/
structure Relation.KeysOf (relation : Relation) (rows keys : List Json) : Prop where
  /-- There are such values. -/
  nonempty : keys ≠ []
  /-- Every one of them has a key. -/
  keyed : ∀ value ∈ keys, value.key? ≠ none
  /-- No two of them have the same key. -/
  distinct : (keys.map Json.key?).Nodup
  /-- Their keys are those of the rows. -/
  listed : ∀ key, (∃ value ∈ keys, value.key? = some key) ↔ ∃ row ∈ rows, relation.parentKey? row = some key
  /-- The keys are in the order in which they first come among the rows. -/
  order : keys.map Json.key? = (rows.filterMap relation.parentKey?).eraseDups.map some
  /-- Each value is the first in the parent column that has its key. -/
  first : ∀ value ∈ keys, (rows.filterMap (Json.member? relation.parentColumn)).find?
    (fun other => other.key? == value.key?) = some value

/-- The join keys of rows list their keys, if there are any. -/
theorem Relation.keysOf_joinKeys {relation : Relation} {rows : List Json}
    (some : ∃ row ∈ rows, relation.parentKey? row ≠ none) : relation.KeysOf rows (relation.joinKeys rows) := by
  have order : (relation.joinKeys rows).map Json.key? =
      (rows.filterMap relation.parentKey?).eraseDups.map Option.some := by
    rw [joinKeys, map_key?_firstByKey, List.filterMap_filterMap]
    rfl
  refine ⟨fun none => ?_, fun value => key?_ne_none_of_mem_firstByKey, ?_, fun key => ?_, order,
    fun value => find?_of_mem_firstByKey⟩
  · obtain ⟨row, member, keyed⟩ := some
    exact keyed (joinKeys_eq_nil_iff.1 none row member)
  · rw [order]
    exact List.pairwise_map.2 ((nodup_eraseDups _).imp fun apart same => apart (Option.some.inj same))
  · rw [← List.mem_map, order, List.mem_map]
    simp

namespace Answered

/-- What the included relations of an answered query ask for, and when. -/
structure Asks (answered : Answered) : Prop where
  /-- The query itself is read first, and then what is included in its rows. -/
  itself : ∀ chain added, answered.readings chain added =
    (⟨chain, answered.query.selection, added⟩, answered.rows) ::
      relatedReadings chain answered.rows answered.related
  /-- A relation for which no row has a key is not read, nor is anything below it. -/
  keyless : ∀ before relation child after, answered.related = before ++ (relation, child) :: after →
    (∀ row ∈ answered.rows, relation.parentKey? row = none) → ∀ chain,
      relatedReadings chain answered.rows answered.related =
        relatedReadings chain answered.rows before ++ relatedReadings chain answered.rows after
  /-- Any other relation is read once, after those before it: by its own selection with one more predicate, which
  lists the keys of the rows, and followed by what is included in its own rows. -/
  keyed : ∀ before relation child after, answered.related = before ++ (relation, child) :: after →
    (∃ row ∈ answered.rows, relation.parentKey? row ≠ none) → ∃ keys, relation.KeysOf answered.rows keys ∧
      ∀ chain, relatedReadings chain answered.rows answered.related =
        relatedReadings chain answered.rows before ++
        (⟨chain ++ [relation.name], child.query.selection, [⟨relation.childColumn, .among, .array keys⟩]⟩,
            child.rows) :: relatedReadings (chain ++ [relation.name]) child.rows child.related ++
        relatedReadings chain answered.rows after

/-- Relations are read after others. -/
theorem relatedReadings_append (chain : List String) (rows : List Json) (before after : List (Relation × Answered)) :
    relatedReadings chain rows (before ++ after) =
      relatedReadings chain rows before ++ relatedReadings chain rows after := by
  induction before with
  | nil => rfl
  | cons included rest ih =>
    obtain ⟨relation, answered⟩ := included
    rw [List.cons_append, relatedReadings, relatedReadings, ih, List.append_assoc]

/-- A query is read before what is included in its rows. -/
theorem readings_eq (answered : Answered) (chain : List String) (added : List Predicate) :
    answered.readings chain added = (⟨chain, answered.query.selection, added⟩, answered.rows) ::
      relatedReadings chain answered.rows answered.related := by
  obtain ⟨selection, rows, related⟩ := answered
  rfl

/-- Included relations are read for the keys of the rows. -/
theorem asks (answered : Answered) : answered.Asks := by
  refine ⟨answered.readings_eq, fun before relation child after split keyless chain => ?_,
    fun before relation child after split keyed => ⟨_, relation.keysOf_joinKeys keyed, fun chain => ?_⟩⟩
  · have none : (relation.joinKeys answered.rows).isEmpty = true :=
      List.isEmpty_iff.2 (Relation.joinKeys_eq_nil_iff.2 keyless)
    rw [split, relatedReadings_append, relatedReadings, none, if_pos rfl, List.nil_append]
  · have some : (relation.joinKeys answered.rows).isEmpty = false :=
      List.isEmpty_eq_false_iff.2 (relation.keysOf_joinKeys keyed).nonempty
    rw [split, relatedReadings_append, relatedReadings, some, if_neg Bool.false_ne_true, child.readings_eq,
      List.append_assoc]
    rfl

/-- What is read below a chain are some of the nodes of the query, each at most once and in their order. -/
theorem readings_sublist (answered : Answered) (chain : List String) (added : List Predicate) :
    ((answered.readings chain added).map fun reading => reading.1.node).Sublist
      (answered.query.nodes.map fun node => (chain ++ node.1, node.2)) := by
  induction answered using Answered.inductionOn generalizing chain added with
  | node selection rows related ih =>
    have below : ((relatedReadings chain rows related).map fun reading => reading.1.node).Sublist
        ((Query.includedNodes (queries related)).map fun node => (chain ++ node.1, node.2)) := by
      induction related with
      | nil => exact List.Sublist.slnil
      | cons included rest others =>
        obtain ⟨relation, answered⟩ := included
        rw [relatedReadings, queries, Query.includedNodes, List.map_append, List.map_append]
        refine List.Sublist.append ?_ (others fun included member => ih included (.tail _ member))
        split
        · exact List.nil_sublist _
        · have longer : (answered.query.nodes.map fun node => (relation.name :: node.1, node.2)).map
              (fun node => (chain ++ node.1, node.2)) =
              answered.query.nodes.map fun node => (chain ++ [relation.name] ++ node.1, node.2) := by
            rw [List.map_map]
            exact List.map_congr_left fun node _ => Prod.ext (List.append_cons ..) rfl
          show List.Sublist _ ((answered.query.nodes.map fun node => (relation.name :: node.1, node.2)).map _)
          rw [longer]
          exact ih (relation, answered) (.head rest) (chain ++ [relation.name]) _
    have own : (chain ++ [], selection) = (chain, selection) := by rw [List.append_nil]
    rw [readings, query, Query.nodes, List.map_cons, List.map_cons]
    show List.Sublist (_ :: _) ((chain ++ [], selection) :: _)
    rw [own]
    exact below.cons_cons _

end Answered

/-! ### Pages -/

/-- A session as an outcome is exchanged as the session. -/
theorem Exchanging.ofSession {plain : Session σ α} {recorded : Session (σ × List Exchange) α} {state after : σ}
    {outcome : Except DatabaseError α} {exchanges : List Exchange}
    (exchanging : Exchanging plain recorded state outcome after exchanges) :
    Exchanging (Outcome.ofSession plain) (Outcome.ofSession recorded) state
      (outcome.mapError Fault.ofDatabase) after exchanges := by
  refine ⟨?_, fun past => ?_⟩
  · show ((plain.run.run state).1.mapError Fault.ofDatabase, (plain.run.run state).2) = _
    rw [exchanging.plain]
  · show ((recorded.run.run (state, past)).1.mapError Fault.ofDatabase, (recorded.run.run (state, past)).2) = _
    rw [exchanging.recorded]

namespace Database

/-- Counting the rows of a query is one exchange, and its answer says the number. -/
theorem exchanging_total {database : Database σ} {query : Query} {state after : σ}
    {answer : Except DatabaseError (List Json)}
    (ran : (database.run query.selection.countStatement).run.run state = (answer, after)) :
    Exchanging (database.total query) (database.recording.total query) state (answer.bind countOf) after
      [⟨query.selection.countStatement, answer⟩] := by
  have counted := Exchanging.run database query.selection.countStatement state
  rw [ran] at counted
  cases answer with
  | error error => exact counted.bind_error _ _
  | ok rows =>
    have number : Exchanging (MonadExcept.ofExcept (countOf rows) : Session σ Nat)
        (MonadExcept.ofExcept (countOf rows) : Session (σ × List Exchange) Nat) after (countOf rows) after [] := by
      cases countOf rows with
      | error error => exact .throw after error
      | ok total => exact .pure after total
    exact counted.bind_ok number

/-- What counting exchanges after a load: the count statement for its answer, and nothing after a failure. -/
def countedAfter (database : Database σ) (query : Query) (loaded : Except DatabaseError α) (state : σ) :
    List Exchange :=
  match loaded with
  | .ok _ => [⟨query.selection.countStatement, ((database.run query.selection.countStatement).run.run state).1⟩]
  | .error _ => []

/-- A page exchanges what loading its rows does, and then what counting does. -/
theorem exists_exchanging_page (database : Database σ) (plan : Plan) {state after : σ}
    {outcome : Except DatabaseError (List Json)} {exchanges : List Exchange}
    (loaded : Exchanging (database.load plan.finish.query) (database.recording.load plan.finish.query)
      state outcome after exchanges) :
    ∃ ended final, Exchanging (plan.page database.rowSource) (plan.page database.recording.rowSource)
      state ended final (exchanges ++ database.countedAfter plan.finish.query outcome after) := by
  cases outcome with
  | error error =>
    refine ⟨.error (Fault.ofDatabase error), after, ?_⟩
    rw [countedAfter, List.append_nil]
    exact loaded.ofSession.bind_error _ _
  | ok rows =>
    obtain ⟨counted, total⟩ : ∃ counted, Exchanging (database.total plan.finish.query)
        (database.recording.total plan.finish.query) after counted
        ((database.run plan.finish.query.selection.countStatement).run.run after).2
        (database.countedAfter plan.finish.query (.ok rows : Except DatabaseError (List Json)) after) :=
      ⟨_, exchanging_total rfl⟩
    cases counted with
    | error error => exact ⟨_, _, loaded.ofSession.bind_ok (total.ofSession.bind_error _ _)⟩
    | ok count =>
      refine ⟨.ok (rows.map plan.finish.surplus.strip, count),
        ((database.run plan.finish.query.selection.countStatement).run.run after).2, loaded.ofSession.bind_ok ?_⟩
      exact total.ofSession.bind_ok (.pure _ (rows.map plan.finish.surplus.strip, count))

/-- No statement per row, and the statements of a load are determined. From every state, loading a query runs
its own statement first and then at most one for every included relation, in depth-first preorder, up to the
first that fails; each with its keys added, and none without keys or below (`Answered.Asks`). A page of the query
runs the count after them, unless one of them fails. -/
theorem load_asks (database : Database σ) {query : Query} (separate : query.Separate) (state : σ) :
    ∃ (answered : Answered) (outcome : Except DatabaseError (List Json)) (after : σ) (exchanges : List Exchange),
      answered.query = query ∧
      (database.load query).run.run state = (outcome, after) ∧
      (database.recording.load query).run.run (state, []) = (outcome, after, exchanges) ∧
      RanInTurn (answered.readings [] []) outcome exchanges ∧
      (exchanges.map Exchange.statement).head? = some query.selection.rowsStatement ∧
      exchanges.length ≤ 1 + (Query.includedNodes query.includes).length ∧
      ((answered.readings [] []).map fun reading => reading.1.node).Sublist query.nodes ∧
      (∀ part : Answered, part.Within answered → part.Asks) ∧
      ∀ plan : Plan, plan.finish.query = query → ∃ ended final,
        (plan.page database.rowSource).run.run state = (ended, final) ∧
        (plan.page database.recording.rowSource).run.run (state, []) =
          (ended, final, exchanges ++ database.countedAfter query outcome after) := by
  obtain ⟨answered, outcome, after, exchanges, loaded⟩ := exists_loadedAs database separate [] [] state
  have nodes := answered.readings_sublist [] []
  have ran := loaded.ran
  rw [answered.readings_eq] at ran
  obtain ⟨answer, later, run, fewer⟩ := ran.exists_cons
  have whole : query.nodes.map (fun node => ([] ++ node.1, node.2)) = query.nodes := List.map_id _
  rw [loaded.asked, whole] at nodes
  refine ⟨answered, outcome, after, exchanges, loaded.asked, loaded.exchanging.plain,
    loaded.exchanging.recorded [], loaded.ran, ?_, ?_, nodes, fun part _ => part.asks, ?_⟩
  · have own : answered.query.selection.filterBy [] = answered.query.selection := by
      show { answered.query.selection with conditions := answered.query.selection.conditions ++ [] } = _
      rw [List.append_nil]
    rw [run, ← loaded.asked]
    exact congrArg (fun selection => some selection.rowsStatement) own
  · have least := nodes.length_le
    obtain ⟨selection, includes⟩ := query
    rw [answered.readings_eq, List.map_cons, List.length_cons, List.length_map, Query.nodes,
      List.length_cons] at least
    rw [run, List.length_cons, Query.includes]
    omega
  · rintro plan rfl
    obtain ⟨ended, final, paged⟩ := database.exists_exchanging_page plan loaded.exchanging
    exact ⟨ended, final, paged.plain, paged.recorded []⟩

/-- Users with repeated keys and without any, messages of which none names a recipient, and nothing more. -/
def unaddressed : Script :=
  ⟨[.ok [.ofMembers [("id", .natural 2)], .ofMembers [("id", .null)], .ofMembers [("id", .natural 1)],
      .ofMembers [("id", .string "2")]],
    .ok [.ofMembers [("sender", .natural 1)], .ofMembers [("sender", .natural 2), ("to", .null)]]], []⟩

/-- Loading unaddressed messages asks for the users, then once for the messages of both keys, and not for any
recipient. -/
theorem load_unaddressed :
    sentMessages.Separate ∧
    ((Script.database.load sentMessages).run.run unaddressed).2.log =
      [.rows none "users" [] [] none none,
        .rows none "messages" [⟨"sender", .among, .array [.natural 2, .natural 1]⟩] [] none none] ∧
    ∃ (answered : Answered) (outcome : Except DatabaseError (List Json)) (after : Script)
        (exchanges : List Exchange),
      answered.query = sentMessages ∧
      (Script.database.load sentMessages).run.run unaddressed = (outcome, after) ∧
      (Script.database.recording.load sentMessages).run.run (unaddressed, []) = (outcome, after, exchanges) ∧
      RanInTurn (answered.readings [] []) outcome exchanges ∧
      (exchanges.map Exchange.statement).head? = some sentMessages.selection.rowsStatement ∧
      exchanges.length ≤ 1 + (Query.includedNodes sentMessages.includes).length ∧
      ((answered.readings [] []).map fun reading => reading.1.node).Sublist sentMessages.nodes ∧
      (∀ part : Answered, part.Within answered → part.Asks) ∧
      ∀ plan : Plan, plan.finish.query = sentMessages → ∃ ended final,
        (plan.page Script.database.rowSource).run.run unaddressed = (ended, final) ∧
        (plan.page Script.database.recording.rowSource).run.run (unaddressed, []) =
          (ended, final, exchanges ++ Script.database.countedAfter sentMessages outcome after) :=
  ⟨separate_sentMessages, rfl, load_asks Script.database separate_sentMessages unaddressed⟩

end Database

end ResourceQuery
