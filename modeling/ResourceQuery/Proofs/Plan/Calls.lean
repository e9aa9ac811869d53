import ResourceQuery.Proofs.Service.Inclusion

/-!
# Calls on a plan

A plan is made by calls: filters, orders, fields, a window, and relations, whose own plans are made by
calls of their own (`Plan.Call`). Running calls gives the plan and a trace of the fields that were asked
for: by every list of calls on one query a visit, with the chain of relations that leads to the query
(`Plan.Trace`). Relations that are refused are not visited. A relation is either refused, or its calls run
on the node at its end and what they make surplus is grafted there (`withRelation_cases`).
-/
namespace ResourceQuery.Plan

/-- One call on a plan. -/
inductive Call where
  /-- Filters. -/
  | filter (filters : Filters)
  /-- The names of orders. -/
  | sort (names : List String)
  /-- Fields, all of them where none are named. -/
  | fields (names : List String)
  /-- The number of rows passed over. -/
  | skip (count : Nat)
  /-- The greatest number of rows. -/
  | take (count : Nat)
  /-- A relation, with the calls on its plan. -/
  | relation (name : String) (calls : List Call)

/-- The fields asked for by one list of calls on a query: those of every call that names some, in their
order. -/
structure Visit where
  /-- The chain of relations that leads to the query. -/
  chain : List String
  /-- The fields of every call that names some. -/
  asked : List (List String)

/-- The fields asked for by a list of calls, and by the calls on relations that it ran. -/
structure Trace where
  /-- The fields of every call of the list that names some. -/
  asked : List (List String)
  /-- The visits of relations. -/
  visits : List Visit

namespace Trace

/-- Nothing was asked for. -/
def empty : Trace := ⟨[], []⟩

/-- What was asked for first, and what later. -/
def append (first later : Trace) : Trace := ⟨first.asked ++ later.asked, first.visits ++ later.visits⟩

/-- Asking for nothing later adds nothing. -/
theorem append_empty (trace : Trace) : trace.append .empty = trace := by simp [append, empty]

/-- Every visit, the one of the list itself first. -/
def all (trace : Trace) : List Visit := ⟨[], trace.asked⟩ :: trace.visits

/-- What calls on a relation asked for, seen from the query that the relation is of. -/
def beneath (chain : List String) (trace : Trace) : Trace :=
  ⟨[], trace.all.map fun visit => ⟨chain ++ visit.chain, visit.asked⟩⟩

end Trace

mutual

/-- Run one call on a plan. -/
def Call.run (registry : Registry) (catalog : Catalog) : Call → Plan → Trace × Plan
  | .filter filters, plan => (.empty, plan.filter registry filters)
  | .sort names, plan => (.empty, plan.sort registry names)
  | .fields names, plan => (⟨if names.isEmpty then [] else [names], []⟩, plan.restrict names)
  | .skip count, plan => (.empty, plan.skip count)
  | .take count, plan => (.empty, plan.take count)
  | .relation name calls, plan =>
    let (asked, plan) := plan.withRelation registry catalog name (runCalls registry catalog calls)
    ((asked.map (Trace.beneath (Path.ofText name).segments)).getD .empty, plan)

/-- Run calls on a plan, one after the other. -/
def runCalls (registry : Registry) (catalog : Catalog) : List Call → Plan → Trace × Plan
  | [], plan => (.empty, plan)
  | call :: rest, plan =>
    let (first, plan) := call.run registry catalog plan
    let (later, plan) := runCalls registry catalog rest plan
    (first.append later, plan)

end

/-- Induction over a call: a relation is settled once the calls on its plan are. -/
theorem Call.inductionOn {motive : Call → Prop} (filter : ∀ filters, motive (.filter filters))
    (sort : ∀ names, motive (.sort names)) (fields : ∀ names, motive (.fields names))
    (skip : ∀ count, motive (.skip count)) (take : ∀ count, motive (.take count))
    (relation : ∀ name calls, (∀ call ∈ calls, motive call) → motive (.relation name calls))
    (call : Call) : motive call :=
  @Call.rec motive (fun calls => ∀ call ∈ calls, motive call) filter sort fields skip take relation
    (fun _ member => absurd member List.not_mem_nil)
    (fun _ _ first others call member => by
      rcases List.mem_cons.1 member with rfl | member
      · exact first
      · exact others call member) call

/-! ### Relations -/

/-- A relation is refused, and then the plan stays as it is; or it leads somewhere, its configuration runs
on the node there, and what that makes surplus is grafted at its path. -/
theorem withRelation_cases {α : Type} (registry : Registry) {catalog : Catalog} (relation : String)
    {configure : Plan → α × Plan} {plan : Plan} (keeps : ∀ node : Query, node.Mirrors catalog →
      (configure (.ofQuery node)).2.query.Mirrors catalog ∧
        (configure (.ofQuery node)).2.query.selection.bare = node.selection.bare)
    (mirrors : plan.query.Mirrors catalog) :
    plan.withRelation registry catalog relation configure = (none, plan) ∨
      ∃ reached result, (Path.ofText relation).segments ≠ [] ∧
        catalog.reach? plan.query.selection (Path.ofText relation).segments = some reached ∧
        let made := configure (.ofQuery (Query.nodeAt catalog (Path.ofText relation).segments plan.query))
        plan.withRelation registry catalog relation configure =
          (some made.1, ⟨result, plan.surplus.unionAt (Path.ofText relation) made.2.surplus⟩) ∧
        Query.ConfiguredAt catalog (Path.ofText relation).segments plan.query made.2.query result := by
  rw [withRelation_eq]
  split
  · rcases Query.configure?_cases (onQuery configure) keeps (Path.ofText relation).segments mirrors with
      refused | ⟨reached, result, further, found, computed, configured⟩
    · rw [refused]
      exact .inl rfl
    · rw [computed]
      exact .inr ⟨reached, result, further, found, rfl, configured⟩
  · exact .inl rfl

/-! ### Fields asked for at a chain -/

/-- The fields asked for at a chain, in their order. -/
def askedAt (visits : List Visit) (chain : List String) : List (List String) :=
  (visits.filter (·.chain = chain)).flatMap Visit.asked

/-- What later visits asked for comes after what earlier ones did. -/
theorem askedAt_append (earlier later : List Visit) (chain : List String) :
    askedAt (earlier ++ later) chain = askedAt earlier chain ++ askedAt later chain := by
  rw [askedAt, List.filter_append, List.flatMap_append]
  rfl

/-- At a chain that no visit has, nothing was asked for. -/
theorem askedAt_eq_nil {visits : List Visit} {chain : List String}
    (absent : ∀ visit ∈ visits, visit.chain ≠ chain) : askedAt visits chain = [] := by
  have none : visits.filter (·.chain = chain) = [] :=
    List.filter_eq_nil_iff.2 fun visit member => by simpa using absent visit member
  rw [askedAt, none, List.flatMap_nil]

/-- At the root a list of calls asked for its own fields, and elsewhere for those of relations. -/
theorem Trace.askedAt_all (trace : Trace) (below : ∀ visit ∈ trace.visits, visit.chain ≠ [])
    (chain : List String) : askedAt trace.all chain =
      if chain = [] then trace.asked else askedAt trace.visits chain := by
  have own : trace.all = [⟨[], trace.asked⟩] ++ trace.visits := rfl
  rw [own, askedAt_append]
  split
  · next root =>
    subst root
    rw [askedAt_eq_nil below, List.append_nil]
    simp [askedAt]
  · next further =>
    rw [askedAt_eq_nil fun visit member => by
      obtain rfl := List.mem_singleton.1 member
      exact Ne.symm further, List.nil_append]

/-- Calls on a relation asked for fields at the chains beyond it. -/
theorem Trace.askedAt_beneath (start : List String) (trace : Trace) (chain : List String) :
    askedAt (trace.beneath start).visits chain =
      if start <+: chain then askedAt trace.all (chain.drop start.length) else [] := by
  split
  · next begins =>
    obtain ⟨rest, rfl⟩ := begins
    rw [List.drop_left]
    simp only [askedAt, beneath, List.filter_map, List.flatMap_map, Function.comp_def,
      List.append_cancel_left_eq]
  · next apart =>
    refine askedAt_eq_nil fun visit member => ?_
    obtain ⟨inner, -, rfl⟩ := List.mem_map.1 member
    exact fun same => apart (same ▸ List.prefix_append start inner.chain)

/-! ### Columns -/

/-- What fields make of the columns of a node: if any were asked for, the node is there and has the latest
of them; else a node that was there has the columns that it had. -/
def Chosen (asked : List (List String)) (before after : Option Selection) : Prop :=
  match asked.getLast? with
  | some latest => ∃ selection, after = some selection ∧ ∀ name ∈ latest, selection.selects name = true
  | none => ∀ selection, before = some selection →
      ∃ kept, after = some kept ∧ kept.columns = selection.columns

/-- Nothing asked for keeps the columns. -/
theorem Chosen.keep {before after : Option Selection} (kept : ∀ selection, before = some selection →
    ∃ kept, after = some kept ∧ kept.columns = selection.columns) : Chosen [] before after := kept

/-- Selections with the same columns select the same. -/
theorem selects_of_columns {left right : Selection} (same : left.columns = right.columns)
    (name : String) : left.selects name = right.selects name := by
  unfold Selection.selects
  rw [same]

/-- What was asked for later decides, and where it is silent what was asked for earlier. -/
theorem Chosen.append {earlier later : List (List String)} {before between after : Option Selection}
    (first : Chosen earlier before between) (second : Chosen later between after) :
    Chosen (earlier ++ later) before after := by
  unfold Chosen at *
  rw [List.getLast?_append]
  cases said : later.getLast? with
  | some latest =>
    rw [said] at second
    exact second
  | none =>
    rw [said] at second
    rw [Option.none_or]
    cases spoken : earlier.getLast? with
    | some latest =>
      rw [spoken] at first
      obtain ⟨selection, found, selected⟩ := first
      obtain ⟨kept, there, columns⟩ := second selection found
      refine ⟨kept, there, fun name member => ?_⟩
      rw [selects_of_columns columns, selected name member]
    | none =>
      rw [spoken] at first
      intro selection found
      obtain ⟨middle, there, columns⟩ := first selection found
      obtain ⟨kept, last, same⟩ := second middle there
      exact ⟨kept, last, same.trans columns⟩

/-- A node that was there is there with a fresh one in its place if it is missing. -/
theorem Chosen.of_or {asked : List (List String)} {before fresh after : Option Selection}
    (chosen : Chosen asked (before.or fresh) after) : Chosen asked before after := by
  unfold Chosen at *
  split
  · next latest said =>
    rw [said] at chosen
    exact chosen
  · next said =>
    rw [said] at chosen
    intro selection found
    exact chosen selection (by rw [found, Option.some_or])

end ResourceQuery.Plan
