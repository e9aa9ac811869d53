import ResourceQuery.Proofs.Query.Configuration
import ResourceQuery.Proofs.Service.Arrangement

/-!
# Including the relations of a request

A relation is configured when the registry allows it and the catalog resolves it
(`Service.admits`); every other entry leaves the plan as it is. Where operations keep the included
relations, an admitted entry configures the node of its path, makes the nodes on the way, and changes
nothing else (`Service.configuration_of_admitted`).

Where operations change what is asked of the rows alone, `Service.Arranged` is the invariant of the run
over the entries: the nodes are exactly the beginnings of the paths configured so far, each configured
once for every time its own path was, and the surplus holds exactly the columns that those
configurations forced. One entry keeps it (`Arranged.withRelation`), and so does a run over any list of
them (`Arranged.foldl_withRelation`).
-/
namespace ResourceQuery

namespace Query

variable {α β : Type}

/-- What a configuration answers is carried along and not looked at. -/
theorem configureChild_map (answers : α → β) (name : String) (fresh : Option (Relation × Query))
    (configure : Query → Option α × Query) (includes : List (Relation × Query)) :
    configureChild name fresh (fun query => Prod.map (Option.map answers) id (configure query)) includes =
      Prod.map (Option.map answers) id (configureChild name fresh configure includes) := by
  induction includes with
  | nil => cases fresh <;> rfl
  | cons included rest ih =>
    by_cases here : included.1.name = name
    · simp only [configureChild, if_pos here]
      rfl
    · simp only [configureChild, if_neg here, ih]
      rfl

/-- What the configuration at the end of a chain answers is carried along and not looked at. -/
theorem configureAt_map (catalog : Catalog) (answers : α → β) (configure : Query → α × Query)
    (chain : List String) (query : Query) :
    configureAt catalog (fun query => Prod.map answers id (configure query)) chain query =
      Prod.map (Option.map answers) id (configureAt catalog configure chain query) := by
  induction chain generalizing query with
  | nil => rfl
  | cons name rest ih =>
    have below : configureAt catalog (fun query => Prod.map answers id (configure query)) rest =
        fun query => Prod.map (Option.map answers) id (configureAt catalog configure rest query) := funext ih
    rw [configureAt_cons, configureAt_cons, below, configureChild_map]
    rfl

/-- The rows of an included query are matched by the child column of its relation. -/
theorem Mirrors.childColumn_mem_keyColumns {catalog : Catalog} {node : Query} (mirrors : node.Mirrors catalog)
    {included : Relation × Query} (member : included ∈ node.includes) :
    included.1.childColumn ∈ Plan.keyColumns included.2.selection := by
  obtain ⟨selection, includes⟩ := node
  obtain ⟨-, known, -⟩ := mirrors
  obtain ⟨target, -, rows⟩ := known included member
  have same : Plan.keyColumns included.2.selection =
      Plan.keyColumns (.ofRelation included.1 target) :=
    Selection.keyColumns_of_bare (rows.trans (Selection.bare_ofRelation included.1 target).symm)
  rw [same]
  exact .tail _ (.head _)

end Query

namespace Plan

variable {α β : Type}

/-- A configuration of plans as one of queries, which answers the surplus as well. -/
def onQuery (configure : Plan → α × Plan) (query : Query) : (α × Surplus) × Query :=
  (((configure (.ofQuery query)).1, (configure (.ofQuery query)).2.surplus),
    (configure (.ofQuery query)).2.query)

/-- A plan with a configured query, whose surplus belongs to a path; without an answer the query alone, and the plan
itself where there is none. -/
def graft (plan : Plan) (path : Path) : Option (Option (α × Surplus) × Query) → Option α × Plan
  | some (some (answer, surplus), query) => (some answer, ⟨query, plan.surplus.unionAt path surplus⟩)
  | some (none, query) => (none, ⟨query, plan.surplus⟩)
  | none => (none, plan)

/-- A relation that is not allowed leaves the plan as it is; another is configured on the query. -/
theorem withRelation_eq (registry : Registry) (catalog : Catalog) (relation : String)
    (configure : Plan → α × Plan) (plan : Plan) :
    plan.withRelation registry catalog relation configure =
      if registry.allows plan.entity relation then
        plan.graft (Path.ofText relation)
          (plan.query.configure? catalog (Path.ofText relation).segments (onQuery configure))
      else (none, plan) := by
  unfold withRelation
  split
  · show _ = plan.graft _ (plan.query.configure? _ _ _)
    unfold graft
    rfl
  · rfl

/-- What a configuration answers is carried along and not looked at. -/
theorem withRelation_map (registry : Registry) (catalog : Catalog) (relation : String)
    (answers : α → β) (configure : Plan → α × Plan) (plan : Plan) :
    plan.withRelation registry catalog relation (fun nested => Prod.map answers id (configure nested)) =
      Prod.map (Option.map answers) id (plan.withRelation registry catalog relation configure) := by
  have carried := Query.configureAt_map catalog
    (Prod.map answers (id : Surplus → Surplus)) (onQuery configure) (Path.ofText relation).segments
    plan.query
  have shape : onQuery (fun nested => Prod.map answers id (configure nested)) =
      fun query => Prod.map (Prod.map answers id) id (onQuery configure query) := rfl
  rw [withRelation_eq, withRelation_eq, shape]
  unfold Query.configure?
  split
  · split
    · rfl
    · rw [carried]
      obtain ⟨answer, query⟩ :=
        Query.configureAt catalog (onQuery configure) (Path.ofText relation).segments plan.query
      cases answer <;> rfl
  · rfl

end Plan

namespace Service

variable {service : Service} {start : Selection} {held : List String} {runs : List Path} {plan : Plan}

/-! ### One entry -/

/-- The relation may be included with the rows of an entity, and the catalog resolves it. -/
def admits (service : Service) (entity relation : String) : Bool :=
  service.registry.allows entity relation &&
    (!(Path.ofText relation).segments.isEmpty &&
      service.catalog.resolves entity (Path.ofText relation).segments)

/-- The paths of the admitted entries of a list, in its order. -/
def admitted (service : Service) (entity : String) (relations : List String) : List Path :=
  (relations.filter (service.admits entity)).map Path.ofText

/-- An entry that is not admitted adds no path. -/
theorem admitted_cons_of_refused {entity relation : String} {rest : List String}
    (refused : service.admits entity relation = false) :
    service.admitted entity (relation :: rest) = service.admitted entity rest := by
  rw [admitted, List.filter_cons_of_neg (by simp [refused])]
  rfl

/-- An entry that is admitted adds its path. -/
theorem admitted_cons_of_admits {entity relation : String} {rest : List String}
    (admits : service.admits entity relation = true) :
    service.admitted entity (relation :: rest) = Path.ofText relation :: service.admitted entity rest := by
  rw [admitted, List.filter_cons_of_pos admits]
  rfl

/-- Configure a plan, and answer with the query that it had. -/
def watch (service : Service) (path : Path) (nested : Plan) : Query × Plan :=
  (nested.query, service.configure path nested)

/-- A plan with one relation, and the query that was configured if one was. -/
def configuration (service : Service) (plan : Plan) (relation : String) : Option Query × Plan :=
  plan.withRelation service.registry service.catalog relation (service.watch (Path.ofText relation))

/-- Writing down what an entry configures changes nothing about the plan. -/
theorem configuration_plan (service : Service) (plan : Plan) (relation : String) :
    (service.configuration plan relation).2 = service.withRelation plan relation := by
  have forgotten := Plan.withRelation_map service.registry service.catalog relation
    (fun _ : Query => ()) (service.watch (Path.ofText relation)) plan
  exact (congrArg Prod.snd forgotten).symm

/-- A relation that is not admitted leaves the plan as it is, and nothing is configured. -/
theorem configuration_of_refused {relation : String}
    (refused : service.admits plan.entity relation = false) :
    service.configuration plan relation = (none, plan) := by
  unfold configuration
  rw [Plan.withRelation_eq]
  split
  · next allowed =>
    have unknown : ((Path.ofText relation).segments.isEmpty ||
        !service.catalog.resolves plan.query.selection.entity (Path.ofText relation).segments) = true := by
      rw [admits, allowed, Bool.true_and, Plan.entity] at refused
      rw [← Bool.not_not (_ || _), Bool.not_or, Bool.not_not, refused, Bool.not_false]
    rw [Query.configure?, if_pos unknown]
    rfl
  · rfl

/-- What configuring one path makes of a plan, its configuration being handed a query. -/
structure Included (service : Service) (path : Path) (handed : Query) (plan after : Plan) : Prop where
  /-- The query mirrors the catalog. -/
  mirrors : after.query.Mirrors service.catalog
  /-- The selection of the root stays. -/
  root : after.query.selection = plan.query.selection
  /-- The path is configured at its node, and nothing else changes but that there is a way to it. -/
  selections : ∀ other, after.query.selectionAt? other =
    if other = path.segments then some (service.configure path (.ofQuery handed)).query.selection
    else if other <+: path.segments then
      (plan.query.selectionAt? other).or (service.catalog.reach? plan.query.selection other)
    else plan.query.selectionAt? other
  /-- The surplus is in order. -/
  ordered : after.surplus.Ordered
  /-- The surplus is what it was and what the fields of the path force. -/
  fields : ∀ other name, name ∈ after.surplus.fieldsAt other ↔ name ∈ plan.surplus.fieldsAt other ∨
    (other = path ∧ ∃ reached, service.catalog.reach? plan.query.selection path.segments = some reached ∧
      name ∈ forced (service.request.fields path) reached)

/-- Where operations keep the included relations, configuring an admitted relation hands its configuration the
node of its path, present or fresh, and includes the path. -/
theorem configuration_of_admitted [service.registry.KeepsTrees] (mirrors : plan.query.Mirrors service.catalog)
    (ordered : plan.surplus.Ordered) {relation : String}
    (admitted : service.admits plan.entity relation = true) :
    ∃ handed after, service.configuration plan relation = (some handed, after) ∧
      some handed.selection = (plan.query.selectionAt? (Path.ofText relation).segments).or
        (service.catalog.reach? plan.query.selection (Path.ofText relation).segments) ∧
      Included service (Path.ofText relation) handed plan after := by
  generalize read : Path.ofText relation = path
  have known : service.registry.allows plan.entity relation = true ∧ path.segments ≠ [] ∧
      service.catalog.resolves plan.entity path.segments = true := by
    simpa [admits, read] using admitted
  obtain ⟨allowed, further, resolved⟩ := known
  have isReached : (service.catalog.reach? plan.query.selection path.segments).isSome := by
    rw [← Catalog.resolves_eq_isSome_reach?]
    exact resolved
  obtain ⟨reached, leads⟩ := Option.isSome_iff_exists.1 isReached
  have present := Query.selectionAt?_nodeAt mirrors isReached []
  rw [if_pos rfl, Query.selectionAt?_nil] at present
  have rows := (Query.nodeAt_spec mirrors leads).2
  have keeps : ∀ node : Query, (Plan.onQuery (service.watch path) node).2.SameTree node := fun node =>
    service.sameTree_configure path (.ofQuery node)
  obtain ⟨result, computed, configured⟩ := Query.configureAt_of_reach?
    (fun node nodeMirrors => ⟨(keeps node).mirrors nodeMirrors, (keeps node).bare⟩) mirrors isReached
  have changed := configured.selectionAt?_of_sameTree mirrors isReached (keeps _)
  generalize Query.nodeAt service.catalog path.segments plan.query = handed at computed present rows changed
  have step : service.configuration plan relation = (some handed, ⟨result, plan.surplus.unionAt path
      (service.configure path (.ofQuery handed)).surplus⟩) := by
    have passes : (path.segments.isEmpty ||
        !service.catalog.resolves plan.query.selection.entity path.segments) = false := by
      rw [show plan.query.selection.entity = plan.entity from rfl, resolved]
      simp [further]
    unfold Service.configuration
    rw [Plan.withRelation_eq, if_pos allowed, read, Query.configure?, passes, computed]
    rfl
  rw [surplus_configure] at step
  refine ⟨handed, _, step, present, configured.mirrors, ?_, changed, ?_, fun other name => ?_⟩
  · have here := changed []
    rw [if_neg (Ne.symm further), if_pos List.nil_prefix] at here
    exact Option.some.inj here
  · exact ordered.unionAt (.leaf _) path
  · rw [Surplus.mem_fieldsAt_unionAt_leaf ordered, forced_of_bare rows, leads]
    simp

/-! ### Entries that arrange their paths -/

/-- The nodes after one more path is configured: the rows at its end are arranged, the nodes on the way are
there or fresh, and every other node is as before. -/
def including (service : Service) (start : Selection) (nodes : List String → Option Selection)
    (path : Path) (other : List String) : Option Selection :=
  if other = path.segments then
    ((nodes path.segments).or (service.catalog.reach? start path.segments)).map (service.arrange path)
  else if other <+: path.segments then (nodes other).or (service.catalog.reach? start other)
  else nodes other

/-- Where operations change what is asked of the rows alone, a path is arranged at its node. -/
theorem Included.selections_eq [service.registry.Local] {path : Path} {handed : Query} {after : Plan}
    (included : Included service path handed plan after)
    (received : some handed.selection = (plan.query.selectionAt? path.segments).or
      (service.catalog.reach? plan.query.selection path.segments)) :
    after.query.selectionAt? = service.including plan.query.selection plan.query.selectionAt? path := by
  funext other
  rw [included.selections, including, ← received, query_configure, Query.selection_mapSelection]
  rfl

/-- What is asked of the rows at the end of a chain once paths have been configured: nothing is
there unless the chain is the beginning of one, and what is there was configured once for every time
that its own path was. -/
def arranged? (service : Service) (start : Selection) (runs : List Path) (chain : List String) :
    Option Selection :=
  if chain = [] ∨ ∃ path ∈ runs, chain <+: path.segments then
    (service.catalog.reach? start chain).map
      (Nat.repeat (service.arrange ⟨chain⟩) (runs.count ⟨chain⟩))
  else none

/-- A plan is what configuring paths, in this order, makes of a selection with surplus fields. -/
structure Arranged (service : Service) (start : Selection) (held : List String) (runs : List Path)
    (plan : Plan) : Prop where
  /-- The query mirrors the catalog. -/
  mirrors : plan.query.Mirrors service.catalog
  /-- The selection of the root is the one that the run started with. -/
  root : plan.query.selection = start
  /-- Every node is configured once for every time that its path was. -/
  selections : ∀ chain, plan.query.selectionAt? chain = service.arranged? start runs chain
  /-- The surplus is in order. -/
  ordered : plan.surplus.Ordered
  /-- The surplus is what the root had and what the configured paths force. -/
  fields : ∀ path name, name ∈ plan.surplus.fieldsAt path ↔ (path = .root ∧ name ∈ held) ∨
    (path ∈ runs ∧ ∃ reached, service.catalog.reach? start path.segments = some reached ∧
      name ∈ forced (service.request.fields path) reached)

/-- A selection on its own is a plan for which no path was configured. -/
theorem Arranged.leaf (service : Service) (start : Selection) (held : List String) :
    Arranged service start held [] ⟨.node start [], .node held []⟩ where
  mirrors := .leaf service.catalog start
  root := rfl
  selections chain := by
    cases chain with
    | nil => rfl
    | cons name rest =>
      have nothing : ¬ (name :: rest = [] ∨ ∃ path ∈ ([] : List Path), name :: rest <+: path.segments) := by
        simp
      rw [arranged?, if_neg nothing]
      rfl
  ordered := .leaf held
  fields path name := by
    rw [Surplus.fieldsAt_leaf]
    by_cases here : path = .root <;> simp [here]

/-- Where a chain leads, the rows are configured as often as its path was, on the node that is there
or on a fresh one. -/
theorem arranged?_or_reach? (service : Service) (start : Selection) (runs : List Path)
    (chain : List String) :
    (service.arranged? start runs chain).or (service.catalog.reach? start chain) =
      (service.catalog.reach? start chain).map
        (Nat.repeat (service.arrange ⟨chain⟩) (runs.count ⟨chain⟩)) := by
  unfold arranged?
  split
  · cases service.catalog.reach? start chain <;> rfl
  · next absent =>
    have fresh : (⟨chain⟩ : Path) ∉ runs := fun member =>
      absent (.inr ⟨⟨chain⟩, member, List.prefix_refl chain⟩)
    rw [List.count_eq_zero_of_not_mem fresh, Option.none_or]
    exact Option.map_id'.symm

/-- Configuring one more path configures the rows at its end once more, makes the nodes on the way,
and leaves every other chain as it is. -/
theorem arranged?_append (service : Service) (start : Selection) (runs : List Path) (path : Path)
    (other : List String) :
    service.arranged? start (runs ++ [path]) other =
      if other = path.segments then
        ((service.arranged? start runs path.segments).or
          (service.catalog.reach? start path.segments)).map (service.arrange path)
      else if other <+: path.segments then
        (service.arranged? start runs other).or (service.catalog.reach? start other)
      else service.arranged? start runs other := by
  by_cases same : other = path.segments
  · subst same
    have covered : path.segments = [] ∨ ∃ run ∈ runs ++ [path], path.segments <+: run.segments :=
      .inr ⟨path, by simp, List.prefix_refl _⟩
    rw [if_pos rfl, arranged?_or_reach?, arranged?, if_pos covered, Option.map_map,
      List.count_append, List.count_singleton_self]
    rfl
  · have apart : path ≠ ⟨other⟩ := fun equal => same (congrArg Path.segments equal).symm
    have counted : (runs ++ [path]).count ⟨other⟩ = runs.count ⟨other⟩ := by
      have none : [path].count ⟨other⟩ = 0 :=
        List.count_eq_zero_of_not_mem fun member => apart (List.mem_singleton.1 member).symm
      rw [List.count_append, none, Nat.add_zero]
    rw [if_neg same]
    split
    · next beginning =>
      have covered : other = [] ∨ ∃ run ∈ runs ++ [path], other <+: run.segments :=
        .inr ⟨path, by simp, beginning⟩
      rw [arranged?_or_reach?, arranged?, if_pos covered, counted]
    · next beside =>
      have unchanged : (∃ run ∈ runs ++ [path], other <+: run.segments) ↔
          ∃ run ∈ runs, other <+: run.segments := by simp [or_and_right, exists_or, beside]
      simp only [arranged?, counted, unchanged]

section Local

variable [service.registry.Local]

/-- A plan with an admitted relation is arranged for one more path. -/
theorem Arranged.withRelation (arranged : Arranged service start held runs plan) {relation : String}
    (admitted : service.admits start.entity relation = true) :
    Arranged service start held (runs ++ [Path.ofText relation]) (service.withRelation plan relation) := by
  obtain ⟨mirrors, root, selections, ordered, fields⟩ := arranged
  have atRoot : plan.entity = start.entity := congrArg Selection.entity root
  obtain ⟨handed, after, step, received, included⟩ :=
    configuration_of_admitted mirrors ordered (atRoot ▸ admitted)
  have nodes : plan.query.selectionAt? = service.arranged? start runs := funext selections
  rw [← configuration_plan, step]
  refine ⟨included.mirrors, included.root.trans root, fun other => ?_, included.ordered, fun other name => ?_⟩
  · rw [arranged?_append, included.selections_eq received, root, nodes]
    rfl
  · rw [included.fields, fields, root, List.mem_append, List.mem_singleton, or_and_right, or_assoc]
    refine or_congr_right (or_congr_right (and_congr_right fun here => ?_))
    rw [here]

/-- Including entries configures the paths of the admitted ones, in their order. -/
theorem Arranged.foldl_withRelation (arranged : Arranged service start held runs plan)
    (relations : List String) :
    Arranged service start held (runs ++ service.admitted start.entity relations)
      (relations.foldl service.withRelation plan) := by
  induction relations generalizing runs plan with
  | nil =>
    rw [admitted, List.filter_nil, List.map_nil, List.append_nil]
    exact arranged
  | cons relation rest ih =>
    rw [List.foldl_cons]
    cases admittedHere : service.admits start.entity relation with
    | false =>
      have refused : service.admits plan.entity relation = false := by
        rw [Plan.entity, arranged.root]
        exact admittedHere
      rw [admitted_cons_of_refused admittedHere, ← configuration_plan, configuration_of_refused refused]
      exact ih arranged
    | true =>
      rw [admitted_cons_of_admits admittedHere, List.append_cons]
      exact ih (arranged.withRelation admittedHere)

/-- The plan of a page is what configuring the admitted paths makes of the configured root. -/
theorem arranged_pagePlan (service : Service) [service.registry.Local] (selection : Selection) :
    Arranged service (service.arrange .root selection)
      (forced (service.request.fields .root) selection)
      (service.admitted selection.entity service.request.relations)
      (service.pagePlan (.node selection [])) := by
  have entity : (service.arrange .root selection).entity = selection.entity :=
    Selection.entity_of_bare (bare_arrange service .root selection)
  have included := (Arranged.leaf service (service.arrange .root selection)
    (forced (service.request.fields .root) selection)).foldl_withRelation service.request.relations
  rw [List.nil_append, entity, ← configure_leaf] at included
  exact included

end Local

end Service

end ResourceQuery
