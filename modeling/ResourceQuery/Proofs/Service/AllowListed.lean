import ResourceQuery.Proofs.Plan.JoinColumns
import ResourceQuery.Proofs.Service.IncludedPaths

/-!
# Predicates and sort keys come from the allow-list

Where operations only add predicates and sort keys, what clients can ask of the rows at a node is what the
tables of the entity of that node offer for the names that the request gives for the path of that node: the
first table that has the key of a name decides (`Registry.offeredPredicates`, `Registry.offeredKeys`).
`allow_listed_exact` says so for every node of the query of a page. A node is configured once for every allowed
entry of its path, so one that is only on the way to another, or that is denied itself, has no predicates and
no sort keys.
-/
namespace ResourceQuery

namespace Registry

/-- The first table that has a key. -/
def firstWith? {α : Type} (tables : List (Operations α)) (key : String) : Option (Operations α) :=
  tables.find? fun table => (table.find? key).isSome

/-- The predicates that an entity offers for a call: those that the first filter table with the key of
its name makes of its arguments, none without such a table and none where arguments are missing. -/
def offeredPredicates (registry : Registry) (entity : String) (call : String × List String) :
    List Predicate :=
  match firstWith? ((registry.filters.lookup entity).getD []) (camelKey call.1) with
  | none => []
  | some table =>
    match table.find? (camelKey call.1) with
    | none => []
    | some operation =>
      if call.2.length < operation.arity then [] else operation.predicates call.2

/-- The sort keys that an entity offers for a name: those of the first sort table with its key, none
without such a table. -/
def offeredKeys (registry : Registry) (entity name : String) : List SortKey :=
  match firstWith? ((registry.sorts.lookup entity).getD []) (camelKey name) with
  | none => []
  | some table => ((table.find? (camelKey name)).map SortOperation.keys).getD []

/-- The first table that has a key is where a key is found. -/
theorem findSome?_eq_firstWith? {α : Type} (tables : List (Operations α)) (key : String) :
    (tables.findSome? fun table => table.find? key) =
      (firstWith? tables key).bind fun table => table.find? key := by
  induction tables with
  | nil => rfl
  | cons table rest ih =>
    rw [firstWith?, List.findSome?_cons]
    cases found : table.find? key with
    | none =>
      rw [List.find?_cons_of_neg (by simp [found]), ih]
      rfl
    | some operation =>
      rw [List.find?_cons_of_pos (by simp [found])]
      exact found.symm

/-- The predicates of filters are those that the entity offers for each call. -/
theorem predicates_eq_offered (registry : Registry) (entity : String) (filters : Filters) :
    registry.predicates entity filters = filters.entries.flatMap (registry.offeredPredicates entity) := by
  unfold predicates
  congr 1
  funext call
  rw [predicates?, filter?, findSome?_eq_firstWith?, offeredPredicates]
  cases firstWith? ((registry.filters.lookup entity).getD []) (camelKey call.1) with
  | none => rfl
  | some table =>
    simp only [Option.bind_some]
    cases table.find? (camelKey call.1) with
    | none => rfl
    | some operation =>
      simp only [Option.bind_some]
      split <;> rfl

/-- The sort keys of names are those that the entity offers for each. -/
theorem sortKeys_eq_offered (registry : Registry) (entity : String) (names : List String) :
    registry.sortKeys entity names = names.flatMap (registry.offeredKeys entity) := by
  unfold sortKeys
  congr 1
  funext name
  rw [sortKeys?, sort?, findSome?_eq_firstWith?, offeredKeys]
  cases firstWith? ((registry.sorts.lookup entity).getD []) (camelKey name) <;> rfl

end Registry

namespace Service

variable {service : Service}

section AppendOnly

variable [service.registry.AppendOnly]

/-- Arranging again and again adds the predicates of the path as often. -/
theorem conditions_repeat_arrange (path : Path) (times : Nat) (selection : Selection) :
    (Nat.repeat (service.arrange path) times selection).conditions = selection.conditions ++
      (List.replicate times
        (service.registry.predicates selection.entity (service.request.filters path))).flatten := by
  induction times with
  | zero => exact (List.append_nil _).symm
  | succ times ih =>
    have entity := Selection.entity_of_bare (service.bare_repeat_arrange path times selection)
    rw [Nat.repeat, conditions_arrange, ih, entity, List.replicate_succ', List.flatten_append,
      List.append_assoc]
    simp

/-- Arranging again and again adds the sort keys of the path as often. -/
theorem orders_repeat_arrange (path : Path) (times : Nat) (selection : Selection) :
    (Nat.repeat (service.arrange path) times selection).orders = selection.orders ++
      (List.replicate times
        (service.registry.sortKeys selection.entity (service.request.sort path))).flatten := by
  induction times with
  | zero => exact (List.append_nil _).symm
  | succ times ih =>
    have entity := Selection.entity_of_bare (service.bare_repeat_arrange path times selection)
    rw [Nat.repeat, orders_arrange, ih, entity, List.replicate_succ', List.flatten_append,
      List.append_assoc]
    simp

end AppendOnly

/-- Below the root, a path that leads somewhere is configured once for every allowed entry of it. -/
theorem count_admitted {entity : String} {chain : List String} (further : chain ≠ [])
    (resolved : service.catalog.resolves entity chain = true) (relations : List String) :
    (service.admitted entity relations).count ⟨chain⟩ =
      ((relations.filter (service.registry.allows entity)).map Path.ofText).count ⟨chain⟩ := by
  have same : ∀ relation : String, (Path.ofText relation == ⟨chain⟩ && service.admits entity relation) =
      (Path.ofText relation == ⟨chain⟩ && service.registry.allows entity relation) := by
    intro relation
    by_cases here : Path.ofText relation = ⟨chain⟩
    · simp [admits, here, further, resolved]
    · have elsewhere : (Path.ofText relation == ⟨chain⟩) = false := beq_eq_false_iff_ne.2 here
      rw [elsewhere, Bool.false_and, Bool.false_and]
  simp only [admitted, List.count, List.countP_map, List.countP_filter, Function.comp_def, same]

/-- A node of a finished plan reads the rows that its chain leads to, and has the predicates and the sort
keys of its path once for every time that the path was configured. -/
theorem Arranged.of_mem_nodes_finish [service.registry.AppendOnly] {start : Selection} {held : List String}
    {runs : List Path} {plan : Plan} (arranged : Arranged service start held runs plan) {chain : List String}
    {selection : Selection} (listed : (chain, selection) ∈ plan.finish.query.nodes) :
    ∃ reached, service.catalog.reach? start chain = some reached ∧
      selection.bare = reached.bare ∧
      selection.conditions = reached.conditions ++ (List.replicate (runs.count ⟨chain⟩)
        (service.registry.predicates reached.entity (service.request.filters ⟨chain⟩))).flatten ∧
      selection.orders = reached.orders ++ (List.replicate (runs.count ⟨chain⟩)
        (service.registry.sortKeys reached.entity (service.request.sort ⟨chain⟩))).flatten := by
  have found := (Query.mem_nodes_iff arranged.mirrors.withJoinColumns).1 listed
  rw [Query.selectionAt?_withJoinColumns] at found
  obtain ⟨node, present, rfl⟩ := Option.map_eq_some_iff.1 found
  have own : plan.query.selectionAt? chain = some node.selection := congrArg (Option.map _) present
  rw [arranged.selections, arranged?] at own
  split at own
  · obtain ⟨reached, leads, same⟩ := Option.map_eq_some_iff.1 own
    obtain ⟨columns, shape⟩ := Selection.foldl_addColumn_eq
      (node.selection.missingColumns node.includes) node.selection
    rw [shape, ← same]
    exact ⟨reached, leads, bare_repeat_arrange service ⟨chain⟩ _ reached,
      conditions_repeat_arrange ⟨chain⟩ _ reached, orders_repeat_arrange ⟨chain⟩ _ reached⟩
  · contradiction

/-- Where operations only add, the query of a page has exactly the predicates and sort keys that were asked for and
are offered. At the root they are what the root entity offers for the filters and the order of the root. At every
other node they are what the entity of that node offers for the filters and the order of its path,
once for every entry of the path that is allowed for the root entity. -/
theorem allow_listed_exact (service : Service) [service.registry.AppendOnly] (entity : Entity) :
    let query := (service.pagePlan (.ofEntity entity)).finish.query
    let allowed := (service.request.relations.filter (service.registry.allows entity.name)).map
      Path.ofText
    let predicates (name : String) (path : Path) := (service.request.filters path).entries.flatMap
      (service.registry.offeredPredicates name)
    let keys (name : String) (path : Path) := (service.request.sort path).flatMap
      (service.registry.offeredKeys name)
    (query.selection.conditions = predicates entity.name .root ∧
      query.selection.orders = keys entity.name .root) ∧
    ∀ chain selection, (chain, selection) ∈ query.nodes → chain ≠ [] →
      ∃ fresh, service.catalog.reach? (.ofEntity entity) chain = some fresh ∧
        selection.bare = fresh ∧
        selection.conditions =
          (List.replicate (allowed.count ⟨chain⟩) (predicates fresh.entity ⟨chain⟩)).flatten ∧
        selection.orders =
          (List.replicate (allowed.count ⟨chain⟩) (keys fresh.entity ⟨chain⟩)).flatten := by
  intro query allowed predicates keys
  have predicates_eq : ∀ name path, predicates name path =
      service.registry.predicates name (service.request.filters path) := fun name path =>
    (service.registry.predicates_eq_offered name (service.request.filters path)).symm
  have keys_eq : ∀ name path, keys name path =
      service.registry.sortKeys name (service.request.sort path) := fun name path =>
    (service.registry.sortKeys_eq_offered name (service.request.sort path)).symm
  have arranged := service.arranged_pagePlan (.ofEntity entity)
  refine ⟨?_, fun chain selection listed further => ?_⟩
  · have root : ([], query.selection) ∈ query.nodes := by
      cases query
      exact .head _
    obtain ⟨reached, leads, -, conditions, orders⟩ := arranged.of_mem_nodes_finish root
    have same := Option.some.inj leads
    subst same
    have unnamed : (service.admitted (Selection.ofEntity entity).entity
        service.request.relations).count ⟨[]⟩ = 0 :=
      List.count_eq_zero_of_not_mem fun member => segments_ne_nil_of_mem_admitted member rfl
    rw [unnamed, List.replicate_zero, List.flatten_nil, List.append_nil] at conditions orders
    rw [conditions, orders, conditions_arrange, orders_arrange, predicates_eq, keys_eq]
    exact ⟨List.nil_append _, List.nil_append _⟩
  · obtain ⟨reached, leads, bare, conditions, orders⟩ := arranged.of_mem_nodes_finish listed
    have entityName : (service.arrange .root (.ofEntity entity)).entity = entity.name :=
      Selection.entity_of_bare (bare_arrange service .root (.ofEntity entity))
    have fresh : service.catalog.reach? (.ofEntity entity) chain = some reached := by
      rw [← leads]
      exact Catalog.reach?_congr entityName.symm further
    have resolved : service.catalog.resolves entity.name chain = true := by
      have same := Catalog.resolves_eq_isSome_reach? service.catalog (.ofEntity entity) chain
      rw [fresh] at same
      exact same
    have counted : (service.admitted (Selection.ofEntity entity).entity
        service.request.relations).count ⟨chain⟩ = allowed.count ⟨chain⟩ :=
      count_admitted further resolved service.request.relations
    have nothing := Catalog.bare_of_reach? fresh further
    have unconditional : reached.conditions = [] := congrArg Selection.conditions nothing.symm
    have unordered : reached.orders = [] := congrArg Selection.orders nothing.symm
    refine ⟨reached, fresh, bare.trans nothing, ?_, ?_⟩
    · rw [conditions, unconditional, List.nil_append, predicates_eq, counted]
    · rw [orders, unordered, List.nil_append, keys_eq, counted]

/-- Users with their messages and the recipients of these, of which only the recipients are allowed. The
request asks for both, and for the messages on one subject. -/
def recipientsOnly : Service where
  catalog := letterCatalog
  registry := (Registry.empty.setInclusions "users" [.path "messages.recipient"]).setFilters "messages"
    [Operations.register .empty "subject" (.unary fun text => Query.filterBy [⟨"subject", .equal, .string text⟩])]
  request := {
    asked := {
      ParameterSet.empty with
      filters := SortedMap.empty.insert ⟨["messages"]⟩ (Filters.empty.insert "subject" ["hi"])
      relations := ["messages", "messages.recipient"] }
    supplied := .empty
    settings := .standard }

/-- The filter by subject only adds a predicate. -/
instance : recipientsOnly.registry.AppendOnly :=
  ⟨(Registry.Each.empty.setInclusions "users" _).setFilters "messages" (List.forall_mem_singleton.2
    (Operations.each_empty.register "subject" (.unary fun text => [⟨"subject", .equal, .string text⟩])))⟩

/-- The messages are denied, and are there for the sake of their recipients without the subject asked for. -/
theorem messages_on_the_way :
    let query := (recipientsOnly.pagePlan (.ofEntity senders)).finish.query
    recipientsOnly.registry.AppendOnly ∧ query.selection.conditions = [] ∧ query.selection.orders = [] ∧
      (query.selectionAt? ["messages"]).map (fun messages => (messages.conditions, messages.orders)) =
        some ([], []) := by
  intro query
  obtain ⟨⟨conditions, orders⟩, nodes⟩ := allow_listed_exact recipientsOnly senders
  have present : ∃ messages, (["messages"], messages) ∈ query.nodes ∧
      query.selectionAt? ["messages"] = some messages := ⟨_, .tail _ (.head _), rfl⟩
  obtain ⟨messages, listed, found⟩ := present
  obtain ⟨fresh, -, -, own, keys⟩ := nodes _ _ listed (by decide)
  have unread : ((recipientsOnly.request.relations.filter (recipientsOnly.registry.allows senders.name)).map
      Path.ofText).count ⟨["messages"]⟩ = 0 := by decide
  rw [unread] at own keys
  refine ⟨inferInstance, conditions, orders, ?_⟩
  rw [found, Option.map_some, own, keys]
  rfl

/-- An entry that is denied counts for nothing, although the node of its path is there for the sake of a
longer entry: the predicates of a node are not as many as the entries of its path. -/
theorem denied_entry_adds_nothing :
    ¬ ∀ chain selection,
      (chain, selection) ∈ (recipientsOnly.pagePlan (.ofEntity senders)).finish.query.nodes →
      chain ≠ [] → selection.conditions = (List.replicate
        ((recipientsOnly.request.relations.map Path.ofText).count ⟨chain⟩)
        ((recipientsOnly.request.filters ⟨chain⟩).entries.flatMap
          (recipientsOnly.registry.offeredPredicates selection.entity))).flatten := by
  intro counted
  have listed : (["messages"], "messages", 0) ∈
      (recipientsOnly.pagePlan (.ofEntity senders)).finish.query.nodes.map fun node =>
        (node.1, node.2.entity, node.2.conditions.length) := by decide
  obtain ⟨⟨chain, selection⟩, member, same⟩ := List.mem_map.1 listed
  obtain ⟨rfl, own⟩ := Prod.mk.inj same
  obtain ⟨entity, none⟩ := Prod.mk.inj own
  have wrong := congrArg List.length (counted _ selection member (by decide))
  rw [entity, none] at wrong
  revert wrong
  decide

end Service

end ResourceQuery
