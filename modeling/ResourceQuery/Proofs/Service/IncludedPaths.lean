import ResourceQuery.Proofs.Service.Inclusion

/-!
# The paths that a request includes

The nodes of the query of a request, below the root, are exactly the beginnings of the paths that the
registry allows for the root entity and the catalog resolves from it (`included_paths_exact`). The
configurations are written down by the same run (`Service.configurations`): there is one for each
such entry, in the order of the request, and it changes the node of its path and no other. An entry that
names the root is none of them.

Operations that include relations by themselves make nodes that nobody asked for
(`includes_beyond_entries`). All of this is for operations that keep the included relations
(`Registry.KeepsTrees`); `Service.Traced` is the invariant of the run, which one entry keeps
(`Traced.configuration`), and so does a run over any list of them (`Traced.configurations`).
-/
namespace ResourceQuery.Service

variable {service : Service} {start : Selection} {held : List String} {plan : Plan}

/-- An entry is admitted when it names a path below the root that is allowed and leads somewhere. -/
theorem admits_iff {entity relation : String} : service.admits entity relation = true ↔
    service.registry.allows entity relation = true ∧ (Path.ofText relation).segments ≠ [] ∧
      service.catalog.Leads entity (Path.ofText relation).segments := by
  unfold admits
  rw [← Catalog.resolves_iff_leads]
  simp

/-- A configured path is that of an admitted entry. -/
theorem mem_admitted_iff {entity : String} {relations : List String} {path : Path} :
    path ∈ service.admitted entity relations ↔
      ∃ relation ∈ relations, service.admits entity relation = true ∧ Path.ofText relation = path := by
  simp only [admitted, List.mem_map, List.mem_filter, and_assoc]

/-- A configured path leads somewhere. -/
theorem isSome_reach?_of_mem_admitted {relations : List String} {path : Path}
    (member : path ∈ service.admitted start.entity relations) :
    (service.catalog.reach? start path.segments).isSome := by
  obtain ⟨relation, -, admitted, rfl⟩ := mem_admitted_iff.1 member
  obtain ⟨-, -, leads⟩ := admits_iff.1 admitted
  rw [← Catalog.resolves_eq_isSome_reach?, Catalog.resolves_iff_leads]
  exact leads

/-- A configured path is not the root. -/
theorem segments_ne_nil_of_mem_admitted {entity : String} {relations : List String} {path : Path}
    (member : path ∈ service.admitted entity relations) : path.segments ≠ [] := by
  obtain ⟨relation, -, admitted, rfl⟩ := mem_admitted_iff.1 member
  obtain ⟨-, further, -⟩ := admits_iff.1 admitted
  exact further

/-- A chain that is not the root begins a configured path exactly if it begins an entry that is allowed and leads
along known relations. -/
theorem begins_admitted_iff {entity : String} {relations : List String} {chain : List String} (further : chain ≠ []) :
    (∃ path ∈ service.admitted entity relations, chain <+: path.segments) ↔
      ∃ relation ∈ relations, service.registry.allows entity relation = true ∧
        service.catalog.Leads entity (Path.ofText relation).segments ∧ chain <+: (Path.ofText relation).segments := by
  constructor
  · rintro ⟨path, member, beginning⟩
    obtain ⟨relation, entry, admitted, rfl⟩ := mem_admitted_iff.1 member
    obtain ⟨allowed, -, leads⟩ := admits_iff.1 admitted
    exact ⟨relation, entry, allowed, leads, beginning⟩
  · rintro ⟨relation, entry, allowed, leads, beginning⟩
    have named : (Path.ofText relation).segments ≠ [] := fun none => further (List.prefix_nil.1 (none ▸ beginning))
    exact ⟨_, mem_admitted_iff.2 ⟨relation, entry, admits_iff.2 ⟨allowed, named, leads⟩, rfl⟩, beginning⟩

/-! ### The run over the entries -/

/-- A plan with relations, and the paths that were configured, each with the query that its
configuration was handed. -/
def configurations (service : Service) : List String → Plan → List (Path × Query) × Plan
  | [], plan => ([], plan)
  | relation :: rest, plan =>
    let (handed, plan) := service.configuration plan relation
    let (later, plan) := service.configurations rest plan
    (handed.toList.map (fun query => (Path.ofText relation, query)) ++ later, plan)

/-- A run over a first entry and others configures the first one's path, and then theirs. -/
theorem configurations_cons {relation : String} {rest : List String} {handed : Option Query}
    {next after : Plan} {record : List (Path × Query)}
    (step : service.configuration plan relation = (handed, next))
    (later : service.configurations rest next = (record, after)) :
    service.configurations (relation :: rest) plan =
      (handed.toList.map (fun query => (Path.ofText relation, query)) ++ record, after) := by
  simp only [configurations, step, later]

/-- Writing down what is configured changes nothing about the plan of a run. -/
theorem configurations_plan (service : Service) (relations : List String) (plan : Plan) :
    (service.configurations relations plan).2 = relations.foldl service.withRelation plan := by
  induction relations generalizing plan with
  | nil => rfl
  | cons relation rest ih =>
    rw [List.foldl_cons, ← configuration_plan, ← ih]
    rfl

/-- What the last configuration of a path left of the node at its end. -/
def lastLeft? (service : Service) (record : List (Path × Query)) (chain : List String) : Option Selection :=
  (record.reverse.find? fun run => run.1.segments = chain).map fun (path, handed) =>
    (service.configure path (.ofQuery handed)).query.selection

/-- What is asked of the rows at the end of a chain once paths have been configured: nothing is there unless the
chain is the beginning of one, and what is there is fresh, or what the last configuration of its path left. -/
def traced? (service : Service) (start : Selection) (record : List (Path × Query)) (chain : List String) :
    Option Selection :=
  if chain = [] ∨ ∃ run ∈ record, chain <+: run.1.segments then
    (service.lastLeft? record chain).or (service.catalog.reach? start chain)
  else none

/-- The last configuration of its path is the one that left what is there. -/
theorem lastLeft?_append (service : Service) (record : List (Path × Query)) (path : Path) (handed : Query)
    (chain : List String) : service.lastLeft? (record ++ [(path, handed)]) chain =
      if path.segments = chain then some (service.configure path (.ofQuery handed)).query.selection
      else service.lastLeft? record chain := by
  unfold lastLeft?
  rw [List.reverse_append, List.reverse_singleton, List.singleton_append, List.find?_cons]
  by_cases here : path.segments = chain
  · simp [here]
  · simp [here]

/-- Where a chain leads, what is there, or a fresh node, is fresh or what the last configuration left. -/
theorem traced?_or_reach? (service : Service) (start : Selection) (record : List (Path × Query))
    (chain : List String) :
    (service.traced? start record chain).or (service.catalog.reach? start chain) =
      (service.lastLeft? record chain).or (service.catalog.reach? start chain) := by
  unfold traced?
  split
  · rw [Option.or_assoc, Option.or_self]
  · next absent =>
    have nothing : (record.reverse.find? fun run => run.1.segments = chain) = none := by
      refine List.find?_eq_none.2 fun run member same => absent (.inr ⟨run, List.mem_reverse.1 member, ?_⟩)
      exact of_decide_eq_true same ▸ List.prefix_refl _
    rw [lastLeft?, nothing]
    rfl

/-- Configuring one more path changes the rows at its end, makes the nodes on the way, and leaves every other
chain as it is. -/
theorem traced?_append (service : Service) (start : Selection) (record : List (Path × Query)) (path : Path)
    (handed : Query) (other : List String) :
    service.traced? start (record ++ [(path, handed)]) other =
      if other = path.segments then some (service.configure path (.ofQuery handed)).query.selection
      else if other <+: path.segments then
        (service.traced? start record other).or (service.catalog.reach? start other)
      else service.traced? start record other := by
  rw [traced?, lastLeft?_append]
  by_cases same : other = path.segments
  · subst same
    have covered : path.segments = [] ∨ ∃ run ∈ record ++ [(path, handed)], path.segments <+: run.1.segments :=
      .inr ⟨_, List.mem_append_right _ (.head _), List.prefix_refl _⟩
    rw [if_pos covered, if_pos rfl, if_pos rfl]
    rfl
  · rw [if_neg (Ne.symm same), if_neg same]
    by_cases beginning : other <+: path.segments
    · have covered : other = [] ∨ ∃ run ∈ record ++ [(path, handed)], other <+: run.1.segments :=
        .inr ⟨_, List.mem_append_right _ (.head _), beginning⟩
      rw [if_pos covered, if_pos beginning, traced?_or_reach?]
    · have unchanged : (∃ run ∈ record ++ [(path, handed)], other <+: run.1.segments) ↔
          ∃ run ∈ record, other <+: run.1.segments := by simp [or_and_right, exists_or, beginning]
      rw [if_neg beginning, traced?]
      simp only [unchanged]

/-- A plan is what configurations, in this order, make of a selection. -/
structure Traced (service : Service) (start : Selection) (record : List (Path × Query)) (plan : Plan) : Prop where
  /-- The query mirrors the catalog. -/
  mirrors : plan.query.Mirrors service.catalog
  /-- The selection of the root is the one that the run started with. -/
  root : plan.query.selection = start
  /-- Every node is as the configurations left it. -/
  selections : ∀ chain, plan.query.selectionAt? chain = service.traced? start record chain
  /-- The surplus is in order. -/
  ordered : plan.surplus.Ordered

/-- A selection on its own is a plan for which nothing was configured. -/
theorem Traced.leaf (service : Service) (start : Selection) : Traced service start [] (.ofQuery (.node start [])) where
  mirrors := .leaf service.catalog start
  root := rfl
  selections chain := by
    cases chain with
    | nil => rfl
    | cons name rest => simp [traced?, Query.selectionAt?, Query.at?_cons, Plan.ofQuery, Query.child?_node]
  ordered := Surplus.ordered_empty

section KeepsTrees

variable [service.registry.KeepsTrees] {record : List (Path × Query)}

/-- An admitted relation is configured on the node of its path as the configurations before it left it, and
afterwards the plan is what one more configuration made of it. -/
theorem Traced.configuration (traced : Traced service start record plan) {relation : String}
    (admitted : service.admits start.entity relation = true) :
    ∃ handed after, service.configuration plan relation = (some handed, after) ∧
      some handed.selection = (service.lastLeft? record (Path.ofText relation).segments).or
        (service.catalog.reach? start (Path.ofText relation).segments) ∧
      Traced service start (record ++ [(Path.ofText relation, handed)]) after := by
  obtain ⟨mirrors, root, selections, ordered⟩ := traced
  have atRoot : plan.entity = start.entity := congrArg Selection.entity root
  obtain ⟨handed, after, step, received, included⟩ :=
    configuration_of_admitted mirrors ordered (atRoot ▸ admitted)
  rw [selections, root, traced?_or_reach?] at received
  refine ⟨handed, after, step, received, included.mirrors, included.root.trans root, fun other => ?_,
    included.ordered⟩
  rw [traced?_append, included.selections, root, selections]

/-- A run over entries configures the paths of the admitted ones, in their order, and hands each the
node of its path as the configurations before it left it. -/
theorem Traced.configurations (traced : Traced service start record plan) (relations : List String) :
    ∃ more after, service.configurations relations plan = (more, after) ∧
      more.map Prod.fst = service.admitted start.entity relations ∧
      (∀ position path handed, more[position]? = some (path, handed) →
        some handed.selection = (service.lastLeft? (record ++ more.take position) path.segments).or
          (service.catalog.reach? start path.segments)) ∧
      Traced service start (record ++ more) after := by
  induction relations generalizing record plan with
  | nil =>
    refine ⟨[], plan, rfl, rfl, fun position path handed found => by simp at found, ?_⟩
    rw [List.append_nil]
    exact traced
  | cons relation rest ih =>
    cases admittedHere : service.admits start.entity relation with
    | false =>
      have refused : service.admits plan.entity relation = false := by
        rw [Plan.entity, traced.root]
        exact admittedHere
      obtain ⟨more, after, computed, rest⟩ := ih traced
      rw [admitted_cons_of_refused admittedHere]
      exact ⟨more, after, configurations_cons (configuration_of_refused refused) computed, rest⟩
    | true =>
      obtain ⟨handed, next, step, handedHere, tracedNext⟩ := traced.configuration admittedHere
      obtain ⟨more, after, computed, paths, nodes, tracedAfter⟩ := ih tracedNext
      refine ⟨(Path.ofText relation, handed) :: more, after, configurations_cons step computed, ?_, ?_, ?_⟩
      · rw [admitted_cons_of_admits admittedHere, List.map_cons, paths]
      · intro position path node found
        cases position with
        | zero =>
          obtain ⟨rfl, rfl⟩ := Prod.mk.inj (Option.some.inj found)
          rw [List.take_zero, List.append_nil]
          exact handedHere
        | succ position =>
          rw [List.take_succ_cons, List.append_cons]
          exact nodes position path node found
      · rw [List.append_cons]
        exact tracedAfter

end KeepsTrees

/-- There is a node at the root and at the beginnings of the configured paths. -/
theorem Traced.isSome_selectionAt?_iff {record : List (Path × Query)} {relations : List String}
    (traced : Traced service start record plan)
    (paths : record.map Prod.fst = service.admitted start.entity relations) {chain : List String} :
    (plan.query.selectionAt? chain).isSome = true ↔
      chain = [] ∨ ∃ path ∈ service.admitted start.entity relations, chain <+: path.segments := by
  have listed : (∃ path ∈ service.admitted start.entity relations, chain <+: path.segments) ↔
      ∃ run ∈ record, chain <+: run.1.segments := by simp [← paths]
  rw [traced.selections, traced?, listed]
  split
  · next covered =>
    refine iff_of_true ?_ covered
    have leads : (service.catalog.reach? start chain).isSome := by
      rcases covered with rfl | covered
      · rfl
      · obtain ⟨path, member, beginning⟩ := listed.2 covered
        exact Catalog.reach?_isSome_of_prefix beginning (isSome_reach?_of_mem_admitted member)
    rw [Option.isSome_or, leads, Bool.or_true]
  · next absent => exact iff_of_false Bool.false_ne_true absent

/-- The nodes of a query that mirrors the catalog are listed by their chains. -/
theorem mem_chains_iff {query : Query} (mirrors : query.Mirrors service.catalog) {chain : List String} :
    chain ∈ query.chains ↔ (query.selectionAt? chain).isSome = true := by
  rw [Option.isSome_iff_exists]
  constructor
  · intro member
    obtain ⟨⟨_, selection⟩, node, rfl⟩ := List.mem_map.1 member
    exact ⟨selection, (Query.mem_nodes_iff mirrors).1 node⟩
  · rintro ⟨selection, found⟩
    exact List.mem_map.2 ⟨_, (Query.mem_nodes_iff mirrors).2 found, rfl⟩

/-- Including relations with the rows of an entity is exact, where operations keep the included relations and
which rows are read. Below the root there is one node for every beginning of an entry that is allowed for the
entity and leads along known relations, and no other node. The same run configures each of these entries that is
not the root once, in their order, and hands its configuration the node of its path: a fresh one, or what the
last configuration of the same path left. In the end every node is what the last configuration of its own path
left, and fresh where there was none. -/
theorem included_paths_exact (service : Service) [service.registry.KeepsTrees] (entity : Entity) :
    let fresh := Plan.ofQuery (.ofEntity entity)
    let plan := service.withRelations fresh
    let run := service.configurations service.request.relations fresh
    (∀ chain, chain ∈ plan.query.chains ↔ chain = [] ∨ ∃ relation ∈ service.request.relations,
      service.registry.allows entity.name relation = true ∧
      service.catalog.Leads entity.name (Path.ofText relation).segments ∧
      chain <+: (Path.ofText relation).segments) ∧
    plan.query.chains.Nodup ∧
    run.2 = plan ∧
    run.1.map Prod.fst = (service.request.relations.filter (service.admits entity.name)).map Path.ofText ∧
    (∀ position path handed, run.1[position]? = some (path, handed) →
      some handed.selection = (service.lastLeft? (run.1.take position) path.segments).or
        (service.catalog.reach? (.ofEntity entity) path.segments)) ∧
    (∀ chain ∈ plan.query.chains, plan.query.selectionAt? chain =
      (service.lastLeft? run.1 chain).or (service.catalog.reach? (.ofEntity entity) chain)) := by
  intro fresh plan run
  obtain ⟨record, after, computed, recorded, handed, traced⟩ :=
    (Traced.leaf service (.ofEntity entity)).configurations service.request.relations
  have final : after = plan := by
    have same := service.configurations_plan service.request.relations fresh
    rw [show service.configurations service.request.relations fresh = (record, after) from computed] at same
    exact same
  have running : run = (record, plan) := final ▸ computed
  rw [List.nil_append, final] at traced
  have nodes : ∀ chain, chain ∈ plan.query.chains ↔
      chain = [] ∨ ∃ path ∈ service.admitted entity.name service.request.relations, chain <+: path.segments :=
    fun chain => (mem_chains_iff traced.mirrors).trans (traced.isSome_selectionAt?_iff recorded)
  rw [running]
  refine ⟨fun chain => ?_, Query.nodup_chains traced.mirrors, rfl, recorded, ?_, fun chain member => ?_⟩
  · rw [nodes]
    by_cases root : chain = []
    · exact iff_of_true (.inl root) (.inl root)
    · exact or_congr_right (begins_admitted_iff root)
  · intro position path node found
    have here := handed position path node found
    rwa [List.nil_append] at here
  · have covered : chain = [] ∨ ∃ run ∈ record, chain <+: run.1.segments := by
      rcases (nodes chain).1 member with root | ⟨path, listed, beginning⟩
      · exact .inl root
      · rw [← show record.map Prod.fst = service.admitted entity.name service.request.relations from recorded]
          at listed
        obtain ⟨run, present, rfl⟩ := List.mem_map.1 listed
        exact .inr ⟨run, present, beginning⟩
    rw [traced.selections, traced?, if_pos covered]

/-- Users with the messages that they sent. -/
def senders : Entity :=
  (Entity.ofTable "users" "users").relateMany "messages" "messages" "sender_id"

/-- Users and messages, the messages with their recipients. -/
def letterCatalog : Catalog :=
  .insert (.insert .empty senders)
    ((Entity.ofTable "messages" "messages").relateOwner "recipient" "users" "recipient_id" "id")

/-- A filter of messages that stops at three of them. -/
def firstThree : FilterTable :=
  Operations.register .empty "few" (.nullary fun query => query.mapSelection fun selection => selection.take 3)

/-- Users with few of their messages, and with the recipients of these, of which only the recipients are allowed. -/
def fewRecipients : Service where
  catalog := letterCatalog
  registry := (Registry.empty.setInclusions "users" [.path "messages.recipient"]).setFilters "messages" [firstThree]
  request := {
    asked := {
      ParameterSet.empty with
      filters := SortedMap.empty.insert ⟨["messages"]⟩ (Filters.empty.insert "few" [])
      relations := ["messages", "messages.recipient", "letters"] }
    supplied := .empty
    settings := .standard }

/-- Of the messages, their recipients and letters, the recipients are allowed: the messages are on the way. -/
theorem recipients_included :
    let plan := fewRecipients.withRelations (.ofQuery (.ofEntity senders))
    let run := fewRecipients.configurations fewRecipients.request.relations (.ofQuery (.ofEntity senders))
    fewRecipients.registry.KeepsTrees ∧
      plan.query.chains = [[], ["messages"], ["messages", "recipient"]] ∧ plan.query.chains.Nodup ∧
      run.1.map Prod.fst = [⟨["messages", "recipient"]⟩] := by
  intro plan run
  have keeps : fewRecipients.registry.KeepsTrees :=
    ⟨(Registry.Each.empty.setInclusions "users" _).setFilters "messages" (List.forall_mem_singleton.2
      (Operations.each_empty.register "few" fun _ _ query => ⟨by cases query; rfl, by cases query; rfl⟩))⟩
  obtain ⟨-, once, -, paths, -⟩ := included_paths_exact fewRecipients senders
  exact ⟨keeps, by decide, once, paths.trans (by decide)⟩

/-- A filter of messages that includes their recipients. -/
def withRecipients : FilterTable :=
  Operations.register .empty "delivered" (.nullary fun query =>
    ((query.configure? letterCatalog ["recipient"] fun node => ((), node)).map Prod.snd).getD query)

/-- Users, and users once more under the name of the root, with the messages that a filter says are delivered. -/
def deliveredMessages : Service where
  catalog := letterCatalog
  registry := (Registry.empty.setInclusions "users" [.path "messages", .path "_"]).setFilters "messages"
    [withRecipients]
  request := {
    asked := {
      ParameterSet.empty with
      filters := SortedMap.empty.insert ⟨["messages"]⟩ (Filters.empty.insert "delivered" [])
      relations := ["messages", "_"] }
    supplied := .empty
    settings := .standard }

/-- Entries do not say all that is included, nor is every one of them configured: the root is an entry that is
allowed and leads somewhere, and no configuration runs for it; and an operation that includes relations makes a node
that is no beginning of an entry. -/
theorem includes_beyond_entries :
    let plan := deliveredMessages.withRelations (.ofQuery (.ofEntity senders))
    let run := deliveredMessages.configurations deliveredMessages.request.relations (.ofQuery (.ofEntity senders))
    let asked := deliveredMessages.request.relations.filter fun relation =>
      deliveredMessages.registry.allows "users" relation &&
        letterCatalog.resolves "users" (Path.ofText relation).segments
    run.1.map Prod.fst ≠ asked.map Path.ofText ∧
      ¬ ∀ chain ∈ plan.query.chains, ∃ relation ∈ deliveredMessages.request.relations,
        chain <+: (Path.ofText relation).segments := by
  decide

end ResourceQuery.Service
