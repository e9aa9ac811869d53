import Mathlib.Data.List.Perm.Subperm
import ResourceQuery.Proofs.Database.Tables
import ResourceQuery.Proofs.Service.AllowListed
import ResourceQuery.Proofs.Service.FieldProjection
import ResourceQuery.Proofs.Service.Windows

/-!
# Relations that give one row

One statement reads the related rows of all rows that were loaded together, in the order and the window of the path.
Where operations only add predicates and sort keys, a relation that gives one row is therefore null for a row without
a related row, and for one whose related row is beyond the limit (`Service.single_relation_shown`): this takes more
different keys than the limit, which is the usual one where a request sets none (`Service.last_recipient_missing`).
-/
namespace ResourceQuery

variable {σ : Type} {tables : Tables}

namespace Relation

/-- Where no two rows have the same key, a row is the one that has its key. -/
theorem eq_of_childKey? {relation : Relation} {rows : List Json} (unique : (rows.filterMap relation.childKey?).Nodup)
    {first second : Json} (firstMember : first ∈ rows) (secondMember : second ∈ rows) {key : String}
    (firstKey : relation.childKey? first = some key) (secondKey : relation.childKey? second = some key) :
    first = second := by
  induction rows with
  | nil => contradiction
  | cons row rest ih =>
    have apart : ∀ other ∈ rest, relation.childKey? row = some key → relation.childKey? other ≠ some key := by
      intro other member own same
      rw [List.filterMap_cons_some own] at unique
      exact (List.nodup_cons.1 unique).1 (List.mem_filterMap.2 ⟨other, member, same⟩)
    have later : (rest.filterMap relation.childKey?).Nodup :=
      unique.sublist ((List.sublist_cons_self row rest).filterMap _)
    rcases List.mem_cons.1 firstMember with rfl | firstLater <;>
      rcases List.mem_cons.1 secondMember with rfl | secondLater
    · rfl
    · exact absurd secondKey (apart second secondLater firstKey)
    · exact absurd firstKey (apart first firstLater secondKey)
    · exact ih later firstLater secondLater

/-- Where no two rows have the same key, there are no more rows with one of some keys than keys. -/
theorem length_filter_matchesAny_le {relation : Relation} {rows : List Json}
    (unique : (rows.filterMap relation.childKey?).Nodup) (values : List Json) :
    (rows.filter (relation.matchesAny values)).length ≤ values.length := by
  generalize held : rows.filter (relation.matchesAny values) = found
  have keyed : ∀ row ∈ found, ∃ key, relation.childKey? row = some key ∧ key ∈ values.filterMap Json.key? := by
    intro row member
    have matched := (List.mem_filter.1 (held ▸ member)).2
    unfold matchesAny at matched
    split at matched
    · contradiction
    · next key own =>
      obtain ⟨value, listed, same⟩ := List.any_eq_true.1 matched
      exact ⟨key, own, List.mem_filterMap.2 ⟨value, listed, beq_iff_eq.1 same⟩⟩
  have distinct : (found.filterMap relation.childKey?).Nodup :=
    unique.sublist (held ▸ List.filter_sublist.filterMap _)
  have among : found.filterMap relation.childKey? ⊆ values.filterMap Json.key? := by
    intro key member
    obtain ⟨row, listed, own⟩ := List.mem_filterMap.1 member
    obtain ⟨other, otherOwn, present⟩ := keyed row listed
    exact Option.some.inj (own.symm.trans otherOwn) ▸ present
  have every : (found.filterMap relation.childKey?).length = found.length := by
    refine List.filterMap_length_eq_length.2 fun row member => ?_
    obtain ⟨key, own, -⟩ := keyed row member
    rw [own]
    rfl
  calc found.length = (found.filterMap relation.childKey?).length := every.symm
    _ ≤ (values.filterMap Json.key?).length := (List.subperm_of_subset distinct among).length_le
    _ ≤ values.length := List.length_filterMap_le _ _

/-- A row of the target has the key of a row. -/
def Relates (relation : Relation) (parent row : Json) : Prop :=
  ∃ key, relation.parentKey? parent = some key ∧ relation.childKey? row = some key

/-- A relation that does not give many rows gathers the first, or null. -/
theorem gather_of_single {relation : Relation} (single : relation.kind ≠ .many) (children : List Json) :
    relation.gather children = children.headD .null := by
  unfold gather
  cases kind : relation.kind with
  | many => exact absurd kind single
  | one | owner => rfl

/-- Of rows among which no two have the same key, a row with the key of its parent is what is gathered for
the parent if it was loaded; if it was not, nothing is. -/
theorem gather_childrenOf {relation : Relation} (single : relation.kind ≠ .many) {table loaded : List Json}
    (unique : (table.filterMap relation.childKey?).Nodup) (among : loaded ⊆ table) {parent row : Json}
    (listed : row ∈ table) (relates : relation.Relates parent row) (make : Json → Json) :
    (row ∈ loaded → relation.gather ((relation.childrenOf loaded parent).map make) = make row) ∧
      (row ∉ loaded → relation.gather ((relation.childrenOf loaded parent).map make) = .null) := by
  obtain ⟨key, parentKey, childKey⟩ := relates
  have found : relation.childrenOf loaded parent =
      loaded.filter fun child => relation.childKey? child == some key := by
    rw [childrenOf, parentKey]
  have only : ∀ other ∈ relation.childrenOf loaded parent, other = row := by
    intro other member
    rw [found] at member
    obtain ⟨present, own⟩ := List.mem_filter.1 member
    exact eq_of_childKey? unique (among present) listed (beq_iff_eq.1 own) childKey
  rw [gather_of_single single]
  constructor
  · intro present
    have member : row ∈ relation.childrenOf loaded parent := by
      rw [found]
      exact List.mem_filter.2 ⟨present, beq_iff_eq.2 childKey⟩
    cases children : relation.childrenOf loaded parent with
    | nil =>
      rw [children] at member
      contradiction
    | cons first rest =>
      obtain rfl := only first (children ▸ .head rest)
      rfl
  · intro absent
    cases children : relation.childrenOf loaded parent with
    | nil => rfl
    | cons first rest =>
      have member : first ∈ relation.childrenOf loaded parent := children ▸ .head rest
      exact absurd (only first member ▸ relation.childrenOf_subset loaded parent member) absent

end Relation

/-- Where no two rows have the same key and there are no more keys than the limit, every row with the key of a row
of the batch is among its related rows. -/
theorem Tables.Lawful.mem_related (lawful : tables.Lawful) {relation : Relation} {query : Query}
    (unconditional : query.selection.conditions = []) {limit : Nat}
    (limited : query.selection.limit = some limit) (unshifted : query.selection.offset = some 0)
    (unique : ((tables.rows query.selection.table).filterMap relation.childKey?).Nodup) {batch : List Json}
    (few : (relation.joinKeys batch).length ≤ limit) {parent row : Json} (member : parent ∈ batch)
    (listed : row ∈ tables.rows query.selection.table) (relates : relation.Relates parent row) :
    row ∈ tables.related relation query batch := by
  have matched : relation.matchesAny (relation.joinKeys batch) row = true :=
    Relation.matchesAny_joinKeys.2 ⟨parent, member, relates⟩
  have every := lawful.order query.selection.orders
    ((tables.rows query.selection.table).filter (relation.matchesAny (relation.joinKeys batch)))
  have short := every.length_eq.trans_le ((Relation.length_filter_matchesAny_le unique _).trans few)
  rw [lawful.related_eq_take unconditional limited unshifted, List.take_of_length_le short]
  exact every.mem_iff.2 (List.mem_filter.2 ⟨listed, matched⟩)

namespace Service

variable {service : Service}

/-! ### The page of tables -/

/-- A page of rows in tables has the rows that its query loads, as far as the fields keep them. -/
theorem page_of_tables [service.registry.AppendOnly] (lawful : tables.Lawful) {selection : Selection}
    (apart : (service.pagePlan (.node selection [])).query.NodesApart) (every : selection.columns = none) :
    let query := (service.pagePlan (.node selection [])).finish.query
    service.page (Database.answering tables.answer : Database σ).rowSource (.node selection []) =
      pure ⟨(tables.load query []).length, service.request.limit .root, service.request.offset .root,
        (tables.matching query.selection.table query.selection.conditions).length,
        (tables.load query []).map (Json.keep (service.projection selection.entity))⟩ := by
  intro query
  have joins : query.Joins := joins_finish_of_nodes apart every
  have loaded : (Database.answering tables.answer : Database σ).load query =
      settled (.ok ((tables.load query []).map (Json.keep query.kept))) :=
    (Database.loads_of_joins lawful.projecting joins []).eq_of_settled (Tables.loadWhere_eq_load lawful joins [])
  have few : ((tables.matching query.selection.table query.selection.conditions).length : Int) ≤
      Text.int64Max :=
    Int.le_trans (Int.ofNat_le.2 (List.length_filter_le _ _)) (lawful.countable query.selection.table)
  have total : (Database.answering tables.answer : Database σ).total query =
      settled (.ok (tables.matching query.selection.table query.selection.conditions).length) :=
    Database.total_answering rfl few
  have stripped : ((tables.load query []).map (Json.keep query.kept)).map
      (service.pagePlan (.node selection [])).finish.surplus.strip =
        (tables.load query []).map (Json.keep (service.projection selection.entity)) := by
    rw [List.map_map, ← kept_and_rule_of_nodes apart every]
    apply List.map_congr_left
    intro row _
    rw [Function.comp, Surplus.strip_eq_keep, Json.keep_keep]
  rw [page_eq_bind]
  show Outcome.ofSession (Database.load _ query) >>= _ = _
  rw [loaded, ofSession_ok_bind]
  show Outcome.ofSession (Database.total _ query) >>= _ = _
  rw [total, ofSession_ok_bind, stripped, List.length_map]

/-! ### The rows of a relation -/

/-- The rows of a relation meet no predicates in an arranged plan, where its path has no filters. -/
theorem Arranged.conditions_finish [service.registry.AppendOnly] {start : Selection} {held : List String}
    {runs : List Path} {plan : Plan} (arranged : Arranged service start held runs plan) {chain : List String}
    (below : chain ≠ []) (unfiltered : (service.request.filters ⟨chain⟩).entries = []) {own : Selection}
    (found : plan.finish.query.selectionAt? chain = some own) : own.conditions = [] := by
  obtain ⟨reached, leads, -, conditions, -⟩ := arranged.of_mem_nodes_finish
    ((Query.mem_nodes_iff arranged.mirrors.withJoinColumns).2 found)
  have nothing : service.registry.predicates reached.entity (service.request.filters ⟨chain⟩) = [] := by
    rw [Registry.predicates, unfiltered]
    rfl
  have fresh : reached.conditions = [] := by
    rw [← Catalog.bare_of_reach? leads below]
    rfl
  rw [conditions, nothing, fresh, List.flatten_replicate_nil]
  rfl

/-- The rows of a relation are in the order that the sorts of the path make, once for every time that the path was
configured. -/
theorem Arranged.orders_finish [service.registry.AppendOnly] {start : Selection} {held : List String}
    {runs : List Path} {plan : Plan} (arranged : Arranged service start held runs plan) {chain : List String}
    (below : chain ≠ []) {own : Selection}
    (found : plan.finish.query.selectionAt? chain = some own) :
    own.orders = (List.replicate (runs.count ⟨chain⟩)
      (service.registry.sortKeys own.entity (service.request.sort ⟨chain⟩))).flatten := by
  obtain ⟨reached, leads, bare, -, orders⟩ := arranged.of_mem_nodes_finish
    ((Query.mem_nodes_iff arranged.mirrors.withJoinColumns).2 found)
  have fresh : reached.orders = [] := by
    rw [← Catalog.bare_of_reach? leads below]
    rfl
  rw [orders, fresh, Selection.entity_of_bare bare, List.nil_append]

/-- The last relation of an included path is included in the finished query of a page at the chain before it, and
reads the rows of its target in the window of the path. -/
theorem included_in_pagePlan [service.registry.AppendOnly] {selection : Selection} {chain : List String} {name : String}
    (included : ⟨chain ++ [name]⟩ ∈ service.admitted selection.entity service.request.relations)
    {before : List (Relation × Entity)} {relation : Relation} {target : Entity}
    (leads : service.catalog.follow? selection.entity (chain ++ [name]) =
      some (before ++ [(relation, target)])) :
    let query := (service.pagePlan (.node selection [])).finish.query
    ∃ node child, query.at? chain = some node ∧ query.at? (chain ++ [name]) = some child ∧
      (relation, child) ∈ node.includes ∧ relation.name = name ∧ child.selection.table = target.table ∧
      child.selection.entity = target.name ∧ child.selection.window = service.windowAt ⟨chain ++ [name]⟩ := by
  intro query
  have arranged := service.arranged_pagePlan selection
  have finished : query = (service.pagePlan (.node selection [])).query.withJoinColumns := Plan.query_finish _
  have mirrors : query.Mirrors service.catalog := arranged.mirrors.withJoinColumns
  have covered : (query.at? (chain ++ [name])).isSome = true := by
    have planned := isSome_selectionAt?_pagePlan.2 (.inr ⟨_, included, List.prefix_refl (chain ++ [name])⟩)
    rw [Query.selectionAt?, Option.isSome_map] at planned
    rw [finished, Query.at?_withJoinColumns, Option.isSome_map]
    exact planned
  obtain ⟨child, found⟩ := Option.isSome_iff_exists.1 covered
  obtain ⟨node, other, reached, passed, there, member, same, bare, followed⟩ := mirrors.included_of_at? found
  have entity : query.selection.entity = selection.entity := by
    rw [finished, Query.selection_withJoinColumns, arranged.root]
    exact Selection.entity_of_bare ((Selection.bare_foldl_addColumn _ _).trans (bare_arrange _ _ selection))
  rw [entity, leads] at followed
  obtain ⟨-, last⟩ := List.append_inj' (Option.some.inj followed) rfl
  obtain ⟨rfl, rfl⟩ := Prod.mk.inj (List.head_eq_of_cons_eq last)
  have window := arranged.window_finish (Query.selectionAt?_of_at? found)
  rw [if_neg (List.append_ne_nil_of_right_ne_nil chain (List.cons_ne_nil name [])), if_pos included] at window
  have target : child.selection.entity = _ :=
    (Selection.entity_of_bare (bare.trans (Selection.bare_ofRelation _ _).symm)).trans (Selection.entity_ofRelation _ _)
  exact ⟨node, child, there, found, member, same, congrArg Selection.table bare, target, window⟩

/-! ### What objects present -/

/-- An object of an answer presents a row at a chain: of its columns it has those that the fields keep there. A
relation stands in the place of the column of its name. -/
def Presents (service : Service) (entity : String) (chain : List String) (row object : Json) : Prop :=
  object.IsObject ∧ ∀ column, (∀ path ∈ service.admitted entity service.request.relations,
    ¬ chain ++ [column] <+: path.segments) →
      object.member? column = if service.projection entity chain column then row.member? column else none

/-- What the fields keep, at a chain, of a row of a batch with its related rows. -/
def presented (service : Service) (tables : Tables) (entity : String) (chain : List String) (node : Query)
    (batch : List Json) (row : Json) : Json :=
  (tables.complete node batch row).keep fun rest => service.projection entity (chain ++ rest)

/-- The fields keep the relations of included paths. -/
theorem projection_of_included {entity : String} {path : Path}
    (included : path ∈ service.admitted entity service.request.relations) {chain : List String} {name : String}
    (along : chain ++ [name] <+: path.segments) : service.projection entity chain name = true :=
  decide_eq_true fun _ => .inr ⟨path, included, along⟩

/-- Below a column, the fields keep everything. -/
theorem projection_below_column {entity : String} {chain : List String} {column : String}
    (absent : ∀ path ∈ service.admitted entity service.request.relations, ¬ chain ++ [column] <+: path.segments)
    (rest : List String) (name : String) : service.projection entity (chain ++ column :: rest) name = true := by
  refine decide_eq_true fun narrowed => ?_
  rcases (narrows_iff.1 narrowed).2 with root | configured
  · simp at root
  · have longer : chain ++ [column] <+: chain ++ column :: rest := ⟨rest, by simp⟩
    exact absurd longer (absent _ configured)

variable {selection : Selection} {chain : List String} {node : Query}

/-- What is presented of a row presents the row. -/
theorem presents_presented [service.registry.AppendOnly]
    (found : (service.pagePlan (.node selection [])).finish.query.at? chain = some node)
    {row : Json} (shape : row.IsObject) (batch : List Json) :
    service.Presents selection.entity chain row (service.presented tables selection.entity chain node batch row) := by
  rw [Plan.query_finish, Query.at?_withJoinColumns] at found
  obtain ⟨planned, there, rfl⟩ := Option.map_eq_some_iff.1 found
  refine ⟨(Tables.isObject_complete shape).keep _, fun column absent => ?_⟩
  have unrelated : column ∉ planned.withJoinColumns.includes.map Query.includedName := by
    rw [Query.names_withJoinColumns, mem_includes_iff there]
    rintro ⟨path, member, along⟩
    exact absent path member along
  have whole : ∀ value : Json, value.keep (KeepRule.under
      (fun rest => service.projection selection.entity (chain ++ rest)) column) = value :=
    Json.keep_of_always (projection_below_column absent)
  rw [presented, Json.member?_keep, Tables.member?_complete shape unrelated, funext whole, List.append_nil]
  cases row.member? column <;> rfl

/-- What is presented of a row has, under the name of an included relation, what is presented of the related
rows. -/
theorem member?_presented {entity : String} (names : (node.includes.map Query.includedName).Nodup) {row : Json}
    (shape : row.IsObject) {batch : List Json} {relation : Relation} {child : Query}
    (listed : (relation, child) ∈ node.includes) (kept : service.projection entity chain relation.name = true) :
    let loaded := tables.related relation child batch
    (service.presented tables entity chain node batch row).member? relation.name =
      some (relation.gather ((relation.childrenOf loaded row).map
        (service.presented tables entity (chain ++ [relation.name]) child loaded))) := by
  intro loaded
  have keptHere : service.projection entity (chain ++ []) relation.name = true := by
    rw [List.append_nil]
    exact kept
  have below : KeepRule.under (fun rest => service.projection entity (chain ++ rest)) relation.name =
      fun rest => service.projection entity (chain ++ [relation.name] ++ rest) :=
    funext fun rest => congrArg (service.projection entity) (List.append_cons chain relation.name rest)
  rw [presented, Tables.member?_keep_complete names shape listed keptHere, below]
  rfl

/-- The objects of a page of tables at the chain before an included relation are what is presented of the rows that
the chain leads to. -/
theorem objectsAt_page (lawful : tables.Lawful) {query : Query} (joins : query.Joins)
    (there : query.at? chain = some node) {entity : String} {path : Path}
    (included : path ∈ service.admitted entity service.request.relations) (along : chain <+: path.segments) :
    let batch := tables.read query.selection
    ((tables.load query []).map (Json.keep (service.projection entity))).flatMap (Json.objectsAt chain) =
      (batch.flatMap (tables.reached chain query batch)).map
        (service.presented tables entity chain node (tables.level chain query batch)) := by
  intro batch
  rw [tables.load_nil, List.map_map, List.flatMap_map, List.map_flatMap]
  exact flatMap_congr_left fun row member =>
    tables.objectsAt_complete lawful joins there (lawful.isObject_of_mem_read member) fun before name leads =>
      projection_of_included included (leads.trans along)

/-! ### Relations that give one row -/

/-- A relation that gives one row shows it, as far as its one statement reaches, where operations only add predicates
and sort keys. The statement of an included path reads, for all rows that were loaded together at the chain before
it, the first rows up to the limit of the path of those that have one of their keys, in the order that the sorts of
the path make. Every object at the chain presents a row, and where a row of the target
has its key, it has under the name of the relation the object of that row if the row was read, and null if it was
not; it was read if there are no more different keys than the limit. -/
theorem single_relation_shown [service.registry.AppendOnly] (lawful : tables.Lawful) {selection : Selection}
    (every : selection.columns = none)
    (apart : (service.pagePlan (.node selection [])).query.NodesApart) {chain : List String} {name : String}
    (included : ⟨chain ++ [name]⟩ ∈ service.admitted selection.entity service.request.relations)
    {before : List (Relation × Entity)} {relation : Relation} {target : Entity}
    (leads : service.catalog.follow? selection.entity (chain ++ [name]) =
      some (before ++ [(relation, target)]))
    (single : relation.kind ≠ .many)
    (unfiltered : (service.request.filters ⟨chain ++ [name]⟩).entries = [])
    (unshifted : service.request.offset ⟨chain ++ [name]⟩ = 0)
    (unique : ((tables.rows target.table).filterMap relation.childKey?).Nodup) :
    let query := (service.pagePlan (.node selection [])).finish.query
    let batch := tables.read query.selection
    let parents := tables.level chain query batch
    let limit := service.request.limit ⟨chain ++ [name]⟩
    let times := (service.admitted selection.entity service.request.relations).count ⟨chain ++ [name]⟩
    let orders := (List.replicate times
      (service.registry.sortKeys target.name (service.request.sort ⟨chain ++ [name]⟩))).flatten
    let loaded := (tables.order orders ((tables.rows target.table).filter
      (relation.matchesAny (relation.joinKeys parents)))).take limit
    ∃ (page : Page) (shown : Json → Json),
      service.page (Database.answering tables.answer : Database σ).rowSource (.node selection []) = pure page ∧
      page.data.flatMap (Json.objectsAt chain) =
        (batch.flatMap (tables.reached chain query batch)).map shown ∧
      ∀ parent ∈ batch.flatMap (tables.reached chain query batch), parent ∈ parents ∧
        service.Presents selection.entity chain parent (shown parent) ∧
        ∀ row ∈ tables.rows target.table, relation.Relates parent row →
          ((relation.joinKeys parents).length ≤ limit → row ∈ loaded) ∧
          (row ∈ loaded → ∃ object, (shown parent).member? name = some object ∧
            service.Presents selection.entity (chain ++ [name]) row object) ∧
          (row ∉ loaded → (shown parent).member? name = some .null) := by
  intro query batch parents limit times orders loaded
  have answered := page_of_tables (σ := σ) lawful apart every
  have joins : query.Joins := joins_finish_of_nodes apart every
  have arranged := service.arranged_pagePlan selection
  obtain ⟨node, child, there, found, listed, rfl, table, entity, window⟩ := included_in_pagePlan included leads
  have below : chain ++ [relation.name] ≠ [] := by simp
  have unconditional := arranged.conditions_finish below unfiltered (Query.selectionAt?_of_at? found)
  rw [windowAt, unshifted] at window
  have limited : child.selection.limit = some limit := congrArg Prod.fst window
  have first : child.selection.offset = some 0 := congrArg Prod.snd window
  have ordered := arranged.orders_finish below (Query.selectionAt?_of_at? found)
  have read : tables.related relation child parents = loaded := by
    rw [lawful.related_eq_take unconditional limited first parents, table, ordered, entity]
  rw [← read]
  refine ⟨_, service.presented tables selection.entity chain node parents, answered,
    objectsAt_page lawful joins there included (List.prefix_append chain [relation.name]),
    fun parent reached => ?_⟩
  obtain ⟨top, member, further⟩ := List.mem_flatMap.1 reached
  have together : parent ∈ parents := tables.reached_subset_level member further
  have shape : parent.IsObject :=
    lawful.isObject_of_mem_level (fun row member => lawful.isObject_of_mem_read member) together
  have names : (node.includes.map Query.includedName).Nodup := by
    obtain ⟨names, -⟩ := arranged.mirrors.withJoinColumns.at there
    exact names
  have gathered : (service.presented tables selection.entity chain node parents parent).member? relation.name = _ :=
    member?_presented names shape listed (projection_of_included included (List.prefix_refl _))
  have among : tables.related relation child parents ⊆ tables.rows target.table := fun row read =>
    table ▸ (lawful.of_mem_related read).1
  refine ⟨together, presents_presented there shape parents, fun row present relates => ⟨fun few => ?_, ?_⟩⟩
  · rw [← table] at unique present
    exact lawful.mem_related unconditional limited first unique few together present relates
  · obtain ⟨shown, missing⟩ := Relation.gather_childrenOf single unique among present relates
      (service.presented tables selection.entity (chain ++ [relation.name]) child
        (tables.related relation child parents))
    rw [gathered]
    refine ⟨fun read => ⟨_, rfl, ?_⟩, fun unread => congrArg some (missing unread)⟩
    rw [shown read]
    exact presents_presented found (lawful.objects _ row present) _

/-! ### Eleven messages to eleven users -/

/-- Messages to the users whose keys the column `recipient_id` holds. -/
def notes : Entity :=
  (Entity.ofTable "messages" "messages").relateOwner "recipient" "users" "recipient_id" "id"

/-- Eleven messages, each to another user. -/
def elevenNotes : String → List Json
  | "messages" => (List.range' 1 11).map fun number =>
    .ofMembers [("id", .natural number), ("recipient_id", .natural number)]
  | "users" => (List.range' 1 11).map fun number => .ofMembers [("id", .natural number)]
  | _ => []

/-- A request for eleven messages with their recipients. -/
def notesWithRecipients : Service where
  catalog := .insert (.insert .empty notes) (Entity.ofTable "users" "users")
  registry := Registry.empty.setInclusions "messages" [.path "recipient"]
  request := .ofPairs .standard .empty [("with", "recipient"), ("limit", "11")]

/-- The request has no operations. -/
instance : notesWithRecipients.registry.AppendOnly := ⟨Registry.Each.empty.setInclusions "messages" _⟩

/-- The messages and the users are tables. -/
theorem lawful_elevenNotes : (Tables.ofRows elevenNotes).Lawful := by
  refine Tables.lawful_ofRows (fun table row member => ?_) fun table => ?_
  · unfold elevenNotes at member
    split at member
    · obtain ⟨number, -, rfl⟩ := List.mem_map.1 member
      exact Json.isObject_ofMembers _
    · obtain ⟨number, -, rfl⟩ := List.mem_map.1 member
      exact Json.isObject_ofMembers _
    · contradiction
  · unfold elevenNotes
    split <;> decide

/-- The recipient of the last of eleven messages is null although the user is there and the request gives nothing
for the recipients: they are read by one statement for all messages, with the usual limit of ten. -/
theorem last_recipient_missing :
    let recipients : Path := ⟨["recipient"]⟩
    let last := Json.ofMembers [("id", .natural 11), ("recipient_id", .natural 11)]
    let eleventh := Json.ofMembers [("id", .natural 11)]
    (Tables.ofRows elevenNotes).Lawful ∧ notesWithRecipients.catalog.NamesApart ∧
    recipients ∈ notesWithRecipients.admitted "messages" notesWithRecipients.request.relations ∧
    (∃ relation target, notesWithRecipients.catalog.follow? "messages" ["recipient"] = some [(relation, target)] ∧
      relation.kind = .owner ∧ ((elevenNotes target.table).filterMap relation.childKey?).Nodup ∧
      eleventh ∈ elevenNotes target.table ∧ relation.Relates last eleventh) ∧
    (∀ given ∈ [notesWithRecipients.request.asked, notesWithRecipients.request.supplied],
      given.filters.find? recipients = none ∧ given.limits.find? recipients = none ∧
        given.offsets.find? recipients = none) ∧
    notesWithRecipients.page (Database.answering (Tables.ofRows elevenNotes).answer : Database Unit).rowSource
      (.ofEntity notes) = pure ⟨11, 11, 0, 11,
        ((List.range' 1 10).map fun number => .object [("id", .natural number),
          ("recipient", .object [("id", .natural number)]), ("recipient_id", .natural number)]) ++
        [.object [("id", .natural 11), ("recipient", .null), ("recipient_id", .natural 11)]]⟩ := by
  intro recipients last eleventh
  refine ⟨lawful_elevenNotes, Catalog.namesApart_of_entities (by decide), by decide, ?_, by decide, by rfl⟩
  exact ⟨_, _, rfl, rfl, by decide, List.mem_map.2 ⟨11, by decide, rfl⟩, "11", rfl, rfl⟩

/-- Of eleven messages to different users, those to the first ten of the users show them, and the others show null:
ten is the usual limit. -/
theorem first_recipients_shown :
    let tables := Tables.ofRows elevenNotes
    let recipient : Relation := ⟨"recipient", "users", .owner, "recipient_id", "id"⟩
    let recipients : Path := ⟨["recipient"]⟩
    let loaded := (elevenNotes "users").take 10
    notesWithRecipients.registry.AppendOnly ∧ tables.Lawful ∧
    (notesWithRecipients.pagePlan (.ofEntity notes)).query.NodesApart ∧
    recipients ∈ notesWithRecipients.admitted "messages" notesWithRecipients.request.relations ∧
    recipient.kind ≠ .many ∧ (notesWithRecipients.request.filters recipients).entries = [] ∧
    notesWithRecipients.request.offset recipients = 0 ∧
    ((elevenNotes "users").filterMap recipient.childKey?).Nodup ∧
    ∃ (page : Page) (shown : Json → Json),
      notesWithRecipients.page (Database.answering tables.answer : Database Unit).rowSource
        (.ofEntity notes) = pure page ∧
      page.data = (elevenNotes "messages").map shown ∧
      ∀ message ∈ elevenNotes "messages", ∀ user ∈ elevenNotes "users", recipient.Relates message user →
        (user ∈ loaded → ∃ object, (shown message).member? "recipient" = some object ∧
          notesWithRecipients.Presents "messages" ["recipient"] user object) ∧
        (user ∉ loaded → (shown message).member? "recipient" = some .null) := by
  intro tables recipient recipients loaded
  have apart : notesWithRecipients.catalog.NamesApart := Catalog.namesApart_of_entities (by decide)
  have included : recipients ∈ notesWithRecipients.admitted notes.name notesWithRecipients.request.relations := by
    decide
  have leads : notesWithRecipients.catalog.follow? notes.name ([] ++ ["recipient"]) =
      some ([] ++ [(recipient, Entity.ofTable "users" "users")]) := rfl
  have single : recipient.kind ≠ .many := by decide
  have unfiltered : (notesWithRecipients.request.filters recipients).entries = [] := by decide
  have unshifted : notesWithRecipients.request.offset recipients = 0 := by decide
  have unique : ((elevenNotes "users").filterMap recipient.childKey?).Nodup := by decide
  have known : notesWithRecipients.catalog.entity? notes.name = some notes := by decide
  have nodes : (notesWithRecipients.pagePlan (.ofEntity notes)).query.NodesApart :=
    nodesApart_pagePlan rfl known apart
  obtain ⟨page, shown, answered, objects, each⟩ := single_relation_shown (σ := Unit)
    lawful_elevenNotes rfl nodes included leads single unfiltered unshifted unique
  have alone : ∀ rows : List Json, (rows.flatMap fun row => [row]) = rows := List.flatMap_singleton'
  have data : page.data = (elevenNotes "messages").map shown := by
    rw [← alone page.data, ← alone (elevenNotes "messages")]
    exact objects
  have matched : (elevenNotes "users").filter (recipient.matchesAny (recipient.joinKeys (elevenNotes "messages"))) =
      elevenNotes "users" := List.filter_eq_self.2 (by decide +kernel)
  have read : loaded = ((elevenNotes "users").filter
      (recipient.matchesAny (recipient.joinKeys (elevenNotes "messages")))).take 10 :=
    congrArg (List.take 10) matched.symm
  refine ⟨inferInstance, lawful_elevenNotes, nodes, included, single, unfiltered, unshifted, unique, page, shown,
    answered, data, fun message member user listed relates => ?_⟩
  have reached : message ∈ (elevenNotes "messages").flatMap fun row => [row] := (alone _).symm ▸ member
  obtain ⟨-, -, related⟩ := each message reached
  rw [read]
  exact (related user listed relates).2

end Service

end ResourceQuery
