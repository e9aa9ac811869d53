import ResourceQuery.Proofs.Database.RowByRow

/-!
# Answers from tables

A database that keeps tables answers a statement with the rows of a table that meet its predicates, in its
order, as far as they are in its window, and with their number (`Tables.answer`). What decides whether a row
meets a predicate, and how rows are ordered, is the database's own; of the first only this counts here, that
the predicate on join keys picks the rows with one of the keys (`Tables.Lawful`).

A query loaded from tables gives the rows of its own selection, each completed with its related rows
(`Tables.complete`): these are found among the rows that the relation's statement reads for all rows loaded
together (`loadWhere_eq_complete`).
-/
namespace ResourceQuery

/-- Tables of rows, with what decides whether a row meets a predicate and how rows are ordered. -/
structure Tables where
  /-- The rows of a table. -/
  rows : String → List Json
  /-- The row meets the predicate. -/
  meets : Predicate → Json → Bool
  /-- Rows in the order of sort keys. -/
  order : List SortKey → List Json → List Json

/-- The rows in a window: those after the offset, and no more than the limit. -/
def inWindow (limit offset : Option Nat) (rows : List Json) : List Json :=
  match limit with
  | some count => (rows.drop (offset.getD 0)).take count
  | none => rows.drop (offset.getD 0)

/-- Rows in a window are rows. -/
theorem inWindow_sublist (limit offset : Option Nat) (rows : List Json) :
    (inWindow limit offset rows).Sublist rows := by
  unfold inWindow
  cases limit with
  | none => exact List.drop_sublist _ rows
  | some count => exact (List.take_sublist count _).trans (List.drop_sublist _ rows)

/-- Functions that agree on a list flatten it alike. -/
theorem flatMap_congr_left {α β : Type} {left right : α → List β} {items : List α}
    (same : ∀ item ∈ items, left item = right item) : items.flatMap left = items.flatMap right := by
  rw [List.flatMap_def, List.flatMap_def, List.map_congr_left same]

/-! ### Objects along a chain -/

/-- The objects in a value: those of an array, or one alone. -/
def Json.objects : Json → List Json
  | .array items => items
  | .object members => [.object members]
  | _ => []

/-- The objects in a value at the end of a chain of names. -/
def Json.objectsAt : List String → Json → List Json
  | [], json => [json]
  | name :: rest, json => (((json.member? name).map objects).getD []).flatMap (objectsAt rest)

namespace Relation

/-- The related rows that a row shows: all of them, or the first. -/
def shown (relation : Relation) (children : List Json) : List Json :=
  match relation.kind with
  | .many => children
  | .one | .owner => children.take 1

/-- What a row shows is related to it. -/
theorem shown_subset (relation : Relation) (children : List Json) : relation.shown children ⊆ children := by
  unfold shown
  cases relation.kind with
  | many => exact List.Subset.refl children
  | one | owner => exact List.take_subset 1 children

/-- What is shown of changed rows is what changes make of those that are shown. -/
theorem shown_map (relation : Relation) (change : Json → Json) (children : List Json) :
    relation.shown (children.map change) = (relation.shown children).map change := by
  unfold shown
  cases relation.kind with
  | many => rfl
  | one | owner => exact List.map_take.symm

/-- Gathered objects are those that are shown. -/
theorem objects_gather (relation : Relation) {children : List Json}
    (shapes : ∀ child ∈ children, child.IsObject) :
    (relation.gather children).objects = relation.shown children := by
  unfold gather shown
  cases relation.kind with
  | many => rfl
  | one | owner =>
    cases children with
    | nil => rfl
    | cons child rest =>
      obtain ⟨members, -, rfl⟩ := shapes child (.head rest)
      rfl

/-- The related rows of a row are among those that were loaded. -/
theorem childrenOf_subset (relation : Relation) (related : List Json) (row : Json) :
    relation.childrenOf related row ⊆ related := by
  unfold childrenOf
  cases relation.parentKey? row with
  | none => exact List.nil_subset related
  | some key => exact List.filter_sublist.subset

end Relation

namespace Tables

variable {σ : Type} {tables : Tables}

/-- The rows of a table that meet every condition. -/
def matching (tables : Tables) (table : String) (conditions : List Predicate) : List Json :=
  (tables.rows table).filter fun row => conditions.all fun condition => tables.meets condition row

/-- The rows that a selection reads, with all their columns. -/
def read (tables : Tables) (selection : Selection) : List Json :=
  inWindow selection.limit selection.offset
    (tables.order selection.orders (tables.matching selection.table selection.conditions))

/-- The answer to a statement. -/
def answer (tables : Tables) : Statement → Except DatabaseError (List Json)
  | .rows columns table conditions orders limit offset =>
    .ok ((inWindow limit offset (tables.order orders (tables.matching table conditions))).map
      (Json.select columns))
  | .count table conditions =>
    .ok [.ofMembers [("count", .natural (tables.matching table conditions).length)]]

/-- What is relied on: rows are objects, no table has more rows than 64 bits count, ordering permutes rows,
and the predicate on join keys picks the rows that have one of the keys. -/
structure Lawful (tables : Tables) : Prop where
  /-- Every row is an object. -/
  objects : ∀ table, ∀ row ∈ tables.rows table, row.IsObject
  /-- The number of rows is an integer of 64 bits. -/
  countable : ∀ table, ((tables.rows table).length : Int) ≤ Text.int64Max
  /-- Ordering loses no row and makes none. -/
  order : ∀ keys rows, (tables.order keys rows).Perm rows
  /-- A row meets the predicate on keys when it has one of them. -/
  keys : ∀ (relation : Relation) keys row,
    tables.meets (relation.joinPredicate keys) row = relation.matchesAny keys row

/-- A row that is read is one of the table that meets the conditions. -/
theorem Lawful.of_mem_read (lawful : tables.Lawful) {selection : Selection} {row : Json}
    (member : row ∈ tables.read selection) : row ∈ tables.matching selection.table selection.conditions :=
  (lawful.order _ _).mem_iff.1 ((inWindow_sublist _ _ _).mem member)

/-- The rows that are read are objects. -/
theorem Lawful.isObject_of_mem_read (lawful : tables.Lawful) {selection : Selection} {row : Json}
    (member : row ∈ tables.read selection) : row.IsObject :=
  lawful.objects _ row (List.mem_filter.1 (lawful.of_mem_read member)).1

/-- The statement of a selection of every column gives the rows that it reads. -/
theorem answer_unrestrict (tables : Tables) (selection : Selection) :
    tables.answer selection.unrestrict.rowsStatement = .ok (tables.read selection) :=
  congrArg Except.ok (List.map_id _)

/-- Column lists project the rows of tables. -/
theorem Lawful.projecting (lawful : tables.Lawful) : Projecting tables.answer where
  objects statement rows answered row member := by
    cases statement with
    | rows columns table conditions orders limit offset =>
      obtain rfl := Except.ok.inj answered
      obtain ⟨whole, listed, rfl⟩ := List.mem_map.1 member
      have shape : whole.IsObject := lawful.objects table whole
        (List.mem_filter.1 ((lawful.order _ _).mem_iff.1 ((inWindow_sublist _ _ _).mem listed))).1
      cases columns with
      | none => exact shape
      | some names => exact shape.project names
    | count table conditions =>
      obtain rfl := Except.ok.inj answered
      obtain rfl := List.mem_singleton.1 member
      exact Json.isObject_ofMembers _
  columns names table conditions orders limit offset := by
    simp only [answer, Except.map, List.map_map]
    rfl

/-! ### Rows with their related rows -/

/-- The rows that the statement of a relation reads for all rows of a batch. -/
def related (tables : Tables) (relation : Relation) (query : Query) (batch : List Json) : List Json :=
  tables.read (query.selection.filterBy [relation.joinPredicate (relation.joinKeys batch)])

mutual

/-- A row of a batch with the related rows of every included relation. -/
def complete (tables : Tables) : Query → List Json → Json → Json
  | .node _ includes, batch, row => completeAll tables includes batch row row

/-- What was made of a row of a batch, with the related rows of every included relation in turn. -/
def completeAll (tables : Tables) : List (Relation × Query) → List Json → Json → Json → Json
  | [], _, _, made => made
  | (relation, query) :: rest, batch, row, made =>
    let loaded := tables.related relation query batch
    completeAll tables rest batch row (made.setMember relation.name
      (relation.gather ((relation.childrenOf loaded row).map (complete tables query loaded))))

end

/-- The member that a relation gives a row of a batch. -/
def relatedMember (tables : Tables) (relation : Relation) (query : Query) (batch : List Json) (row : Json) : Json :=
  relation.gather ((relation.childrenOf (tables.related relation query batch) row).map
    (tables.complete query (tables.related relation query batch)))

/-- The related rows of a first relation are set before those of the others. -/
theorem completeAll_cons (tables : Tables) (relation : Relation) (query : Query)
    (rest : List (Relation × Query)) (batch : List Json) (row made : Json) :
    tables.completeAll ((relation, query) :: rest) batch row made =
      tables.completeAll rest batch row
        (made.setMember relation.name (tables.relatedMember relation query batch row)) := by
  rw [completeAll]
  rfl

/-- What is completed stays an object. -/
theorem isObject_completeAll {includes : List (Relation × Query)} {batch : List Json} {row made : Json}
    (shape : made.IsObject) : (tables.completeAll includes batch row made).IsObject := by
  induction includes generalizing made with
  | nil =>
    rw [completeAll]
    exact shape
  | cons included rest ih =>
    rw [completeAll_cons]
    exact ih (shape.setMember _ _)

/-- A completed row is an object. -/
theorem isObject_complete {query : Query} {batch : List Json} {row : Json} (shape : row.IsObject) :
    (tables.complete query batch row).IsObject := by
  obtain ⟨selection, includes⟩ := query
  rw [complete]
  exact isObject_completeAll shape

/-- The members that are not named as included relations stay. -/
theorem member?_completeAll {includes : List (Relation × Query)} {batch : List Json} {row made : Json}
    (shape : made.IsObject) {name : String} (absent : name ∉ includes.map Query.includedName) :
    (tables.completeAll includes batch row made).member? name = made.member? name := by
  induction includes generalizing made with
  | nil => rw [completeAll]
  | cons included rest ih =>
    obtain ⟨relation, query⟩ := included
    have other : name ≠ relation.name := fun same => absent (same ▸ .head _)
    rw [completeAll_cons, ih (shape.setMember _ _) fun later => absent (.tail _ later),
      Json.member?_setMember shape, if_neg other]

/-- The columns of a completed row are those of the row, unless a relation is named as they are. -/
theorem member?_complete {query : Query} {batch : List Json} {row : Json} (shape : row.IsObject)
    {name : String} (absent : name ∉ query.includes.map Query.includedName) :
    (tables.complete query batch row).member? name = row.member? name := by
  obtain ⟨selection, includes⟩ := query
  rw [complete]
  exact member?_completeAll shape absent

/-- Each included relation has its member. -/
theorem member?_completeAll_of_mem {includes : List (Relation × Query)}
    (names : (includes.map Query.includedName).Nodup) {batch : List Json} {row made : Json}
    (shape : made.IsObject) {relation : Relation} {query : Query} (member : (relation, query) ∈ includes) :
    (tables.completeAll includes batch row made).member? relation.name =
      some (tables.relatedMember relation query batch row) := by
  induction includes generalizing made with
  | nil => contradiction
  | cons included rest ih =>
    obtain ⟨other, child⟩ := included
    obtain ⟨fresh, others⟩ := List.nodup_cons.1 names
    rw [completeAll_cons]
    rcases List.mem_cons.1 member with same | member
    · obtain ⟨rfl, rfl⟩ := Prod.mk.inj same
      have fresh : relation.name ∉ rest.map Query.includedName := fresh
      rw [member?_completeAll (shape.setMember _ _) fresh, Json.member?_setMember shape, if_pos rfl]
    · exact ih others (shape.setMember _ _) member

/-- A completed row has the member of each included relation. -/
theorem member?_complete_of_mem {query : Query} (names : (query.includes.map Query.includedName).Nodup)
    {batch : List Json} {row : Json} (shape : row.IsObject) {relation : Relation} {child : Query}
    (member : (relation, child) ∈ query.includes) :
    (tables.complete query batch row).member? relation.name =
      some (tables.relatedMember relation child batch row) := by
  obtain ⟨selection, includes⟩ := query
  rw [complete]
  exact member?_completeAll_of_mem names shape member

/-! ### Loading from tables -/

/-- The rows that a query loads where it also meets some predicates, each completed. -/
def load (tables : Tables) (query : Query) (added : List Predicate) : List Json :=
  let batch := tables.read (query.selection.filterBy added)
  batch.map (tables.complete query batch)

/-- Where nothing more is asked, the rows that a query loads are those that its selection reads. -/
theorem load_nil (tables : Tables) (query : Query) : tables.load query [] =
    (tables.read query.selection).map (tables.complete query (tables.read query.selection)) := by
  rw [load, Selection.filterBy, List.append_nil]

/-- Related rows are rows of the table that have one of the keys. -/
theorem Lawful.of_mem_related (lawful : tables.Lawful) {relation : Relation} {query : Query}
    {batch : List Json} {row : Json} (member : row ∈ tables.related relation query batch) :
    row ∈ tables.rows query.selection.table ∧ relation.matchesAny (relation.joinKeys batch) row = true := by
  obtain ⟨listed, meets⟩ := List.mem_filter.1 (lawful.of_mem_read member)
  have last := List.all_eq_true.1 meets _ (List.mem_append_right _ (List.mem_singleton.2 rfl))
  exact ⟨listed, lawful.keys relation _ row ▸ last⟩

/-- The related rows of a batch are those with one of its keys, in their order and up to the limit, where
nothing else is asked of them and none is passed over. -/
theorem Lawful.related_eq_take (lawful : tables.Lawful) {relation : Relation} {query : Query}
    (unconditional : query.selection.conditions = []) {limit : Nat}
    (limited : query.selection.limit = some limit) (unshifted : query.selection.offset = some 0)
    (batch : List Json) :
    tables.related relation query batch = (tables.order query.selection.orders
      ((tables.rows query.selection.table).filter (relation.matchesAny (relation.joinKeys batch)))).take limit := by
  have matching : tables.matching query.selection.table [relation.joinPredicate (relation.joinKeys batch)] =
      (tables.rows query.selection.table).filter (relation.matchesAny (relation.joinKeys batch)) := by
    simp only [matching, List.all_cons, List.all_nil, Bool.and_true, lawful.keys]
  simp only [related, read, Selection.filterBy, unconditional, limited, unshifted, List.nil_append, matching]
  rfl

/-- Rows without a key have no related rows. -/
theorem Lawful.related_eq_nil (lawful : tables.Lawful) {relation : Relation} {query : Query}
    {batch : List Json} (keyless : relation.joinKeys batch = []) :
    tables.related relation query batch = [] := by
  refine List.eq_nil_iff_forall_not_mem.2 fun row member => ?_
  have meets := (lawful.of_mem_related member).2
  rw [keyless, Relation.matchesAny] at meets
  split at meets <;> contradiction

/-- The related rows of a batch are loaded by the keys of its rows. -/
theorem related_answering (lawful : tables.Lawful) {relation : Relation} {query : Query}
    (loads : ∀ added, (Database.answering tables.answer : Database σ).loadWhere added query.unrestrict =
      settled (.ok (tables.load query added))) (batch : List Json) :
    (Database.answering tables.answer : Database σ).related relation query.unrestrict
        (relation.joinKeys batch) = settled (.ok ((tables.related relation query batch).map
          (tables.complete query (tables.related relation query batch)))) := by
  unfold Database.related
  split
  · next keyless =>
    rw [lawful.related_eq_nil (List.isEmpty_iff.1 keyless)]
    rfl
  · exact loads _

/-- Attaching related rows to what was made of the rows of a batch completes these, if the included queries
load completed rows. -/
theorem attachAll_eq_completeAll (lawful : tables.Lawful) {includes : List (Relation × Query)}
    (parents : ∀ included ∈ includes, included.1.parentColumn ∉ includes.map Query.includedName)
    (children : ∀ included ∈ includes,
      included.1.childColumn ∉ included.2.includes.map Query.includedName)
    (loads : ∀ included ∈ includes, ∀ added,
      (Database.answering tables.answer : Database σ).loadWhere added included.2.unrestrict =
        settled (.ok (tables.load included.2 added)))
    {batch : List Json} {make : Json → Json} (shapes : ∀ row ∈ batch, (make row).IsObject)
    (kept : ∀ included ∈ includes, ∀ row ∈ batch,
      (make row).member? included.1.parentColumn = row.member? included.1.parentColumn) :
    (Database.answering tables.answer : Database σ).attachAll (Query.unrestrictAll includes)
        (batch.map make) =
      settled (.ok (batch.map fun row => tables.completeAll includes batch row (make row))) := by
  induction includes generalizing make with
  | nil =>
    simp only [Query.unrestrictAll, Database.attachAll, completeAll]
    rfl
  | cons included rest ih =>
    obtain ⟨relation, query⟩ := included
    have own := kept (relation, query) (.head rest)
    have columns : ∀ child ∈ tables.related relation query batch,
        (tables.complete query (tables.related relation query batch) child).member? relation.childColumn =
          child.member? relation.childColumn := fun child member =>
      member?_complete (lawful.isObject_of_mem_read member) (children (relation, query) (.head rest))
    have attached : (batch.map make).map (relation.attach ((tables.related relation query batch).map
        (tables.complete query (tables.related relation query batch)))) =
          batch.map fun row => (make row).setMember relation.name
            (tables.relatedMember relation query batch row) := by
      rw [List.map_map]
      refine List.map_congr_left fun row member => ?_
      rw [Function.comp, Relation.attach, Relation.childrenOf_map (own row member) columns]
      rfl
    rw [Query.unrestrictAll, Database.attachAll_cons, Relation.joinKeys_map own,
      related_answering lawful (loads (relation, query) (.head rest))]
    show (Database.answering tables.answer : Database σ).attachAll (Query.unrestrictAll rest) _ = _
    rw [attached]
    simp only [completeAll_cons]
    refine ih (fun included member named => parents included (.tail _ member) (.tail _ named))
      (fun included member => children included (.tail _ member))
      (fun included member => loads included (.tail _ member))
      (fun row member => (shapes row member).setMember _ _) fun included member row listed => ?_
    have apart : included.1.parentColumn ≠ relation.name := fun same =>
      parents included (.tail _ member) (same ▸ .head _)
    rw [Json.member?_setMember (shapes row listed), if_neg apart]
    exact kept included (.tail _ member) row listed

/-- A query loads from tables the rows that it reads, each completed. -/
theorem loadWhere_eq_load (lawful : tables.Lawful) {query : Query} (joins : query.Joins)
    (added : List Predicate) :
    (Database.answering tables.answer : Database σ).loadWhere added query.unrestrict =
      settled (.ok (tables.load query added)) := by
  induction joins generalizing added with
  | @node selection includes names parents children below ih =>
    let batch := tables.read (selection.filterBy added)
    have shapes : ∀ row ∈ batch, row.IsObject := fun row member => lawful.isObject_of_mem_read member
    have attached : (Database.answering tables.answer : Database σ).attachAll (Query.unrestrictAll includes)
        (batch.map id) = settled (.ok (batch.map fun row => tables.completeAll includes batch row row)) :=
      attachAll_eq_completeAll lawful (fun included member => (parents included member).2)
        (fun included member => (children included member).2) ih shapes fun _ _ _ _ => rfl
    have completed : (fun row => tables.completeAll includes batch row row) =
        tables.complete (.node selection includes) batch := by
      funext row
      rw [complete]
    have read := tables.answer_unrestrict (selection.filterBy added)
    rw [List.map_id, completed] at attached
    rw [Query.unrestrict, Database.loadWhere]
    show settled (tables.answer (selection.filterBy added).unrestrict.rowsStatement) >>= _ = _
    rw [read]
    exact attached

/-! ### Rows along a chain -/

/-- The rows that are loaded together at the end of a chain of relation names, from a batch on. -/
def level (tables : Tables) : List String → Query → List Json → List Json
  | [], _, batch => batch
  | name :: rest, query, batch =>
    match query.includes.find? fun included => included.1.name = name with
    | some (relation, child) => tables.level rest child (tables.related relation child batch)
    | none => []

/-- The rows at the end of a chain of relation names that a row of a batch leads to. -/
def reached (tables : Tables) : List String → Query → List Json → Json → List Json
  | [], _, _, row => [row]
  | name :: rest, query, batch, row =>
    match query.includes.find? fun included => included.1.name = name with
    | some (relation, child) =>
      let loaded := tables.related relation child batch
      (relation.shown (relation.childrenOf loaded row)).flatMap (tables.reached rest child loaded)
    | none => []

/-- The rows that are loaded together are objects. -/
theorem Lawful.isObject_of_mem_level (lawful : tables.Lawful) {chain : List String} {query : Query}
    {batch : List Json} (shapes : ∀ row ∈ batch, row.IsObject) {row : Json}
    (member : row ∈ tables.level chain query batch) : row.IsObject := by
  induction chain generalizing query batch with
  | nil => exact shapes row member
  | cons name rest ih =>
    rw [level] at member
    split at member
    · exact ih (fun row listed => lawful.isObject_of_mem_read listed) member
    · contradiction

/-- What a row leads to is loaded with what the other rows of its batch lead to. -/
theorem reached_subset_level {chain : List String} {query : Query} {batch : List Json} {row : Json}
    (member : row ∈ batch) : tables.reached chain query batch row ⊆ tables.level chain query batch := by
  induction chain generalizing query batch row with
  | nil =>
    intro found here
    obtain rfl := List.mem_singleton.1 here
    exact member
  | cons name rest ih =>
    intro found leads
    rw [reached] at leads
    rw [level]
    split at leads
    · next relation child first =>
      obtain ⟨own, shown, further⟩ := List.mem_flatMap.1 leads
      exact ih (relation.childrenOf_subset _ _ (relation.shown_subset _ shown)) further
    · contradiction

/-- A chain that begins with an included relation goes on from its related rows. -/
theorem level_cons {query : Query} {name : String} {relation : Relation} {child : Query}
    (first : query.includes.find? (fun included => included.1.name = name) = some (relation, child))
    (rest : List String) (batch : List Json) : tables.level (name :: rest) query batch =
      tables.level rest child (tables.related relation child batch) := by rw [level, first]

/-- A chain that begins with an included relation goes on from the related rows that are shown. -/
theorem reached_cons {query : Query} {name : String} {relation : Relation} {child : Query}
    (first : query.includes.find? (fun included => included.1.name = name) = some (relation, child))
    (rest : List String) (batch : List Json) (row : Json) : tables.reached (name :: rest) query batch row =
      (relation.shown (relation.childrenOf (tables.related relation child batch) row)).flatMap
        (tables.reached rest child (tables.related relation child batch)) := by rw [reached, first]

/-- What is kept of a completed row has, under the name of an included relation, what is kept of the completed
related rows. -/
theorem member?_keep_complete {query : Query} (names : (query.includes.map Query.includedName).Nodup)
    {batch : List Json} {row : Json} (shape : row.IsObject) {relation : Relation} {child : Query}
    (included : (relation, child) ∈ query.includes) {rule : KeepRule} (kept : rule [] relation.name = true) :
    let loaded := tables.related relation child batch
    ((tables.complete query batch row).keep rule).member? relation.name =
      some (relation.gather ((relation.childrenOf loaded row).map fun own =>
        (tables.complete child loaded own).keep (rule.under relation.name))) := by
  intro loaded
  have gathered : relation.gather ((relation.childrenOf loaded row).map fun own =>
      (tables.complete child loaded own).keep (rule.under relation.name)) =
        (tables.relatedMember relation child batch row).keep (rule.under relation.name) := by
    rw [relatedMember, ← Relation.gather_map, List.map_map]
    rfl
  rw [Json.member?_keep, if_pos kept, member?_complete_of_mem names shape included, gathered]
  rfl

/-- The objects that completed related rows make are those of the rows that are shown. -/
theorem objects_gather_complete (lawful : tables.Lawful) (relation : Relation) (child : Query)
    (batch : List Json) (row : Json) (rule : KeepRule) :
    let loaded := tables.related relation child batch
    (relation.gather ((relation.childrenOf loaded row).map fun own =>
      (tables.complete child loaded own).keep rule)).objects =
        (relation.shown (relation.childrenOf loaded row)).map fun own =>
          (tables.complete child loaded own).keep rule := by
  intro loaded
  rw [relation.objects_gather, relation.shown_map]
  intro made listed
  obtain ⟨own, related, rfl⟩ := List.mem_map.1 listed
  have shape : own.IsObject := lawful.isObject_of_mem_read (relation.childrenOf_subset loaded row related)
  exact (isObject_complete shape).keep rule

/-- The objects at the end of a chain in what is kept of a completed row are what is kept of the completed
rows that it leads to, if the relations of the chain are kept. -/
theorem objectsAt_complete (lawful : tables.Lawful) {chain : List String} {query node : Query}
    (joins : query.Joins) (found : query.at? chain = some node) {batch : List Json} {row : Json}
    (shape : row.IsObject) {rule : KeepRule}
    (kept : ∀ before name, before ++ [name] <+: chain → rule before name = true) :
    ((tables.complete query batch row).keep rule).objectsAt chain =
      (tables.reached chain query batch row).map fun row =>
        (tables.complete node (tables.level chain query batch) row).keep fun rest => rule (chain ++ rest) := by
  induction chain generalizing query batch row rule with
  | nil =>
    obtain rfl := Option.some.inj found
    rfl
  | cons name rest ih =>
    rw [Query.at?_cons] at found
    obtain ⟨child, named, further⟩ := Option.bind_eq_some_iff.1 found
    obtain ⟨⟨relation, child⟩, first, rfl⟩ := Option.map_eq_some_iff.1 named
    obtain rfl := Query.name_of_find? first
    have included := List.mem_of_find?_eq_some first
    obtain ⟨names, below⟩ : (query.includes.map Query.includedName).Nodup ∧ child.Joins := by
      obtain ⟨names, -, -, below⟩ := joins
      exact ⟨names, below _ included⟩
    have member : ((tables.complete query batch row).keep rule).member? relation.name = _ :=
      member?_keep_complete names shape included (kept [] relation.name ⟨rest, rfl⟩)
    rw [Json.objectsAt, member, Option.map_some, Option.getD_some, objects_gather_complete lawful,
      level_cons first, reached_cons first, List.flatMap_map, List.map_flatMap]
    refine flatMap_congr_left fun own listed => ih below further ?_ fun before name leads =>
      kept (relation.name :: before) name ((List.prefix_cons_inj relation.name).2 leads)
    exact lawful.isObject_of_mem_read (relation.childrenOf_subset _ row (relation.shown_subset _ listed))

/-! ### Tables of listed rows -/

/-- The tables of which rows are looked up by key and given in the order in which they are listed. -/
def ofRows (rows : String → List Json) : Tables := ⟨rows, Predicate.listsKeyOf, fun _ => id⟩

/-- Lists of objects make tables. -/
theorem lawful_ofRows {rows : String → List Json} (objects : ∀ table, ∀ row ∈ rows table, row.IsObject)
    (countable : ∀ table, ((rows table).length : Int) ≤ Text.int64Max) : (ofRows rows).Lawful where
  objects := objects
  countable := countable
  order _ rows := List.Perm.refl rows
  keys _ _ _ := rfl

end Tables

end ResourceQuery
