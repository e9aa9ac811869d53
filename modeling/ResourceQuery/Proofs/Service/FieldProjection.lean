import ResourceQuery.Proofs.Service.PageNodes
import ResourceQuery.Proofs.Surplus.Strip

/-!
# Fields are a projection

A request with fields gets the page of the same request without any (`Service.withoutFields`), except
that the objects at the root and at every included path with fields keep only these and their included
relations (`Service.projection`): `page_eq_projection`. The columns that are selected only to identify
and match rows are gone, and nothing else of the page depends on the fields.
-/
namespace ResourceQuery.Service

variable {service : Service} {σ : Type}

/-- The same request without any fields. -/
def withoutFields (service : Service) : Service :=
  { service with request := { service.request with
      asked := { service.request.asked with fields := .empty }
      supplied := { service.request.supplied with fields := .empty } } }

/-- What the fields of a request keep of the objects at a chain: where fields are named for the root or a
configured path, these and the relations included there; everything elsewhere. -/
def projection (service : Service) (entity : String) : KeepRule := fun chain name =>
  decide (service.narrows entity chain = true → name ∈ service.request.fields ⟨chain⟩ ∨
    ∃ path ∈ service.admitted entity service.request.relations, chain ++ [name] <+: path.segments)

/-! ### The query without fields -/

/-- Without fields the operations are the same. -/
instance (service : Service) [own : service.registry.AppendOnly] : service.withoutFields.registry.AppendOnly := own

/-- Without fields a selection is arranged as it would be with them, up to its columns. -/
theorem arrange_withoutFields (service : Service) [service.registry.AppendOnly] (path : Path)
    (selection : Selection) : service.withoutFields.arrange path selection.unrestrict =
      (service.arrange path selection).unrestrict := by
  obtain ⟨columns, shape⟩ := Selection.restrictTo_eq (service.request.fields path)
    ((selection.orderBy (service.registry.sortKeys selection.entity (service.request.sort path))).filterBy
      (service.registry.predicates selection.entity (service.request.filters path)))
  rw [arrange_eq, arrange_eq, narrow, narrow, shape]
  rfl

/-- Grafting a configured query onto a plan makes it the query of the plan. -/
theorem query_graft {α : Type} (plan : Plan) (path : Path)
    (configured : Option (Option (α × Surplus) × Query)) :
    (plan.graft path configured).2.query = (configured.map Prod.snd).getD plan.query := by
  match configured with
  | none => rfl
  | some (none, _) => rfl
  | some (some _, _) => rfl

section AppendOnly

variable [service.registry.AppendOnly]

/-- Without fields a plan includes a relation as it would with them, up to columns. -/
theorem withRelation_withoutFields {plan other : Plan} (same : other.query = plan.query.unrestrict)
    (relation : String) : (service.withoutFields.withRelation other relation).query =
      (service.withRelation plan relation).query.unrestrict := by
  have entity : other.entity = plan.entity := by
    rw [Plan.entity, same, Query.selection_unrestrict]
    rfl
  have agree : ∀ query : Query,
      (Plan.onQuery (fun nested => ((), service.withoutFields.configure (Path.ofText relation) nested))
        query.unrestrict).2 =
      (Plan.onQuery (fun nested => ((), service.configure (Path.ofText relation) nested))
        query).2.unrestrict := by
    intro query
    obtain ⟨selection, includes⟩ := query
    unfold Plan.onQuery
    rw [query_configure, query_configure, Plan.ofQuery, Plan.ofQuery, Query.unrestrict,
      Query.mapSelection, Query.mapSelection, arrange_withoutFields, Query.unrestrict]
  have configured := Query.configure?_unrestrict service.catalog agree (Path.ofText relation).segments
    plan.query
  unfold withRelation
  rw [Plan.withRelation_eq, Plan.withRelation_eq, entity]
  show (if service.registry.allows plan.entity relation then _ else _ : Option Unit × Plan).2.query = _
  split
  · rw [query_graft, query_graft, same]
    show (Option.map Prod.snd (plan.query.unrestrict.configure? service.catalog _ _)).getD _ = _
    rw [configured]
    cases plan.query.configure? service.catalog (Path.ofText relation).segments _ <;> rfl
  · exact same

/-- Without fields the query of a page is the one with them, up to columns. -/
theorem pagePlan_withoutFields {selection : Selection} (every : selection.columns = none) :
    (service.withoutFields.pagePlan (.node selection [])).query =
      (service.pagePlan (.node selection [])).query.unrestrict := by
  have included : ∀ (relations : List String) (plan other : Plan),
      other.query = plan.query.unrestrict →
        (relations.foldl service.withoutFields.withRelation other).query =
          (relations.foldl service.withRelation plan).query.unrestrict := by
    intro relations
    induction relations with
    | nil => exact fun plan other same => same
    | cons relation rest ih =>
      intro plan other same
      exact ih _ _ (withRelation_withoutFields same relation)
  have whole := Selection.unrestrict_of_columns_none every
  have root : (service.withoutFields.configure .root (.ofQuery (.node selection []))).query =
      (service.configure .root (.ofQuery (.node selection []))).query.unrestrict := by
    have arranged := service.arrange_withoutFields .root selection
    rw [whole] at arranged
    rw [query_configure, query_configure, Plan.ofQuery, Query.mapSelection, Query.mapSelection,
      Query.unrestrict, Query.unrestrictAll, arranged]
  exact included service.request.relations _ _ root

/-! ### What is left of a row -/

/-- A page has a node at the root and at the beginnings of the configured paths. -/
theorem isSome_selectionAt?_pagePlan {selection : Selection} {chain : List String} :
    ((service.pagePlan (.node selection [])).query.selectionAt? chain).isSome = true ↔ chain = [] ∨
      ∃ path ∈ service.admitted selection.entity service.request.relations, chain <+: path.segments := by
  have entity : (service.arrange .root selection).entity = selection.entity :=
    Selection.entity_of_bare (bare_arrange service .root selection)
  rw [(service.arranged_pagePlan selection).selections, arranged?]
  split
  · next covered =>
    refine iff_of_true ?_ covered
    rw [Option.isSome_map]
    rcases covered with rfl | ⟨path, member, beginning⟩
    · rfl
    · rw [← entity] at member
      exact Catalog.reach?_isSome_of_prefix beginning (isSome_reach?_of_mem_admitted member)
  · next absent => exact iff_of_false Bool.false_ne_true absent

/-- A relation is included at a node when its path is the beginning of a configured one. -/
theorem mem_includes_iff {selection : Selection} {chain : List String} {node : Query}
    (found : (service.pagePlan (.node selection [])).query.at? chain = some node) (name : String) :
    name ∈ node.includes.map Query.includedName ↔
      ∃ path ∈ service.admitted selection.entity service.request.relations,
        chain ++ [name] <+: path.segments := by
  have below : (service.pagePlan (.node selection [])).query.selectionAt? (chain ++ [name]) =
      (node.child? name).map Query.selection := by
    rw [Query.selectionAt?_append, found, Option.bind_some, Query.selectionAt?_cons]
    exact Option.map_eq_bind.symm
  have longer : chain ++ [name] ≠ [] := by simp
  rw [← Query.isSome_child?_iff, ← Option.isSome_map (f := Query.selection), ← below,
    isSome_selectionAt?_pagePlan]
  simp

/-- What a page selects and does not drop is what the fields keep. -/
theorem kept_and_rule_of_nodes {selection : Selection}
    (apart : (service.pagePlan (.node selection [])).query.NodesApart) (every : selection.columns = none) :
    (fun chain name => (service.pagePlan (.node selection [])).finish.query.kept chain name &&
      (service.pagePlan (.node selection [])).finish.surplus.rule chain name) =
        service.projection selection.entity := by
  have arranged := service.arranged_pagePlan selection
  funext chain name
  have stays : (service.pagePlan (.node selection [])).finish.surplus.rule chain name = true ↔
      name ∉ (service.pagePlan (.node selection [])).finish.surplus.fieldsAt ⟨chain⟩ := by
    simp [Surplus.rule]
  rw [Bool.eq_iff_iff, Bool.and_eq_true, stays, projection, decide_eq_true_eq, Query.kept,
    Plan.query_finish, Query.at?_withJoinColumns, Option.map_map]
  cases found : (service.pagePlan (.node selection [])).query.at? chain with
  | some node =>
    rw [← mem_includes_iff found]
    exact shows_iff apart every found name
  | none =>
    have absent : (service.pagePlan (.node selection [])).query.selectionAt? chain = none := by
      rw [Query.selectionAt?, found]
      rfl
    have untouched : service.narrows selection.entity chain ≠ true := by
      intro narrowed
      have covered : ((service.pagePlan (.node selection [])).query.selectionAt? chain).isSome = true := by
        refine isSome_selectionAt?_pagePlan.2 ((narrows_iff.1 narrowed).2.imp id fun member => ?_)
        exact ⟨⟨chain⟩, member, List.prefix_refl chain⟩
      rw [absent] at covered
      contradiction
    refine iff_of_true ⟨rfl, ?_⟩ fun narrowed => absurd narrowed untouched
    rw [Plan.mem_fieldsAt_finish arranged.mirrors arranged.ordered]
    rintro (held | ⟨node, foundToo, -⟩)
    · exact not_mem_fieldsAt_pagePlan absent name held
    · rw [found] at foundToo
      contradiction

/-- What a page of the rows of an entity selects and does not drop is what the fields keep, where names are apart in
the catalog. -/
theorem kept_and_rule_eq_projection {selection : Selection} {entity : Entity}
    (rows : selection.bare = .ofEntity entity)
    (known : service.catalog.entity? entity.name = some entity) (apart : service.catalog.NamesApart)
    (every : selection.columns = none) :
    (fun chain name => (service.pagePlan (.node selection [])).finish.query.kept chain name &&
      (service.pagePlan (.node selection [])).finish.surplus.rule chain name) =
        service.projection entity.name := by
  have named : selection.entity = entity.name := congrArg Selection.entity rows
  rw [← named]
  exact kept_and_rule_of_nodes (nodesApart_pagePlan rows known apart) every

/-! ### The page -/

/-- After a session that succeeds an outcome goes on with its value. -/
theorem ofSession_ok_bind {α β : Type} (value : α) (next : α → Outcome σ β) :
    Outcome.ofSession (settled (.ok value)) >>= next = next value := rfl

/-- A page is made of the rows of the finished plan and of their number without the window. -/
theorem page_eq_bind (service : Service) (source : RowSource σ) (query : Query) :
    service.page source query =
      Outcome.ofSession (source.rows (service.pagePlan query).finish.query) >>= fun rows =>
        Outcome.ofSession (source.total (service.pagePlan query).finish.query) >>= fun total =>
          pure ⟨rows.length, service.request.limit .root, service.request.offset .root, total,
            rows.map (service.pagePlan query).finish.surplus.strip⟩ := by
  simp only [page, Plan.page, bind_assoc, pure_bind, List.length_map]

/-- Without fields nothing is dropped from the rows of a page. -/
theorem strip_withoutFields {selection : Selection} {entity : Entity}
    (rows : selection.bare = .ofEntity entity)
    (known : service.catalog.entity? entity.name = some entity) (apart : service.catalog.NamesApart)
    (every : selection.columns = none) (row : Json) :
    (service.withoutFields.pagePlan (.node selection [])).finish.surplus.strip row = row := by
  have everything := @kept_and_rule_eq_projection service.withoutFields _ selection entity rows known
    apart every
  rw [Surplus.strip_eq_keep]
  refine Json.keep_of_always (fun chain name => ?_) row
  have here := congrFun (congrFun everything chain) name
  have vacuous : service.withoutFields.projection entity.name chain name = true :=
    decide_eq_true fun narrowed => absurd rfl (narrows_iff.1 narrowed).1
  rw [vacuous, Bool.and_eq_true] at here
  exact here.2

/-- The fields of a request are a projection. If column lists project what the database answers, and no
relation is named as a column that identifies or matches rows, then a page of the rows of an entity is
the page of the same request without fields: the same rows in the same order and the same counts, where
every object at the root or at a configured path with fields keeps these and its included relations, and
every other object is whole. -/
theorem page_eq_projection {answer : Statement → Except DatabaseError (List Json)}
    (projecting : Projecting answer) {selection : Selection} {entity : Entity}
    (rows : selection.bare = .ofEntity entity) (every : selection.columns = none)
    (known : service.catalog.entity? entity.name = some entity)
    (apart : service.catalog.NamesApart) :
    service.page (Database.answering answer : Database σ).rowSource (.node selection []) =
      (fun page => { page with data := page.data.map (Json.keep (service.projection entity.name)) }) <$>
        service.withoutFields.page (Database.answering answer).rowSource (.node selection []) := by
  have query : (service.withoutFields.pagePlan (.node selection [])).finish.query =
      (service.pagePlan (.node selection [])).finish.query.unrestrict := by
    rw [Plan.query_finish, Plan.query_finish, pagePlan_withoutFields every,
      Query.withJoinColumns_unrestrict, Query.unrestrict_withJoinColumns]
  have dropped := kept_and_rule_eq_projection rows known apart every
  have whole := strip_withoutFields rows known apart every
  obtain ⟨outcome, loaded, loadedKept, -⟩ := Database.loads_of_joins (σ := σ) projecting
    (joins_finish rows known apart every) []
  have total : ∀ query : Query, (Database.answering answer : Database σ).total query.unrestrict =
      (Database.answering answer).total query := by
    intro query
    rw [Database.total, Query.selection_unrestrict]
    rfl
  rw [page_eq_bind, page_eq_bind, query]
  show Outcome.ofSession (Database.loadWhere _ [] _) >>= _ =
    _ <$> (Outcome.ofSession (Database.loadWhere _ [] _) >>= _)
  rw [loaded, loadedKept]
  cases outcome with
  | error error => rfl
  | ok rows =>
    have stripped : (rows.map (Json.keep (service.pagePlan (.node selection [])).finish.query.kept)).map
        (service.pagePlan (.node selection [])).finish.surplus.strip =
          rows.map (Json.keep (service.projection entity.name)) := by
      rw [List.map_map, ← dropped]
      apply List.map_congr_left
      intro row _
      rw [Function.comp, Surplus.strip_eq_keep, Json.keep_keep]
    have unchanged : rows.map (service.withoutFields.pagePlan (.node selection [])).finish.surplus.strip =
        rows := List.map_id'' whole rows
    have counted := total (service.pagePlan (.node selection [])).finish.query
    rw [Except.map, ofSession_ok_bind, ofSession_ok_bind, stripped, unchanged, List.length_map, map_bind]
    simp only [map_pure, Database.rowSource, counted]
    rfl

end AppendOnly

/-- Users with the messages that they sent. -/
def authors : Entity :=
  (Entity.ofTable "users" "users").relateMany "messages" "messages" "sender_id"

/-- A user and the two messages that the user sent. -/
def mailbox : String → List Json
  | "users" =>
    [.ofMembers [("id", .natural 1), ("name", .string "Ada"), ("token", .string "secret")]]
  | "messages" =>
    [.ofMembers [("id", .natural 7), ("sender_id", .natural 1), ("subject", .string "hi")],
      .ofMembers [("id", .natural 8), ("sender_id", .natural 1), ("subject", .string "bye")]]
  | _ => []

/-- A request for the names of users and the subjects of their messages. -/
def namesAndSubjects : Service where
  catalog := .insert (.insert .empty authors) (Entity.ofTable "messages" "messages")
  registry := Registry.empty.setInclusions "users" [.path "messages"]
  request := {
    asked := {
      ParameterSet.empty with
      fields := (SortedMap.empty.insert .root ["name"]).insert ⟨["messages"]⟩ ["subject"]
      relations := ["messages"] }
    supplied := .empty
    settings := .standard }

/-- The names of users and the subjects of their messages are what a request for both leaves of the whole
users with their whole messages. -/
theorem names_and_subjects_page :
    namesAndSubjects.registry.AppendOnly ∧ Projecting (Database.wholeTables mailbox) ∧
    namesAndSubjects.catalog.NamesApart ∧
    namesAndSubjects.catalog.entity? authors.name = some authors ∧
    namesAndSubjects.page (Database.answering (Database.wholeTables mailbox) : Database Unit).rowSource
      (.ofEntity authors) = pure ⟨1, 10, 0, 1, [.object [
        ("messages", .array [.object [("subject", .string "hi")], .object [("subject", .string "bye")]]),
        ("name", .string "Ada")]]⟩ ∧
    namesAndSubjects.page (Database.answering (Database.wholeTables mailbox) : Database Unit).rowSource
      (.ofEntity authors) = (fun page =>
        { page with data := page.data.map (Json.keep (namesAndSubjects.projection "users")) }) <$>
          namesAndSubjects.withoutFields.page (Database.answering (Database.wholeTables mailbox)).rowSource
            (.ofEntity authors) := by
  have objects : ∀ table, ∀ row ∈ mailbox table, row.IsObject := by
    intro table row member
    unfold mailbox at member
    split at member
    · have same := List.mem_singleton.1 member
      subst same
      exact Json.isObject_ofMembers _
    · rcases List.mem_cons.1 member with rfl | later
      · exact Json.isObject_ofMembers _
      · have same := List.mem_singleton.1 later
        subst same
        exact Json.isObject_ofMembers _
    · contradiction
  have projecting := Database.projecting_wholeTables objects
  have apart : namesAndSubjects.catalog.NamesApart := Catalog.namesApart_of_entities (by decide)
  have known : namesAndSubjects.catalog.entity? authors.name = some authors := by decide
  have rows : (Selection.ofEntity authors).bare = .ofEntity authors := rfl
  have adds : namesAndSubjects.registry.AppendOnly := ⟨Registry.Each.empty.setInclusions "users" _⟩
  have projected := page_eq_projection (σ := Unit) projecting rows rfl known apart
  refine ⟨adds, projecting, apart, known, ?_, projected⟩
  rfl

end ResourceQuery.Service
