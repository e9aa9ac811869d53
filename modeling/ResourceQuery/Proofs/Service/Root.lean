import ResourceQuery.Proofs.Plan.JoinColumns
import ResourceQuery.Proofs.Service.Inclusion

/-!
# The root of a plan

Relations are included below the root: of the root they look at the entity, and they change neither its
selection nor its surplus fields. So a plan with another root (`Plan.reroot`) goes the same way, from the
first relation (`withRelations_reroot`) to the join columns (`finish_reroot`), whatever operations do below
the root. The plans of an item and of a row's relations are one plan with different roots, and so is that of a
page where operations change what is asked of the rows alone. Where they only add, a page and an item lose the
same fields (`surplus_itemPlan`).
-/
namespace ResourceQuery

namespace Query

variable {α : Type}

/-- The query with another root selection. -/
def reroot (own : Selection) (query : Query) : Query := node own query.includes

/-- The root selection is the other one. -/
@[simp] theorem selection_reroot (own : Selection) (query : Query) : (query.reroot own).selection = own := rfl

/-- The included relations stay. -/
@[simp] theorem includes_reroot (own : Selection) (query : Query) :
    (query.reroot own).includes = query.includes := rfl

/-- A query mirrors a catalog under every root of the same entity. -/
theorem Mirrors.reroot {catalog : Catalog} {own : Selection} {query : Query}
    (mirrors : query.Mirrors catalog) (same : own.entity = query.selection.entity) :
    (query.reroot own).Mirrors catalog := by
  obtain ⟨selection, includes⟩ := query
  obtain ⟨names, known, below⟩ := mirrors
  refine .node names (fun included member => ?_) below
  rw [show own.entity = selection.entity from same]
  exact known included member

/-- A configuration below the root looks at the entity of the root and leaves its selection as it is. -/
theorem configure?_reroot (catalog : Catalog) {own : Selection} {query : Query}
    (same : own.entity = query.selection.entity) (chain : List String) (configure : Query → α × Query) :
    (query.reroot own).configure? catalog chain configure =
      (query.configure? catalog chain configure).map (Prod.map id (reroot own)) := by
  obtain ⟨selection, includes⟩ := query
  unfold configure?
  rw [show (reroot own (node selection includes)).selection.entity = (node selection includes).selection.entity
    from same]
  split
  · rfl
  · next further =>
    cases chain with
    | nil => exact absurd rfl further
    | cons name rest =>
      rw [configureAt_cons, configureAt_cons]
      show some (Prod.map id _ (configureChild name ((catalog.step? own.entity name).map _) _ includes)) = _
      rw [show own.entity = selection.entity from same]
      rfl

/-- Only the end of a longer chain is configured. -/
theorem chain_of_configure? {catalog : Catalog} {query : Query} {chain : List String}
    {configure : Query → α × Query} {made : Option α × Query}
    (configured : query.configure? catalog chain configure = some made) : chain ≠ [] := by
  rintro rfl
  contradiction

/-- A configuration below the root leaves the selection of the root as it is. -/
theorem selection_of_configure? {catalog : Catalog} {query result : Query} {chain : List String}
    {configure : Query → α × Query} {answer : Option α}
    (configured : query.configure? catalog chain configure = some (answer, result)) :
    result.selection = query.selection := by
  have further := chain_of_configure? configured
  cases chain with
  | nil => exact absurd rfl further
  | cons name rest =>
    unfold configure? at configured
    split at configured
    · contradiction
    · rw [configureAt_cons] at configured
      exact congrArg (fun entry => entry.2.selection) (Option.some.inj configured).symm

/-- The paths of listed join columns begin with that of the query. -/
theorem prefix_of_mem_joinColumns {query : Query} {base : Path} {entry : Path × String}
    (member : entry ∈ query.joinColumns base) : base.segments <+: entry.1.segments := by
  induction query using inductionOn generalizing base with
  | node selection includes ih =>
    rw [joinColumns, List.mem_append, mem_allJoinColumns_iff] at member
    rcases member with here | ⟨included, listed, below⟩
    · obtain ⟨column, -, rfl⟩ := List.mem_map.1 here
      exact List.prefix_refl _
    · exact (List.prefix_append _ _).trans (ih included listed below)

/-- The join columns of included queries are below the root. -/
theorem below_of_mem_allJoinColumns {includes : List (Relation × Query)} {entry : Path × String}
    (member : entry ∈ allJoinColumns .root includes) : entry.1.segments ≠ [] := by
  obtain ⟨included, -, below⟩ := mem_allJoinColumns_iff.1 member
  intro root
  have begins := prefix_of_mem_joinColumns below
  rw [root, List.prefix_nil] at begins
  exact List.cons_ne_nil _ _ begins

end Query

namespace Surplus

/-- Grafting below the root changes the relations alone. -/
theorem unionAt_node {path : Path} (below : path.segments ≠ []) (relations : List (String × Surplus))
    (other : Surplus) : ∃ after, ∀ fields, (node fields relations).unionAt path other = node fields after := by
  obtain ⟨chain⟩ := path
  cases chain with
  | nil => exact absurd rfl below
  | cons name rest => exact ⟨_, fun fields => rfl⟩

/-- Columns at the root are its fields. -/
theorem foldl_insert_root (columns fields : List String) (relations : List (String × Surplus)) :
    (columns.map fun column => (Path.root, column)).foldl
      (fun surplus (path, column) => surplus.insert path column) (node fields relations) =
        node (columns.foldl addField fields) relations := by
  induction columns generalizing fields with
  | nil => rfl
  | cons column rest ih => exact ih (addField fields column)

/-- Columns below the root change the relations alone. -/
theorem foldl_insert_below {columns : List (Path × String)}
    (below : ∀ entry ∈ columns, entry.1.segments ≠ []) (relations : List (String × Surplus)) :
    ∃ after, ∀ fields, columns.foldl (fun surplus (path, column) => surplus.insert path column)
      (node fields relations) = node fields after := by
  induction columns generalizing relations with
  | nil => exact ⟨relations, fun fields => rfl⟩
  | cons entry rest ih =>
    obtain ⟨⟨chain⟩, column⟩ := entry
    cases chain with
    | nil => exact absurd rfl (below (⟨[]⟩, column) (.head rest))
    | cons name others =>
      obtain ⟨after, added⟩ := ih (fun other member => below other (.tail _ member)) _
      exact ⟨after, fun fields => added fields⟩

end Surplus

namespace Plan

/-- The plan with another selection and other surplus fields at the root. -/
def reroot (own : Selection) (fields : List String) (plan : Plan) : Plan :=
  ⟨plan.query.reroot own, .node fields plan.surplus.relations⟩

end Plan

namespace Service

variable {service : Service}

/-- A relation leaves the selection of the root as it is. -/
theorem selection_withRelation (service : Service) (plan : Plan) (relation : String) :
    (service.withRelation plan relation).query.selection = plan.query.selection := by
  unfold withRelation
  rw [Plan.withRelation_eq]
  split
  · cases configured : plan.query.configure? service.catalog (Path.ofText relation).segments
      (Plan.onQuery fun nested => ((), service.configure (Path.ofText relation) nested)) with
    | none => rfl
    | some made =>
      obtain ⟨answered, result⟩ := made
      have root := Query.selection_of_configure? configured
      cases answered <;> exact root
  · rfl

/-- A relation is included under another root as it is under the root of the plan. -/
theorem withRelation_reroot {own : Selection} {plan : Plan} (same : own.entity = plan.entity)
    (fields : List String) (relation : String) :
    service.withRelation (plan.reroot own fields) relation =
      (service.withRelation plan relation).reroot own fields := by
  have entity : (plan.reroot own fields).entity = plan.entity := same
  unfold withRelation
  rw [Plan.withRelation_eq, Plan.withRelation_eq, entity]
  split
  · rw [show (plan.reroot own fields).query = plan.query.reroot own from rfl,
      Query.configure?_reroot service.catalog same]
    cases configured : plan.query.configure? service.catalog (Path.ofText relation).segments
      (Plan.onQuery fun nested => ((), service.configure (Path.ofText relation) nested)) with
    | none => rfl
    | some made =>
      obtain ⟨answered, result⟩ := made
      cases answered with
      | none => rfl
      | some answered =>
        obtain ⟨answer, surplus⟩ := answered
        obtain ⟨query, held, relations⟩ := plan
        obtain ⟨after, grafted⟩ :=
          Surplus.unionAt_node (Query.chain_of_configure? configured) relations surplus
        show Plan.mk _ ((Surplus.node fields relations).unionAt _ surplus) =
          Plan.reroot own fields ⟨result, (Surplus.node held relations).unionAt _ surplus⟩
        rw [grafted, grafted]
        rfl
  · rfl

/-- Relations leave the selection of the root as it is. -/
theorem selection_withRelations (service : Service) (plan : Plan) :
    (service.withRelations plan).query.selection = plan.query.selection := by
  unfold withRelations
  induction service.request.relations generalizing plan with
  | nil => rfl
  | cons relation rest ih => exact (ih _).trans (service.selection_withRelation plan relation)

/-- The relations of a request are included under another root as they are under the root of the plan. -/
theorem withRelations_reroot {own : Selection} {plan : Plan} (same : own.entity = plan.entity)
    (fields : List String) :
    service.withRelations (plan.reroot own fields) = (service.withRelations plan).reroot own fields := by
  unfold withRelations
  induction service.request.relations generalizing plan with
  | nil => rfl
  | cons relation rest ih =>
    have entity : own.entity = (service.withRelation plan relation).entity :=
      same.trans (congrArg Selection.entity (service.selection_withRelation plan relation)).symm
    rw [List.foldl_cons, List.foldl_cons, withRelation_reroot same, ih entity]

/-- The rows of a selection with the relations that a request includes. -/
def related (service : Service) (selection : Selection) : Query :=
  (service.withRelations (.ofQuery (.node selection []))).query

/-- The plan of an item has the restricted selection at its root, over the relations of the request. -/
theorem itemPlan_eq_reroot (service : Service) (selection : Selection) :
    service.itemPlan (.node selection []) = (service.withRelations (.ofQuery (.node selection []))).reroot
      (selection.restrictTo (service.request.fields .root))
      (forced (service.request.fields .root) selection) := by
  have entity : (selection.restrictTo (service.request.fields .root)).entity = selection.entity :=
    Selection.entity_of_bare (Selection.bare_restrictTo _ selection)
  rw [← withRelations_reroot entity, itemPlan]
  congr 1
  exact Plan.eq_mk (Plan.query_restrict _ _) (Plan.surplus_restrict rfl)

/-- Where operations change what is asked of the rows alone, the plan of a page has the arranged selection at its
root, over the relations of the request. -/
theorem pagePlan_eq_reroot (service : Service) [service.registry.Local] (selection : Selection) :
    service.pagePlan (.node selection []) = (service.withRelations (.ofQuery (.node selection []))).reroot
      (service.arrange .root selection) (forced (service.request.fields .root) selection) := by
  have entity : (service.arrange .root selection).entity = selection.entity :=
    Selection.entity_of_bare (bare_arrange service .root selection)
  rw [← withRelations_reroot entity, pagePlan]
  congr 1
  exact service.configure_leaf .root selection

end Service

namespace Plan

/-- The columns that the relations of a root lack are missing from the root alone. -/
theorem finish_reroot (own : Selection) (fields : List String) (plan : Plan) :
    (plan.reroot own fields).finish = plan.finish.reroot
      ((own.missingColumns plan.query.includes).foldl Selection.addColumn own)
      ((own.missingColumns plan.query.includes).foldl Surplus.addField fields) := by
  obtain ⟨⟨selection, includes⟩, held, relations⟩ := plan
  obtain ⟨after, added⟩ := Surplus.foldl_insert_below
    (fun entry (member : entry ∈ Query.allJoinColumns .root includes) =>
      Query.below_of_mem_allJoinColumns member) relations
  have surplus : ∀ (root : Selection) (heldFields : List String),
      (Plan.finish ⟨.node root includes, .node heldFields relations⟩).surplus =
        .node ((root.missingColumns includes).foldl Surplus.addField heldFields) after := by
    intro root heldFields
    show ((root.missingColumns includes).map (fun column => (Path.root, column)) ++ _).foldl _ _ = _
    rw [List.foldl_append, Surplus.foldl_insert_root, added]
  refine Plan.eq_mk rfl ((surplus own fields).trans ?_)
  rw [surplus selection held]
  rfl

end Plan

namespace Service

variable {service : Service}

/-- Where operations only add, an item and a page select the same columns at the root. -/
theorem selects_arrange_root (service : Service) [service.registry.AppendOnly] (selection : Selection) :
    (service.arrange .root selection).selects =
      (selection.restrictTo (service.request.fields .root)).selects := by
  funext name
  by_cases unnamed : service.request.fields .root = []
  · rw [Selection.selects, columns_arrange unnamed, unnamed]
    rfl
  · rw [Bool.eq_iff_iff, selects_arrange unnamed, Selection.selects_restrictTo unnamed]

/-- An item is the first row of the finished plan, without what leaves it. -/
theorem item_eq_bind {σ : Type} (service : Service) (source : RowSource σ) (query : Query) :
    service.item source query =
      Outcome.ofSession (source.rows ((service.itemPlan query).finish.take 1).query) >>= fun rows =>
        match rows with
        | [] => throw (.notFound ((service.itemPlan query).finish.take 1).entity none)
        | row :: _ => pure ((service.itemPlan query).finish.surplus.strip row) := rfl

/-- What leaves an item is what leaves the rows of a page. -/
theorem surplus_itemPlan (service : Service) [service.registry.AppendOnly] (selection : Selection) :
    (service.itemPlan (.node selection [])).finish.surplus =
      (service.pagePlan (.node selection [])).finish.surplus := by
  rw [itemPlan_eq_reroot, pagePlan_eq_reroot, Plan.finish_reroot, Plan.finish_reroot,
    Selection.missingColumns, Selection.missingColumns, selects_arrange_root]
  rfl

/-- The query of an item has another root than that of a page, over the same relations. -/
theorem query_itemPlan (service : Service) [service.registry.Local] (selection : Selection) :
    ∃ own : Selection, own.entity = selection.entity ∧
      ((service.itemPlan (.node selection [])).finish.take 1).query =
        (service.pagePlan (.node selection [])).finish.query.reroot own := by
  refine ⟨((service.itemPlan (.node selection [])).finish.take 1).query.selection, ?_, ?_⟩
  · show ((service.itemPlan (.node selection [])).query.withJoinColumns.mapSelection (·.take 1)).selection.entity
      = selection.entity
    rw [Query.selection_mapSelection, Query.selection_withJoinColumns, itemPlan_eq_reroot]
    exact Selection.entity_of_bare ((Selection.bare_foldl_addColumn _ _).trans
      (Selection.bare_restrictTo _ selection))
  · rw [itemPlan_eq_reroot, pagePlan_eq_reroot]
    rfl

end Service

end ResourceQuery
