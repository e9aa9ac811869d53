import ResourceQuery.Service
import ResourceQuery.Proofs.Query.Columns
import ResourceQuery.Proofs.Registry.Effects
import ResourceQuery.Proofs.Surplus.Fields

/-!
# The parameters of a path on one query

Configuring a plan with the parameters of a path runs the operations that the path asks for
(`Service.operate`), and then sets the window, and the columns where fields are named
(`Service.narrow`); the columns that the fields force are its surplus (`forced`). Where operations change
what is asked of the rows alone, all of it is one change of the selection (`Service.arrange`), which never
changes which rows are read. Where they only add, it adds the predicates and sort keys of the path after
the present ones.
-/
namespace ResourceQuery

namespace Selection

/-- The selection of fields together with the columns that identify and match its rows, all columns
where no fields are named. -/
def restrictTo (fields : List String) (selection : Selection) : Selection :=
  if fields.isEmpty then selection
  else (Plan.keyColumns selection ++ fields).foldl addColumn selection.restrict

/-- Restricting changes nothing but the columns. -/
theorem restrictTo_eq (fields : List String) (selection : Selection) :
    ∃ columns, selection.restrictTo fields = { selection with columns := columns } := by
  unfold restrictTo
  split
  · exact ⟨selection.columns, rfl⟩
  · exact foldl_addColumn_eq _ selection.restrict

/-- A restricted selection has the fields and the columns that identify and match its rows. -/
theorem selects_restrictTo {fields : List String} (named : fields ≠ []) (selection : Selection)
    (name : String) : (selection.restrictTo fields).selects name = true ↔
      name ∈ Plan.keyColumns selection ∨ name ∈ fields := by
  have present : fields.isEmpty = false := by simpa using named
  rw [restrictTo, present, if_neg Bool.false_ne_true, selects_foldl_addColumn, List.mem_append]
  have nothing : selection.restrict.selects name = false := by simp [restrict, selects]
  rw [nothing]
  simp

/-- Restricting reads the same rows. -/
@[simp] theorem bare_restrictTo (fields : List String) (selection : Selection) :
    (selection.restrictTo fields).bare = selection.bare := by
  obtain ⟨columns, shape⟩ := selection.restrictTo_eq fields
  rw [shape]
  rfl

/-- Selections of the same rows have the same key columns. -/
theorem keyColumns_of_bare {left right : Selection} (same : left.bare = right.bare) :
    Plan.keyColumns left = Plan.keyColumns right :=
  (congrArg Plan.keyColumns same : Plan.keyColumns left.bare = Plan.keyColumns right.bare)

end Selection

/-- The columns that fields force into a selection without being among them. -/
def forced (fields : List String) (selection : Selection) : List String :=
  if fields.isEmpty then []
  else fields.foldl (fun held field => held.filter (· ≠ field))
    ((Plan.keyColumns selection).foldl Surplus.addField [])

/-- Keeping fields keeps all but them. -/
theorem mem_foldl_filter_ne {fields held : List String} {name : String} :
    name ∈ fields.foldl (fun held field => held.filter (· ≠ field)) held ↔
      name ∈ held ∧ name ∉ fields := by
  induction fields generalizing held with
  | nil => simp
  | cons field rest ih =>
    rw [List.foldl_cons, ih, List.mem_filter, List.mem_cons, not_or, decide_eq_true_eq, and_assoc]

/-- A forced column identifies or matches rows and is not among the fields. -/
theorem mem_forced {fields : List String} {selection : Selection} {name : String} :
    name ∈ forced fields selection ↔
      fields ≠ [] ∧ name ∈ Plan.keyColumns selection ∧ name ∉ fields := by
  unfold forced
  cases fields with
  | nil => simp
  | cons field rest =>
    rw [if_neg (by simp), mem_foldl_filter_ne, Surplus.mem_foldl_addField]
    simp

/-- What fields force depends on the rows that are read. -/
theorem forced_of_bare {left right : Selection} (same : left.bare = right.bare)
    (fields : List String) : forced fields left = forced fields right := by
  unfold forced
  rw [Selection.keyColumns_of_bare same]

namespace Plan

/-- A plan is its query and its surplus. -/
theorem eq_mk {plan : Plan} {query : Query} {surplus : Surplus} (sameQuery : plan.query = query)
    (sameSurplus : plan.surplus = surplus) : plan = ⟨query, surplus⟩ := by
  obtain ⟨own, held⟩ := plan
  subst sameQuery sameSurplus
  rfl

/-- Restricting a plan restricts its selection. -/
theorem query_restrict (fields : List String) (plan : Plan) :
    (plan.restrict fields).query = plan.query.mapSelection (·.restrictTo fields) := by
  obtain ⟨⟨selection, includes⟩, surplus⟩ := plan
  unfold restrict
  cases fields with
  | nil => rfl
  | cons field rest => rfl

/-- Restricting a plan without surplus makes the forced columns its surplus. -/
theorem surplus_restrict {fields : List String} {plan : Plan} (none : plan.surplus = .empty) :
    (plan.restrict fields).surplus = .node (forced fields plan.query.selection) [] := by
  have inserted : ∀ keys held : List String,
      keys.foldl (fun surplus key => Surplus.insert surplus .root key)
      (Surplus.node held []) = .node (keys.foldl Surplus.addField held) [] := by
    intro keys
    induction keys with
    | nil => exact fun _ => rfl
    | cons key rest ih => exact fun held => ih (Surplus.addField held key)
  have erased : ∀ kept held : List String, kept.foldl Surplus.erase (Surplus.node held []) =
      .node (kept.foldl (fun held field => held.filter (· ≠ field)) held) [] := by
    intro kept
    induction kept with
    | nil => exact fun _ => rfl
    | cons field rest ih => exact fun held => ih (held.filter (· ≠ field))
  unfold restrict forced
  split
  · exact none
  · show fields.foldl Surplus.erase ((keyColumns plan.query.selection).foldl
      (fun surplus key => surplus.insert .root key) plan.surplus) = _
    rw [none, Surplus.empty, inserted, erased]

end Plan

namespace Service

/-- A query after the operations that a path asks for, the sorts before the filters. -/
def operate (service : Service) (path : Path) (query : Query) : Query :=
  service.registry.filterAll (service.request.filters path).entries
    (service.registry.sortAll (service.request.sort path) query)

/-- A selection with the fields and the window of a path. -/
def narrow (service : Service) (path : Path) (selection : Selection) : Selection :=
  ((selection.restrictTo (service.request.fields path)).skip (service.request.offset path)).take
    (service.request.limit path)

/-- A selection with the parameters of a path. -/
def arrange (service : Service) (path : Path) (selection : Selection) : Selection :=
  service.narrow path (service.operate path (.node selection [])).selection

/-- What every operation of the registry does, the operations of a path do. -/
theorem operate_of_each (service : Service) {property : (Query → Query) → Prop} (lasts : Query.Lasts property)
    (each : service.registry.Each (FilterOperation.Always property) property) (path : Path) :
    property (service.operate path) :=
  (lasts.comp (each.sortAll lasts _) (each.filterAll lasts _) :)

/-- Configuring a query runs the operations and narrows the selection. -/
theorem query_configure_eq (service : Service) (path : Path) (plan : Plan) :
    (service.configure path plan).query =
      (service.operate path plan.query).mapSelection (service.narrow path) := by
  simp only [configure, Plan.skip, Plan.take, Plan.mapSelection, Plan.query_restrict]
  show Query.mapSelection _ (Query.mapSelection _ (Query.mapSelection _ (service.operate path plan.query))) = _
  cases service.operate path plan.query
  rfl

/-- Configuring a plan without surplus makes the columns that the fields force its surplus. -/
theorem surplus_configure_eq (service : Service) (path : Path) (query : Query) :
    (service.configure path (.ofQuery query)).surplus =
      .node (forced (service.request.fields path) (service.operate path query).selection) [] :=
  Plan.surplus_restrict (rfl : (Plan.ofQuery (service.operate path query)).surplus = .empty)

/-- A query is configured by the operations of a path, its fields and its window. -/
theorem configure_ofQuery (service : Service) (path : Path) (query : Query) :
    service.configure path (.ofQuery query) =
      ⟨(service.operate path query).mapSelection (service.narrow path),
        .node (forced (service.request.fields path) (service.operate path query).selection) []⟩ :=
  Plan.eq_mk (service.query_configure_eq path _) (service.surplus_configure_eq path query)

/-- Narrowing reads the same rows. -/
@[simp] theorem bare_narrow (service : Service) (path : Path) (selection : Selection) :
    (service.narrow path selection).bare = selection.bare :=
  Selection.bare_restrictTo (service.request.fields path) _

/-- Narrowing to fields selects them and the columns that identify and match rows. -/
theorem selects_narrow {service : Service} {path : Path} (named : service.request.fields path ≠ [])
    (selection : Selection) (name : String) :
    (service.narrow path selection).selects name = true ↔
      name ∈ Plan.keyColumns selection ∨ name ∈ service.request.fields path :=
  Selection.selects_restrictTo named _ name

variable (service : Service)

section KeepsTrees

variable [service.registry.KeepsTrees]

/-- Where operations keep the included relations, and which rows are read, those of a path do. -/
theorem keepsTree_operate (path : Path) : Query.KeepsTree (service.operate path) :=
  service.operate_of_each Query.lasts_keepsTree Registry.KeepsTrees.each path

/-- Configuring keeps the included relations, and which rows are read. -/
theorem sameTree_configure (path : Path) (plan : Plan) :
    (service.configure path plan).query.SameTree plan.query := by
  have kept := service.keepsTree_operate path plan.query
  rw [query_configure_eq]
  generalize service.operate path plan.query = operated at kept
  obtain ⟨selection, includes⟩ := operated
  exact ⟨kept.includes, (service.bare_narrow path selection).trans kept.bare⟩

/-- The columns that the fields force are those of the rows of the query. -/
theorem surplus_configure (path : Path) (query : Query) :
    (service.configure path (.ofQuery query)).surplus =
      .node (forced (service.request.fields path) query.selection) [] := by
  rw [surplus_configure_eq, forced_of_bare (service.keepsTree_operate path query).bare]

/-- Arranging reads the same rows. -/
@[simp] theorem bare_arrange (path : Path) (selection : Selection) :
    (service.arrange path selection).bare = selection.bare :=
  (service.bare_narrow path _).trans (service.keepsTree_operate path (.node selection [])).bare

/-- Arranging again and again reads the same rows. -/
theorem bare_repeat_arrange (path : Path) (times : Nat) (selection : Selection) :
    (Nat.repeat (service.arrange path) times selection).bare = selection.bare := by
  induction times with
  | zero => rfl
  | succ times ih => exact (bare_arrange service path _).trans ih

variable {service}

/-- Arranging with fields selects them and the columns that identify and match rows. -/
theorem selects_arrange {path : Path} (named : service.request.fields path ≠ []) (selection : Selection)
    (name : String) : (service.arrange path selection).selects name = true ↔
      name ∈ Plan.keyColumns selection ∨ name ∈ service.request.fields path := by
  have rows := Selection.keyColumns_of_bare (service.keepsTree_operate path (.node selection [])).bare
  exact rows ▸ selects_narrow named _ name

end KeepsTrees

section Local

variable [service.registry.Local]

/-- Where operations change what is asked of the rows alone, configuring a plan arranges its selection. -/
theorem query_configure (path : Path) (plan : Plan) :
    (service.configure path plan).query = plan.query.mapSelection (service.arrange path) := by
  have own : Query.ChangesSelection (service.operate path) :=
    service.operate_of_each Query.lasts_changesSelection Registry.Local.each path
  rw [query_configure_eq]
  obtain ⟨⟨selection, includes⟩, surplus⟩ := plan
  rw [own.includes]
  rfl

/-- A selection without relations is arranged, and has as surplus what the fields force. -/
theorem configure_leaf (path : Path) (selection : Selection) :
    service.configure path (.ofQuery (.node selection [])) =
      ⟨.node (service.arrange path selection) [],
        .node (forced (service.request.fields path) selection) []⟩ :=
  Plan.eq_mk (service.query_configure path _) (service.surplus_configure path _)

end Local

section AppendOnly

variable [service.registry.AppendOnly]

/-- Where operations only add, arranging adds the predicates and the sort keys of the path. -/
theorem arrange_eq (path : Path) (selection : Selection) :
    service.arrange path selection = service.narrow path
      ((selection.orderBy (service.registry.sortKeys selection.entity (service.request.sort path))).filterBy
        (service.registry.predicates selection.entity (service.request.filters path))) := by
  rw [arrange, operate, Registry.sortAll_eq, Registry.filterAll_eq]
  rfl

/-- Arranging adds the predicates of the path after the present ones. -/
theorem conditions_arrange (path : Path) (selection : Selection) :
    (service.arrange path selection).conditions = selection.conditions ++
      service.registry.predicates selection.entity (service.request.filters path) := by
  obtain ⟨columns, shape⟩ := Selection.restrictTo_eq (service.request.fields path)
    ((selection.orderBy (service.registry.sortKeys selection.entity (service.request.sort path))).filterBy
      (service.registry.predicates selection.entity (service.request.filters path)))
  rw [arrange_eq, narrow, shape]
  rfl

/-- Arranging adds the sort keys of the path after the present ones. -/
theorem orders_arrange (path : Path) (selection : Selection) :
    (service.arrange path selection).orders = selection.orders ++
      service.registry.sortKeys selection.entity (service.request.sort path) := by
  obtain ⟨columns, shape⟩ := Selection.restrictTo_eq (service.request.fields path)
    ((selection.orderBy (service.registry.sortKeys selection.entity (service.request.sort path))).filterBy
      (service.registry.predicates selection.entity (service.request.filters path)))
  rw [arrange_eq, narrow, shape]
  rfl

variable {service}

/-- Arranging without fields keeps the columns. -/
theorem columns_arrange {path : Path} (none : service.request.fields path = []) (selection : Selection) :
    (service.arrange path selection).columns = selection.columns := by
  rw [arrange_eq, narrow, none]
  rfl

end AppendOnly

end Service

end ResourceQuery
