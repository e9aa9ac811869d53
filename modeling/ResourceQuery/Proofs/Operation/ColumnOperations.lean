import ResourceQuery.Operation.Standard
import ResourceQuery.Proofs.Registry.FirstMatch

/-!
# Operations of listed columns

Tables that are made of a list of columns offer one filter for every column and three orders. Names share a key
as soon as they differ only in how they separate their words, and a column may itself be called like an order of
another, so several columns may stand for one name. The last of them is meant (`attribute_operations`): of the
columns for a filter, and of the named orders, column by column, for a sort.
-/
namespace ResourceQuery

variable {α β : Type}

/-- The last of some items that has a property. -/
def IsLast (has : α → Prop) (items : List α) (item : α) : Prop :=
  ∃ before after, items = before ++ item :: after ∧ has item ∧ ∀ other ∈ after, ¬ has other

/-- The last item with a property is one of the items. -/
theorem IsLast.mem {has : α → Prop} {items : List α} {item : α} (last : IsLast has items item) : item ∈ items := by
  obtain ⟨before, after, rfl, -, -⟩ := last
  exact List.mem_append_right before (.head after)

/-- Where some item has a property there is a last one that has it. -/
theorem exists_isLast {has : α → Prop} {items : List α} (some : ∃ item ∈ items, has item) :
    ∃ item, IsLast has items item := by
  induction items with
  | nil =>
    obtain ⟨item, member, -⟩ := some
    contradiction
  | cons first rest ih =>
    by_cases later : ∃ item ∈ rest, has item
    · obtain ⟨item, before, after, rfl, here, nothing⟩ := ih later
      exact ⟨item, first :: before, after, rfl, here, nothing⟩
    · obtain ⟨item, member, here⟩ := some
      have same : item = first := (List.mem_cons.1 member).resolve_right fun found => later ⟨item, found, here⟩
      subst same
      exact ⟨item, [], rest, rfl, here, fun other found also => later ⟨other, found, also⟩⟩

/-! ### Tables of entries -/

namespace Operations

/-- A table with entries registered one after the other. -/
def registerAll (table : Operations α) (entries : List (String × α)) : Operations α :=
  entries.foldl (fun table entry => table.register entry.1 entry.2) table

/-- Entries of other keys leave what a key finds as it is. -/
theorem find?_registerAll_of_ne {entries : List (String × α)} {key : String}
    (others : ∀ entry ∈ entries, camelKey entry.1 ≠ key) (table : Operations α) :
    (table.registerAll entries).find? key = table.find? key := by
  induction entries generalizing table with
  | nil => rfl
  | cons entry rest ih =>
    have apart : key ≠ camelKey entry.1 := (others entry (.head rest)).symm
    have later := ih (fun other member => others other (.tail _ member)) (table.register entry.1 entry.2)
    rw [find?_register, if_neg apart] at later
    exact later

/-- A name finds the operation registered under it, if the entries after it have other keys. -/
theorem find?_registerAll_append {after : List (String × α)} (name : String) (operation : α)
    (others : ∀ entry ∈ after, camelKey entry.1 ≠ camelKey name) (before : List (String × α))
    (table : Operations α) :
    (table.registerAll (before ++ (name, operation) :: after)).find? (camelKey name) = some operation := by
  have parted : table.registerAll (before ++ (name, operation) :: after) =
      ((table.registerAll before).register name operation).registerAll after := by
    rw [registerAll, List.foldl_append]
    rfl
  rw [parted, find?_registerAll_of_ne others, find?_register, if_pos rfl]

/-- Where every item is registered under its label, a key finds the operation of the last item whose label has
it, or nothing. -/
theorem find?_registerAll (items : List β) (label : β → String) (operation : β → α) (key : String) :
    (∃ item, IsLast (fun item => camelKey (label item) = key) items item ∧
      (registerAll .empty (items.map fun item => (label item, operation item))).find? key = some (operation item)) ∨
    ((∀ item ∈ items, camelKey (label item) ≠ key) ∧
      (registerAll .empty (items.map fun item => (label item, operation item))).find? key = none) := by
  have elsewhere : ∀ {others : List β}, (∀ item ∈ others, camelKey (label item) ≠ key) →
      ∀ entry ∈ others.map fun item => (label item, operation item), camelKey entry.1 ≠ key := by
    intro others apart entry member
    obtain ⟨item, listed, rfl⟩ := List.mem_map.1 member
    exact apart item listed
  by_cases labelled : ∃ item ∈ items, camelKey (label item) = key
  · obtain ⟨item, last⟩ := exists_isLast labelled
    refine .inl ⟨item, last, ?_⟩
    obtain ⟨before, after, rfl, here, others⟩ := last
    rw [List.map_append, List.map_cons]
    subst here
    exact find?_registerAll_append (label item) (operation item) (elsewhere others) _ .empty
  · have others : ∀ item ∈ items, camelKey (label item) ≠ key := fun item member same => labelled ⟨item, member, same⟩
    refine .inr ⟨others, ?_⟩
    rw [find?_registerAll_of_ne (elsewhere others)]
    exact SortedMap.find?_empty key

end Operations

/-- The filters of columns are registered one after the other. -/
theorem columnFilters_eq (columns : List String) : columnFilters columns =
    Operations.registerAll .empty (columns.map fun column => (column, equalsArgument column)) := by
  rw [Operations.registerAll, List.foldl_map]
  rfl

/-! ### Orders under their names -/

/-- The orders of a column are by that column. -/
theorem column_of_mem_columnOrders {column : String} {entry : String × SortKey}
    (member : entry ∈ columnOrders column) : entry.2.column = column := by
  simp only [columnOrders, List.mem_cons, List.not_mem_nil, or_false] at member
  rcases member with rfl | rfl | rfl <;> rfl

/-- The orders of columns are registered one after the other. -/
theorem columnSorts_eq (columns : List String) : columnSorts columns = Operations.registerAll .empty
    ((columns.flatMap columnOrders).map fun entry => (entry.1, Query.orderBy [entry.2])) := by
  rw [Operations.registerAll, List.foldl_map]
  rfl

/-! ### What a call makes of a plan -/

namespace Plan

/-- Where one table holds the filters of the entity, a call does what the operation under the key of its name
does, and nothing without one. -/
theorem filter_setFilters (registry : Registry) (table : FilterTable) (name : String) (arguments : List String)
    (plan : Plan) : plan.filter (registry.setFilters plan.entity [table]) ⟨[(name, arguments)]⟩ =
      { plan with query := ((table.find? (camelKey name)).bind fun operation =>
        operation.run? arguments plan.query).getD plan.query } := by
  have found : (registry.setFilters plan.entity [table]).filter? plan.entity name =
      table.find? (camelKey name) := by
    rw [Registry.filter?_setFilters, List.findSome?_singleton]
  rw [← found]
  rfl

/-- Where one table holds the sorts of the entity, a name does what the operation under its key does, and nothing
without one. -/
theorem sort_setSorts (registry : Registry) (table : SortTable) (name : String) (plan : Plan) :
    plan.sort (registry.setSorts plan.entity [table]) [name] =
      { plan with query := ((table.find? (camelKey name)).map fun operation =>
        operation plan.query).getD plan.query } := by
  have found : (registry.setSorts plan.entity [table]).sort? plan.entity name =
      table.find? (camelKey name) := by
    rw [Registry.sort?_setSorts, List.findSome?_singleton]
  rw [← found]
  rfl

end Plan

/-! ### The column that is meant -/

/-- The filters of columns find for a name the last column that has its key, or nothing. -/
theorem find?_columnFilters (columns : List String) (name : String) :
    (∃ column, IsLast (fun column => camelKey column = camelKey name) columns column ∧
      (columnFilters columns).find? (camelKey name) = some (equalsArgument column)) ∨
    ((∀ column ∈ columns, camelKey column ≠ camelKey name) ∧
      (columnFilters columns).find? (camelKey name) = none) := by
  rw [columnFilters_eq]
  exact Operations.find?_registerAll columns (fun column => column) equalsArgument (camelKey name)

/-- The orders of columns find for a name the last named order that has its key, or nothing. -/
theorem find?_columnSorts (columns : List String) (name : String) :
    (∃ entry, IsLast (fun entry => camelKey entry.1 = camelKey name) (columns.flatMap columnOrders) entry ∧
      (columnSorts columns).find? (camelKey name) = some (Query.orderBy [entry.2])) ∨
    ((∀ entry ∈ columns.flatMap columnOrders, camelKey entry.1 ≠ camelKey name) ∧
      (columnSorts columns).find? (camelKey name) = none) := by
  rw [columnSorts_eq]
  exact Operations.find?_registerAll (columns.flatMap columnOrders) Prod.fst
    (fun entry => Query.orderBy [entry.2]) (camelKey name)

/-- Listed columns are acted on as intended, also where their names collide. A filter call adds one predicate,
that the last column with the key of the name equals the first argument or the empty text, and a call whose name
has the key of no column adds nothing. A sort adds one key, that of the last named order with the key of the
name, the orders of a column being its own name and `_asc` ascending and `_desc` descending, and a name with the
key of no order adds nothing. The column is one of the list in either case, and nothing else of the plan
changes. -/
theorem attribute_operations (registry : Registry) (columns : List String) (name : String) (plan : Plan) :
    (∀ arguments : List String,
      let called := plan.filter (registry.setFilters plan.entity [columnFilters columns]) ⟨[(name, arguments)]⟩;
      (∃ column ∈ columns, IsLast (fun column => camelKey column = camelKey name) columns column ∧
        called = plan.mapSelection fun selection =>
          selection.filterBy [⟨column, .equal, .string (arguments.headD "")⟩]) ∨
      ((∀ column ∈ columns, camelKey column ≠ camelKey name) ∧ called = plan)) ∧
    (let sorted := plan.sort (registry.setSorts plan.entity [columnSorts columns]) [name];
      (∃ entry : String × SortKey, entry.2.column ∈ columns ∧
        IsLast (fun entry => camelKey entry.1 = camelKey name) (columns.flatMap columnOrders) entry ∧
        sorted = plan.mapSelection fun selection => selection.orderBy [entry.2]) ∨
      ((∀ entry ∈ columns.flatMap columnOrders, camelKey entry.1 ≠ camelKey name) ∧ sorted = plan)) := by
  constructor
  · intro arguments called
    have added := plan.filter_setFilters registry (columnFilters columns) name arguments
    rcases find?_columnFilters columns name with ⟨column, last, found⟩ | ⟨others, nothing⟩
    · rw [found] at added
      exact .inl ⟨column, last.mem, last, added⟩
    · rw [nothing] at added
      exact .inr ⟨others, added⟩
  · intro sorted
    have added := plan.sort_setSorts registry (columnSorts columns) name
    rcases find?_columnSorts columns name with ⟨entry, last, found⟩ | ⟨others, nothing⟩
    · obtain ⟨column, listed, named⟩ := List.mem_flatMap.1 last.mem
      have own : entry.2.column ∈ columns := column_of_mem_columnOrders named ▸ listed
      rw [found] at added
      exact .inl ⟨entry, own, last, added⟩
    · rw [nothing] at added
      exact .inr ⟨others, added⟩

/-- A column called like the ascending order of another takes that name if it comes later. -/
example : (columnSorts ["name", "name_asc"]).find? (camelKey "name-asc") =
      some (Query.orderBy [⟨"name_asc", .ascending⟩]) ∧
    (columnSorts ["name_asc", "name"]).find? (camelKey "name-asc") =
      some (Query.orderBy [⟨"name", .ascending⟩]) :=
  ⟨rfl, rfl⟩

end ResourceQuery
