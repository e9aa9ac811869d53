import ResourceQuery.Plan.Basic

/-!
# The first match decides

Filters, sorts and inclusions are found in lists that are tried in order. Of two lists one after the other,
the first decides alone about every name that it exposes, also when it decides against, and has no say about
the others (`Registry.first_match_decides`). This does not depend on what operations do: a filter or sort that
runs may change a query in any way. A plan applies its filters and its sorts one after the other
(`Plan.query_filter`, `Plan.query_sort`).
-/
namespace ResourceQuery

variable {α β : Type}

/-! ### Dispatch -/

namespace Registry

/-- A filter applied to a query, with whether one ran. -/
def applyFilter (registry : Registry) (name : String) (arguments : List String) (query : Query) :
    Bool × Query :=
  match registry.filtered? name arguments query with
  | none => (false, query)
  | some changed => (true, changed)

/-- A sort applied to a query, with whether one ran. -/
def applySort (registry : Registry) (name : String) (query : Query) : Bool × Query :=
  match registry.sorted? name query with
  | none => (false, query)
  | some changed => (true, changed)

/-- A filter that does not run leaves the query as it is. -/
theorem applyFilter_of_false {registry : Registry} {name : String} {arguments : List String} {query : Query}
    (unapplied : (registry.applyFilter name arguments query).1 = false) :
    (registry.applyFilter name arguments query).2 = query := by
  unfold applyFilter at unapplied ⊢
  cases made : registry.filtered? name arguments query with
  | none => rfl
  | some changed =>
    rw [made] at unapplied
    exact nomatch unapplied

/-- A sort that does not run leaves the query as it is. -/
theorem applySort_of_false {registry : Registry} {name : String} {query : Query}
    (unapplied : (registry.applySort name query).1 = false) :
    (registry.applySort name query).2 = query := by
  unfold applySort at unapplied ⊢
  cases made : registry.sorted? name query with
  | none => rfl
  | some changed =>
    rw [made] at unapplied
    exact nomatch unapplied

/-- What a filter leaves of a query. -/
theorem snd_applyFilter (registry : Registry) (name : String) (arguments : List String) (query : Query) :
    (registry.applyFilter name arguments query).2 = (registry.filtered? name arguments query).getD query := by
  unfold applyFilter
  cases registry.filtered? name arguments query <;> rfl

/-- What a sort leaves of a query. -/
theorem snd_applySort (registry : Registry) (name : String) (query : Query) :
    (registry.applySort name query).2 = (registry.sorted? name query).getD query := by
  unfold applySort
  cases registry.sorted? name query <;> rfl

end Registry

namespace Plan

/-- The filters of a plan are applied to its query one after the other. -/
theorem query_filter (registry : Registry) (filters : Filters) (plan : Plan) :
    (plan.filter registry filters).query = filters.entries.foldl (fun query call =>
      (registry.applyFilter call.1 call.2 query).2) plan.query := by
  simp only [Registry.snd_applyFilter]
  rfl

/-- The sorts of a plan are applied to its query one after the other. -/
theorem query_sort (registry : Registry) (names : List String) (plan : Plan) :
    (plan.sort registry names).query = names.foldl (fun query name =>
      (registry.applySort name query).2) plan.query := by
  simp only [Registry.snd_applySort]
  rfl

end Plan

/-! ### Two lists -/

/-- Some table has an operation of the name. -/
def Exposes (tables : List (Operations α)) (name : String) : Prop :=
  ∃ table ∈ tables, (table.find? (camelKey name)).isSome = true

/-- Some rule settles whether the relation may be included: a table has a decision for it, or a path is the
relation, and no table before it has a decision. -/
def Settles (rules : List InclusionRule) (relation : String) : Prop :=
  (∃ table, .table table ∈ rules ∧ (table.find? (camelKey relation)).isSome = true) ∨
    ∃ before after, rules = before ++ .path relation :: after ∧
      ∀ table, .table table ∈ before → table.find? (camelKey relation) = none

/-- Of two lists one after the other, what is found first is found in the first list if anything is there. -/
theorem findSome?_append_of_exists {find : α → Option β} {first : List α}
    (found : ∃ item ∈ first, (find item).isSome = true) (second : List α) :
    (first ++ second).findSome? find = first.findSome? find := by
  obtain ⟨value, here⟩ := Option.isSome_iff_exists.1 (List.findSome?_isSome_iff.2 found)
  rw [List.findSome?_append, here, Option.some_or]

/-- And else it is found in the second list. -/
theorem findSome?_append_of_forall {find : α → Option β} {first : List α}
    (nothing : ¬ ∃ item ∈ first, (find item).isSome = true) (second : List α) :
    (first ++ second).findSome? find = second.findSome? find := by
  have none : first.findSome? find = none := List.findSome?_eq_none_iff.2 fun item member =>
    Option.not_isSome_iff_eq_none.1 fun found => nothing ⟨item, member, found⟩
  rw [List.findSome?_append, none, Option.none_or]

/-- A relation is settled exactly where some rule decides about it. -/
theorem settles_iff {rules : List InclusionRule} {relation : String} :
    Settles rules relation ↔ ∃ rule ∈ rules, (rule.decide? relation).isSome = true := by
  constructor
  · rintro (⟨table, member, found⟩ | ⟨before, after, rfl, -⟩)
    · exact ⟨.table table, member, found⟩
    · exact ⟨.path relation, List.mem_append_right _ (.head after), by rw [InclusionRule.decide?, if_pos rfl]; rfl⟩
  · rintro ⟨rule, member, decided⟩
    by_cases tables : ∃ table, .table table ∈ rules ∧ (table.find? (camelKey relation)).isSome = true
    · exact .inl tables
    · have undecided : ∀ table, .table table ∈ rules → table.find? (camelKey relation) = none :=
        fun table listed => Option.not_isSome_iff_eq_none.1 fun found => tables ⟨table, listed, found⟩
      cases rule with
      | table table => exact absurd ⟨table, member, decided⟩ tables
      | path text =>
        rw [InclusionRule.decide?] at decided
        split at decided
        · next same =>
          obtain ⟨before, after, rfl⟩ := List.append_of_mem member
          exact .inr ⟨before, after, by rw [same], fun table listed =>
            undecided table (List.mem_append_left _ listed)⟩
        · exact nomatch decided

namespace Registry

/-- The filter tables that were set are those that names are looked up in. -/
theorem filter?_setFilters (registry : Registry) (entity name : String) (tables : List FilterTable) :
    (registry.setFilters entity tables).filter? entity name =
      tables.findSome? fun table => table.find? (camelKey name) := by
  rw [filter?, setFilters, Assoc.lookup_cons, if_pos rfl, Option.getD_some]

/-- The sort tables that were set are those that names are looked up in. -/
theorem sort?_setSorts (registry : Registry) (entity name : String) (tables : List SortTable) :
    (registry.setSorts entity tables).sort? entity name =
      tables.findSome? fun table => table.find? (camelKey name) := by
  rw [sort?, setSorts, Assoc.lookup_cons, if_pos rfl, Option.getD_some]

/-- The inclusion rules that were set are those that decide. -/
theorem allows_setInclusions (registry : Registry) (entity relation : String) (rules : List InclusionRule) :
    (registry.setInclusions entity rules).allows entity relation =
      (rules.findSome? fun rule => rule.decide? relation).getD false := by
  rw [allows, setInclusions, Assoc.lookup_cons, if_pos rfl, Option.getD_some]

end Registry

/-! ### Other settings -/

/-- One setting of a registry. -/
inductive Setting where
  /-- The filter tables of an entity. -/
  | filters (entity : String) (tables : List FilterTable)
  /-- The sort tables of an entity. -/
  | sorts (entity : String) (tables : List SortTable)
  /-- The inclusion rules of an entity. -/
  | inclusions (entity : String) (rules : List InclusionRule)

namespace Registry

/-- The registry with one setting made. -/
def set (registry : Registry) : Setting → Registry
  | .filters entity tables => registry.setFilters entity tables
  | .sorts entity tables => registry.setSorts entity tables
  | .inclusions entity rules => registry.setInclusions entity rules

/-- The registry with settings made one after the other. -/
def setAll (registry : Registry) (settings : List Setting) : Registry := settings.foldl set registry

/-- What each of some settings leaves as it is, all of them leave as it is. -/
theorem read_setAll (read : Registry → α) {settings : List Setting}
    (leaves : ∀ setting ∈ settings, ∀ registry, read (registry.set setting) = read registry)
    (registry : Registry) : read (registry.setAll settings) = read registry := by
  induction settings generalizing registry with
  | nil => rfl
  | cons setting rest ih =>
    exact (ih (fun other member => leaves other (.tail _ member)) (registry.set setting)).trans
      (leaves setting (.head rest) registry)

/-- A filter call on a query of an entity does the same on either registry. -/
def FiltersAlike (left right : Registry) (entity name : String) : Prop :=
  ∀ (arguments : List String) (query : Query), query.selection.entity = entity →
    left.applyFilter name arguments query = right.applyFilter name arguments query

/-- A sort of a query of an entity does the same on either registry. -/
def SortsAlike (left right : Registry) (entity name : String) : Prop :=
  ∀ query : Query, query.selection.entity = entity → left.applySort name query = right.applySort name query

/-- Registries that find the same operation for a filter do the same. -/
theorem filtersAlike_of_filter?_eq {left right : Registry} {entity name : String}
    (same : left.filter? entity name = right.filter? entity name) : left.FiltersAlike right entity name := by
  rintro arguments query rfl
  rw [applyFilter, applyFilter, filtered?, filtered?, same]

/-- Registries that find the same operation for a sort do the same. -/
theorem sortsAlike_of_sort?_eq {left right : Registry} {entity name : String}
    (same : left.sort? entity name = right.sort? entity name) : left.SortsAlike right entity name := by
  rintro query rfl
  rw [applySort, applySort, sorted?, sorted?, same]

/-- Whether a filter runs on an entity, and what it does, is a matter of the filter tables of the entity. -/
theorem filtersAlike_setAll {settings : List Setting} {entity : String}
    (others : ∀ tables, .filters entity tables ∉ settings) (registry : Registry) (name : String) :
    (registry.setAll settings).FiltersAlike registry entity name := by
  have leaves : ∀ setting ∈ settings, ∀ registry : Registry,
      (registry.set setting).filter? entity name = registry.filter? entity name := by
    intro setting member registry
    cases setting with
    | filters other tables =>
      have apart : entity ≠ other := fun same => others tables (same ▸ member)
      rw [set, setFilters, filter?, filter?, Assoc.lookup_cons, if_neg apart]
    | sorts | inclusions => rfl
  exact filtersAlike_of_filter?_eq (read_setAll (fun registry => registry.filter? entity name) leaves registry)

/-- Whether a sort runs on an entity, and what it does, is a matter of the sort tables of the entity. -/
theorem sortsAlike_setAll {settings : List Setting} {entity : String}
    (others : ∀ tables, .sorts entity tables ∉ settings) (registry : Registry) (name : String) :
    (registry.setAll settings).SortsAlike registry entity name := by
  have leaves : ∀ setting ∈ settings, ∀ registry : Registry,
      (registry.set setting).sort? entity name = registry.sort? entity name := by
    intro setting member registry
    cases setting with
    | sorts other tables =>
      have apart : entity ≠ other := fun same => others tables (same ▸ member)
      rw [set, setSorts, sort?, sort?, Assoc.lookup_cons, if_neg apart]
    | filters | inclusions => rfl
  exact sortsAlike_of_sort?_eq (read_setAll (fun registry => registry.sort? entity name) leaves registry)

/-- Whether a relation may be included is a matter of the inclusion rules of the entity. -/
theorem allows_setAll {settings : List Setting} {entity : String}
    (others : ∀ rules, .inclusions entity rules ∉ settings) (registry : Registry) (relation : String) :
    (registry.setAll settings).allows entity relation = registry.allows entity relation := by
  have leaves : ∀ setting ∈ settings, ∀ registry : Registry,
      (registry.set setting).allows entity relation = registry.allows entity relation := by
    intro setting member registry
    cases setting with
    | inclusions other rules =>
      have apart : entity ≠ other := fun same => others rules (same ▸ member)
      rw [set, setInclusions, allows, allows, Assoc.lookup_cons, if_neg apart]
    | filters | sorts => rfl
  exact read_setAll (fun registry => registry.allows entity relation) leaves registry

/-- The first match decides. Setting one list after another for an entity does for a name what the first list
alone does if it exposes the name, and else what the second list alone does: the same filter runs or is
skipped, the same sort runs, and the same relations are allowed and denied. What does not run leaves the query
as it is, and no settings of other kinds or for other entities change the outcome. -/
theorem first_match_decides (registry : Registry) (entity : String) :
    (∀ (first second : List FilterTable) (name : String),
      (Exposes first name → (registry.setFilters entity (first ++ second)).FiltersAlike
        (registry.setFilters entity first) entity name) ∧
      (¬ Exposes first name → (registry.setFilters entity (first ++ second)).FiltersAlike
        (registry.setFilters entity second) entity name)) ∧
    (∀ (first second : List SortTable) (name : String),
      (Exposes first name → (registry.setSorts entity (first ++ second)).SortsAlike
        (registry.setSorts entity first) entity name) ∧
      (¬ Exposes first name → (registry.setSorts entity (first ++ second)).SortsAlike
        (registry.setSorts entity second) entity name)) ∧
    (∀ (first second : List InclusionRule) (relation : String),
      (Settles first relation → (registry.setInclusions entity (first ++ second)).allows entity relation =
        (registry.setInclusions entity first).allows entity relation) ∧
      (¬ Settles first relation → (registry.setInclusions entity (first ++ second)).allows entity relation =
        (registry.setInclusions entity second).allows entity relation)) ∧
    (∀ (name : String) (arguments : List String) (query : Query),
      (registry.applyFilter name arguments query).1 = false →
        (registry.applyFilter name arguments query).2 = query) ∧
    (∀ (name : String) (query : Query), (registry.applySort name query).1 = false →
      (registry.applySort name query).2 = query) ∧
    ∀ settings : List Setting,
      ((∀ tables, .filters entity tables ∉ settings) →
        ∀ name, (registry.setAll settings).FiltersAlike registry entity name) ∧
      ((∀ tables, .sorts entity tables ∉ settings) →
        ∀ name, (registry.setAll settings).SortsAlike registry entity name) ∧
      ((∀ rules, .inclusions entity rules ∉ settings) →
        ∀ relation, (registry.setAll settings).allows entity relation = registry.allows entity relation) := by
  refine ⟨fun first second name => ⟨fun found => ?_, fun nothing => ?_⟩,
    fun first second name => ⟨fun found => ?_, fun nothing => ?_⟩,
    fun first second relation => ⟨fun settled => ?_, fun unsettled => ?_⟩,
    fun _ _ _ => applyFilter_of_false, fun _ _ => applySort_of_false, fun settings =>
      ⟨fun others => filtersAlike_setAll others registry, fun others => sortsAlike_setAll others registry,
        fun others => allows_setAll others registry⟩⟩
  · refine filtersAlike_of_filter?_eq ?_
    rw [filter?_setFilters, filter?_setFilters, findSome?_append_of_exists found]
  · refine filtersAlike_of_filter?_eq ?_
    rw [filter?_setFilters, filter?_setFilters, findSome?_append_of_forall nothing]
  · refine sortsAlike_of_sort?_eq ?_
    rw [sort?_setSorts, sort?_setSorts, findSome?_append_of_exists found]
  · refine sortsAlike_of_sort?_eq ?_
    rw [sort?_setSorts, sort?_setSorts, findSome?_append_of_forall nothing]
  · rw [allows_setInclusions, allows_setInclusions, findSome?_append_of_exists (settles_iff.1 settled)]
  · rw [allows_setInclusions, allows_setInclusions,
      findSome?_append_of_forall fun found => unsettled (settles_iff.2 found)]

/-- Users can be filtered by a name in two parts or by a first name, in tables of their own. -/
def fullNames : FilterTable := Operations.register .empty "name_is" (.binary fun first last =>
  Query.filterBy [⟨"first", .equal, .string first⟩, ⟨"last", .equal, .string last⟩])

/-- The broader filter of the same name. -/
def firstNames : FilterTable := Operations.register .empty "name-is" (.unary fun first =>
  Query.filterBy [⟨"first", .equal, .string first⟩])

/-- A table that denies the secrets of users. -/
def noSecrets : InclusionTable := Operations.register .empty "secrets" false

/-- A filter that lacks an argument does not fall back on the later table, which would have run; nor does a
denied relation on a later rule. -/
theorem no_fallback :
    let users : Query := .ofEntity (.ofTable "users" "users")
    Exposes [fullNames] "name_is" ∧ Settles [.table noSecrets] "secrets" ∧
    (Registry.empty.setFilters "users" [firstNames]).applyFilter "name_is" ["Ada"] users =
      (true, users.filterBy [⟨"first", .equal, .string "Ada"⟩]) ∧
    (Registry.empty.setFilters "users" ([fullNames] ++ [firstNames])).applyFilter "name_is" ["Ada"] users =
      (false, users) ∧
    (Registry.empty.setInclusions "users" ([.table noSecrets] ++ [.path "secrets"])).allows "users" "secrets" =
      false := by
  intro users
  have exposed : Exposes [fullNames] "name_is" := ⟨fullNames, .head [], by decide⟩
  have settled : Settles [.table noSecrets] "secrets" := .inl ⟨noSecrets, .head [], by decide⟩
  obtain ⟨filters, -, inclusions, -⟩ := first_match_decides .empty "users"
  refine ⟨exposed, settled, rfl, ?_, ?_⟩
  · rw [(filters [fullNames] [firstNames] "name_is").1 exposed ["Ada"] users rfl]
    rfl
  · rw [(inclusions [.table noSecrets] [.path "secrets"] "secrets").1 settled]
    rfl

end Registry

end ResourceQuery
