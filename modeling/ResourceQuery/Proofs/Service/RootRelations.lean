import ResourceQuery.Proofs.Service.IncludedPaths
import ResourceQuery.Proofs.Service.Root

/-!
# The relations of the root

Directly under the root of the rows of an entity there is a relation of the entity for the first name of every
configured path, and no other; and nothing is surplus below the root but in these relations
(`rooted_withRelations`). That holds whatever operations do, because they are handed the nodes below the root:
the way from the root to them goes by the catalog alone (`Query.configure?_cons`).
-/
namespace ResourceQuery

namespace Query

variable {α : Type}

/-- A configuration along a chain that is resolved places a query under the first name of it, for the relation
that is included there or that the catalog has for the name. -/
theorem configure?_cons {catalog : Catalog} {query : Query} {name : String} {rest : List String}
    (resolved : catalog.resolves query.selection.entity (name :: rest) = true) (configure : Query → α × Query) :
    ∃ relation child made answer, included? catalog query name = some (relation, child) ∧
      query.configure? catalog (name :: rest) configure =
        some (answer, node query.selection (place relation made query.includes)) := by
  obtain ⟨further, followed⟩ := Option.isSome_iff_exists.1 resolved
  obtain ⟨⟨relation, target⟩, step, -⟩ := Option.bind_eq_some_iff.1 followed
  have reached : (included? catalog query name).isSome := by
    rw [included?, step, Option.isSome_or, Option.map_some, Option.isSome_some, Bool.or_true]
  obtain ⟨⟨own, child⟩, found⟩ := Option.isSome_iff_exists.1 reached
  obtain ⟨answer, made, configured⟩ : ∃ answer made, configureAt catalog configure rest child = (answer, made) :=
    ⟨_, _, rfl⟩
  refine ⟨own, child, made, answer, found, ?_⟩
  rw [configure?, resolved, configureAt_cons,
    configureChild_eq_place found (name_of_included? found) configured]
  rfl

end Query

namespace Surplus

/-- A relation has a node. -/
def HasNode (surplus : Surplus) (name : String) : Prop := ∃ child, (name, child) ∈ surplus.relations

/-- Without a node there is nothing to drop. -/
theorem under_of_not_hasNode {surplus : Surplus} {name : String} (absent : ¬ surplus.HasNode name) :
    surplus.under name = empty := by
  unfold under relation?
  cases found : surplus.relations.lookup name with
  | none => rfl
  | some child => exact absurd ⟨child, Assoc.mem_of_lookup found⟩ absent

/-- A change along a chain makes a node for no other relation than the first. -/
theorem hasNode_of_alterAt {change : Surplus → Surplus} {chain : List String} (further : chain ≠ [])
    {surplus : Surplus} {name : String} (held : (surplus.alterAt change chain).HasNode name) :
    chain.head? = some name ∨ surplus.HasNode name := by
  obtain ⟨fields, relations⟩ := surplus
  cases chain with
  | nil => exact absurd rfl further
  | cons first rest =>
    rcases Assoc.mem_keys_upsert.1 held with same | before
    · exact .inl (congrArg some same.symm)
    · exact .inr before

/-- Fields make nodes for no other relations than those that their paths begin with. -/
theorem hasNode_of_foldl_insert {columns : List (Path × String)} {surplus : Surplus} {name : String}
    (held : (columns.foldl (fun surplus (path, column) => surplus.insert path column) surplus).HasNode name) :
    (∃ entry ∈ columns, entry.1.segments.head? = some name) ∨ surplus.HasNode name := by
  induction columns generalizing surplus with
  | nil => exact .inr held
  | cons entry rest ih =>
    obtain ⟨⟨chain⟩, column⟩ := entry
    rcases ih held with ⟨other, listed, first⟩ | here
    · exact .inl ⟨other, .tail _ listed, first⟩
    · cases chain with
      | nil =>
        obtain ⟨fields, relations⟩ := surplus
        exact .inr here
      | cons first below =>
        rcases hasNode_of_alterAt (List.cons_ne_nil first below) here with begins | before
        · exact .inl ⟨_, .head rest, begins⟩
        · exact .inr before

end Surplus

namespace Service

variable {service : Service} {plan : Plan} {names : List String}

/-- Directly under the root there are relations of its entity, under these names; and nothing below the root is
surplus but in them. -/
structure Rooted (service : Service) (names : List String) (plan : Plan) : Prop where
  /-- The relations are those that the catalog has for their names. -/
  declared : ∀ included ∈ plan.query.includes,
    ∃ target, service.catalog.step? plan.entity included.1.name = some (included.1, target)
  /-- They have these names. -/
  named : ∀ name, name ∈ plan.query.includes.map Query.includedName ↔ name ∈ names
  /-- The surplus below the root is theirs. -/
  surplus : ∀ name, plan.surplus.HasNode name → name ∈ names

/-- A selection on its own has no relations. -/
theorem Rooted.leaf (service : Service) (selection : Selection) :
    Rooted service [] (.ofQuery (.node selection [])) where
  declared _ member := by cases member
  named _ := Iff.rfl
  surplus _ held := by
    obtain ⟨_, member⟩ := held
    cases member

/-- A query placed under a name is one more relation of the root, unless there is one of the name. -/
theorem Rooted.place (rooted : Rooted service names plan) {relation : Relation} {child made : Query}
    {surplus : Surplus} {name : String}
    (found : Query.included? service.catalog plan.query name = some (relation, child))
    (held : ∀ other, surplus.HasNode other → other ∈ names ++ [name]) :
    Rooted service (names ++ [name])
      ⟨.node plan.query.selection (Query.place relation made plan.query.includes), surplus⟩ := by
  obtain ⟨declared, listed, -⟩ := rooted
  obtain rfl := Query.name_of_included? found
  rw [Query.included?] at found
  refine ⟨fun included member => ?_, fun other => ?_, held⟩
  · show ∃ target, service.catalog.step? plan.entity included.1.name = some (included.1, target)
    rcases Query.mem_place found member with rfl | before
    · cases present : plan.query.includes.find? fun included => included.1.name = relation.name with
      | some own =>
        rw [present, Option.some_or] at found
        obtain rfl := Option.some.inj found
        exact declared (relation, child) (List.mem_of_find?_eq_some present)
      | none =>
        rw [present, Option.none_or] at found
        obtain ⟨⟨stepRelation, target⟩, step, same⟩ := Option.map_eq_some_iff.1 found
        obtain ⟨rfl, -⟩ := Prod.mk.inj same
        exact ⟨target, step⟩
    · exact declared included before
  · have names : ∀ includes : List (Relation × Query),
        includes.map Query.includedName = (includes.map Prod.fst).map Relation.name := fun includes =>
      (List.map_map ..).symm
    show other ∈ (Query.place relation made plan.query.includes).map Query.includedName ↔ _
    rw [List.mem_append, List.mem_singleton, ← listed, names, Query.map_fst_place]
    split
    · next present =>
      rw [← names]
      exact ⟨.inl, fun member => member.elim id fun same => same ▸ present⟩
    · rw [List.map_append, ← names, List.mem_append, List.map_singleton, List.mem_singleton]

/-- An admitted relation is one more relation of the root, under the first name of its path. -/
theorem Rooted.withRelation (rooted : Rooted service names plan) {relation name : String} {rest : List String}
    (admitted : service.admits plan.entity relation = true)
    (path : (Path.ofText relation).segments = name :: rest) :
    Rooted service (names ++ [name]) (service.withRelation plan relation) := by
  obtain ⟨allowed, -, leads⟩ := admits_iff.1 admitted
  have resolved := Catalog.resolves_iff_leads.2 leads
  rw [path] at resolved
  have before : ∀ other, plan.surplus.HasNode other → other ∈ names ++ [name] := fun other held =>
    List.mem_append_left _ (rooted.surplus other held)
  have grafted : ∀ surplus other, (plan.surplus.unionAt (Path.ofText relation) surplus).HasNode other →
      other ∈ names ++ [name] := by
    intro surplus other held
    rw [Surplus.unionAt, path] at held
    rcases Surplus.hasNode_of_alterAt (List.cons_ne_nil name rest) held with first | present
    · exact List.mem_append_right _ (List.mem_singleton.2 (Option.some.inj first).symm)
    · exact before other present
  obtain ⟨own, child, made, answer, found, configured⟩ := Query.configure?_cons resolved
    (Plan.onQuery fun nested => ((), service.configure (Path.ofText relation) nested))
  unfold Service.withRelation
  rw [Plan.withRelation_eq, if_pos allowed, path, configured]
  cases answer with
  | none => exact rooted.place found before
  | some answered => exact rooted.place found (grafted answered.2)

/-- The first names of the paths that are configured under an entity. -/
def firstNames (service : Service) (entity : String) (relations : List String) : List String :=
  (service.admitted entity relations).filterMap fun path => path.segments.head?

/-- A first name is that of a requested path that is allowed and leads along known relations. -/
theorem mem_firstNames_iff {entity name : String} {relations : List String} :
    name ∈ service.firstNames entity relations ↔ ∃ relation ∈ relations,
      service.registry.allows entity relation = true ∧
      service.catalog.Leads entity (Path.ofText relation).segments ∧
      (Path.ofText relation).segments.head? = some name := by
  rw [firstNames, List.mem_filterMap]
  constructor
  · rintro ⟨path, member, first⟩
    obtain ⟨relation, requested, admitted, rfl⟩ := mem_admitted_iff.1 member
    obtain ⟨allowed, -, leads⟩ := admits_iff.1 admitted
    exact ⟨relation, requested, allowed, leads, first⟩
  · rintro ⟨relation, requested, allowed, leads, first⟩
    have further : (Path.ofText relation).segments ≠ [] := fun none => by
      rw [none] at first
      contradiction
    exact ⟨_, mem_admitted_iff.2 ⟨relation, requested, admits_iff.2 ⟨allowed, further, leads⟩, rfl⟩, first⟩

/-- Relations are included one after the other under the first names of the admitted ones. -/
theorem Rooted.foldl_withRelation (rooted : Rooted service names plan) (relations : List String) :
    Rooted service (names ++ service.firstNames plan.entity relations)
      (relations.foldl service.withRelation plan) := by
  induction relations generalizing names plan with
  | nil =>
    rw [firstNames, admitted, List.filter_nil, List.map_nil, List.filterMap_nil, List.append_nil]
    exact rooted
  | cons relation rest ih =>
    have entity : (service.withRelation plan relation).entity = plan.entity :=
      congrArg Selection.entity (service.selection_withRelation plan relation)
    rw [List.foldl_cons]
    cases admittedHere : service.admits plan.entity relation with
    | false =>
      rw [firstNames, admitted_cons_of_refused admittedHere, ← configuration_plan,
        configuration_of_refused admittedHere]
      exact ih rooted
    | true =>
      obtain ⟨-, further, -⟩ := admits_iff.1 admittedHere
      obtain ⟨name, below, path⟩ := List.exists_cons_of_ne_nil further
      have later := ih (rooted.withRelation admittedHere path)
      rw [entity] at later
      rw [firstNames, admitted_cons_of_admits admittedHere, List.filterMap_cons_some (by rw [path]; rfl),
        List.append_cons]
      exact later

/-- The relations that a request includes with the rows of a selection are under the root. -/
theorem rooted_withRelations (service : Service) (selection : Selection) :
    Rooted service (service.firstNames selection.entity service.request.relations)
      (service.withRelations (.ofQuery (.node selection []))) :=
  (Rooted.leaf service selection).foldl_withRelation service.request.relations

/-- Join columns change neither the relations of the root nor which of them have surplus fields. -/
theorem Rooted.finish (rooted : Rooted service names plan) : Rooted service names plan.finish where
  declared included member := by
    rw [Plan.query_finish, Query.includes_withJoinColumns] at member
    obtain ⟨before, listed, rfl⟩ := List.mem_map.1 member
    have entity : plan.finish.entity = plan.entity := by
      rw [Plan.entity, Plan.query_finish, Query.selection_withJoinColumns]
      exact Selection.entity_of_bare (Selection.bare_foldl_addColumn _ _)
    rw [entity]
    exact rooted.declared before listed
  named name := by
    rw [Plan.query_finish, Query.names_withJoinColumns]
    exact rooted.named name
  surplus name held := by
    rcases Surplus.hasNode_of_foldl_insert held with ⟨entry, listed, first⟩ | before
    · obtain ⟨⟨selection, includes⟩, surplus⟩ := plan
      refine (rooted.named name).1 ?_
      rcases List.mem_append.1 listed with here | below
      · obtain ⟨column, -, rfl⟩ := List.mem_map.1 here
        contradiction
      · obtain ⟨included, member, below⟩ := Query.mem_allJoinColumns_iff.1 below
        obtain ⟨rest, whole⟩ := Query.prefix_of_mem_joinColumns below
        rw [← whole] at first
        exact List.mem_map.2 ⟨included, member, Option.some.inj first⟩
    · exact rooted.surplus name before

end Service

end ResourceQuery
