import ResourceQuery.Query.Selection

/-!
# Chains of relations in a catalog

What a catalog says of a chain of relation names: whether every relation of it and its target are
known (`Catalog.Leads`), and the selection that a fresh node at its end starts from
(`Catalog.reach?`). A chain is resolved exactly when it leads somewhere (`resolves_iff_leads`),
and exactly when it reaches a selection (`resolves_eq_isSome_reach?`).
-/
namespace ResourceQuery

namespace Selection

/-- The rows that a selection reads, with nothing asked of them. -/
def bare (selection : Selection) : Selection :=
  { selection with columns := none, conditions := [], orders := [], offset := none, limit := none }

/-- The rows of a relation are those of its target. -/
@[simp] theorem entity_ofRelation (relation : Relation) (target : Entity) :
    (ofRelation relation target).entity = target.name := rfl

/-- A fresh selection asks for nothing. -/
@[simp] theorem bare_ofRelation (relation : Relation) (target : Entity) :
    (ofRelation relation target).bare = ofRelation relation target := rfl

/-- Selections of the same rows have the same entity. -/
theorem entity_of_bare {left right : Selection} (same : left.bare = right.bare) :
    left.entity = right.entity := (congrArg Selection.entity same : _)

end Selection

namespace Catalog

/-- From an entity, every relation of a chain and its target are known. -/
inductive Leads (catalog : Catalog) : String → List String → Prop
  /-- The empty chain stays at the entity. -/
  | here (entity : String) : Leads catalog entity []
  /-- One known relation with a known target, and the rest of the chain from there. -/
  | step {entity name : String} {relation : Relation} {target : Entity} {rest : List String}
      (relationKnown : catalog.relation? entity name = some relation)
      (targetKnown : catalog.entity? relation.target = some target)
      (further : Leads catalog target.name rest) : Leads catalog entity (name :: rest)

/-- The selection of a fresh node at the end of a chain. -/
def reach? (catalog : Catalog) (start : Selection) : List String → Option Selection
  | [] => some start
  | name :: rest => (catalog.step? start.entity name).bind fun (relation, target) =>
      catalog.reach? (.ofRelation relation target) rest

/-- A longer chain goes on from the target of its first step. -/
theorem reach?_cons (catalog : Catalog) (start : Selection) (name : String) (rest : List String) :
    catalog.reach? start (name :: rest) = (catalog.step? start.entity name).bind fun found =>
      catalog.reach? (.ofRelation found.1 found.2) rest := rfl

/-- A step is a known relation with a known target. -/
theorem step?_eq_some_iff {catalog : Catalog} {entity name : String} {relation : Relation}
    {target : Entity} : catalog.step? entity name = some (relation, target) ↔
      catalog.relation? entity name = some relation ∧
        catalog.entity? relation.target = some target := by
  simp only [step?, bind, Option.bind_eq_some_iff, pure, Option.some.injEq, Prod.mk.injEq]
  constructor
  · rintro ⟨relation, known, target, targetKnown, rfl, rfl⟩
    exact ⟨known, targetKnown⟩
  · rintro ⟨known, targetKnown⟩
    exact ⟨relation, known, target, targetKnown, rfl, rfl⟩

/-- The relation of a step has the name that was asked for. -/
theorem name_of_step? {catalog : Catalog} {entity name : String} {relation : Relation}
    {target : Entity} (step : catalog.step? entity name = some (relation, target)) :
    relation.name = name := by
  obtain ⟨known, -⟩ := step?_eq_some_iff.1 step
  obtain ⟨source, -, found⟩ := Option.bind_eq_some_iff.1 known
  simpa using List.find?_some found

/-- The target of a step has the name that the relation gives it. -/
theorem target_of_step? {catalog : Catalog} {entity name : String} {relation : Relation}
    {target : Entity} (step : catalog.step? entity name = some (relation, target)) :
    target.name = relation.target := name_of_entity? (step?_eq_some_iff.1 step).2

/-- A chain that begins with a known relation is followed from its target on. -/
theorem follow?_cons {catalog : Catalog} {entity name : String} {relation : Relation} {target : Entity}
    (step : catalog.step? entity name = some (relation, target)) (rest : List String) :
    catalog.follow? entity (name :: rest) = (catalog.follow? relation.target rest).map ((relation, target) :: ·) := by
  simp only [follow?, step, bind, Option.bind_some, pure]
  exact Option.map_eq_bind.symm

/-- A chain is resolved exactly when a fresh node at its end has a selection. -/
theorem resolves_eq_isSome_reach? (catalog : Catalog) (start : Selection) (chain : List String) :
    catalog.resolves start.entity chain = (catalog.reach? start chain).isSome := by
  induction chain generalizing start with
  | nil => rfl
  | cons name rest ih =>
    cases step : catalog.step? start.entity name with
    | none => simp [resolves, follow?, reach?, step]
    | some found =>
      obtain ⟨relation, target⟩ := found
      have later := ih (.ofRelation relation target)
      rw [Selection.entity_ofRelation, target_of_step? step] at later
      simp only [resolves] at later
      simp only [resolves, follow?, reach?, step, bind, Option.bind_some, pure, ← later]
      cases catalog.follow? relation.target rest <;> rfl

/-- A chain is resolved exactly when it leads along known relations to known targets. -/
theorem resolves_iff_leads {catalog : Catalog} {entity : String} {chain : List String} :
    catalog.resolves entity chain = true ↔ catalog.Leads entity chain := by
  induction chain generalizing entity with
  | nil => exact ⟨fun _ => .here entity, fun _ => rfl⟩
  | cons name rest ih =>
    constructor
    · intro resolved
      cases step : catalog.step? entity name with
      | none => simp [resolves, follow?, step] at resolved
      | some found =>
        obtain ⟨relation, target⟩ := found
        have known := step?_eq_some_iff.1 step
        refine .step known.1 known.2 (ih.1 ?_)
        simp only [resolves, follow?, step, bind, Option.bind_some] at resolved ⊢
        rw [target_of_step? step]
        cases further : catalog.follow? relation.target rest with
        | none => simp [further] at resolved
        | some steps => rfl
    · rintro (_ | ⟨relationKnown, targetKnown, further⟩)
      have step := step?_eq_some_iff.2 ⟨relationKnown, targetKnown⟩
      have later := ih.2 further
      rw [target_of_step? step] at later
      obtain ⟨steps, found⟩ := Option.isSome_iff_exists.1 later
      simp [resolves, follow?, step, found]

/-- A longer chain is reached from where its beginning leads. -/
theorem reach?_append (catalog : Catalog) (start : Selection) (chain rest : List String) :
    catalog.reach? start (chain ++ rest) =
      (catalog.reach? start chain).bind fun reached => catalog.reach? reached rest := by
  induction chain generalizing start with
  | nil => rfl
  | cons name others ih =>
    simp only [List.cons_append, reach?, Option.bind_assoc]
    congr 1
    funext found
    exact ih _

/-- The beginning of a reachable chain is reachable. -/
theorem reach?_isSome_of_prefix {catalog : Catalog} {start : Selection} {chain longer : List String}
    (beginning : chain <+: longer) (reached : (catalog.reach? start longer).isSome) :
    (catalog.reach? start chain).isSome := by
  obtain ⟨rest, rfl⟩ := beginning
  rw [reach?_append] at reached
  cases found : catalog.reach? start chain with
  | none => simp [found] at reached
  | some selection => rfl

/-- Where a chain leads depends on the entity that it starts from. -/
theorem reach?_congr {catalog : Catalog} {left right : Selection} {chain : List String}
    (same : left.entity = right.entity) (further : chain ≠ []) :
    catalog.reach? left chain = catalog.reach? right chain := by
  cases chain with
  | nil => exact absurd rfl further
  | cons name rest => simp only [reach?, same]

/-- A fresh node below the start is that of a known relation with a known target. -/
theorem step_of_reach? {catalog : Catalog} {start reached : Selection} {chain : List String}
    (found : catalog.reach? start chain = some reached) (further : chain ≠ []) :
    ∃ source name relation target, catalog.step? source name = some (relation, target) ∧
      reached = .ofRelation relation target := by
  induction chain generalizing start with
  | nil => exact absurd rfl further
  | cons name rest ih =>
    obtain ⟨⟨relation, target⟩, step, found⟩ := Option.bind_eq_some_iff.1 found
    cases rest with
    | nil => exact ⟨start.entity, name, relation, target, step, (Option.some.inj found).symm⟩
    | cons next others => exact ih found (List.cons_ne_nil next others)

/-- A fresh node asks for nothing. -/
theorem bare_of_reach? {catalog : Catalog} {start reached : Selection} {chain : List String}
    (found : catalog.reach? start chain = some reached) (further : chain ≠ []) :
    reached.bare = reached := by
  obtain ⟨source, name, relation, target, -, rfl⟩ := step_of_reach? found further
  rfl

end Catalog

end ResourceQuery
