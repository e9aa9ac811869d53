/-!
# Catalog

The entities that a server exposes, the table behind each, and the relations by which their rows
join. A later entity of a name replaces the earlier. `follow?` walks a chain of relation names
from an entity and gives the relations with their targets, refusing a chain with a step that is
not known.
-/
namespace ResourceQuery

/-- How many rows a relation gives. -/
inductive Cardinality where
  /-- All rows whose column holds this row's key. -/
  | many
  /-- At most one row whose column holds this row's key. -/
  | one
  /-- The row whose key this row holds. -/
  | owner
deriving DecidableEq

/-- A named relation: the related rows are those of the target whose child column equals the
parent column of this row. -/
structure Relation where
  /-- The name of the relation. -/
  name : String
  /-- The entity of the related rows. -/
  target : String
  /-- How many rows it gives. -/
  kind : Cardinality
  /-- The column of this row. -/
  parentColumn : String
  /-- The column of the related rows. -/
  childColumn : String
deriving DecidableEq

/-- A kind of row. -/
structure Entity where
  /-- The name that relations and requests use. -/
  name : String
  /-- The table of the rows. -/
  table : String
  /-- The column that identifies a row. -/
  primaryKey : String
  /-- The relations in the order of their declaration. -/
  relations : List Relation
deriving DecidableEq

namespace Entity

/-- An entity identified by `id`, without relations. -/
def ofTable (name table : String) : Entity := ⟨name, table, "id", []⟩

/-- The entity identified by another column; relations declared earlier keep theirs. -/
def identifiedBy (entity : Entity) (column : String) : Entity := { entity with primaryKey := column }

/-- The entity with one more relation. -/
def declare (entity : Entity) (relation : Relation) : Entity :=
  { entity with relations := entity.relations ++ [relation] }

/-- The entity with a relation to all rows of `target` whose `foreignKey` holds its key. -/
def relateMany (entity : Entity) (name target foreignKey : String) : Entity :=
  entity.declare ⟨name, target, .many, entity.primaryKey, foreignKey⟩

/-- The entity with a relation to one row of `target` whose `foreignKey` holds its key. -/
def relateOne (entity : Entity) (name target foreignKey : String) : Entity :=
  entity.declare ⟨name, target, .one, entity.primaryKey, foreignKey⟩

/-- The entity with a relation to the row of `target` whose `ownerKey` its `foreignKey` holds. -/
def relateOwner (entity : Entity) (name target foreignKey ownerKey : String) : Entity :=
  entity.declare ⟨name, target, .owner, foreignKey, ownerKey⟩

/-- The first relation declared under a name. -/
def relation? (entity : Entity) (name : String) : Option Relation :=
  entity.relations.find? fun relation => relation.name = name

end Entity

/-- The entities of a server, the latest first. -/
structure Catalog where
  /-- The entities. -/
  entities : List Entity

namespace Catalog

/-- The catalog without entities. -/
def empty : Catalog := ⟨[]⟩

/-- The catalog with one more entity, which replaces one of the same name. -/
def insert (catalog : Catalog) (entity : Entity) : Catalog := ⟨entity :: catalog.entities⟩

/-- The entity of a name. -/
def entity? (catalog : Catalog) (name : String) : Option Entity :=
  catalog.entities.find? fun entity => entity.name = name

/-- The relation of a name on an entity. -/
def relation? (catalog : Catalog) (entity name : String) : Option Relation :=
  (catalog.entity? entity).bind fun entity => entity.relation? name

/-- The relation of a name on an entity with its target, if both are known. -/
def step? (catalog : Catalog) (entity name : String) : Option (Relation × Entity) := do
  let relation ← catalog.relation? entity name
  let target ← catalog.entity? relation.target
  return (relation, target)

/-- The relations and targets along a chain of relation names. -/
def follow? (catalog : Catalog) (entity : String) : List String → Option (List (Relation × Entity))
  | [] => some []
  | name :: rest => do
    let (relation, target) ← catalog.step? entity name
    let further ← catalog.follow? relation.target rest
    return (relation, target) :: further

/-- Every relation of the chain and its target are known. -/
def resolves (catalog : Catalog) (entity : String) (chain : List String) : Bool :=
  (catalog.follow? entity chain).isSome

/-- An inserted entity is found under its name, and every other name finds what it found. -/
theorem entity?_insert (catalog : Catalog) (entity : Entity) (name : String) :
    (catalog.insert entity).entity? name =
      if entity.name = name then some entity else catalog.entity? name := by
  by_cases h : entity.name = name <;> simp [entity?, insert, h]

/-- The entity found under a name has that name. -/
theorem name_of_entity? {catalog : Catalog} {name : String} {entity : Entity}
    (found : catalog.entity? name = some entity) : entity.name = name := by
  simpa using List.find?_some found

end Catalog

end ResourceQuery
