import ResourceQuery.Json.Basic
import ResourceQuery.Path

/-!
# Surplus fields

Columns selected only so that rows can be joined have to leave the answer again. A surplus has the
shape of the answer: at every node the fields to drop, and a node for every relation that has
some below it. `strip` drops them, going through arrays element by element and into the relations
that have a node; a relation that is missing from the answer is passed over.
-/
namespace ResourceQuery

/-- The fields to drop at a node, and the nodes of its relations in the order of their names. -/
inductive Surplus where
  /-- Fields and relations. -/
  | node (fields : List String) (relations : List (String × Surplus))

namespace Surplus

/-- Nothing to drop. -/
def empty : Surplus := node [] []

/-- The fields to drop at this node. -/
def fields : Surplus → List String
  | node fields _ => fields

/-- The nodes of the relations. -/
def relations : Surplus → List (String × Surplus)
  | node _ relations => relations

/-- The node of a relation. -/
def relation? (surplus : Surplus) (name : String) : Option Surplus :=
  surplus.relations.lookup name

/-- The node at the end of a chain of relations. -/
def at? (surplus : Surplus) : List String → Option Surplus
  | [] => some surplus
  | name :: rest => (surplus.relation? name).bind fun child => child.at? rest

/-- The fields to drop at a path, none where there is no node. -/
def fieldsAt (surplus : Surplus) (path : Path) : List String :=
  ((surplus.at? path.segments).map fields).getD []

mutual

/-- There is nothing to drop at this node or below. -/
def isEmpty : Surplus → Bool
  | node fields relations => fields.isEmpty && allEmpty relations

/-- There is nothing to drop at any of the nodes. -/
def allEmpty : List (String × Surplus) → Bool
  | [] => true
  | (_, child) :: rest => child.isEmpty && allEmpty rest

end

/-- Change the node at the end of a chain, making the nodes on the way. -/
def alterAt (change : Surplus → Surplus) : List String → Surplus → Surplus
  | [], surplus => change surplus
  | name :: rest, node fields relations =>
    node fields (Assoc.upsert name (fun child => alterAt change rest (child.getD empty)) relations)

/-- Fields with one more at the end, unless it is there. -/
def addField (fields : List String) (field : String) : List String :=
  if fields.contains field then fields else fields ++ [field]

/-- Drop a field at a path. -/
def insert (surplus : Surplus) (path : Path) (field : String) : Surplus :=
  surplus.alterAt (fun | node fields relations => node (addField fields field) relations)
    path.segments

/-- Keep a field at this node. -/
def erase (surplus : Surplus) (field : String) : Surplus :=
  node (surplus.fields.filter (· ≠ field)) surplus.relations

mutual

/-- Drop at this node and below what either says. -/
def union (surplus : Surplus) : Surplus → Surplus
  | node fields relations =>
    node (fields.foldl addField surplus.fields) (unionAll surplus.relations relations)

/-- Drop in every relation what either says. -/
def unionAll (present : List (String × Surplus)) :
    List (String × Surplus) → List (String × Surplus)
  | [] => present
  | (name, child) :: rest =>
    unionAll (Assoc.upsert name (fun held => union (held.getD empty) child) present) rest

end

/-- Drop at a path what another surplus says of its root. -/
def unionAt (surplus : Surplus) (path : Path) (other : Surplus) : Surplus :=
  surplus.alterAt (fun node => node.union other) path.segments

mutual

/-- A value without its surplus. -/
def strip (surplus : Surplus) : Json → Json
  | .array items => .array (stripItems surplus items)
  | .object members => .object (stripMembers surplus members)
  | other => other

/-- Values without their surplus. -/
def stripItems (surplus : Surplus) : List Json → List Json
  | [] => []
  | item :: rest => surplus.strip item :: stripItems surplus rest

/-- Members without those to drop, every member of a relation that has a node stripped of its surplus. -/
def stripMembers (surplus : Surplus) : List (String × Json) → List (String × Json)
  | [] => []
  | (name, value) :: rest =>
    if surplus.fields.contains name then stripMembers surplus rest
    else
      match surplus.relation? name with
      | some child => (name, child.strip value) :: stripMembers surplus rest
      | none => (name, value) :: stripMembers surplus rest

end

end Surplus

end ResourceQuery
