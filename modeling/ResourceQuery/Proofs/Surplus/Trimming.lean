import ResourceQuery.Proofs.Json.Places
import ResourceQuery.Proofs.Surplus.Strip

/-!
# Stripping place by place

What a surplus does to a value, place by place (`strip_at_places`). A place stays unless a member on its way is a
field where the surplus has a node for the names before it. Where it has a node for all names on the way, the
value at the place is outlined again: arrays keep their items, objects lose the fields of the node and nothing
else, all other values stay. Where it has none, the value stays as it is. What the surplus says of members that
the value does not have changes nothing, and nor does stripping again.
-/
namespace ResourceQuery.Surplus

/-- Below nothing to drop there is nothing to drop. -/
theorem descend_empty (chain : List String) : empty.descend chain = empty := by
  induction chain with
  | nil => rfl
  | cons name rest ih => exact ih

/-- The node at the end of a chain is the one that is found there. -/
theorem descend_eq (surplus : Surplus) (chain : List String) :
    surplus.descend chain = (surplus.at? chain).getD empty := by
  induction chain generalizing surplus with
  | nil => rfl
  | cons name rest ih =>
    rw [descend, under, at?]
    cases surplus.relation? name with
    | none => exact descend_empty rest
    | some child => exact ih child

/-- At the end of a chain, the rule of a surplus is that of the node there. -/
theorem below_rule (surplus : Surplus) (chain : List String) :
    surplus.rule.below chain = (surplus.descend chain).rule := by
  funext rest name
  show (!(surplus.fieldsAt ⟨chain ++ rest⟩).contains name) = _
  rw [← fieldsAt_descend]
  rfl

/-- What is left of a value is outlined by the value without the fields of the node. -/
theorem outline_strip (surplus : Surplus) (json : Json) : json.Outline surplus.fields (surplus.strip json) := by
  cases json with
  | array items =>
    rw [strip, stripItems_eq_map]
    exact .array (List.length_map _)
  | object members =>
    rw [strip_eq_keep, Json.keep_object]
    exact .object (Json.names_keepMembers surplus.rule members)
  | null | bool | number | string => exact .scalar (fun _ same => by cases same) fun _ same => by cases same

/-- Surpluses that say the same of the members that a value has, at any depth, strip it alike. -/
theorem strip_congr {left right : Surplus} {json : Json} (agree : ∀ chain name, json.HasMember chain name →
    (name ∈ left.fieldsAt ⟨chain⟩ ↔ name ∈ right.fieldsAt ⟨chain⟩)) : left.strip json = right.strip json := by
  rw [strip_eq_keep, strip_eq_keep]
  refine Json.keep_congr fun chain name has => ?_
  rw [rule, rule, Bool.eq_iff_iff]
  simpa using not_congr (agree chain name has)

/-- A surplus reaches the places on whose way no member is a field of the node for the names before it. -/
theorem reaches_rule_iff (surplus : Surplus) (place : Json.Place) : surplus.rule.reaches place = true ↔
    ∀ before name after, place = before ++ .member name :: after →
      name ∉ surplus.fieldsAt ⟨Json.Place.names before⟩ := by
  rw [KeepRule.reaches_iff]
  have stays : ∀ chain name, surplus.rule chain name = true ↔ name ∉ surplus.fieldsAt ⟨chain⟩ := by
    intro chain name
    simp [rule]
  simp only [stays]

/-- At a place that is reached, what is left is the value without what the node for the names on the way says. -/
theorem get?_strip {surplus : Surplus} {json : Json} {place : Json.Place}
    (reached : surplus.rule.reaches place = true) : (surplus.strip json).get? place =
      (json.get? place).map (surplus.descend place.names).strip := by
  have node : (surplus.descend place.names).strip = Json.keep (surplus.descend place.names).rule :=
    funext fun json => strip_eq_keep _ json
  rw [strip_eq_keep, Json.get?_keep, if_pos reached, below_rule, node]

/-- Stripping takes exactly the tracked members. It leaves the places of a value on whose way no member is a field
of the node for the names before it. At each of these the value is outlined anew where the surplus has a node for
the names on the way: an array has as many items as before, an object the same members but for the fields of the
node, and any other value is as before; where there is no node, nothing changes at any depth. A surplus that says
the same of the members that the value has, at any depth, strips it alike; and stripping twice is stripping once. -/
theorem strip_at_places (surplus : Surplus) (json : Json) :
    (∀ place : Json.Place, ((surplus.strip json).get? place).isSome = true ↔
      (json.get? place).isSome = true ∧ ∀ before name after, place = before ++ .member name :: after →
        name ∉ surplus.fieldsAt ⟨Json.Place.names before⟩) ∧
    (∀ (place : Json.Place) (before after : Json), json.get? place = some before →
      (surplus.strip json).get? place = some after →
        (∀ node, surplus.at? place.names = some node → before.Outline node.fields after) ∧
        (surplus.at? place.names = none → after = before)) ∧
    (∀ other : Surplus, (∀ chain name, json.HasMember chain name →
        (name ∈ other.fieldsAt ⟨chain⟩ ↔ name ∈ surplus.fieldsAt ⟨chain⟩)) →
      other.strip json = surplus.strip json) ∧
    surplus.strip (surplus.strip json) = surplus.strip json := by
  refine ⟨fun place => ?_, fun place before after there left => ?_, fun other agree => strip_congr agree, ?_⟩
  · rw [← reaches_rule_iff]
    cases reached : surplus.rule.reaches place with
    | true => rw [get?_strip reached, Option.isSome_map, and_iff_left rfl]
    | false => simp [strip_eq_keep, Json.get?_keep, reached]
  · have reached : surplus.rule.reaches place = true := by
      cases passes : surplus.rule.reaches place with
      | true => rfl
      | false =>
        rw [strip_eq_keep, Json.get?_keep, passes] at left
        contradiction
    rw [get?_strip reached, there, descend_eq] at left
    obtain rfl := Option.some.inj left
    refine ⟨fun node found => ?_, fun absent => ?_⟩
    · rw [found]
      exact node.outline_strip before
    · rw [absent, Option.getD_none, strip_eq_keep]
      exact keep_rule_empty before
  · simp only [strip_eq_keep, Json.keep_keep, Bool.and_self]

/-- A message loses its sender, who is a field and a relation, and the recipient a key; an array in an array is gone
through, and the relation that is missing is passed over. -/
example : (node ["sender"] [("files", node [] []), ("recipient", node ["id"] []), ("sender", node ["id"] [])]).strip
    (.object [("recipient", .array [.array [.object [("id", .natural 2), ("name", .string "Bea")]], .null]),
      ("sender", .object [("id", .natural 1)])]) =
    .object [("recipient", .array [.array [.object [("name", .string "Bea")]], .null])] := rfl

end ResourceQuery.Surplus
