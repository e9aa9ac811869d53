import ResourceQuery.Proofs.Json.Keep
import ResourceQuery.Proofs.Surplus.Fields

/-!
# Stripping by path

A surplus takes from every object of an answer the fields that it has at the chain of names that leads
to the object, and nothing else (`strip_eq_keep`): where it has no node, everything stays.
-/
namespace ResourceQuery.Surplus

/-- What a surplus leaves: every member that is not a field at the chain. -/
def rule (surplus : Surplus) : KeepRule := fun chain name => !(surplus.fieldsAt ⟨chain⟩).contains name

/-- Below a name, the rule of a surplus is that of the node under the name. -/
theorem under_rule (surplus : Surplus) (name : String) :
    surplus.rule.under name = (surplus.under name).rule := by
  funext chain other
  show (!(surplus.fieldsAt ⟨name :: chain⟩).contains other) = _
  rw [fieldsAt_cons]
  rfl

/-- Without a node everything stays. -/
theorem keep_rule_empty (json : Json) : json.keep empty.rule = json :=
  Json.keep_of_always (fun chain name => by simp [rule]) json

/-- Items are stripped one by one. -/
theorem stripItems_eq_map (surplus : Surplus) (items : List Json) :
    stripItems surplus items = items.map surplus.strip := by
  induction items with
  | nil => rfl
  | cons item rest ih => rw [stripItems, ih, List.map_cons]

/-- A value is stripped by keeping what is not surplus at its chain. -/
theorem strip_eq_keep (surplus : Surplus) (json : Json) : surplus.strip json = json.keep surplus.rule := by
  induction json using Json.inductionOn generalizing surplus with
  | null | bool | number | string => rfl
  | array items ih =>
    rw [strip, stripItems_eq_map, Json.keep_array]
    congr 1
    exact List.map_congr_left fun item member => ih item member surplus
  | object members ih =>
    rw [strip, Json.keep_object]
    congr 1
    induction members with
    | nil => rfl
    | cons entry rest later =>
      obtain ⟨name, value⟩ := entry
      have others := later fun other member => ih other (.tail _ member)
      have here : value.keep (surplus.rule.under name) = (surplus.under name).strip value := by
        rw [under_rule]
        exact (ih (name, value) (.head rest) (surplus.under name)).symm
      rw [stripMembers, Json.keepMembers, here, others]
      have stays : surplus.rule [] name = !surplus.fields.contains name := rfl
      cases held : surplus.fields.contains name with
      | true =>
        rw [if_pos rfl, if_neg (by rw [stays, held]; exact Bool.false_ne_true)]
      | false =>
        rw [if_neg Bool.false_ne_true, if_pos (by rw [stays, held]; rfl)]
        cases child : surplus.relation? name with
        | some node => rw [under, child]; rfl
        | none =>
          have whole : (surplus.under name).strip value = value := by
            rw [under, child, Option.getD_none, ih (name, value) (.head rest) empty]
            exact keep_rule_empty value
          rw [whole]

/-- Of a stripped value a member that is no field is what is left of it. -/
theorem member?_strip (surplus : Surplus) (name : String) (json : Json) :
    (surplus.strip json).member? name =
      if name ∈ surplus.fields then none else (json.member? name).map (surplus.under name).strip := by
  have below : (surplus.under name).strip = Json.keep (surplus.rule.under name) := by
    rw [under_rule]
    exact funext (strip_eq_keep _)
  have stays : surplus.rule [] name = !surplus.fields.contains name := rfl
  rw [strip_eq_keep, Json.member?_keep, below, stays]
  by_cases held : name ∈ surplus.fields <;> simp [held]

end ResourceQuery.Surplus
