import ResourceQuery.Proofs.Json.Keep

/-!
# Places in nested values

A place is a way into a value, through items of arrays and members of objects (`Json.get?`). What a rule keeps
of a value has the places on whose way every member is kept, and there what the rule keeps of the value at the
place (`Json.get?_keep`): the rule goes by the names on the way alone (`Place.names`). Rules that agree on the
members that a value has, at any depth, keep the same of it (`Json.keep_congr`).
-/
namespace ResourceQuery

namespace Json

/-- One step into a value. -/
inductive Step where
  /-- To an item of an array. -/
  | item (index : Nat)
  /-- To a member of an object. -/
  | member (name : String)
deriving DecidableEq

/-- A way into a value. -/
abbrev Place := List Step

/-- The names of the members on the way to a place. -/
def Place.names : Place → List String
  | [] => []
  | .item _ :: rest => Place.names rest
  | .member name :: rest => name :: Place.names rest

/-- The item at an index, if the value is an array that has it. -/
def item? (index : Nat) : Json → Option Json
  | array items => items[index]?
  | _ => none

/-- The value at a place, if there is one. -/
def get? : Place → Json → Option Json
  | [], json => some json
  | .item index :: rest, json => (json.item? index).bind (get? rest)
  | .member name :: rest, json => (json.member? name).bind (get? rest)

/-- An object at the end of a chain of names, which goes through arrays, has a member. -/
inductive HasMember : Json → List String → String → Prop
  /-- The value itself is the object. -/
  | here {members : List (String × Json)} {name : String} (among : name ∈ members.map Prod.fst) :
      HasMember (.object members) [] name
  /-- The object is in an item. -/
  | inItem {items : List Json} {item : Json} {chain : List String} {name : String} (among : item ∈ items)
      (inside : HasMember item chain name) : HasMember (.array items) chain name
  /-- The object is in a member. -/
  | inMember {members : List (String × Json)} {first : String} {value : Json} {chain : List String} {name : String}
      (among : (first, value) ∈ members) (inside : HasMember value chain name) :
      HasMember (.object members) (first :: chain) name

/-- One value is what is left of another without the members of some names, whatever becomes of the values
inside. -/
inductive Outline (dropped : List String) : Json → Json → Prop
  /-- An array has as many items as before. -/
  | array {items kept : List Json} (same : kept.length = items.length) :
      Outline dropped (.array items) (.array kept)
  /-- An object has the members of all other names, in their order. -/
  | object {members kept : List (String × Json)}
      (others : kept.map Prod.fst = (members.map Prod.fst).filter fun name => !dropped.contains name) :
      Outline dropped (.object members) (.object kept)
  /-- Any other value is as before. -/
  | scalar {value : Json} (noArray : ∀ items, value ≠ .array items) (noObject : ∀ members, value ≠ .object members) :
      Outline dropped value value

end Json

namespace KeepRule

/-- The rule for the values at the end of a chain. -/
def below (rule : KeepRule) (chain : List String) : KeepRule := fun rest => rule (chain ++ rest)

/-- The rule keeps every member on the way to a place. -/
def reaches (rule : KeepRule) : Json.Place → Bool
  | [] => true
  | .item _ :: rest => rule.reaches rest
  | .member name :: rest => rule [] name && (rule.under name).reaches rest

/-- A place is reached when each member on its way is kept at the end of the chain before it. -/
theorem reaches_iff {rule : KeepRule} {place : Json.Place} : rule.reaches place = true ↔
    ∀ before name after, place = before ++ .member name :: after → rule (Json.Place.names before) name = true := by
  induction place generalizing rule with
  | nil => simp [reaches]
  | cons step rest ih =>
    cases step with
    | item index =>
      rw [reaches, ih]
      constructor
      · intro kept before name after split
        cases before with
        | nil => cases split
        | cons first others =>
          obtain ⟨rfl, rfl⟩ := List.cons.inj split
          exact kept others name after rfl
      · rintro kept before name after rfl
        exact kept (.item index :: before) name after rfl
    | member own =>
      rw [reaches, Bool.and_eq_true, ih]
      constructor
      · rintro ⟨here, kept⟩ before name after split
        cases before with
        | nil =>
          obtain ⟨same, -⟩ := List.cons.inj split
          cases same
          exact here
        | cons first others =>
          obtain ⟨rfl, rfl⟩ := List.cons.inj split
          exact kept others name after rfl
      · intro kept
        refine ⟨kept [] own rest rfl, ?_⟩
        rintro before name after rfl
        exact kept (.member own :: before) name after rfl

end KeepRule

namespace Json

/-- The items of a kept array are what is kept of its items. -/
theorem item?_keep (rule : KeepRule) (index : Nat) (json : Json) :
    (json.keep rule).item? index = (json.item? index).map (keep rule) := by
  cases json with
  | array items => rw [keep_array, item?, item?, List.getElem?_map]
  | object members =>
    rw [keep_object]
    rfl
  | null | bool | number | string => rfl

/-- What is kept of a value has the places that the rule reaches, and there what is kept of the value at the
place. -/
theorem get?_keep (rule : KeepRule) (place : Place) (json : Json) : (json.keep rule).get? place =
    if rule.reaches place then (json.get? place).map (keep (rule.below place.names)) else none := by
  induction place generalizing rule json with
  | nil => rfl
  | cons step rest ih =>
    cases step with
    | item index =>
      rw [get?, get?, item?_keep, Option.bind_map, KeepRule.reaches, Place.names]
      cases json.item? index with
      | none => simp
      | some item => exact ih rule item
    | member name =>
      rw [get?, get?, member?_keep, KeepRule.reaches, Place.names]
      cases rule [] name with
      | false => rfl
      | true =>
        rw [if_pos rfl, Option.bind_map, Bool.true_and]
        cases json.member? name with
        | none => simp
        | some value => exact ih (rule.under name) value

/-- The names of kept members are those that the rule keeps. -/
theorem names_keepMembers (rule : KeepRule) (members : List (String × Json)) :
    (keepMembers rule members).map Prod.fst = (members.map Prod.fst).filter (rule []) := by
  induction members with
  | nil => rfl
  | cons entry rest ih =>
    obtain ⟨name, value⟩ := entry
    rw [keepMembers, List.map_cons, List.filter_cons]
    split
    · rw [List.map_cons, ih]
    · exact ih

/-- Rules that agree on the members of a value keep the same of it. -/
theorem keep_congr {left right : KeepRule} {json : Json}
    (agree : ∀ chain name, json.HasMember chain name → left chain name = right chain name) :
    json.keep left = json.keep right := by
  induction json using inductionOn generalizing left right with
  | null | bool | number | string => rfl
  | array items ih =>
    rw [keep_array, keep_array]
    congr 1
    exact List.map_congr_left fun item member => ih item member fun chain name inside =>
      agree chain name (.inItem member inside)
  | object members ih =>
    rw [keep_object, keep_object]
    congr 1
    have own : ∀ entry ∈ members, left [] entry.1 = right [] entry.1 ∧
        entry.2.keep (left.under entry.1) = entry.2.keep (right.under entry.1) := fun entry member =>
      ⟨agree [] entry.1 (.here (List.mem_map_of_mem member)), ih entry member fun chain name inside =>
        agree (entry.1 :: chain) name (.inMember member inside)⟩
    clear agree ih
    induction members with
    | nil => rfl
    | cons entry rest later =>
      obtain ⟨stays, value⟩ := own entry (.head rest)
      rw [keepMembers, keepMembers, stays, value, later fun other member => own other (.tail entry member)]

end Json

end ResourceQuery
