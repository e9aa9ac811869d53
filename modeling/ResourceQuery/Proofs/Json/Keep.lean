import ResourceQuery.Json.Basic

/-!
# Keeping members of nested values

`Json.keep` drops members all through a value: a rule says, for the chain of names that leads to an
object, which of its members stay, and arrays are gone through element by element. Keeping everything
changes nothing (`keep_of_always`), two rules one after the other are one rule (`keep_keep`), and a
member of what is kept is what is kept of the member (`member?_keep`). Setting a member of an object in
name order goes together with keeping (`keep_setMember`).
-/
namespace ResourceQuery

/-- Which members stay in the objects at the end of a chain of names. -/
abbrev KeepRule := List String → String → Bool

/-- The rule for the value of a member, of which the chain is one name shorter. -/
def KeepRule.under (rule : KeepRule) (name : String) : KeepRule := fun chain => rule (name :: chain)

/-- The rule for members of the outermost object, which keeps everything below them. -/
def KeepRule.atRoot (keeps : String → Bool) : KeepRule := fun chain name => !chain.isEmpty || keeps name

namespace Json

/-- Induction over a value: an array is settled once its items are, an object once its members are. -/
theorem inductionOn {motive : Json → Prop} (null : motive .null) (bool : ∀ value, motive (.bool value))
    (number : ∀ value, motive (.number value)) (string : ∀ text, motive (.string text))
    (array : ∀ items, (∀ item ∈ items, motive item) → motive (.array items))
    (object : ∀ members, (∀ entry ∈ members, motive entry.2) → motive (.object members))
    (json : Json) : motive json :=
  @Json.rec motive (fun items => ∀ item ∈ items, motive item)
    (fun members => ∀ entry ∈ members, motive entry.2) (fun entry => motive entry.2)
    null bool number string array object
    (fun _ member => absurd member List.not_mem_nil)
    (fun _ _ first others item member => by
      rcases List.mem_cons.1 member with rfl | member
      · exact first
      · exact others item member)
    (fun _ member => absurd member List.not_mem_nil)
    (fun _ _ first others entry member => by
      rcases List.mem_cons.1 member with rfl | member
      · exact first
      · exact others entry member)
    (fun _ _ below => below) json

mutual

/-- A value with the members that a rule keeps. -/
def keep (rule : KeepRule) : Json → Json
  | .array items => .array (keepItems rule items)
  | .object members => .object (keepMembers rule members)
  | other => other

/-- Values with the members that a rule keeps. -/
def keepItems (rule : KeepRule) : List Json → List Json
  | [] => []
  | item :: rest => keep rule item :: keepItems rule rest

/-- The members that a rule keeps, each with what the rule keeps of it. -/
def keepMembers (rule : KeepRule) : List (String × Json) → List (String × Json)
  | [] => []
  | (name, value) :: rest =>
    if rule [] name then (name, keep (rule.under name) value) :: keepMembers rule rest
    else keepMembers rule rest

end

/-- The value is an object with its members in the order of their names. -/
def IsObject (json : Json) : Prop :=
  ∃ members, Assoc.Increasing members ∧ json = .object members

/-- Items are kept one by one. -/
theorem keepItems_eq_map (rule : KeepRule) (items : List Json) :
    keepItems rule items = items.map (keep rule) := by
  induction items with
  | nil => rfl
  | cons item rest ih => rw [keepItems, ih, List.map_cons]

/-- An array is kept item by item. -/
theorem keep_array (rule : KeepRule) (items : List Json) :
    keep rule (.array items) = .array (items.map (keep rule)) := by
  rw [keep, keepItems_eq_map]

/-- An object is kept member by member. -/
theorem keep_object (rule : KeepRule) (members : List (String × Json)) :
    keep rule (.object members) = .object (keepMembers rule members) := by
  rw [keep]

/-- A kept member is what is kept of the member. -/
theorem lookup_keepMembers (rule : KeepRule) (members : List (String × Json)) (name : String) :
    (keepMembers rule members).lookup name =
      if rule [] name then (members.lookup name).map (keep (rule.under name)) else none := by
  induction members with
  | nil => simp [keepMembers]
  | cons entry rest ih =>
    obtain ⟨own, value⟩ := entry
    rw [keepMembers, Assoc.lookup_cons]
    by_cases same : name = own
    · subst same
      cases stays : rule [] name with
      | true => simp
      | false => simpa [stays] using ih
    · rw [if_neg same]
      split
      · rw [Assoc.lookup_cons, if_neg same, ih]
      · exact ih

/-- The member of a kept value is what is kept of the member, if the rule keeps it. -/
theorem member?_keep (rule : KeepRule) (name : String) (json : Json) :
    (json.keep rule).member? name =
      if rule [] name then (json.member? name).map (keep (rule.under name)) else none := by
  cases json with
  | object members =>
    rw [keep_object]
    exact lookup_keepMembers rule members name
  | _ => simp [keep, member?]

/-- Keeping leaves members in the order of their names. -/
theorem increasing_keepMembers (rule : KeepRule) {members : List (String × Json)}
    (order : Assoc.Increasing members) : Assoc.Increasing (keepMembers rule members) := by
  have among : ∀ (members : List (String × Json)), ∀ entry ∈ keepMembers rule members,
      ∃ value, (entry.1, value) ∈ members := by
    intro members
    induction members with
    | nil => simp [keepMembers]
    | cons first rest ih =>
      intro entry member
      rw [keepMembers] at member
      split at member
      · rcases List.mem_cons.1 member with rfl | member
        · exact ⟨first.2, .head rest⟩
        · obtain ⟨value, found⟩ := ih entry member
          exact ⟨value, .tail first found⟩
      · obtain ⟨value, found⟩ := ih entry member
        exact ⟨value, .tail first found⟩
  induction members with
  | nil => exact List.Pairwise.nil
  | cons first rest ih =>
    obtain ⟨later, restOrder⟩ := List.pairwise_cons.1 order
    rw [keepMembers]
    split
    · refine List.pairwise_cons.2 ⟨fun entry member => ?_, ih restOrder⟩
      obtain ⟨value, found⟩ := among rest entry member
      exact later (entry.1, value) found
    · exact ih restOrder

/-- A kept object is an object. -/
theorem IsObject.keep {json : Json} (shape : json.IsObject) (rule : KeepRule) :
    (json.keep rule).IsObject := by
  obtain ⟨members, order, rfl⟩ := shape
  exact ⟨keepMembers rule members, increasing_keepMembers rule order, keep_object rule members⟩

/-- An object with a member set is an object. -/
theorem IsObject.setMember {json : Json} (shape : json.IsObject) (name : String) (value : Json) :
    (json.setMember name value).IsObject := by
  obtain ⟨members, order, rfl⟩ := shape
  exact ⟨_, Assoc.increasing_upsert order name _, rfl⟩

/-- An object made of members is an object. -/
theorem isObject_ofMembers (members : List (String × Json)) : (ofMembers members).IsObject :=
  ⟨_, Assoc.increasing_ofList members, rfl⟩

/-- A rule that keeps every member changes nothing. -/
theorem keep_of_always {rule : KeepRule} (always : ∀ chain name, rule chain name = true) (json : Json) :
    json.keep rule = json := by
  induction json using inductionOn generalizing rule with
  | null | bool | number | string => rfl
  | array items ih =>
    rw [keep_array]
    congr 1
    conv => rhs; rw [← List.map_id items]
    exact List.map_congr_left fun item member => ih item member always
  | object members ih =>
    rw [keep_object]
    congr 1
    induction members with
    | nil => rfl
    | cons entry rest later =>
      have below : ∀ chain name, rule.under entry.1 chain name = true := fun chain =>
        always (entry.1 :: chain)
      have value := ih entry (.head rest) below
      rw [keepMembers, if_pos (always [] entry.1), value,
        later fun other member => ih other (.tail entry member)]

/-- Keeping by one rule and then by another is keeping what both keep. -/
theorem keep_keep (first second : KeepRule) (json : Json) :
    (json.keep first).keep second =
      json.keep fun chain name => first chain name && second chain name := by
  induction json using inductionOn generalizing first second with
  | null | bool | number | string => rfl
  | array items ih =>
    rw [keep_array, keep_array, keep_array, List.map_map]
    congr 1
    exact List.map_congr_left fun item member => ih item member first second
  | object members ih =>
    rw [keep_object, keep_object, keep_object]
    congr 1
    induction members with
    | nil => rfl
    | cons entry rest later =>
      obtain ⟨name, value⟩ := entry
      have here : (value.keep (first.under name)).keep (second.under name) = value.keep
          (KeepRule.under (fun chain name => first chain name && second chain name) name) :=
        ih (name, value) (.head rest) (first.under name) (second.under name)
      have others := later fun other member => ih other (.tail _ member)
      rw [keepMembers, keepMembers]
      cases stays : first [] name with
      | false => exact others
      | true =>
        rw [if_pos rfl, keepMembers, others, here]
        cases second [] name <;> rfl

/-- Setting a member after keeping is keeping after setting it, if the rules agree on the other members
and the one that is set is kept. -/
theorem keep_setMember {before after : KeepRule} {json : Json} (shape : json.IsObject) {name : String}
    (kept : after [] name = true) (others : ∀ other, other ≠ name →
      before [] other = after [] other ∧ before.under other = after.under other) (value : Json) :
    (json.keep before).setMember name (value.keep (after.under name)) =
      (json.setMember name value).keep after := by
  obtain ⟨members, order, rfl⟩ := shape
  rw [keep_object]
  show Json.object _ = (Json.object _).keep after
  rw [keep_object]
  congr 1
  have keptOrder := increasing_keepMembers before order
  refine Assoc.eq_of_lookup_eq (Assoc.increasing_upsert keptOrder name _)
    (increasing_keepMembers after (Assoc.increasing_upsert order name _)) fun other => ?_
  rw [Assoc.insert, Assoc.lookup_upsert keptOrder, lookup_keepMembers, lookup_keepMembers, Assoc.insert,
    Assoc.lookup_upsert order]
  by_cases same : other = name
  · subst same
    rw [if_pos rfl, if_pos kept, if_pos rfl]
    rfl
  · obtain ⟨agree, below⟩ := others other same
    rw [if_neg same, if_neg same, agree, below]

/-- An object with only the members of the listed names. -/
def project (names : List String) : Json → Json
  | .object members => .object (members.filter fun entry => names.contains entry.1)
  | other => other

/-- A row with the columns listed, the whole row without a list. -/
def select (columns : Option (List String)) (row : Json) : Json :=
  match columns with
  | none => row
  | some names => row.project names

/-- Leaving out members of an object is keeping the others, and everything below them. -/
theorem filter_eq_keep (keeps : String → Bool) (members : List (String × Json)) :
    object (members.filter fun entry => keeps entry.1) =
      (object members).keep (KeepRule.atRoot keeps) := by
  rw [keep_object]
  congr 1
  induction members with
  | nil => rfl
  | cons entry rest ih =>
    have whole : entry.2.keep ((KeepRule.atRoot keeps).under entry.1) = entry.2 :=
      keep_of_always (fun _ _ => rfl) entry.2
    rw [keepMembers, whole, ← ih, List.filter_cons]
    rfl

/-- Projecting an object is keeping its listed members, and everything below them. -/
theorem project_eq_keep (names : List String) {json : Json} (shape : json.IsObject) :
    json.project names = json.keep fun chain name => !chain.isEmpty || names.contains name := by
  obtain ⟨members, -, rfl⟩ := shape
  exact filter_eq_keep names.contains members

/-- Of an object whose outermost members are kept by a rule, these are as they were. -/
theorem member?_keep_atRoot (keeps : String → Bool) (name : String) (json : Json) :
    (json.keep (KeepRule.atRoot keeps)).member? name = if keeps name then json.member? name else none := by
  have whole : keep ((KeepRule.atRoot keeps).under name) = id := funext (keep_of_always fun _ _ => rfl)
  rw [member?_keep, whole, Option.map_id]
  rfl

/-- Objects with the same members are equal. -/
theorem IsObject.eq_of_member? {left right : Json} (leftShape : left.IsObject) (rightShape : right.IsObject)
    (same : ∀ name, left.member? name = right.member? name) : left = right := by
  obtain ⟨members, order, rfl⟩ := leftShape
  obtain ⟨others, otherOrder, rfl⟩ := rightShape
  rw [Assoc.eq_of_lookup_eq order otherOrder same]

/-- A projected object is an object. -/
theorem IsObject.project {json : Json} (shape : json.IsObject) (names : List String) :
    (json.project names).IsObject := by
  rw [project_eq_keep names shape]
  exact shape.keep _

end Json

end ResourceQuery
