import ResourceQuery.Proofs.Surplus.Trimming

/-!
# Merging surpluses

To graft a surplus on another at a path and strip a value is to strip it twice, by the one and by what the other
says below the path, in either order (`strip_unionAt`): a member is dropped when it is a field of either. So
it does not matter in which order surpluses are grafted and fields inserted (`Addition.mem_fieldsAt_foldl_run`).
-/
namespace ResourceQuery.Surplus

/-- Stripping by what drops the fields of two surpluses is stripping by the one and then by the other. -/
theorem strip_of_mem_iff {both first second : Surplus} (members : ∀ path name,
      name ∈ both.fieldsAt path ↔ name ∈ first.fieldsAt path ∨ name ∈ second.fieldsAt path) (json : Json) :
    both.strip json = second.strip (first.strip json) := by
  have rules : both.rule = fun chain name => first.rule chain name && second.rule chain name := by
    funext chain name
    rw [rule, rule, rule, ← Bool.not_or, Bool.eq_iff_iff]
    simpa using not_congr (members ⟨chain⟩ name)
  rw [strip_eq_keep, strip_eq_keep, strip_eq_keep, Json.keep_keep, rules]

/-- A graft has the fields of both: those that were there, and below the path those of the other surplus. -/
theorem mem_fieldsAt_unionAt {surplus added : Surplus} (ordered : surplus.Ordered) (addedOrdered : added.Ordered)
    (path other : Path) (name : String) : name ∈ (surplus.unionAt path added).fieldsAt other ↔
      name ∈ surplus.fieldsAt other ∨ name ∈ (empty.unionAt path added).fieldsAt other := by
  rw [fieldsAt_unionAt ordered addedOrdered, fieldsAt_unionAt ordered_empty addedOrdered]
  split
  · rw [mem_foldl_addField, mem_foldl_addField, fieldsAt_empty]
    simp
  · simp

/-- What is made surplus besides. -/
inductive Addition where
  /-- A field at a path. -/
  | field (path : Path) (name : String)
  /-- All that is surplus in another surplus, below a path. -/
  | graft (path : Path) (other : Surplus)

namespace Addition

/-- The surplus with what is made surplus besides. -/
def run : Surplus → Addition → Surplus
  | surplus, .field path name => surplus.insert path name
  | surplus, .graft path other => surplus.unionAt path other

/-- What is made surplus has its relations in order. -/
def Ordered : Addition → Prop
  | .field _ _ => True
  | .graft _ other => other.Ordered

variable {surplus : Surplus}

/-- What is made surplus besides leaves a surplus in order. -/
theorem Ordered.run {addition : Addition} (added : addition.Ordered) (ordered : surplus.Ordered) :
    (run surplus addition).Ordered := by
  cases addition with
  | field path name => exact ordered.insert path name
  | graft path other => exact ordered.unionAt added path

/-- What is made surplus besides is surplus as if there were nothing else. -/
theorem mem_fieldsAt_run {addition : Addition} (added : addition.Ordered) (ordered : surplus.Ordered) (path : Path)
    (name : String) : name ∈ (run surplus addition).fieldsAt path ↔
      name ∈ surplus.fieldsAt path ∨ name ∈ (run empty addition).fieldsAt path := by
  cases addition with
  | field own added =>
    rw [run, run, fieldsAt_insert ordered, fieldsAt_insert ordered_empty]
    split
    · next here =>
      subst here
      rw [mem_addField, mem_addField, fieldsAt_empty]
      simp
    · simp
  | graft own other => exact mem_fieldsAt_unionAt ordered added own path name

/-- Of additions one after the other each is surplus. -/
theorem mem_fieldsAt_foldl_run {additions : List Addition} (added : ∀ addition ∈ additions, addition.Ordered)
    (ordered : surplus.Ordered) (path : Path) (name : String) :
    name ∈ (additions.foldl run surplus).fieldsAt path ↔
      name ∈ surplus.fieldsAt path ∨ ∃ addition ∈ additions, name ∈ (run empty addition).fieldsAt path := by
  induction additions generalizing surplus with
  | nil => simp
  | cons addition rest ih =>
    obtain ⟨first, later⟩ := List.forall_mem_cons.1 added
    rw [List.foldl_cons, ih later (first.run ordered), mem_fieldsAt_run first ordered, or_assoc]
    simp only [List.mem_cons, exists_eq_or_imp]

end Addition

/-- Merging surpluses is stripping twice. To graft a surplus at a path and strip a value is to strip it by the
surplus itself and by the graft alone, in either order. So whatever is made surplus besides, a value is stripped
alike in every order of the additions. -/
theorem strip_unionAt {surplus added : Surplus} (ordered : surplus.Ordered) (addedOrdered : added.Ordered)
    (path : Path) (json : Json) :
    let graft := empty.unionAt path added
    (surplus.unionAt path added).strip json = graft.strip (surplus.strip json) ∧
    (surplus.unionAt path added).strip json = surplus.strip (graft.strip json) ∧
    ∀ additions others : List Addition, (∀ addition ∈ additions, addition.Ordered) → additions.Perm others →
      ((additions.foldl Addition.run surplus).strip json = (others.foldl Addition.run surplus).strip json) := by
  intro graft
  have members := mem_fieldsAt_unionAt ordered addedOrdered path
  refine ⟨strip_of_mem_iff members json, strip_of_mem_iff (fun other name => ?_) json,
    fun additions others orderedToo permuted => ?_⟩
  · rw [members, or_comm]
  · have orderedOthers : ∀ addition ∈ others, addition.Ordered :=
      fun addition member => orderedToo addition (permuted.mem_iff.2 member)
    refine strip_congr fun chain name _ => ?_
    simp only [Addition.mem_fieldsAt_foldl_run orderedToo ordered,
      Addition.mem_fieldsAt_foldl_run orderedOthers ordered, permuted.mem_iff]

/-- The keys of users, of their messages and of the senders of these. -/
def messageKeys : Surplus :=
  ((empty.insert .root "id").insert ⟨["messages"]⟩ "id").insert ⟨["messages", "sender"]⟩ "id"

/-- The keys of messages, their senders as a whole, and the keys of their recipients. -/
def senderKeys : Surplus := ((empty.insert .root "id").insert .root "sender").insert ⟨["recipient"]⟩ "id"

/-- Grafted at the messages, the second drops the senders whose keys the first drops. -/
theorem sender_keys_grafted :
    let user := Json.ofMembers [("id", .natural 1), ("messages", .array [.ofMembers [("id", .natural 5),
      ("recipient", .ofMembers [("id", .natural 2), ("name", .string "Bea")]),
      ("sender", .ofMembers [("id", .natural 1), ("name", .string "Ada")])]])]
    let stripped := Json.ofMembers [("messages", .array [.ofMembers [
      ("recipient", .ofMembers [("name", .string "Bea")])]])]
    let graft := empty.unionAt ⟨["messages"]⟩ senderKeys
    let additions : List Addition := [.field ⟨["messages"]⟩ "body", .graft ⟨["messages"]⟩ senderKeys]
    messageKeys.Ordered ∧ senderKeys.Ordered ∧
    (messageKeys.unionAt ⟨["messages"]⟩ senderKeys).strip user = stripped ∧
    graft.strip (messageKeys.strip user) = stripped ∧ messageKeys.strip (graft.strip user) = stripped ∧
    (additions.foldl Addition.run messageKeys).strip user =
      (additions.reverse.foldl Addition.run messageKeys).strip user := by
  intro user stripped graft additions
  have ordered : messageKeys.Ordered := ((ordered_empty.insert _ _).insert _ _).insert _ _
  have addedOrdered : senderKeys.Ordered := ((ordered_empty.insert _ _).insert _ _).insert _ _
  obtain ⟨first, second, anyOrder⟩ := strip_unionAt ordered addedOrdered ⟨["messages"]⟩ user
  have whole : (messageKeys.unionAt ⟨["messages"]⟩ senderKeys).strip user = stripped := rfl
  refine ⟨ordered, addedOrdered, whole, first ▸ whole, second ▸ whole,
    anyOrder additions additions.reverse (fun addition member => ?_) additions.reverse_perm.symm⟩
  rcases List.mem_cons.1 member with rfl | member
  · trivial
  · obtain rfl := List.mem_singleton.1 member
    exact addedOrdered

end ResourceQuery.Surplus
