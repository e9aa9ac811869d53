import ResourceQuery.Proofs.Surplus.Fields

/-!
# Surpluses made by changes

A surplus grows from nothing by inserting, erasing, and uniting with other surpluses that grew the same way
(`Surplus.Change`). Whatever was done, its fields at a path are no more than a list without repetitions, and every
further change acts on these lists alone: an insertion at one path, an erasure at the root, a union path by path
below the place where it is grafted (`Surplus.fields_after_changes`).
-/
namespace ResourceQuery.Surplus

/-! ### Lists of fields -/

/-- One more field, unless it is there, is no repetition. -/
theorem nodup_addField {fields : List String} (distinct : fields.Nodup) (field : String) :
    (addField fields field).Nodup := by
  unfold addField
  split
  · exact distinct
  · next absent =>
    have new : field ∉ fields := fun member => absent (List.contains_iff_mem.2 member)
    refine List.nodup_append.2 ⟨distinct, List.pairwise_singleton _ field, fun held member other here same => ?_⟩
    exact new (List.mem_singleton.1 here ▸ same ▸ member)

/-- Nor are more fields, each unless it is there. -/
theorem nodup_foldl_addField {fields : List String} (distinct : fields.Nodup) (added : List String) :
    (added.foldl addField fields).Nodup := by
  induction added generalizing fields with
  | nil => exact distinct
  | cons field rest ih => exact ih (nodup_addField distinct field)

/-- Fields without repetitions are added by appending those that are not there yet, in their order. -/
theorem foldl_addField_of_nodup {added : List String} (distinct : added.Nodup) (fields : List String) :
    added.foldl addField fields = fields ++ added.filter (· ∉ fields) := by
  induction added generalizing fields with
  | nil => exact (List.append_nil fields).symm
  | cons field rest ih =>
    obtain ⟨once, distinctRest⟩ := List.nodup_cons.1 distinct
    rw [List.foldl_cons, ih distinctRest, addField]
    by_cases present : field ∈ fields
    · rw [if_pos (List.contains_iff_mem.2 present), List.filter_cons_of_neg (by simpa using present)]
    · have same : rest.filter (· ∉ fields ++ [field]) = rest.filter (· ∉ fields) :=
        List.filter_congr fun other member => by
          have apart : other ≠ field := fun same => once (same ▸ member)
          simp [apart]
      rw [if_neg (by simpa using present), same, List.filter_cons_of_pos (by simpa using present),
        List.append_assoc, List.singleton_append]

/-! ### Emptiness -/

/-- Nothing is to drop at any of some nodes if nothing is at each of them. -/
theorem allEmpty_eq_true_iff {relations : List (String × Surplus)} :
    allEmpty relations = true ↔ ∀ entry ∈ relations, entry.2.isEmpty = true := by
  induction relations with
  | nil => simp [allEmpty]
  | cons entry rest ih => rw [allEmpty, Bool.and_eq_true, ih, List.forall_mem_cons]

/-- A surplus in order is empty if it has no field at any path, whatever nodes it has. -/
theorem Ordered.isEmpty_iff {surplus : Surplus} (ordered : surplus.Ordered) :
    surplus.isEmpty = true ↔ ∀ path, surplus.fieldsAt path = [] := by
  induction surplus using inductionOn with
  | node fields relations ih =>
    obtain ⟨order, nodes⟩ := ordered
    rw [isEmpty, Bool.and_eq_true, List.isEmpty_iff, allEmpty_eq_true_iff]
    constructor
    · rintro ⟨own, below⟩ ⟨chain⟩
      cases chain with
      | nil => exact own
      | cons name rest =>
        rw [fieldsAt_cons, under_node]
        cases found : relations.lookup name with
        | none => exact fieldsAt_empty ⟨rest⟩
        | some child =>
          have member := Assoc.mem_of_lookup found
          exact (ih _ member (nodes _ member)).1 (below _ member) ⟨rest⟩
    · intro nothing
      refine ⟨nothing .root, fun entry member => (ih entry member (nodes entry member)).2 fun path => ?_⟩
      -- In key order every entry is the one that its name finds.
      have found := Assoc.lookup_of_mem order member
      have beneath := nothing ⟨entry.1 :: path.segments⟩
      rwa [fieldsAt_cons, under_node, found] at beneath

/-! ### Changes -/

/-- One change of a surplus. -/
inductive Change where
  /-- Drop a field at a path. -/
  | insert (path : Path) (field : String)
  /-- Keep a field of the root. -/
  | erase (field : String)
  /-- Drop at a path what a surplus made by changes of its own says of its root. -/
  | unionAt (path : Path) (changes : List Change)

mutual

/-- The surplus after a change. -/
def Change.run : Change → Surplus → Surplus
  | .insert path field, surplus => surplus.insert path field
  | .erase field, surplus => surplus.erase field
  | .unionAt path changes, surplus => surplus.unionAt path (runAll changes empty)

/-- The surplus after changes, one after the other. -/
def runAll : List Change → Surplus → Surplus
  | [], surplus => surplus
  | change :: rest, surplus => runAll rest (change.run surplus)

end

/-- The surplus that changes make of nothing. -/
def made (changes : List Change) : Surplus := runAll changes empty

/-- Induction over a change: a union is settled once the changes that made the other surplus are. -/
theorem Change.inductionOn {motive : Change → Prop} (insert : ∀ path field, motive (.insert path field))
    (erase : ∀ field, motive (.erase field))
    (unionAt : ∀ path changes, (∀ change ∈ changes, motive change) → motive (.unionAt path changes))
    (change : Change) : motive change :=
  @Change.rec motive (fun changes => ∀ change ∈ changes, motive change) insert erase unionAt
    (fun _ member => absurd member List.not_mem_nil)
    (fun _ _ first others change member => by
      rcases List.mem_cons.1 member with rfl | member
      · exact first
      · exact others change member) change

/-- A surplus has its relations in order, and no field twice at a path. -/
structure Tidy (surplus : Surplus) : Prop where
  /-- The relations are in the order of their names. -/
  ordered : surplus.Ordered
  /-- No field comes twice. -/
  nodup : ∀ path, (surplus.fieldsAt path).Nodup

/-- Nothing to drop is tidy. -/
theorem tidy_empty : empty.Tidy where
  ordered := ordered_empty
  nodup path := fieldsAt_empty path ▸ List.nodup_nil

section Steps

variable {surplus added : Surplus}

/-- Inserting keeps a surplus tidy. -/
theorem Tidy.insert (tidy : surplus.Tidy) (path : Path) (field : String) : (surplus.insert path field).Tidy where
  ordered := tidy.ordered.insert path field
  nodup other := by
    rw [fieldsAt_insert tidy.ordered]
    split
    · exact nodup_addField (tidy.nodup path) field
    · exact tidy.nodup other

/-- Erasing keeps a surplus tidy. -/
theorem Tidy.erase (tidy : surplus.Tidy) (field : String) : (surplus.erase field).Tidy where
  ordered := tidy.ordered.erase field
  nodup path := by
    rw [fieldsAt_erase]
    split
    · exact (tidy.nodup .root).filter _
    · exact tidy.nodup path

/-- A union with a tidy surplus keeps a surplus tidy. -/
theorem Tidy.unionAt (tidy : surplus.Tidy) (addedTidy : added.Tidy) (path : Path) :
    (surplus.unionAt path added).Tidy where
  ordered := tidy.ordered.unionAt addedTidy.ordered path
  nodup other := by
    rw [fieldsAt_unionAt tidy.ordered addedTidy.ordered]
    split
    · exact nodup_foldl_addField (tidy.nodup other) _
    · exact tidy.nodup other

/-- Changes keep a surplus tidy if each of them does. -/
theorem Tidy.runAll {changes : List Change}
    (each : ∀ change ∈ changes, ∀ {surplus : Surplus}, surplus.Tidy → (change.run surplus).Tidy)
    (tidy : surplus.Tidy) : (runAll changes surplus).Tidy := by
  induction changes generalizing surplus with
  | nil => exact tidy
  | cons change rest ih =>
    exact ih (fun other member => each other (.tail _ member)) (each change (.head rest) tidy)

/-- A change keeps a surplus tidy. -/
theorem Tidy.run (tidy : surplus.Tidy) (change : Change) : (change.run surplus).Tidy := by
  induction change using Change.inductionOn generalizing surplus with
  | insert path field => exact tidy.insert path field
  | erase field => exact tidy.erase field
  | unionAt path changes ih =>
    have other : (Surplus.runAll changes empty).Tidy :=
      Tidy.runAll (fun change member _ tidy => ih change member tidy) tidy_empty
    exact tidy.unionAt other path

end Steps

/-- Whatever changes make of nothing is tidy. -/
theorem tidy_made (changes : List Change) : (made changes).Tidy :=
  Tidy.runAll (fun change _ _ tidy => tidy.run change) tidy_empty

/-- Surpluses made by changes are maps from paths to fields without repetitions. To insert a field appends it at its
path unless it is there; to erase one takes it from the root; to unite with another surplus at a path appends, at
every path below, the fields of the other that are new there, in their order. No other path changes. And a surplus
is empty exactly if it has no field at any path. -/
theorem fields_after_changes (changes : List Change) :
    let surplus := made changes
    (∀ path, (surplus.fieldsAt path).Nodup) ∧
    (∀ path field, (surplus.insert path field).fieldsAt path =
      if field ∈ surplus.fieldsAt path then surplus.fieldsAt path else surplus.fieldsAt path ++ [field]) ∧
    (∀ path field other, other ≠ path → (surplus.insert path field).fieldsAt other = surplus.fieldsAt other) ∧
    (∀ field, (surplus.erase field).fieldsAt .root = (surplus.fieldsAt .root).erase field) ∧
    (∀ field path, path ≠ .root → (surplus.erase field).fieldsAt path = surplus.fieldsAt path) ∧
    (∀ (path : Path) (others : List Change) (rest : List String),
      (surplus.unionAt path (made others)).fieldsAt ⟨path.segments ++ rest⟩ =
        surplus.fieldsAt ⟨path.segments ++ rest⟩ ++
          ((made others).fieldsAt ⟨rest⟩).filter (· ∉ surplus.fieldsAt ⟨path.segments ++ rest⟩)) ∧
    (∀ (path : Path) (others : List Change) (other : Path), ¬ path.segments <+: other.segments →
      (surplus.unionAt path (made others)).fieldsAt other = surplus.fieldsAt other) ∧
    (surplus.isEmpty = true ↔ ∀ path, surplus.fieldsAt path = []) := by
  intro surplus
  have tidy : surplus.Tidy := tidy_made changes
  refine ⟨tidy.nodup, fun path field => ?_, fun path field other apart => ?_, fun field => ?_,
    fun field path apart => ?_, fun path others rest => ?_, fun path others other apart => ?_,
    tidy.ordered.isEmpty_iff⟩
  · rw [fieldsAt_insert tidy.ordered, if_pos rfl, addField]
    simp only [List.contains_iff_mem]
  · rw [fieldsAt_insert tidy.ordered, if_neg apart]
  · rw [fieldsAt_erase, if_pos rfl, (tidy.nodup .root).erase_eq_filter]
    exact List.filter_congr fun other _ => by rw [Bool.eq_iff_iff, decide_eq_true_eq, bne_iff_ne]
  · rw [fieldsAt_erase, if_neg apart]
  · have added := tidy_made others
    rw [fieldsAt_unionAt tidy.ordered added.ordered, if_pos (List.prefix_append path.segments rest),
      List.drop_left, foldl_addField_of_nodup (added.nodup ⟨rest⟩)]
  · rw [fieldsAt_unionAt tidy.ordered (tidy_made others).ordered, if_neg apart]

/-- The key of users, and of their messages the key of the sender and what is joined of the recipient. -/
def letterChanges : List Change :=
  [.insert .root "id", .insert ⟨["messages", "recipient"]⟩ "id",
    .unionAt ⟨["messages"]⟩ [.insert .root "sender_id", .insert ⟨["recipient"]⟩ "name"]]

/-- Grafted at the messages, recipients get the fields that are new to them, and users stay as they were; what is
erased or inserted at users does not reach the recipients. -/
theorem recipients_grafted :
    let surplus := made letterChanges
    let recipients : List Change := [.insert ⟨["recipient"]⟩ "name", .insert ⟨["recipient"]⟩ "email"]
    surplus.fieldsAt ⟨["messages", "recipient"]⟩ = ["id", "name"] ∧
    (surplus.unionAt ⟨["messages"]⟩ (made recipients)).fieldsAt ⟨["messages", "recipient"]⟩ =
      ["id", "name", "email"] ∧
    ¬ ["messages"] <+: Path.root.segments ∧
    (surplus.unionAt ⟨["messages"]⟩ (made recipients)).fieldsAt .root = ["id"] ∧
    (⟨["messages", "recipient"]⟩ : Path) ≠ .root ∧
    (surplus.erase "id").fieldsAt ⟨["messages", "recipient"]⟩ = ["id", "name"] ∧
    (surplus.erase "id").fieldsAt .root = [] ∧
    (surplus.insert .root "email").fieldsAt ⟨["messages", "recipient"]⟩ = ["id", "name"] := by
  intro surplus recipients
  obtain ⟨-, -, insertElsewhere, eraseRoot, eraseElsewhere, united, unitedElsewhere, -⟩ :=
    fields_after_changes letterChanges
  have apart : ¬ ["messages"] <+: Path.root.segments := by decide
  have below : (⟨["messages", "recipient"]⟩ : Path) ≠ .root := by decide
  refine ⟨rfl, united ⟨["messages"]⟩ recipients ["recipient"], apart, ?_, below, ?_, eraseRoot "id", ?_⟩
  · exact unitedElsewhere ⟨["messages"]⟩ recipients .root apart
  · exact eraseElsewhere "id" _ below
  · exact insertElsewhere .root "email" _ below

end ResourceQuery.Surplus
