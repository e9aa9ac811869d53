import ResourceQuery.Surplus

/-!
# The fields of a surplus by path

A surplus is a map from paths to fields: `fieldsAt` reads it, and each operation is stated by what
it does to every path. Inserting adds a field at one path (`fieldsAt_insert`), erasing removes one
at the root (`fieldsAt_erase`), and a union adds the fields of the other surplus path by path, below
the path where it is grafted (`fieldsAt_unionAt`). The relations of a node have to be in the order of
their names for this (`Surplus.Ordered`), and every operation keeps them so.
-/
namespace ResourceQuery.Surplus

/-- Induction over a surplus: a node is settled once its relations are. -/
theorem inductionOn {motive : Surplus → Prop}
    (node : ∀ fields relations, (∀ entry ∈ relations, motive entry.2) →
      motive (.node fields relations)) (surplus : Surplus) : motive surplus :=
  @Surplus.rec motive (fun relations => ∀ entry ∈ relations, motive entry.2)
    (fun entry => motive entry.2) (fun fields relations below => node fields relations below)
    (fun _ member => absurd member List.not_mem_nil)
    (fun _ _ first others entry member => by
      rcases List.mem_cons.1 member with rfl | member
      · exact first
      · exact others entry member)
    (fun _ _ below => below) surplus

/-- The relations of every node are in the order of their names. -/
inductive Ordered : Surplus → Prop
  /-- A node with its relations. -/
  | node {fields : List String} {relations : List (String × Surplus)}
      (order : Assoc.Increasing relations) (below : ∀ entry ∈ relations, Ordered entry.2) :
      Ordered (.node fields relations)

/-- A surplus without relations is in order. -/
theorem Ordered.leaf (fields : List String) : Ordered (.node fields []) :=
  .node List.Pairwise.nil (fun _ member => absurd member List.not_mem_nil)

/-- Nothing to drop is in order. -/
theorem ordered_empty : empty.Ordered := .leaf []

/-- The node of a relation, nothing to drop where there is none. -/
def under (surplus : Surplus) (name : String) : Surplus := (surplus.relation? name).getD empty

/-- A node whose relation is found has it under that name. -/
theorem under_node (fields : List String) (relations : List (String × Surplus)) (name : String) :
    (node fields relations).under name = (relations.lookup name).getD empty := rfl

/-- The nodes under one in order are in order. -/
theorem Ordered.under {surplus : Surplus} (ordered : surplus.Ordered) (name : String) :
    (surplus.under name).Ordered := by
  obtain ⟨fields, relations⟩ := surplus
  obtain ⟨-, nodes⟩ := ordered
  rw [under_node]
  cases found : relations.lookup name with
  | none => exact ordered_empty
  | some child => exact nodes _ (Assoc.mem_of_lookup found)

/-! ### Reading -/

/-- The fields of a node are those at the root. -/
@[simp] theorem fieldsAt_nil (surplus : Surplus) : surplus.fieldsAt ⟨[]⟩ = surplus.fields := rfl

/-- The fields at a longer path are those below its first relation. -/
theorem fieldsAt_cons (surplus : Surplus) (name : String) (rest : List String) :
    surplus.fieldsAt ⟨name :: rest⟩ = (surplus.under name).fieldsAt ⟨rest⟩ := by
  simp only [fieldsAt, at?, under]
  cases surplus.relation? name with
  | none => cases rest <;> rfl
  | some child => rfl

/-- Nothing to drop has no fields at any path. -/
@[simp] theorem fieldsAt_empty (path : Path) : empty.fieldsAt path = [] := by
  obtain ⟨chain⟩ := path
  cases chain <;> rfl

/-- A surplus without relations has fields at the root only. -/
theorem fieldsAt_leaf (fields : List String) (path : Path) :
    (node fields []).fieldsAt path = if path = .root then fields else [] := by
  obtain ⟨chain⟩ := path
  cases chain <;> rfl

/-! ### Changing a node -/

/-- The fields after one more are the fields before it and that one. -/
theorem mem_addField {fields : List String} {field name : String} :
    name ∈ addField fields field ↔ name ∈ fields ∨ name = field := by
  unfold addField
  split
  · next held =>
    have held : field ∈ fields := List.contains_iff_mem.1 held
    constructor
    · exact .inl
    · rintro (member | rfl)
      · exact member
      · exact held
  · simp

/-- The fields after adding others are the fields before and the others. -/
theorem mem_foldl_addField {added fields : List String} {name : String} :
    name ∈ added.foldl addField fields ↔ name ∈ fields ∨ name ∈ added := by
  induction added generalizing fields with
  | nil => simp
  | cons field rest ih =>
    rw [List.foldl_cons, ih, mem_addField, List.mem_cons, or_assoc]

/-- The node at the end of a chain, nothing to drop where there is none. -/
def descend (surplus : Surplus) : List String → Surplus
  | [] => surplus
  | name :: rest => (surplus.under name).descend rest

/-- The fields below the end of a chain. -/
theorem fieldsAt_descend (surplus : Surplus) (chain rest : List String) :
    (surplus.descend chain).fieldsAt ⟨rest⟩ = surplus.fieldsAt ⟨chain ++ rest⟩ := by
  induction chain generalizing surplus with
  | nil => rfl
  | cons name others ih => rw [descend, ih, List.cons_append, fieldsAt_cons]

/-- The nodes at the end of chains are in order. -/
theorem Ordered.descend {surplus : Surplus} (ordered : surplus.Ordered) (chain : List String) :
    (surplus.descend chain).Ordered := by
  induction chain generalizing surplus with
  | nil => exact ordered
  | cons name rest ih => exact ih (ordered.under name)

/-- Setting one relation changes what is under it and nothing else. -/
theorem under_upsert {fields : List String} {relations : List (String × Surplus)}
    (order : Assoc.Increasing relations) (name other : String)
    (change : Option Surplus → Surplus) :
    (node fields (Assoc.upsert name change relations)).under other =
      if other = name then change (relations.lookup name) else (node fields relations).under other := by
  rw [under_node, under_node, Assoc.lookup_upsert order]
  split <;> rfl

/-- Setting one relation to a node in order keeps the order. -/
theorem Ordered.upsert {fields : List String} {relations : List (String × Surplus)}
    (ordered : (Surplus.node fields relations).Ordered) (name : String)
    (change : Option Surplus → Surplus) (changed : (change (relations.lookup name)).Ordered) :
    (Surplus.node fields (Assoc.upsert name change relations)).Ordered := by
  obtain ⟨order, nodes⟩ := ordered
  have orderAfter := Assoc.increasing_upsert order name change
  refine .node orderAfter fun entry member => ?_
  have found := Assoc.lookup_of_mem orderAfter member
  rw [Assoc.lookup_upsert order] at found
  split at found
  · exact Option.some.inj found ▸ changed
  · exact nodes _ (Assoc.mem_of_lookup found)

/-- Changing the node at the end of a chain changes the fields from there on, and no others. -/
theorem fieldsAt_alterAt {surplus : Surplus} (ordered : surplus.Ordered) (change : Surplus → Surplus)
    (chain other : List String) : (alterAt change chain surplus).fieldsAt ⟨other⟩ =
      if chain <+: other then
        (change (surplus.descend chain)).fieldsAt ⟨other.drop chain.length⟩
      else surplus.fieldsAt ⟨other⟩ := by
  induction chain generalizing surplus other with
  | nil =>
    rw [if_pos List.nil_prefix]
    rfl
  | cons name rest ih =>
    obtain ⟨fields, relations⟩ := surplus
    have order : Assoc.Increasing relations := by
      cases ordered
      assumption
    cases other with
    | nil =>
      rw [if_neg (by simp)]
      rfl
    | cons first others =>
      rw [fieldsAt_cons, alterAt, under_upsert order]
      by_cases same : first = name
      · subst same
        rw [if_pos rfl, ← under_node fields relations first, ih (ordered.under first), fieldsAt_cons]
        simp only [List.cons_prefix_cons, true_and, List.length_cons, List.drop_succ_cons, descend]
      · have apart : ¬ name :: rest <+: first :: others := fun begins =>
          same (List.cons_prefix_cons.1 begins).1.symm
        rw [if_neg same, if_neg apart, fieldsAt_cons]

/-- Changing the node at the end of a chain to one in order keeps the order. -/
theorem Ordered.alterAt {surplus : Surplus} (ordered : surplus.Ordered) {change : Surplus → Surplus}
    (changed : ∀ node : Surplus, node.Ordered → (change node).Ordered) (chain : List String) :
    (Surplus.alterAt change chain surplus).Ordered := by
  induction chain generalizing surplus with
  | nil => exact changed surplus ordered
  | cons name rest ih =>
    obtain ⟨fields, relations⟩ := surplus
    exact ordered.upsert name _ (ih (ordered.under name))

/-! ### Operations -/

/-- A node with one more field. -/
def addHere (surplus : Surplus) (field : String) : Surplus :=
  node (addField surplus.fields field) surplus.relations

/-- Inserting adds a field to the node at the end of a path. -/
theorem insert_eq_alterAt (surplus : Surplus) (path : Path) (field : String) :
    surplus.insert path field = surplus.alterAt (addHere · field) path.segments := by
  unfold insert
  congr 1
  funext node
  cases node
  rfl

/-- One more field of a node is at the root, and the paths below it keep theirs. -/
theorem fieldsAt_addHere (surplus : Surplus) (field : String) (rest : List String) :
    (surplus.addHere field).fieldsAt ⟨rest⟩ =
      if rest = [] then addField surplus.fields field else surplus.fieldsAt ⟨rest⟩ := by
  cases surplus
  cases rest <;> rfl

/-- Inserting adds a field at its path, and changes no other path. -/
theorem fieldsAt_insert {surplus : Surplus} (ordered : surplus.Ordered) (path other : Path)
    (field : String) : (surplus.insert path field).fieldsAt other =
      if other = path then addField (surplus.fieldsAt path) field else surplus.fieldsAt other := by
  obtain ⟨chain⟩ := path
  obtain ⟨others⟩ := other
  rw [insert_eq_alterAt, fieldsAt_alterAt ordered]
  by_cases begins : chain <+: others
  · obtain ⟨rest, rfl⟩ := begins
    rw [if_pos (List.prefix_append chain rest), List.drop_left, fieldsAt_addHere, fieldsAt_descend]
    by_cases here : rest = []
    · subst here
      rw [if_pos rfl, if_pos (by rw [List.append_nil]), ← fieldsAt_nil, fieldsAt_descend,
        List.append_nil]
    · have apart : (⟨chain ++ rest⟩ : Path) ≠ ⟨chain⟩ := fun same =>
        here (List.append_right_eq_self.1 (congrArg Path.segments same))
      rw [if_neg here, if_neg apart]
  · have apart : (⟨others⟩ : Path) ≠ ⟨chain⟩ := fun same =>
      begins (Path.mk.inj same ▸ List.prefix_refl others)
    rw [if_neg begins, if_neg apart]

/-- Inserting keeps the order. -/
theorem Ordered.insert {surplus : Surplus} (ordered : surplus.Ordered) (path : Path)
    (field : String) : (surplus.insert path field).Ordered := by
  rw [insert_eq_alterAt]
  refine ordered.alterAt (fun node nodeOrdered => ?_) path.segments
  obtain ⟨order, nodes⟩ := nodeOrdered
  exact .node order nodes

/-- Erasing removes a field at the root, and changes no other path. -/
theorem fieldsAt_erase (surplus : Surplus) (field : String) (path : Path) :
    (surplus.erase field).fieldsAt path =
      if path = .root then surplus.fields.filter (· ≠ field) else surplus.fieldsAt path := by
  obtain ⟨chain⟩ := path
  obtain ⟨fields, relations⟩ := surplus
  cases chain <;> rfl

/-- Erasing keeps the order. -/
theorem Ordered.erase {surplus : Surplus} (ordered : surplus.Ordered) (field : String) :
    (surplus.erase field).Ordered := by
  obtain ⟨order, nodes⟩ := ordered
  exact .node order nodes

/-- A union in every relation has under each name what either has. -/
theorem under_unionAll (fields : List String) {present added : List (String × Surplus)}
    (presentOrdered : (node fields present).Ordered)
    (addedOrdered : ∀ entry ∈ added, entry.2.Ordered) (addedOrder : Assoc.Increasing added)
    (keeps : ∀ entry ∈ added, ∀ held : Surplus, held.Ordered → (held.union entry.2).Ordered) :
    (node fields (unionAll present added)).Ordered ∧
      ∀ name, (node fields (unionAll present added)).under name =
        match added.lookup name with
        | some child => ((node fields present).under name).union child
        | none => (node fields present).under name := by
  induction added generalizing present with
  | nil => exact ⟨presentOrdered, fun _ => rfl⟩
  | cons entry rest ih =>
    obtain ⟨name, child⟩ := entry
    obtain ⟨later, restOrder⟩ := List.pairwise_cons.1 addedOrder
    obtain ⟨order, -⟩ := id presentOrdered
    have stepOrdered := presentOrdered.upsert name (fun held => (held.getD empty).union child)
      (keeps _ (.head rest) _ (presentOrdered.under name))
    obtain ⟨ordered, look⟩ := ih stepOrdered (fun entry member => addedOrdered entry (.tail _ member))
      restOrder (fun entry member => keeps entry (.tail _ member))
    refine ⟨ordered, fun other => ?_⟩
    rw [unionAll, look, under_upsert order, Assoc.lookup_cons]
    by_cases same : other = name
    · -- A later entry has a greater name, so this one is changed once.
      subst same
      have absent : rest.lookup other = none := Assoc.lookup_eq_none_of_lt later
      rw [if_pos rfl, if_pos rfl, absent]
      rfl
    · rw [if_neg same, if_neg same]

/-- A union is in order, and has at every path the fields of both. -/
theorem union_spec {surplus added : Surplus} (ordered : surplus.Ordered)
    (addedOrdered : added.Ordered) : (surplus.union added).Ordered ∧
      ∀ path, (surplus.union added).fieldsAt path =
        (added.fieldsAt path).foldl addField (surplus.fieldsAt path) := by
  induction added using inductionOn generalizing surplus with
  | node fields relations ih =>
    obtain ⟨own, present⟩ := surplus
    obtain ⟨addedOrder, nodes⟩ := addedOrdered
    have keeps : ∀ entry ∈ relations, ∀ held : Surplus, held.Ordered →
        (held.union entry.2).Ordered :=
      fun entry member held heldOrdered => (ih entry member heldOrdered (nodes entry member)).1
    obtain ⟨order, presentNodes⟩ := ordered
    have united := under_unionAll (fields.foldl addField own) (.node order presentNodes)
      nodes addedOrder keeps
    refine ⟨united.1, fun path => ?_⟩
    obtain ⟨chain⟩ := path
    cases chain with
    | nil => rfl
    | cons name rest =>
      change (Surplus.node (fields.foldl addField own) (unionAll present relations)).fieldsAt _ = _
      rw [fieldsAt_cons, united.2, fieldsAt_cons, fieldsAt_cons, under_node fields relations]
      cases found : relations.lookup name with
      | none => rw [Option.getD_none, fieldsAt_empty]; rfl
      | some child =>
        have member := Assoc.mem_of_lookup found
        have presentOrdered : (Surplus.node own present).Ordered := .node order presentNodes
        exact (ih _ member (presentOrdered.under name) (nodes _ member)).2 ⟨rest⟩

/-- A union grafted at a path adds the fields of the other surplus below it, path by path, and
changes no other path. -/
theorem fieldsAt_unionAt {surplus added : Surplus} (ordered : surplus.Ordered)
    (addedOrdered : added.Ordered) (path other : Path) :
    (surplus.unionAt path added).fieldsAt other =
      if path.segments <+: other.segments then
        (added.fieldsAt ⟨other.segments.drop path.segments.length⟩).foldl addField
          (surplus.fieldsAt other)
      else surplus.fieldsAt other := by
  obtain ⟨chain⟩ := path
  obtain ⟨others⟩ := other
  rw [unionAt, fieldsAt_alterAt ordered]
  by_cases begins : chain <+: others
  · obtain ⟨rest, rfl⟩ := begins
    have here := (union_spec (ordered.descend chain) addedOrdered).2 ⟨rest⟩
    rw [fieldsAt_descend] at here
    simpa using here
  · rw [if_neg begins, if_neg begins]

/-- Fields grafted at a path are added there, and no other path changes. -/
theorem mem_fieldsAt_unionAt_leaf {surplus : Surplus} (ordered : surplus.Ordered) (path other : Path)
    (added : List String) (name : String) :
    name ∈ (surplus.unionAt path (.node added [])).fieldsAt other ↔
      name ∈ surplus.fieldsAt other ∨ (other = path ∧ name ∈ added) := by
  rw [fieldsAt_unionAt ordered (.leaf added)]
  split
  · next begins =>
    have same : (⟨other.segments.drop path.segments.length⟩ : Path) = .root ↔ other = path := by
      obtain ⟨rest, longer⟩ := begins
      obtain ⟨chain⟩ := other
      have same : path.segments ++ rest = chain := longer
      subst same
      constructor
      · intro here
        have nothing : rest = [] := by simpa [Path.root] using here
        rw [nothing, List.append_nil]
      · intro here
        have nothing : rest = [] := List.append_right_eq_self.1 (congrArg Path.segments here)
        rw [nothing, List.append_nil, List.drop_length]
        rfl
    rw [mem_foldl_addField, fieldsAt_leaf]
    split
    · next here => simp [same.1 here]
    · next beside =>
      have elsewhere : other ≠ path := fun here => beside (same.2 here)
      simp [elsewhere]
  · next apart =>
    have elsewhere : other ≠ path := fun same => apart (same ▸ List.prefix_refl _)
    simp [elsewhere]

/-- A union grafted at a path keeps the order. -/
theorem Ordered.unionAt {surplus added : Surplus} (ordered : surplus.Ordered)
    (addedOrdered : added.Ordered) (path : Path) : (surplus.unionAt path added).Ordered :=
  ordered.alterAt (fun _ nodeOrdered => (union_spec nodeOrdered addedOrdered).1) path.segments

end ResourceQuery.Surplus
