/-!
# Association lists in key order

A list of keys with values whose keys increase. `upsert` puts a key where the order wants it, or
changes the value that is there; `List.lookup` reads. The laws say what a look-up finds after an
upsert (`lookup_upsert`), that upserting keeps the order (`increasing_upsert`), and that two lists
in order with the same look-ups are the same list (`eq_of_lookup_eq`).
-/
namespace ResourceQuery.Assoc

variable {κ α : Type} [Ord κ]

/-- The keys of the entries increase strictly. -/
abbrev Increasing (entries : List (κ × α)) : Prop :=
  entries.Pairwise fun left right => compare left.1 right.1 = .lt

/-- Set the value of a key to what `change` makes of the present one. -/
def upsert (key : κ) (change : Option α → α) : List (κ × α) → List (κ × α)
  | [] => [(key, change none)]
  | (present, value) :: rest =>
    match compare key present with
    | .lt => (key, change none) :: (present, value) :: rest
    | .eq => (key, change (some value)) :: rest
    | .gt => (present, value) :: upsert key change rest

/-- Set the value of a key. -/
def insert (key : κ) (value : α) (entries : List (κ × α)) : List (κ × α) :=
  upsert key (fun _ => value) entries

/-- Entries inserted one after the other, so the last value of a key stays. -/
def ofList (entries : List (κ × α)) : List (κ × α) :=
  entries.foldl (fun present entry => insert entry.1 entry.2 present) []

section Laws

variable [DecidableEq κ] [Std.LawfulEqOrd κ] [Std.TransOrd κ]

omit [Ord κ] [Std.LawfulEqOrd κ] [Std.TransOrd κ] in
/-- A look-up takes the first entry if the key is its key. -/
theorem lookup_cons (key other : κ) (value : α) (rest : List (κ × α)) :
    ((key, value) :: rest).lookup other =
      if other = key then some value else rest.lookup other := by
  by_cases h : other = key
  · simp [h]
  · have apart : (other == key) = false := by simp [h]
    simp [List.lookup_cons, apart, h]

omit [Std.TransOrd κ] in
/-- The entry of a key less than all others is not among them. -/
theorem lookup_eq_none_of_lt {key : κ} {entries : List (κ × α)}
    (less : ∀ entry ∈ entries, compare key entry.1 = .lt) : entries.lookup key = none := by
  induction entries with
  | nil => rfl
  | cons entry rest ih =>
    have apart : key ≠ entry.1 := by
      have := less entry (by simp)
      rintro rfl
      simp [Std.ReflOrd.compare_self] at this
    rw [lookup_cons, if_neg apart]
    exact ih fun other member => less other (by simp [member])

omit [Ord κ] [Std.LawfulEqOrd κ] [Std.TransOrd κ] in
/-- An entry that a look-up finds is among the entries. -/
theorem mem_of_lookup {entries : List (κ × α)} {key : κ} {value : α}
    (found : entries.lookup key = some value) : (key, value) ∈ entries := by
  induction entries with
  | nil => contradiction
  | cons entry rest ih =>
    rw [lookup_cons] at found
    split at found
    · next same =>
      subst same
      exact Option.some.inj found ▸ .head rest
    · exact .tail _ (ih found)

omit [Ord κ] [Std.LawfulEqOrd κ] [Std.TransOrd κ] in
/-- A look-up fails for the keys that no entry has. -/
theorem lookup_eq_none_iff {entries : List (κ × α)} {key : κ} :
    entries.lookup key = none ↔ key ∉ entries.map Prod.fst := by
  simp only [List.lookup_eq_none_iff, bne_iff_ne, ne_eq, List.mem_map, not_exists, not_and, eq_comm (a := key)]

omit [DecidableEq κ] [Std.TransOrd κ] in
/-- In key order no key comes twice. -/
theorem nodup_keys {entries : List (κ × α)} (order : Increasing entries) :
    (entries.map Prod.fst).Nodup := by
  refine List.pairwise_map.2 (order.imp fun less same => ?_)
  rw [same, Std.ReflOrd.compare_self] at less
  contradiction

omit [Ord κ] [Std.LawfulEqOrd κ] [Std.TransOrd κ] in
/-- Where no key comes twice, every entry is the one that its key finds. -/
theorem lookup_of_nodup {entries : List (κ × α)} (distinct : (entries.map Prod.fst).Nodup) {key : κ}
    {value : α} (member : (key, value) ∈ entries) : entries.lookup key = some value := by
  induction entries with
  | nil => contradiction
  | cons entry rest ih =>
    obtain ⟨new, distinctRest⟩ := List.nodup_cons.1 distinct
    rw [lookup_cons]
    rcases List.mem_cons.1 member with rfl | member
    · rw [if_pos rfl]
    · have apart : key ≠ entry.1 := fun same => new (same ▸ List.mem_map_of_mem member)
      rw [if_neg apart]
      exact ih distinctRest member

omit [Std.TransOrd κ] in
/-- In key order, every entry is the one that its key finds. -/
theorem lookup_of_mem {entries : List (κ × α)} (order : Increasing entries) {key : κ} {value : α}
    (member : (key, value) ∈ entries) : entries.lookup key = some value :=
  lookup_of_nodup (nodup_keys order) member

/-- An upserted key has the changed value, and every other key keeps its own. -/
theorem lookup_upsert {entries : List (κ × α)} (order : Increasing entries) (key other : κ)
    (change : Option α → α) :
    (upsert key change entries).lookup other =
      if other = key then some (change (entries.lookup key)) else entries.lookup other := by
  induction entries with
  | nil => simp [upsert, lookup_cons]
  | cons entry rest ih =>
    obtain ⟨present, value⟩ := entry
    have later := (List.pairwise_cons.1 order).1
    cases sign : compare key present with
    | lt =>
      have absent : ((present, value) :: rest).lookup key = none := by
        apply lookup_eq_none_of_lt
        intro entry member
        rcases List.mem_cons.1 member with rfl | member
        · exact sign
        · exact Std.TransCmp.lt_trans sign (later entry member)
      simp only [upsert, sign, absent]
      simp only [lookup_cons]
    | eq =>
      have same := Std.LawfulEqOrd.eq_of_compare sign
      subst same
      simp only [upsert, sign]
      by_cases h : other = key <;> simp [lookup_cons, h]
    | gt =>
      have apart : key ≠ present := by
        rintro rfl
        simp [Std.ReflOrd.compare_self] at sign
      simp only [upsert, sign, lookup_cons, ih (List.pairwise_cons.1 order).2]
      by_cases h : other = key
      · subst h
        simp [apart]
      · simp [h]

omit [Std.TransOrd κ] in
/-- An inserted key has its value, and every other key keeps its own, in whatever order the entries are. -/
theorem lookup_insert (entries : List (κ × α)) (key other : κ) (value : α) :
    (insert key value entries).lookup other =
      if other = key then some value else entries.lookup other := by
  induction entries with
  | nil => exact lookup_cons key other value []
  | cons entry rest ih =>
    obtain ⟨present, held⟩ := entry
    unfold insert at ih ⊢
    cases sign : compare key present with
    | lt =>
      simp only [upsert, sign]
      exact lookup_cons key other value _
    | eq =>
      have same := Std.LawfulEqOrd.eq_of_compare sign
      subst same
      simp only [upsert, sign]
      by_cases h : other = key <;> simp [lookup_cons, h]
    | gt =>
      have apart : key ≠ present := by
        rintro rfl
        simp [Std.ReflOrd.compare_self] at sign
      simp only [upsert, sign, lookup_cons, ih]
      by_cases h : other = key
      · subst h
        simp [apart]
      · simp [h]

omit [DecidableEq κ] [Std.TransOrd κ] in
/-- The keys after an upsert are the keys before it and the upserted one. -/
theorem mem_keys_upsert {key other : κ} {change : Option α → α} {entries : List (κ × α)} :
    (∃ value, (other, value) ∈ upsert key change entries) ↔
      other = key ∨ ∃ value, (other, value) ∈ entries := by
  induction entries with
  | nil => simp [upsert]
  | cons entry rest ih =>
    obtain ⟨present, value⟩ := entry
    cases sign : compare key present with
    | lt => simp [upsert, sign, exists_or]
    | eq =>
      have same := Std.LawfulEqOrd.eq_of_compare sign
      subst same
      simp [upsert, exists_or]
    | gt =>
      simp only [upsert, sign, List.mem_cons, exists_or, ih]
      exact or_left_comm

omit [DecidableEq κ] in
/-- Upserting keeps the order of the keys. -/
theorem increasing_upsert {entries : List (κ × α)} (order : Increasing entries) (key : κ)
    (change : Option α → α) : Increasing (upsert key change entries) := by
  induction entries with
  | nil => simp [upsert, Increasing]
  | cons entry rest ih =>
    obtain ⟨present, value⟩ := entry
    obtain ⟨later, tailOrder⟩ := List.pairwise_cons.1 order
    cases sign : compare key present with
    | lt =>
      simp only [upsert, sign]
      refine List.pairwise_cons.2 ⟨fun entry member => ?_, order⟩
      rcases List.mem_cons.1 member with rfl | member
      · exact sign
      · exact Std.TransCmp.lt_trans sign (later entry member)
    | eq =>
      have same := Std.LawfulEqOrd.eq_of_compare sign
      subst same
      simp only [upsert, sign]
      exact List.pairwise_cons.2 ⟨later, tailOrder⟩
    | gt =>
      simp only [upsert, sign]
      refine List.pairwise_cons.2 ⟨fun entry member => ?_, ih tailOrder⟩
      obtain ⟨other, held⟩ := entry
      rcases mem_keys_upsert.1 ⟨held, member⟩ with rfl | ⟨heldBefore, member⟩
      · exact Std.OrientedCmp.lt_of_gt sign
      · exact later (other, heldBefore) member

omit [DecidableEq κ] in
/-- A list read into a table has increasing keys. -/
theorem increasing_ofList (entries : List (κ × α)) : Increasing (ofList entries) := by
  have inserted : ∀ rest held : List (κ × α), Increasing held →
      Increasing (rest.foldl (fun held entry => insert entry.1 entry.2 held) held) := by
    intro rest
    induction rest with
    | nil => exact fun held order => order
    | cons entry rest ih => exact fun held order => ih _ (increasing_upsert order entry.1 _)
  exact inserted entries [] List.Pairwise.nil

omit [Ord κ] [Std.LawfulEqOrd κ] [Std.TransOrd κ] in
/-- Where no key comes twice, look-ups do not depend on the order of the entries. -/
theorem lookup_of_perm {left right : List (κ × α)} (order : left.Perm right)
    (distinct : (left.map Prod.fst).Nodup) (key : κ) : left.lookup key = right.lookup key := by
  induction order with
  | nil => rfl
  | cons entry _ ih => rw [lookup_cons, lookup_cons, ih (List.nodup_cons.1 distinct).2]
  | swap first second rest =>
    obtain ⟨one, held⟩ := first
    obtain ⟨other, kept⟩ := second
    have apart : other ≠ one := fun same => (List.nodup_cons.1 distinct).1 (same ▸ .head _)
    simp only [lookup_cons]
    by_cases here : key = one
    · simp only [here, if_neg apart.symm, if_true]
    · rw [if_neg here, if_neg here]
  | trans first _ one two =>
    rw [one distinct, two ((first.map Prod.fst).nodup_iff.1 distinct)]

omit [Ord κ] [Std.LawfulEqOrd κ] [Std.TransOrd κ] in
/-- Of the items that entries with distinct keys are spread into, those of a key are those of its entry. -/
theorem filter_flatMap {β : Type} {entries : List (κ × α)} {spread : κ × α → List β} {keyOf : β → κ}
    (tagged : ∀ entry, ∀ item ∈ spread entry, keyOf item = entry.1)
    (distinct : (entries.map Prod.fst).Nodup) (key : κ) :
    (entries.flatMap spread).filter (keyOf · = key) =
      ((entries.lookup key).map fun value => spread (key, value)).getD [] := by
  have own : ∀ entry, (spread entry).filter (keyOf · = key) =
      if key = entry.1 then spread entry else [] := by
    intro entry
    split
    · next here =>
      exact List.filter_eq_self.2 fun item member => by simpa [here] using tagged entry item member
    · next apart =>
      refine List.filter_eq_nil_iff.2 fun item member same => apart ?_
      rw [← tagged entry item member]
      exact (of_decide_eq_true same).symm
  induction entries with
  | nil => rfl
  | cons entry rest ih =>
    obtain ⟨present, value⟩ := entry
    obtain ⟨new, distinctRest⟩ := List.nodup_cons.1 distinct
    rw [List.flatMap_cons, List.filter_append, own, ih distinctRest, lookup_cons]
    split
    · next here =>
      have absent : rest.lookup key = none := lookup_eq_none_iff.2 (here ▸ new)
      rw [absent, here]
      exact List.append_nil _
    · rfl

/-- Two lists in key order with the same look-ups are equal. -/
theorem eq_of_lookup_eq {left right : List (κ × α)} (leftOrder : Increasing left)
    (rightOrder : Increasing right) (same : ∀ key, left.lookup key = right.lookup key) :
    left = right := by
  induction left generalizing right with
  | nil =>
    cases right with
    | nil => rfl
    | cons entry rest => simpa using (same entry.1).trans (lookup_cons entry.1 entry.1 entry.2 rest)
  | cons entry rest ih =>
    cases right with
    | nil => simpa using (lookup_cons entry.1 entry.1 entry.2 rest).symm.trans (same entry.1)
    | cons other others =>
      obtain ⟨key, value⟩ := entry
      obtain ⟨otherKey, otherValue⟩ := other
      obtain ⟨leftLater, leftOrder⟩ := List.pairwise_cons.1 leftOrder
      obtain ⟨rightLater, rightTail⟩ := List.pairwise_cons.1 rightOrder
      have keys : key = otherKey := by
        cases sign : compare key otherKey with
        | lt =>
          have absent : ((otherKey, otherValue) :: others).lookup key = none := by
            apply lookup_eq_none_of_lt
            intro entry member
            rcases List.mem_cons.1 member with rfl | member
            · exact sign
            · exact Std.TransCmp.lt_trans sign (rightLater entry member)
          simpa [absent, lookup_cons] using same key
        | eq => exact Std.LawfulEqOrd.eq_of_compare sign
        | gt =>
          have absent : ((key, value) :: rest).lookup otherKey = none := by
            apply lookup_eq_none_of_lt
            intro entry member
            rcases List.mem_cons.1 member with rfl | member
            · exact Std.OrientedCmp.lt_of_gt sign
            · exact Std.TransCmp.lt_trans (Std.OrientedCmp.lt_of_gt sign) (leftLater entry member)
          simpa [absent, lookup_cons] using same otherKey
      subst keys
      have values : value = otherValue := by simpa [lookup_cons] using same key
      subst values
      congr 1
      apply ih leftOrder rightTail
      intro other
      by_cases h : other = key
      · subst h
        rw [lookup_eq_none_of_lt leftLater, lookup_eq_none_of_lt rightLater]
      · simpa [lookup_cons, h] using same other

end Laws

end ResourceQuery.Assoc
