import ResourceQuery.Assoc

/-!
# Maps in key order

A finite map as its entries in increasing order of the keys, so two maps that look up alike are
equal (`ext_find?`). `find?_alter` says what every change does to every look-up.
-/
namespace ResourceQuery

/-- Entries whose keys increase. -/
structure SortedMap (κ α : Type) [Ord κ] where
  /-- The entries in key order. -/
  entries : List (κ × α)
  /-- The keys increase. -/
  increasing : Assoc.Increasing entries

namespace SortedMap

variable {κ α : Type} [Ord κ]

/-- The map without entries. -/
def empty : SortedMap κ α := ⟨[], List.Pairwise.nil⟩

/-- The keys in order. -/
def keys (map : SortedMap κ α) : List κ := map.entries.map Prod.fst

variable [DecidableEq κ]

/-- The value of a key. -/
def find? (map : SortedMap κ α) (key : κ) : Option α := map.entries.lookup key

variable [Std.LawfulEqOrd κ] [Std.TransOrd κ]

/-- Set the value of a key to what `change` makes of the present one. -/
def alter (map : SortedMap κ α) (key : κ) (change : Option α → α) : SortedMap κ α :=
  ⟨Assoc.upsert key change map.entries, Assoc.increasing_upsert map.increasing key change⟩

/-- Set the value of a key. -/
def insert (map : SortedMap κ α) (key : κ) (value : α) : SortedMap κ α :=
  map.alter key fun _ => value

omit [Std.LawfulEqOrd κ] [Std.TransOrd κ] in
/-- The empty map finds nothing. -/
theorem find?_empty (key : κ) : (empty : SortedMap κ α).find? key = none := rfl

/-- An altered key has its changed value, and every other key keeps its own. -/
theorem find?_alter (map : SortedMap κ α) (key other : κ) (change : Option α → α) :
    (map.alter key change).find? other =
      if other = key then some (change (map.find? key)) else map.find? other :=
  Assoc.lookup_upsert map.increasing key other change

/-- An inserted key has its value, and every other key keeps its own. -/
theorem find?_insert (map : SortedMap κ α) (key other : κ) (value : α) :
    (map.insert key value).find? other = if other = key then some value else map.find? other :=
  find?_alter map key other _

/-- Altering the keys of items one after the other gives every key what its own items make of it. -/
theorem find?_foldl_alter {β : Type} (keyOf : β → κ) (change : β → Option α → α) (items : List β)
    (map : SortedMap κ α) (key : κ) :
    (items.foldl (fun map item => map.alter (keyOf item) (change item)) map).find? key =
      (items.filter (keyOf · = key)).foldl (fun present item => some (change item present))
        (map.find? key) := by
  induction items generalizing map with
  | nil => rfl
  | cons item rest ih =>
    rw [List.foldl_cons, ih, find?_alter]
    by_cases here : keyOf item = key
    · rw [List.filter_cons_of_pos (by simpa using here), if_pos here.symm, here]
      rfl
    · rw [List.filter_cons_of_neg (by simpa using here), if_neg (Ne.symm here)]

/-- Maps that find the same values are equal. -/
theorem ext_find? {left right : SortedMap κ α} (same : ∀ key, left.find? key = right.find? key) :
    left = right := by
  have entries := Assoc.eq_of_lookup_eq left.increasing right.increasing same
  cases left
  cases right
  cases entries
  rfl

end SortedMap

end ResourceQuery
