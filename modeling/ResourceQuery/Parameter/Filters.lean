import ResourceQuery.Assoc

/-!
# Filter sets

The filters asked for at one path: names with arguments in the order in which the names first
came. Assigning a name again replaces its arguments in place, so `find?` gives the latest
(`find?_insert`).
-/
namespace ResourceQuery

/-- Filter names with their arguments, in the order of first assignment. -/
structure Filters where
  /-- The names with their arguments. -/
  entries : List (String × List String)
deriving DecidableEq

namespace Filters

/-- The set without filters. -/
def empty : Filters := ⟨[]⟩

/-- Entries with a name's arguments replaced, or the name added at the end. -/
def assign (name : String) (arguments : List String) :
    List (String × List String) → List (String × List String)
  | [] => [(name, arguments)]
  | (present, held) :: rest =>
    if present = name then (name, arguments) :: rest
    else (present, held) :: assign name arguments rest

/-- Assign arguments to a name. -/
def insert (set : Filters) (name : String) (arguments : List String) : Filters :=
  ⟨assign name arguments set.entries⟩

/-- The arguments of a name. -/
def find? (set : Filters) (name : String) : Option (List String) := set.entries.lookup name

/-- The number of names. -/
def size (set : Filters) : Nat := set.entries.length

/-- There are no names. -/
def isEmpty (set : Filters) : Bool := set.entries.isEmpty

/-- The set of assignments made one after the other. -/
def ofList (assignments : List (String × List String)) : Filters :=
  assignments.foldl (fun set assignment => set.insert assignment.1 assignment.2) empty

/-- An assigned name has its arguments, and every other name keeps its own. -/
theorem find?_insert (set : Filters) (name other : String) (arguments : List String) :
    (set.insert name arguments).find? other =
      if other = name then some arguments else set.find? other := by
  obtain ⟨entries⟩ := set
  simp only [insert, find?]
  induction entries with
  | nil => simp [assign, Assoc.lookup_cons]
  | cons entry rest ih =>
    obtain ⟨present, held⟩ := entry
    by_cases same : present = name
    · subst same
      by_cases h : other = present <;> simp [assign, Assoc.lookup_cons, h]
    · by_cases h : other = name
      · subst h
        simp_all [assign, Assoc.lookup_cons, Ne.symm same]
      · simp_all [assign, Assoc.lookup_cons]

/-- Assigning a name adds it to the names, or keeps them if it is among them. -/
theorem names_assign (name : String) (arguments : List String) (entries : List (String × List String)) :
    (assign name arguments entries).map Prod.fst =
      if name ∈ entries.map Prod.fst then entries.map Prod.fst
      else entries.map Prod.fst ++ [name] := by
  induction entries with
  | nil => rfl
  | cons entry rest ih =>
    obtain ⟨present, held⟩ := entry
    by_cases same : present = name
    · simp [assign, same]
    · have apart : name ≠ present := Ne.symm same
      simp only [assign, if_neg same, List.map_cons, ih, List.mem_cons, apart, false_or]
      split <;> rfl

/-- An entry after an assignment is the assigned one or was there before. -/
theorem mem_assign {name : String} {arguments : List String} {entries : List (String × List String)}
    {entry : String × List String} (member : entry ∈ assign name arguments entries) :
    entry = (name, arguments) ∨ entry ∈ entries := by
  induction entries with
  | nil => exact .inl (List.mem_singleton.1 member)
  | cons first rest ih =>
    obtain ⟨present, held⟩ := first
    by_cases same : present = name
    · rw [assign, if_pos same] at member
      exact (List.mem_cons.1 member).imp_right (List.Mem.tail _)
    · rw [assign, if_neg same] at member
      rcases List.mem_cons.1 member with rfl | member
      · exact .inr (.head rest)
      · exact (ih member).imp_right (List.Mem.tail _)

/-- A new name is added at the end. -/
theorem assign_of_not_mem {name : String} {arguments : List String}
    {entries : List (String × List String)} (new : name ∉ entries.map Prod.fst) :
    assign name arguments entries = entries ++ [(name, arguments)] := by
  induction entries with
  | nil => rfl
  | cons entry rest ih =>
    obtain ⟨present, held⟩ := entry
    rw [List.map_cons, List.mem_cons, not_or] at new
    rw [assign, if_neg (Ne.symm new.1), ih new.2]
    rfl

/-- New names are added at the end in their order. -/
theorem foldl_insert_of_nodup {entries held : List (String × List String)}
    (distinct : ((held ++ entries).map Prod.fst).Nodup) :
    entries.foldl (fun (set : Filters) entry => set.insert entry.1 entry.2) ⟨held⟩ =
      ⟨held ++ entries⟩ := by
  induction entries generalizing held with
  | nil => rw [List.append_nil]; rfl
  | cons entry rest ih =>
    have new : entry.1 ∉ held.map Prod.fst := by
      rw [List.map_append, List.nodup_append] at distinct
      exact fun member => distinct.2.2 _ member _ (.head _) rfl
    rw [List.foldl_cons, Filters.insert, assign_of_not_mem new, List.append_cons held entry rest]
    rw [List.append_cons] at distinct
    exact ih distinct

/-- Entries with distinct names are the set of their assignments. -/
theorem ofList_eq_of_nodup {entries : List (String × List String)}
    (distinct : (entries.map Prod.fst).Nodup) : ofList entries = ⟨entries⟩ :=
  foldl_insert_of_nodup distinct

end Filters

end ResourceQuery
