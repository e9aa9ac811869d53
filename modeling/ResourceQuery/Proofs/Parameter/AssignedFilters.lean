import Mathlib.Data.Finset.Card
import ResourceQuery.Proofs.Parameter.CanonicalFilters

/-!
# Filters in the order of their first assignment

Whatever assignments a set of filters is made of, its names stand in the order in which they were first assigned,
and each has the arguments that were assigned to it last (`Filters.Records`). One more assignment keeps this
(`Filters.Records.insert`), hence any number of them (`Filters.Records.foldl_insert`), and it leaves no choice: no
other set records the same assignments (`Filters.records_iff`). The calls of a path in a filter value are such
assignments (`Parameter.find?_filters`), so the first mention of a name decides the place of its predicates and the
last mention their arguments.
-/
namespace ResourceQuery

namespace Filters

/-- The names in their order. -/
def names (set : Filters) : List String := set.entries.map Prod.fst

/-- A set holds what assignments leave that were made one after the other: the first assignment of a name decides
its place, and the last one its arguments. -/
structure Records (set : Filters) (assignments : List (String × List String)) : Prop where
  /-- The names stand in the order in which they were first assigned. -/
  order : set.names.Pairwise fun name later =>
    (assignments.map Prod.fst).idxOf name < (assignments.map Prod.fst).idxOf later
  /-- A name has the arguments that are found first from the end. -/
  latest : ∀ name, set.find? name = assignments.reverse.lookup name

/-! ### Names and entries -/

/-- What is not among the names has no arguments. -/
theorem find?_eq_none_iff {set : Filters} {name : String} : set.find? name = none ↔ name ∉ set.names :=
  Assoc.lookup_eq_none_iff

/-- An inserted name comes last, or where it was. -/
theorem names_insert (set : Filters) (name : String) (arguments : List String) :
    (set.insert name arguments).names = if name ∈ set.names then set.names else set.names ++ [name] :=
  names_assign name arguments set.entries

/-- Where no name comes twice, the names and what they find make up the entries. -/
theorem entries_eq_map_names {set : Filters} (distinct : set.names.Nodup) :
    set.entries = set.names.map fun name => (name, (set.find? name).getD []) := by
  have own : ∀ entry ∈ set.entries, (entry.1, (set.find? entry.1).getD []) = entry := by
    intro entry member
    rw [find?, Assoc.lookup_of_nodup distinct member, Option.getD_some]
  rw [names, List.map_map]
  exact ((List.map_congr_left own).trans (List.map_id set.entries)).symm

/-- The entries of all other names stay where they are when a name is inserted, with their arguments, and none is
added to them. -/
theorem getElem?_insert {name : String} {entry : String × List String} (other : entry.1 ≠ name) (set : Filters)
    (arguments : List String) (position : Nat) :
    (set.insert name arguments).entries[position]? = some entry ↔ set.entries[position]? = some entry := by
  have apart : ∀ given, some (name, given) ≠ some entry := fun _ same => other (Option.some.inj same ▸ rfl)
  obtain ⟨entries⟩ := set
  rw [insert]
  induction entries generalizing position with
  | nil =>
    cases position with
    | zero =>
      have nothing : none ≠ some entry := (Option.some_ne_none entry).symm
      exact ⟨fun here => absurd here (apart arguments), fun here => absurd here nothing⟩
    | succ position => exact Iff.rfl
  | cons first rest ih =>
    obtain ⟨present, held⟩ := first
    by_cases same : present = name
    · subst same
      rw [assign, if_pos rfl]
      cases position with
      | zero => exact ⟨fun here => absurd here (apart arguments), fun here => absurd here (apart held)⟩
      | succ position => exact Iff.rfl
    · rw [assign, if_neg same]
      cases position with
      | zero => exact Iff.rfl
      | succ position => exact ih position

/-- What comes behind some names does not change the order in which these came first. -/
theorem pairwise_idxOf_append {names assigned : List String} (known : ∀ name ∈ names, name ∈ assigned)
    (order : names.Pairwise fun name later => assigned.idxOf name < assigned.idxOf later) (behind : List String) :
    names.Pairwise fun name later => (assigned ++ behind).idxOf name < (assigned ++ behind).idxOf later := by
  refine order.imp_of_mem fun one other earlier => ?_
  rwa [List.idxOf_append_of_mem (known _ one), List.idxOf_append_of_mem (known _ other)]

/-! ### What assignments leave -/

namespace Records

variable {set : Filters} {assignments : List (String × List String)}

/-- No name stands twice. -/
theorem nodup (records : set.Records assignments) : set.names.Nodup :=
  records.order.imp fun earlier same => absurd (same ▸ earlier) (Nat.lt_irrefl _)

/-- The names are those that were assigned. -/
theorem mem_names_iff (records : set.Records assignments) {name : String} :
    name ∈ set.names ↔ name ∈ assignments.map Prod.fst := by
  have reversed : name ∈ assignments.reverse.map Prod.fst ↔ name ∈ assignments.map Prod.fst := by
    rw [List.map_reverse, List.mem_reverse]
  rw [← reversed, ← not_iff_not, ← find?_eq_none_iff, ← Assoc.lookup_eq_none_iff, records.latest]

/-- A set with one more name inserted records one more assignment. -/
theorem insert (records : set.Records assignments) (name : String) (arguments : List String) :
    (set.insert name arguments).Records (assignments ++ [(name, arguments)]) where
  order := by
    have assigned : ∀ other ∈ set.names, other ∈ assignments.map Prod.fst := fun _ => records.mem_names_iff.1
    have before := pairwise_idxOf_append assigned records.order [name]
    rw [names_insert, List.map_append, List.map_singleton]
    split
    · exact before
    · next new =>
      -- A name that is new comes first behind everything that was assigned before it.
      refine List.pairwise_append.2 ⟨before, List.pairwise_singleton _ name, fun other member last inLast => ?_⟩
      obtain rfl := List.mem_singleton.1 inLast
      have unassigned : last ∉ assignments.map Prod.fst := fun member => new (records.mem_names_iff.2 member)
      rw [List.idxOf_append_of_mem (assigned other member), List.idxOf_append_of_notMem unassigned]
      exact Nat.lt_add_right _ (List.idxOf_lt_length_of_mem (assigned other member))
  latest other := by
    rw [find?_insert, records.latest, List.reverse_concat, Assoc.lookup_cons]

/-- There are as many filters as different names that were assigned. -/
theorem size_eq (records : set.Records assignments) : set.size = (assignments.map Prod.fst).toFinset.card := by
  have same : set.names.toFinset = (assignments.map Prod.fst).toFinset :=
    List.toFinset.ext fun _ => records.mem_names_iff
  calc
    set.size = set.names.length := (List.length_map Prod.fst).symm
    _ = set.names.toFinset.card := (List.toFinset_card_of_nodup records.nodup).symm
    _ = (assignments.map Prod.fst).toFinset.card := by rw [same]

/-- However many names are inserted, all assignments are recorded. -/
theorem foldl_insert (records : set.Records assignments) (later : List (String × List String)) :
    (later.foldl (fun set assignment => set.insert assignment.1 assignment.2) set).Records
      (assignments ++ later) := by
  -- The set grows together with what it records, so both are general in the induction.
  induction later generalizing set assignments with
  | nil => rwa [List.append_nil]
  | cons assignment rest ih =>
    rw [List.foldl_cons, List.append_cons]
    exact ih (records.insert assignment.1 assignment.2)

/-- There is one set that records assignments. -/
theorem eq {other : Filters} (records : set.Records assignments) (also : other.Records assignments) :
    set = other := by
  have alike : ∀ name, set.find? name = other.find? name := fun name =>
    (records.latest name).trans (also.latest name).symm
  -- The same names in the order of the same first places are the same list.
  have same : set.names = other.names := by
    refine List.Perm.eq_of_pairwise (fun one later _ _ before after => ?_) records.order also.order ?_
    · exact absurd before (Nat.lt_asymm after)
    · exact (List.perm_ext_iff_of_nodup records.nodup also.nodup).2 fun name =>
        records.mem_names_iff.trans also.mem_names_iff.symm
  have entries : set.entries = other.entries := by
    rw [entries_eq_map_names records.nodup, entries_eq_map_names also.nodup, same]
    exact List.map_congr_left fun name _ => by rw [alike]
  exact congrArg Filters.mk entries

end Records

/-- Without assignments there are no filters. -/
theorem records_empty : empty.Records [] := ⟨List.Pairwise.nil, fun _ => rfl⟩

/-- Assignments are recorded by the set that collects them. -/
theorem records_ofList (assignments : List (String × List String)) : (ofList assignments).Records assignments :=
  records_empty.foldl_insert assignments

/-- Assignments are recorded by the set that collects them, and by no other. -/
theorem records_iff {set : Filters} {assignments : List (String × List String)} :
    set.Records assignments ↔ set = ofList assignments :=
  ⟨fun records => records.eq (records_ofList assignments), fun same => same ▸ records_ofList assignments⟩

/-- Whatever is assigned, one by one or collected at once, every name keeps its first place and its last arguments.
Inserting into a collected set gives the set that collects the longer list. The names are those that were assigned,
each once, in the order of their first assignments. A name has the arguments of its last assignment, and a name that
was never assigned has none. Inserting a name changes no other one: neither what it finds nor the entry that stands
at any position. There are as many filters as different names, and the entries collected again are the same set. -/
theorem first_places_last_arguments (assignments : List (String × List String)) :
    let set := ofList assignments
    let assigned := assignments.map Prod.fst
    (∀ later : List (String × List String),
      later.foldl (fun set assignment => set.insert assignment.1 assignment.2) set =
        ofList (assignments ++ later)) ∧
    set.names.Nodup ∧ (∀ name, name ∈ set.names ↔ name ∈ assigned) ∧
    (set.names.Pairwise fun name later => assigned.idxOf name < assigned.idxOf later) ∧
    (∀ name, set.find? name = assignments.reverse.lookup name) ∧
    (∀ name, set.find? name = none ↔ name ∉ assigned) ∧
    (∀ (name : String) (arguments : List String) (other : String), other ≠ name →
      (set.insert name arguments).find? other = set.find? other) ∧
    (∀ (name : String) (arguments : List String) (position : Nat) (entry : String × List String),
      entry.1 ≠ name →
      ((set.insert name arguments).entries[position]? = some entry ↔ set.entries[position]? = some entry)) ∧
    set.size = assigned.toFinset.card ∧ ofList set.entries = set := by
  intro set assigned
  have records : set.Records assignments := records_ofList assignments
  refine ⟨fun later => ?_, records.nodup, fun name => records.mem_names_iff, records.order, records.latest,
    fun name => ?_, fun name arguments other apart => ?_, fun name arguments position entry apart => ?_,
    records.size_eq, ofList_eq_of_nodup records.nodup⟩
  · exact records_iff.1 (records.foldl_insert later)
  · rw [find?_eq_none_iff, records.mem_names_iff]
  · rw [find?_insert, if_neg apart]
  · exact getElem?_insert apart set arguments position

/-- A name that is assigned again stays before the name that came in between, and stays there with its new arguments
while that other one is assigned again. -/
theorem status_assigned_again :
    let set := ofList [("status", ["a"]), ("other", []), ("status", ["b", "c"])]
    "status" ≠ "other" ∧ set.find? "status" = some ["b", "c"] ∧ set.size = 2 ∧
      (set.insert "other" ["d"]).find? "status" = some ["b", "c"] ∧
      (set.insert "other" ["d"]).entries[0]? = some ("status", ["b", "c"]) ∧
      set.insert "other" ["d"] = ofList [("status", ["b", "c"]), ("other", ["d"])] := by
  intro set
  obtain ⟨grown, -, -, -, latest, -, found, stays, size, -⟩ :=
    first_places_last_arguments [("status", ["a"]), ("other", []), ("status", ["b", "c"])]
  have apart : "status" ≠ "other" := by decide
  have last : set.find? "status" = some ["b", "c"] := latest "status"
  have first : set.entries[0]? = some ("status", ["b", "c"]) := by decide
  exact ⟨apart, last, size.trans (by decide), (found "other" ["d"] "status" apart).trans last,
    (stays "other" ["d"] 0 ("status", ["b", "c"]) apart).2 first, (grown [("other", ["d"])]).trans (by decide)⟩

end Filters

namespace Parameter

/-- The calls of a path in a filter value, in their order. -/
def callsIn (value : List Char) (path : Path) : List FilterCall :=
  ((expressions value).map FilterCall.ofExpression).filter (·.path = path)

/-- A path has filters where the value has calls of the path, and they record the assignments of these calls. So the
first mention of a name decides its place among the filters of the path, and the last one its arguments. -/
theorem find?_filters {value : List Char} {path : Path} {set : Filters} :
    (filters value).find? path = some set ↔
      callsIn value path ≠ [] ∧ set.Records ((callsIn value path).map FilterCall.assignment) := by
  rw [filters, find?_foldl_assignCall, SortedMap.find?_empty, foldl_assignAt, Filters.records_iff]
  show (if callsIn value path = [] then none else _) = some set ↔ _
  by_cases without : callsIn value path = []
  · rw [if_pos without]
    exact ⟨fun found => absurd found.symm (Option.some_ne_none set), fun called => absurd without called.1⟩
  · rw [if_neg without, Option.some.injEq, and_iff_right without]
    exact eq_comm

/-- The second mention of a name gives it new arguments in its first place. -/
example : (filters "status:[a],other,status:[b,c]".toList).find? .root =
    some ⟨[("status", ["b", "c"]), ("other", [])]⟩ := by
  decide +kernel

end Parameter

end ResourceQuery
