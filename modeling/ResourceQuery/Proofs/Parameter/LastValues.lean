import ResourceQuery.Proofs.Parameter.AskedValues

/-!
# The last value of every name

Roles take names in an order: a name that several roles share belongs to the first of them
(`ParameterNames.role?_eq_some_iff`), and the others get nothing. What pairs ask for is then read, role by role,
from the last value of the name of the role (`ParameterSet.last_values_resolve`). So neither pairs under other
names count, nor the order of pairs under different ones.
-/
namespace ResourceQuery

/-- The roles in the order in which they take names. -/
def Role.all : List Role := [.fields, .filter, .sort, .relations, .limit, .offset]

/-- Every role is one of them. -/
theorem Role.mem_all (role : Role) : role ∈ Role.all := by
  cases role <;> decide

/-- A search gives an item exactly when it passes and no item before its first occurrence does. -/
theorem find?_eq_some_iff_takeWhile {α : Type} [DecidableEq α] {test : α → Bool} {items : List α} {item : α}
    (member : item ∈ items) : items.find? test = some item ↔
      test item = true ∧ ∀ earlier ∈ items.takeWhile (· ≠ item), test earlier = false := by
  induction items with
  | nil => contradiction
  | cons first rest ih =>
    by_cases here : first = item
    · subst here
      rw [List.takeWhile_cons_of_neg (by simp)]
      refine ⟨fun found => ⟨List.find?_some found, fun _ none => nomatch none⟩, fun passes => ?_⟩
      exact List.find?_cons_of_pos passes.1
    · have later := ih ((List.mem_cons.1 member).resolve_left (Ne.symm here))
      rw [List.takeWhile_cons_of_pos (by simpa using here), List.forall_mem_cons]
      cases passes : test first with
      | true =>
        rw [List.find?_cons_of_pos passes]
        exact ⟨fun same => absurd (Option.some.inj same) here, fun all => nomatch all.2.1⟩
      | false =>
        rw [List.find?_cons_of_neg (by simp [passes]), later]
        exact and_congr_right fun _ => (and_iff_right rfl).symm

/-- The value of the last pair of a name. -/
def latest? (name : String) (pairs : List (String × String)) : Option String :=
  (pairs.filter fun pair => pair.1 = name).getLast?.map Prod.snd

/-- The first pair counts for its name where no later one does. -/
theorem latest?_cons (name : String) (pair : String × String) (rest : List (String × String)) :
    latest? name (pair :: rest) = (latest? name rest).or (if pair.1 = name then some pair.2 else none) := by
  unfold latest?
  by_cases own : pair.1 = name
  · rw [List.filter_cons_of_pos (by simpa using own), List.getLast?_cons, if_pos own]
    cases (rest.filter fun pair => pair.1 = name).getLast? <;> rfl
  · rw [List.filter_cons_of_neg (by simpa using own), if_neg own, Option.or_none]

namespace ParameterNames

/-- The name of a role. -/
def nameOf (names : ParameterNames) : Role → String
  | .fields => names.fields
  | .filter => names.filter
  | .sort => names.sort
  | .relations => names.relations
  | .limit => names.limit
  | .offset => names.offset

/-- An earlier role has the name of a role. -/
def Taken (names : ParameterNames) (role : Role) : Prop :=
  ∃ earlier ∈ Role.all.takeWhile (· ≠ role), names.nameOf earlier = names.nameOf role

instance (names : ParameterNames) (role : Role) : Decidable (names.Taken role) :=
  inferInstanceAs (Decidable (∃ earlier ∈ Role.all.takeWhile (· ≠ role), names.nameOf earlier = names.nameOf role))

/-- Some role has the name. -/
def Knows (names : ParameterNames) (name : String) : Prop := ∃ role ∈ Role.all, names.nameOf role = name

instance (names : ParameterNames) (name : String) : Decidable (names.Knows name) :=
  inferInstanceAs (Decidable (∃ role ∈ Role.all, names.nameOf role = name))

/-- A name plays the first role that has it. -/
theorem role?_eq_find? (names : ParameterNames) (name : String) :
    names.role? name = Role.all.find? fun role => names.nameOf role = name := by
  simp only [role?, Role.all, List.find?_cons, List.find?_nil, nameOf, eq_comm (b := name)]
  repeat' split
  all_goals simp_all

/-- A name plays the role that has it, unless an earlier role has it too. -/
theorem role?_eq_some_iff {names : ParameterNames} {name : String} {role : Role} :
    names.role? name = some role ↔ names.nameOf role = name ∧ ¬ names.Taken role := by
  rw [role?_eq_find?, find?_eq_some_iff_takeWhile role.mem_all, decide_eq_true_eq]
  refine and_congr_right fun own => ?_
  simp only [Taken, decide_eq_false_iff_not, own, not_exists, not_and]

/-- The last value of a role is that of its name, and a role whose name is taken has none. -/
theorem lastValue?_eq (names : ParameterNames) (role : Role) (pairs : List (String × String)) :
    names.lastValue? role pairs = if names.Taken role then none else latest? (names.nameOf role) pairs := by
  induction pairs with
  | nil => exact (ite_self none).symm
  | cons pair rest ih =>
    simp only [lastValue?, ih, latest?_cons, role?_eq_some_iff]
    by_cases taken : names.Taken role
    · simp only [taken, not_true, and_false, if_true, if_false, Option.or_none]
    · simp only [taken, not_false_eq_true, and_true, if_false, eq_comm]

end ParameterNames

namespace ParameterSet

/-- The set whose every role is read from the text given for it, and asks for nothing without one. -/
def reading (text? : Role → Option String) : ParameterSet where
  fields := ((text? .fields).map fun text => Parameter.names text.toList).getD .empty
  filters := ((text? .filter).map fun text => Parameter.filters text.toList).getD .empty
  sort := ((text? .sort).map fun text => Parameter.names text.toList).getD .empty
  relations := ((text? .relations).map fun text => Parameter.relations text.toList).getD []
  limits := ((text? .limit).map fun text => Parameter.integers text.toList).getD .empty
  offsets := ((text? .offset).map fun text => Parameter.integers text.toList).getD .empty

/-- What pairs ask for is read from the last values of the names that are not taken. -/
theorem ofPairs_eq_reading (names : ParameterNames) (pairs : List (String × String)) : ofPairs names pairs =
    reading fun role => if names.Taken role then none else latest? (names.nameOf role) pairs := by
  have values : (fun role => if names.Taken role then none else latest? (names.nameOf role) pairs) =
      fun role => names.lastValue? role pairs := funext fun role => (names.lastValue?_eq role pairs).symm
  rw [values]
  exact ofPairs_eq names pairs

/-- Pairs with the same last values for the names of all roles ask for the same. -/
theorem ofPairs_congr {names : ParameterNames} {pairs others : List (String × String)}
    (same : ∀ role, latest? (names.nameOf role) others = latest? (names.nameOf role) pairs) :
    ofPairs names others = ofPairs names pairs := by
  simp only [ofPairs_eq_reading, same]

/-- Pairs ask for what the last value of every name says, and for nothing else. A name that several roles share
is the first one's: that role is read from the last value of the name, and the others ask for nothing. With six
different names every role is read from the last value of its own. So only the last pair of every name counts,
pairs under names of no role change nothing wherever they are, and neither does another order that keeps the
pairs of every name in theirs. -/
theorem last_values_resolve (names : ParameterNames) (pairs : List (String × String)) :
    (ofPairs names pairs =
      reading fun role => if names.Taken role then none else latest? (names.nameOf role) pairs) ∧
    (Function.Injective names.nameOf →
      ofPairs names pairs = reading fun role => latest? (names.nameOf role) pairs) ∧
    (∀ others, (∀ role, latest? (names.nameOf role) others = latest? (names.nameOf role) pairs) →
      ofPairs names others = ofPairs names pairs) ∧
    (∀ others, (others.filter fun pair => names.Knows pair.1) = (pairs.filter fun pair => names.Knows pair.1) →
      ofPairs names others = ofPairs names pairs) ∧
    ∀ others, others.Perm pairs →
      (∀ name, (others.filter fun pair => pair.1 = name) = pairs.filter fun pair => pair.1 = name) →
      ofPairs names others = ofPairs names pairs := by
  have known : ∀ (role : Role) (pairs : List (String × String)), latest? (names.nameOf role) pairs =
      latest? (names.nameOf role) (pairs.filter fun pair => names.Knows pair.1) := by
    intro role pairs
    have narrower : ∀ pair : String × String, (decide (pair.1 = names.nameOf role) && decide (names.Knows pair.1)) =
        decide (pair.1 = names.nameOf role) := by
      intro pair
      by_cases own : pair.1 = names.nameOf role
      · have knows : names.Knows pair.1 := ⟨role, role.mem_all, own.symm⟩
        simp only [knows, decide_true, Bool.and_true]
      · simp only [own, decide_false, Bool.false_and]
    simp only [latest?, List.filter_filter, narrower]
  refine ⟨ofPairs_eq_reading names pairs, fun different => ?_, fun others => ofPairs_congr, fun others same => ?_,
    fun others _ kept => ?_⟩
  · have own : ∀ role, ¬ names.Taken role := by
      rintro role ⟨earlier, before, shared⟩
      have apart := List.all_eq_true.1 List.all_takeWhile earlier before
      exact of_decide_eq_true apart (different shared)
    simp only [ofPairs_eq_reading, own, if_false]
  · refine ofPairs_congr fun role => ?_
    rw [known role others, same, ← known role pairs]
  · refine ofPairs_congr fun role => ?_
    rw [latest?, kept, latest?]

/-- The names of a server that calls the fields its selection. -/
def selectionNames : ParameterNames := { ParameterNames.standard with fields := "select" }

/-- The later selection replaces the earlier also at the root, where it has no fields; the standard name of the
fields counts for nothing here, wherever it stands; and sorting by the name of the selection asks for no order. -/
theorem selection_resolves :
    let pairs := [("select", "id,name"), ("fields", "age"), ("limit", "5"), ("select", "messages.subject")]
    let moved := [("select", "id,name"), ("limit", "5"), ("select", "messages.subject"), ("fields", "age")]
    let asked : Role → Option String
      | .fields => some "messages.subject"
      | .limit => some "5"
      | _ => none
    Function.Injective selectionNames.nameOf ∧ ofPairs selectionNames pairs = reading asked ∧
      ofPairs selectionNames moved = reading asked ∧
      ofPairs { selectionNames with sort := "select" } pairs = reading asked := by
  intro pairs moved asked
  have different : Function.Injective selectionNames.nameOf := by
    intro left right
    cases left <;> cases right <;> decide
  obtain ⟨-, distinct, -, -, reordered⟩ := last_values_resolve selectionNames pairs
  obtain ⟨shared, -⟩ := last_values_resolve { selectionNames with sort := "select" } pairs
  have read : ofPairs selectionNames pairs = reading asked := by
    rw [distinct different]
    congr 1
    funext role
    cases role <;> decide
  have order : moved.Perm pairs := by decide
  have kept : ∀ name, (moved.filter fun pair => pair.1 = name) = pairs.filter fun pair => pair.1 = name := by
    intro name
    by_cases former : "fields" = name
    · subst former
      decide
    · simp [moved, pairs, List.filter_cons, former]
  refine ⟨different, read, (reordered moved order kept).trans read, ?_⟩
  rw [shared]
  congr 1
  funext role
  cases role <;> decide

end ParameterSet

end ResourceQuery
