import ResourceQuery.Proofs.Text.Pieces
import ResourceQuery.Request

/-!
# What pairs ask for

Of all pairs the last one of every role counts, and it alone (`ParameterSet.ofPairs_eq`). A limit or offset
that is written as a plain numeral is read as its number at the root (`Parameter.find?_integers_numeral`),
as long as it is an integer of 64 bits; a bare zero is passed over and leaves nothing there.
-/
namespace ResourceQuery

/-! ### The last value of a role -/

namespace ParameterNames

/-- The value of the last pair whose name plays a role. -/
def lastValue? (names : ParameterNames) (role : Role) : List (String × String) → Option String
  | [] => none
  | (name, value) :: rest =>
    (names.lastValue? role rest).or (if names.role? name = some role then some value else none)

end ParameterNames

namespace ParameterSet

/-- What is asked for once a pair is read: the value of its role, if it has one, counts. -/
def assignPair (names : ParameterNames) (set : ParameterSet) (pair : String × String) : ParameterSet :=
  ((names.role? pair.1).map fun role => set.assign pair.2.toList role).getD set

/-- Pairs are read one after the other. -/
theorem ofPairs_eq_foldl (names : ParameterNames) (pairs : List (String × String)) :
    ofPairs names pairs = pairs.foldl (assignPair names) empty := by
  unfold ofPairs
  congr 1
  funext set pair
  unfold assignPair
  cases names.role? pair.1 <;> rfl

/-- Pairs set what the last value of every role asks for, and leave the rest as it is. -/
theorem foldl_assignPair (names : ParameterNames) (pairs : List (String × String)) (set : ParameterSet) :
    pairs.foldl (assignPair names) set =
    { fields := ((names.lastValue? .fields pairs).map fun text => Parameter.names text.toList).getD set.fields
      filters :=
        ((names.lastValue? .filter pairs).map fun text => Parameter.filters text.toList).getD set.filters
      sort := ((names.lastValue? .sort pairs).map fun text => Parameter.names text.toList).getD set.sort
      relations := ((names.lastValue? .relations pairs).map fun text =>
        Parameter.relations text.toList).getD set.relations
      limits :=
        ((names.lastValue? .limit pairs).map fun text => Parameter.integers text.toList).getD set.limits
      offsets := ((names.lastValue? .offset pairs).map fun text =>
        Parameter.integers text.toList).getD set.offsets } := by
  induction pairs generalizing set with
  | nil => rfl
  | cons pair rest ih =>
    obtain ⟨name, text⟩ := pair
    rw [List.foldl_cons, ih]
    -- The first pair counts for its own role, and there only where no later one does.
    simp only [ParameterNames.lastValue?, assignPair]
    cases names.role? name with
    | none => simp
    | some role => cases role <;> simp [ParameterSet.assign]

/-- What pairs ask for is what the last value of every role asks for. -/
theorem ofPairs_eq (names : ParameterNames) (pairs : List (String × String)) : ofPairs names pairs =
    { fields := ((names.lastValue? .fields pairs).map fun text => Parameter.names text.toList).getD .empty
      filters := ((names.lastValue? .filter pairs).map fun text => Parameter.filters text.toList).getD .empty
      sort := ((names.lastValue? .sort pairs).map fun text => Parameter.names text.toList).getD .empty
      relations :=
        ((names.lastValue? .relations pairs).map fun text => Parameter.relations text.toList).getD []
      limits := ((names.lastValue? .limit pairs).map fun text => Parameter.integers text.toList).getD .empty
      offsets :=
        ((names.lastValue? .offset pairs).map fun text => Parameter.integers text.toList).getD .empty } := by
  rw [ofPairs_eq_foldl, foldl_assignPair]
  rfl

/-- The limits are those of the last value of their role. -/
theorem limits_ofPairs {names : ParameterNames} {pairs : List (String × String)} {text : String}
    (last : names.lastValue? .limit pairs = some text) :
    (ofPairs names pairs).limits = Parameter.integers text.toList := by
  simp only [ofPairs_eq, last, Option.map_some, Option.getD_some]

/-- The offsets are those of the last value of their role. -/
theorem offsets_ofPairs {names : ParameterNames} {pairs : List (String × String)} {text : String}
    (last : names.lastValue? .offset pairs = some text) :
    (ofPairs names pairs).offsets = Parameter.integers text.toList := by
  simp only [ofPairs_eq, last, Option.map_some, Option.getD_some]

end ParameterSet

/-! ### Numerals -/

namespace Text

/-- A number with its sign. -/
def signed (negative : Bool) (magnitude : Nat) : Int := if negative then -magnitude else magnitude

/-- Saturation that was made before a digit is appended is not seen after it. -/
theorem appendDigit_saturate (negative : Bool) (value : Nat) (digit : Char) :
    appendDigit negative (saturate (signed negative value)) digit =
      saturate (signed negative (10 * value + (digit.toNat - '0'.toNat))) := by
  unfold appendDigit
  -- A value beyond the range is held at its end, and what is appended leads on in the same direction.
  cases negative <;> simp only [signed, digitValue, saturate, int64Min, int64Max, if_true, Bool.false_eq_true,
    if_false] <;> omega

/-- Digits that are appended with saturation at each of them make the saturated number of all of them. -/
theorem foldl_appendDigit (negative : Bool) (digits : List Char) (value : Nat) :
    digits.foldl (appendDigit negative) (saturate (signed negative value)) =
      saturate (signed negative (Nat.ofDigitChars 10 digits value)) := by
  induction digits generalizing value with
  | nil => rfl
  | cons digit rest ih => rw [List.foldl_cons, appendDigit_saturate, ih, Nat.ofDigitChars_cons]

/-- The digits are ten characters in a row. -/
theorem toNat_of_isDigit {character : Char} (digit : character.isDigit = true) :
    48 ≤ character.toNat ∧ character.toNat ≤ 57 := by
  simpa [Char.isDigit, Char.le_def, UInt32.le_iff_toNat_le] using digit

/-- A digit is no blank. -/
theorem isBlank_of_isDigit {character : Char} (digit : character.isDigit = true) :
    isBlank character = false := by
  have range := toNat_of_isDigit digit
  unfold isBlank
  simp only [Bool.or_eq_false_iff, Bool.and_eq_false_iff, decide_eq_false_iff_not, beq_eq_false_iff_ne]
  omega

/-- The characters of a numeral are digits. -/
theorem isDigit_of_mem_toDigits {value : Nat} {character : Char}
    (member : character ∈ Nat.toDigits 10 value) : character.isDigit = true :=
  Nat.isDigit_of_mem_toDigits (by decide) (by decide) member

/-- A text of digits has no sign. -/
theorem takeSign_of_digits {digits : List Char} (all : ∀ digit ∈ digits, digit.isDigit = true) :
    takeSign digits = (false, digits) := by
  unfold takeSign
  split
  · exact absurd (all _ (.head _)) (by decide)
  · exact absurd (all _ (.head _)) (by decide)
  · rfl

/-- A text of digits has no blanks to trim. -/
theorem trimStart_of_digits {digits : List Char} (all : ∀ digit ∈ digits, digit.isDigit = true) :
    trimStart digits = digits := by
  cases digits with
  | nil => rfl
  | cons digit rest =>
    rw [trimStart, List.dropWhile_cons_of_neg]
    rw [isBlank_of_isDigit (all digit (.head rest))]
    exact Bool.false_ne_true

/-- A run of digits goes on as long as there are digits. -/
theorem takeWhile_isDigit {digits : List Char} (all : ∀ digit ∈ digits, digit.isDigit = true) :
    digits.takeWhile Char.isDigit = digits := by
  have whole : (digits ++ []).takeWhile Char.isDigit = digits ++ [].takeWhile Char.isDigit :=
    List.takeWhile_append_of_pos all
  rwa [List.append_nil, List.takeWhile_nil, List.append_nil] at whole

/-- A written integer is read as the nearest integer of 64 bits. -/
theorem integerPrefix_decimal (value : Int) : integerPrefix (decimal value) = saturate value := by
  have all : ∀ digit ∈ Nat.toDigits 10 value.natAbs, digit.isDigit = true :=
    fun _ => isDigit_of_mem_toDigits
  have number : Nat.ofDigitChars 10 (Nat.toDigits 10 value.natAbs) 0 = value.natAbs :=
    Nat.ofDigitChars_toDigits (by decide) (by decide)
  have read (negative : Bool) (same : signed negative value.natAbs = value) :
      (Nat.toDigits 10 value.natAbs).foldl (appendDigit negative) (saturate (signed negative 0)) =
        saturate value := by
    rw [foldl_appendDigit, number, same]
  unfold decimal
  split
  · next below =>
    have minus : trimStart ('-' :: Nat.toDigits 10 value.natAbs) = '-' :: Nat.toDigits 10 value.natAbs := rfl
    rw [integerPrefix, minus]
    show ((Nat.toDigits 10 value.natAbs).takeWhile Char.isDigit).foldl (appendDigit true) 0 = saturate value
    rw [takeWhile_isDigit all]
    exact read true (by simp only [signed, if_true]; omega)
  · rw [integerPrefix, trimStart_of_digits all, takeSign_of_digits all]
    show ((Nat.toDigits 10 value.natAbs).takeWhile Char.isDigit).foldl (appendDigit false) 0 = saturate value
    rw [takeWhile_isDigit all]
    exact read false (by simp only [signed, Bool.false_eq_true, if_false]; omega)

/-- A numeral is read as its number, if that is an integer of 64 bits. -/
theorem integerPrefix_toDigits {value : Nat} (small : (value : Int) ≤ int64Max) :
    integerPrefix (Nat.toDigits 10 value) = value := by
  have written : decimal value = Nat.toDigits 10 value := if_neg (by omega)
  have low : int64Min ≤ (value : Int) := by simp only [int64Min]; omega
  rw [← written, integerPrefix_decimal, saturate_of_mem low small]

end Text

namespace Parameter

/-- A digit is none of the characters that part a value. -/
theorem ne_of_isDigit {character other : Char} (digit : character.isDigit = true)
    (none : other.isDigit = false) : character ≠ other := by
  rintro rfl
  rw [none] at digit
  contradiction

/-- A numeral is void if it is a zero, and only then. -/
theorem isVoid_toDigits (value : Nat) : isVoid (Nat.toDigits 10 value) = decide (value = 0) := by
  have all : ∀ digit ∈ Nat.toDigits 10 value, digit.isDigit = true :=
    fun _ => Text.isDigit_of_mem_toDigits
  have reversed : Text.trimStart (Nat.toDigits 10 value).reverse = (Nat.toDigits 10 value).reverse :=
    Text.trimStart_of_digits fun digit member => all digit (List.mem_reverse.1 member)
  have trimmed : Text.trim (Nat.toDigits 10 value) = Nat.toDigits 10 value := by
    rw [Text.trim, Text.trimStart_of_digits all, Text.trimEnd, ← Text.trimStart, reversed,
      List.reverse_reverse]
  have present : (Nat.toDigits 10 value).isEmpty = false := by simp
  have zero : Nat.toDigits 10 value = ['0'] ↔ value = 0 := by
    constructor
    · intro bare
      have number : Nat.ofDigitChars 10 (Nat.toDigits 10 value) 0 = value :=
        Nat.ofDigitChars_toDigits (by decide) (by decide)
      rw [← number, bare]
      rfl
    · rintro rfl
      exact Nat.toDigits_zero 10
  rw [isVoid, trimmed, present, Bool.false_or, Bool.eq_iff_iff, beq_iff_eq, decide_eq_true_eq, zero]

/-- A numeral of an integer of 64 bits asks for its number at the root, and a bare zero for nothing. -/
theorem find?_integers_numeral {value : Nat} (small : (value : Int) ≤ Text.int64Max) :
    (integers (toString value).toList).find? .root = if value = 0 then none else some (value : Int) := by
  have all : ∀ digit ∈ Nat.toDigits 10 value, digit.isDigit = true :=
    fun _ => Text.isDigit_of_mem_toDigits
  have whole : Text.pieces (· == separator) (Nat.toDigits 10 value) = [Nat.toDigits 10 value] :=
    Text.pieces_of_not_any fun digit member =>
      beq_eq_false_iff_ne.2 (ne_of_isDigit (all digit member) (by decide))
  have unqualified : Path.splitName (Nat.toDigits 10 value) =
      (.root, String.ofList (Nat.toDigits 10 value)) := by
    have pointless : Text.splitLast? Path.separator (Nat.toDigits 10 value) = none :=
      Text.splitLast?_eq_none_iff.2 fun member => ne_of_isDigit (all _ member) (by decide) rfl
    rw [Path.splitName, pointless]
  rw [integers, elements, Nat.toString_eq_repr, Nat.toList_repr, whole, List.filter_cons, isVoid_toDigits]
  by_cases zero : value = 0
  · rw [decide_eq_true zero, if_pos zero]
    rfl
  · rw [decide_eq_false zero, if_neg zero, Bool.not_false, if_pos rfl, List.filter_nil, List.foldl_cons,
      List.foldl_nil, unqualified, SortedMap.find?_insert, if_pos rfl, String.toList_ofList,
      Text.integerPrefix_toDigits small]

end Parameter

end ResourceQuery
