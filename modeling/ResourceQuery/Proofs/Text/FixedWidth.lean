import Mathlib.Algebra.Group.Nat.Defs
import ResourceQuery.Proofs.Text.Literals

/-!
# Numbers of fixed width and the order of texts

Numbers written with the same count of digits stand in the order of their texts, byte by byte
(`encoded_lastDigits_lt_iff`). So do lists of numbers that fill one layout, the first numbers that differ
deciding (`encoded_fill_lt_iff`).
-/
namespace ResourceQuery.Text

/-! ### Digits of fixed width -/

/-- The last digits of a number, exactly so many. -/
def lastDigits : Nat → Nat → List Char
  | 0, _ => []
  | width + 1, value => lastDigits width (value / 10) ++ [Nat.digitChar (value % 10)]

/-- The width is the count of the digits. -/
@[simp] theorem length_lastDigits (width value : Nat) : (lastDigits width value).length = width := by
  induction width generalizing value with
  | zero => rfl
  | succ width ih => rw [lastDigits, List.length_append, ih, List.length_singleton]

/-- The digits of zero are zeros. -/
theorem lastDigits_zero (width : Nat) : lastDigits width 0 = List.replicate width '0' := by
  induction width with
  | zero => rfl
  | succ width ih =>
    rw [lastDigits, Nat.zero_div, ih, List.replicate_succ']
    rfl

/-- The digits of fixed width are digits. -/
theorem isDigit_of_mem_lastDigits {width value : Nat} {digit : Char} (member : digit ∈ lastDigits width value) :
    digit.isDigit = true := by
  induction width generalizing value with
  | zero => contradiction
  | succ width ih =>
    rw [lastDigits, List.mem_append, List.mem_singleton] at member
    rcases member with earlier | rfl
    · exact ih earlier
    · rw [Nat.isDigit_digitChar, decide_eq_true_eq]
      exact Nat.mod_lt value (by decide)

/-- Digits of a width in which a number fits are a numeral of the number. -/
theorem ofDigitChars_lastDigits {width value : Nat} (fits : value < 10 ^ width) :
    Nat.ofDigitChars 10 (lastDigits width value) 0 = value := by
  induction width generalizing value with
  | zero =>
    have zero : value = 0 := by omega
    rw [zero]
    rfl
  | succ width ih =>
    have front : value / 10 < 10 ^ width := by
      rw [Nat.pow_succ] at fits
      omega
    rw [lastDigits, Nat.ofDigitChars_append, ih front,
      Nat.ofDigitChars_cons_digitChar_of_lt_ten (Nat.mod_lt value (by decide)), Nat.ofDigitChars_nil]
    omega

/-! ### Bytes of texts -/

/-- The bytes of a text. -/
def bytes (text : String) : List UInt8 := text.toUTF8.data.toList

/-- The bytes of characters one after the other. -/
def encoded (text : List Char) : List UInt8 := text.flatMap String.utf8EncodeChar

/-- The bytes of a text are those of its characters. -/
theorem bytes_ofList (text : List Char) : bytes (String.ofList text) = encoded text := by
  rw [bytes, String.toUTF8_eq_toByteArray, String.toByteArray_ofList, List.utf8Encode, List.data_toByteArray]
  rfl

/-- Bytes of texts that follow one another follow one another. -/
theorem encoded_append (front back : List Char) : encoded (front ++ back) = encoded front ++ encoded back :=
  List.flatMap_append

/-- A digit is one byte. -/
theorem encoded_digitChar {digit : Nat} (low : digit < 10) :
    encoded [Nat.digitChar digit] = [UInt8.ofNat (48 + digit)] := by
  decide +revert

/-- Texts with fronts of one length stand in the order of the fronts, or of what follows equal fronts. -/
theorem append_lt_append_iff {front other back rest : List UInt8} (same : front.length = other.length) :
    front ++ back < other ++ rest ↔ front < other ∨ front = other ∧ back < rest := by
  induction front generalizing other with
  | nil =>
    have empty : other = [] := List.length_eq_zero_iff.1 same.symm
    subst empty
    simp
  | cons byte front ih =>
    cases other with
    | nil => contradiction
    | cons first other =>
      have shorter : front.length = other.length := Nat.succ.inj same
      rw [List.cons_append, List.cons_append, List.cons_lt_cons_iff, List.cons_lt_cons_iff, ih shorter,
        List.cons.injEq, and_or_left, or_assoc, and_assoc]

/-- The digits of fixed width have one byte each. -/
theorem length_encoded_lastDigits (width value : Nat) : (encoded (lastDigits width value)).length = width := by
  induction width generalizing value with
  | zero => rfl
  | succ width ih =>
    rw [lastDigits, encoded_append, List.length_append, ih, encoded_digitChar (Nat.mod_lt value (by decide)),
      List.length_singleton]

/-- Texts that stand in the order of two numbers are equal for equal numbers only. -/
theorem eq_of_lt_iff {text other : List UInt8} {left right : Nat} (below : text < other ↔ left < right)
    (above : other < text ↔ right < left) (same : text = other) : left = right := by
  subst same
  have notBelow : ¬ left < right := mt below.2 (List.lt_irrefl text)
  have notAbove : ¬ right < left := mt above.2 (List.lt_irrefl text)
  omega

/-- Numbers that fit in a width stand in the order of their digits. -/
theorem encoded_lastDigits_lt_iff {width left right : Nat} (low : left < 10 ^ width) (high : right < 10 ^ width) :
    encoded (lastDigits width left) < encoded (lastDigits width right) ↔ left < right := by
  induction width generalizing left right with
  | zero =>
    have same : left = right := by omega
    subst same
    exact iff_of_false (List.lt_irrefl _) (Nat.lt_irrefl _)
  | succ width ih =>
    rw [Nat.pow_succ] at low high
    have lowFront : left / 10 < 10 ^ width := by omega
    have highFront : right / 10 < 10 ^ width := by omega
    have same : encoded (lastDigits width (left / 10)) = encoded (lastDigits width (right / 10)) ↔
        left / 10 = right / 10 :=
      ⟨eq_of_lt_iff (ih lowFront highFront) (ih highFront lowFront),
        congrArg fun value => encoded (lastDigits width value)⟩
    have lowDigit : left % 10 < 10 := Nat.mod_lt left (by decide)
    have highDigit : right % 10 < 10 := Nat.mod_lt right (by decide)
    have last : [UInt8.ofNat (48 + left % 10)] < [UInt8.ofNat (48 + right % 10)] ↔ left % 10 < right % 10 := by
      generalize left % 10 = digit at lowDigit
      generalize right % 10 = other at highDigit
      decide +revert
    rw [lastDigits, lastDigits, encoded_append, encoded_append, encoded_digitChar lowDigit,
      encoded_digitChar highDigit,
      append_lt_append_iff (by rw [length_encoded_lastDigits, length_encoded_lastDigits]),
      ih lowFront highFront, same, last]
    omega

/-- Numbers that fit in a width have digits of their own. -/
theorem encoded_lastDigits_inj {width left right : Nat} (low : left < 10 ^ width) (high : right < 10 ^ width) :
    encoded (lastDigits width left) = encoded (lastDigits width right) ↔ left = right :=
  ⟨eq_of_lt_iff (encoded_lastDigits_lt_iff low high) (encoded_lastDigits_lt_iff high low),
    congrArg fun value => encoded (lastDigits width value)⟩

/-! ### Layouts of several numbers -/

/-- Places for numbers: what is written in front of a place, and the width of its number. -/
abbrev Layout := List (List Char × Nat)

/-- The text of a layout with numbers in its places. -/
def fill : Layout → List Nat → List Char
  | (lead, width) :: layout, value :: values => lead ++ (lastDigits width value ++ fill layout values)
  | _, _ => []

/-- Every place has a number that fits in. -/
def Fits : Layout → List Nat → Prop
  | (_, width) :: layout, value :: values => value < 10 ^ width ∧ Fits layout values
  | [], [] => True
  | _, _ => False

/-- Texts of one layout stand in the order of the numbers in it, the first that differ deciding. -/
theorem encoded_fill_lt_iff {layout : Layout} {left right : List Nat} (low : Fits layout left)
    (high : Fits layout right) : encoded (fill layout left) < encoded (fill layout right) ↔ left < right := by
  induction layout generalizing left right with
  | nil =>
    cases left with
    | cons => exact low.elim
    | nil =>
      cases right with
      | cons => exact high.elim
      | nil => exact iff_of_false (List.lt_irrefl _) (List.lt_irrefl _)
  | cons place layout ih =>
    cases left with
    | nil => exact low.elim
    | cons value values =>
      cases right with
      | nil => exact high.elim
      | cons other others =>
        rw [fill, fill, encoded_append, encoded_append, encoded_append, encoded_append, append_lt_append_iff rfl,
          append_lt_append_iff (by rw [length_encoded_lastDigits, length_encoded_lastDigits]),
          encoded_lastDigits_lt_iff low.1 high.1, encoded_lastDigits_inj low.1 high.1, ih low.2 high.2,
          List.cons_lt_cons_iff]
        have irreflexive : ¬ encoded place.1 < encoded place.1 := List.lt_irrefl _
        simp only [irreflexive, false_or, true_and]

end ResourceQuery.Text
