/-!
# Splitting a text at separators

`pieces` cuts at every separator and gives one piece more than there are separators; joining the
pieces gives the text again (`intercalate_pieces`). `splitFirst?` and `splitLast?` cut once, at
the first and at the last separator, and refuse a text without one.
-/
namespace ResourceQuery.Text

/-- The piece before the first separator, and the pieces after each separator. -/
def firstPiece (isSeparator : Char → Bool) : List Char → List Char × List (List Char)
  | [] => ([], [])
  | character :: rest =>
    let (first, others) := firstPiece isSeparator rest
    if isSeparator character then ([], first :: others) else (character :: first, others)

/-- The pieces between separators, empty ones included. -/
def pieces (isSeparator : Char → Bool) (text : List Char) : List (List Char) :=
  (firstPiece isSeparator text).1 :: (firstPiece isSeparator text).2

/-- A text has at least one piece. -/
theorem pieces_ne_nil (isSeparator : Char → Bool) (text : List Char) :
    pieces isSeparator text ≠ [] := by simp [pieces]

/-- The pieces are those of the library's cut at every separator. -/
theorem pieces_eq_splitOnP (isSeparator : Char → Bool) (text : List Char) :
    pieces isSeparator text = text.splitOnP isSeparator := by
  induction text with
  | nil => rfl
  | cons character rest ih =>
    rw [List.splitOnP_cons_eq_if_modifyHead, ← ih, pieces, firstPiece]
    cases isSeparator character <;> rfl

/-- Joining the pieces at one separator gives the text again. -/
theorem intercalate_pieces (separator : Char) (text : List Char) :
    [separator].intercalate (pieces (· == separator) text) = text := by
  rw [pieces_eq_splitOnP]
  exact List.intercalate_splitOn separator

/-- The text before and after the first separator. -/
def splitFirst? (separator : Char) : List Char → Option (List Char × List Char)
  | [] => none
  | character :: rest =>
    if character = separator then some ([], rest)
    else (splitFirst? separator rest).map fun (before, after) => (character :: before, after)

/-- The text before and after the last separator. -/
def splitLast? (separator : Char) : List Char → Option (List Char × List Char)
  | [] => none
  | character :: rest =>
    match splitLast? separator rest with
    | some (before, after) => some (character :: before, after)
    | none => if character = separator then some ([], rest) else none

/-- A text is cut at its first separator exactly when nothing before the cut is one. -/
theorem splitFirst?_eq_some_iff {separator : Char} {text before after : List Char} :
    splitFirst? separator text = some (before, after) ↔
      text = before ++ separator :: after ∧ separator ∉ before := by
  induction text generalizing before with
  | nil => simp [splitFirst?]
  | cons character rest ih =>
    by_cases h : character = separator
    · subst h
      cases before <;> grind [splitFirst?]
    · cases before with
      | nil => simp [splitFirst?, h]
      | cons head tail =>
        simp only [splitFirst?, h, if_false, Option.map_eq_some_iff, Prod.exists, Prod.mk.injEq,
          List.cons.injEq, List.cons_append, List.mem_cons, not_or]
        grind

/-- A text without the separator is the only one that is not cut at the first. -/
theorem splitFirst?_eq_none_iff {separator : Char} {text : List Char} :
    splitFirst? separator text = none ↔ separator ∉ text := by
  induction text with
  | nil => simp [splitFirst?]
  | cons character rest ih =>
    by_cases here : character = separator
    · simp [splitFirst?, here]
    · simp [splitFirst?, here, ih, Ne.symm here]

/-- A text without the separator is the only one that is not cut at the last. -/
theorem splitLast?_eq_none_iff {separator : Char} {text : List Char} :
    splitLast? separator text = none ↔ separator ∉ text := by
  induction text with
  | nil => simp [splitLast?]
  | cons character rest ih =>
    cases found : splitLast? separator rest with
    | none => grind [splitLast?]
    | some cut => simp_all [splitLast?]

/-- A text is cut at its last separator exactly when nothing after the cut is one. -/
theorem splitLast?_eq_some_iff {separator : Char} {text before after : List Char} :
    splitLast? separator text = some (before, after) ↔
      text = before ++ separator :: after ∧ separator ∉ after := by
  induction text generalizing before with
  | nil => simp [splitLast?]
  | cons character rest ih =>
    cases found : splitLast? separator rest with
    | none =>
      have absent := splitLast?_eq_none_iff.1 found
      cases before with
      | nil => grind [splitLast?]
      | cons head tail => grind [splitLast?]
    | some cut =>
      have held : separator ∈ rest := Decidable.byContradiction fun absent => by
        simp [splitLast?_eq_none_iff.2 absent] at found
      cases before <;> grind [splitLast?]

end ResourceQuery.Text
