import ResourceQuery.Text.Split

/-!
# Pieces and runs

Texts without the separator are the pieces of what they are joined to (`Text.pieces_intercalate`), and the pieces
of a text have its characters but for the separators (`Text.of_mem_pieces`). A run of characters of a class is taken
and dropped up to where the text goes on with another character (`Text.Stops`).
-/
namespace ResourceQuery.Text

/-! ### Pieces -/

/-- Texts without the separator are the pieces of what they are joined to. -/
theorem pieces_intercalate {separator : Char} {texts : List (List Char)} (present : texts ≠ [])
    (apart : ∀ text ∈ texts, separator ∉ text) :
    pieces (· == separator) ([separator].intercalate texts) = texts := by
  rw [pieces_eq_splitOnP]
  exact List.splitOn_intercalate separator apart present

/-- A text without separators is one piece. -/
theorem pieces_of_not_any {isSeparator : Char → Bool} {text : List Char}
    (none : ∀ character ∈ text, isSeparator character = false) : pieces isSeparator text = [text] := by
  rw [pieces_eq_splitOnP, List.splitOnP_eq_singleton none]

/-- A character of a joined text separates or is in one of the texts. -/
theorem of_mem_intercalate {separator character : Char} {texts : List (List Char)}
    (member : character ∈ [separator].intercalate texts) :
    character = separator ∨ ∃ text ∈ texts, character ∈ text := by
  induction texts with
  | nil => exact absurd member List.not_mem_nil
  | cons first rest ih =>
    cases rest with
    | nil => exact .inr ⟨first, .head _, by simpa using member⟩
    | cons second others =>
      rw [List.intercalate_cons_cons, List.mem_append, List.mem_append, List.mem_singleton] at member
      rcases member with (here | separates) | later
      · exact .inr ⟨first, .head _, here⟩
      · exact .inl separates
      · exact (ih later).imp_right fun ⟨text, listed, inside⟩ => ⟨text, .tail first listed, inside⟩

/-- The characters of a piece are those of the text, and none of them separates. -/
theorem of_mem_pieces {isSeparator : Char → Bool} {text piece : List Char}
    (member : piece ∈ pieces isSeparator text) :
    ∀ character ∈ piece, character ∈ text ∧ isSeparator character = false := by
  induction text generalizing piece with
  | nil =>
    obtain rfl := List.mem_singleton.1 member
    exact fun character here => absurd here List.not_mem_nil
  | cons first rest ih =>
    have later : ∀ other ∈ pieces isSeparator rest, ∀ character ∈ other,
        character ∈ first :: rest ∧ isSeparator character = false := fun other listed character here =>
      ⟨.tail first (ih listed character here).1, (ih listed character here).2⟩
    cases separates : isSeparator first with
    | true =>
      simp only [pieces, firstPiece, separates, if_true] at member
      rcases List.mem_cons.1 member with rfl | member
      · exact fun character here => absurd here List.not_mem_nil
      · exact later piece member
    | false =>
      simp only [pieces, firstPiece, separates, Bool.false_eq_true, if_false] at member
      rcases List.mem_cons.1 member with rfl | member
      · intro character here
        rcases List.mem_cons.1 here with rfl | here
        · exact ⟨.head rest, separates⟩
        · exact later _ (.head _) character here
      · exact later piece (.tail _ member)

/-! ### Runs -/

/-- A text does not go on with a character of a class. -/
def Stops (isIn : Char → Bool) (text : List Char) : Prop := ∀ character ∈ text.head?, isIn character = false

section Runs

variable {isIn : Char → Bool} {run rest : List Char}

/-- A character outside of the class stops a run. -/
theorem stops_cons {first : Char} (outside : isIn first = false) : Stops isIn (first :: rest) := by
  intro character head
  obtain rfl := Option.some.inj head
  exact outside

/-- What is left after a run stops it. -/
theorem stops_dropWhile (isIn : Char → Bool) (text : List Char) : Stops isIn (text.dropWhile isIn) := by
  intro character first
  have stops := List.head?_dropWhile_not isIn text
  rw [Option.mem_def.1 first] at stops
  exact stops

/-- A run is taken up to where it stops. -/
theorem takeWhile_append_of_stops (all : ∀ character ∈ run, isIn character = true) (stops : Stops isIn rest) :
    (run ++ rest).takeWhile isIn = run := by
  rw [List.takeWhile_append_of_pos all]
  cases rest with
  | nil => exact List.append_nil run
  | cons first others =>
    have outside : isIn first = false := stops first rfl
    rw [List.takeWhile_cons_of_neg (by simp [outside]), List.append_nil]

/-- A run is dropped up to where it stops. -/
theorem dropWhile_append_of_stops (all : ∀ character ∈ run, isIn character = true) (stops : Stops isIn rest) :
    (run ++ rest).dropWhile isIn = rest := by
  rw [List.dropWhile_append_of_pos all]
  cases rest with
  | nil => rfl
  | cons first others =>
    have outside : isIn first = false := stops first rfl
    rw [List.dropWhile_cons_of_neg (by simp [outside])]

end Runs

end ResourceQuery.Text
