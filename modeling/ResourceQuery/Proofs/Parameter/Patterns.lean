import ResourceQuery.Proofs.Parameter.WrittenFilters

/-!
# The patterns of filter values

The scanners of filter values find what two patterns find: that of an expression and that of an argument.
Patterns are matched with backtracking. At the front of a text a pattern has rests, one for every way to
match, the preferred one first (`Pattern.rests`); what it finds in a text are the preferred matches from left
to right, each after the one before it (`Pattern.found`). The scanners never go back: where an expression or
an argument could be read in several ways they take the preferred one at once
(`found_expressionPattern`, `map_unquote_found_argumentPattern`).
-/
namespace ResourceQuery.Parameter

/-- A pattern of texts. -/
inductive Pattern where
  /-- One character that passes a test. -/
  | one (test : Char → Bool)
  /-- One pattern and then another. -/
  | both (first second : Pattern)
  /-- One pattern or, failing that, another. -/
  | either (first second : Pattern)
  /-- A pattern any number of times, the more often the better. -/
  | many (inner : Pattern)

namespace Pattern

/-- The rests of a text after a step is taken any number of times, first those after the most steps. A step
that takes nothing does not count. -/
def iterate (step : List Char → List (List Char)) (text : List Char) : List (List Char) :=
  ((step text).filter fun rest => rest.length < text.length).attach.flatMap
    (fun ⟨rest, _⟩ => iterate step rest) ++ [text]
termination_by text.length
decreasing_by
  next member =>
  simpa using (List.mem_filter.1 member).2

/-- The rests of a text after a match at its front, the preferred one first. -/
def rests : Pattern → List Char → List (List Char)
  | one _, [] => []
  | one test, character :: rest => if test character then [rest] else []
  | both first second, text => (first.rests text).flatMap second.rests
  | either first second, text => first.rests text ++ second.rests text
  | many inner, text => iterate inner.rests text

/-- What a pattern finds in a text: from the left, its preferred match wherever it has one that takes
something, and the next one after it. -/
def found (pattern : Pattern) (text : List Char) : List (List Char) :=
  match text with
  | [] => []
  | character :: rest =>
    match (pattern.rests (character :: rest)).head? with
    | none => pattern.found rest
    | some after =>
      if after.length ≤ rest.length then
        (character :: rest).take (rest.length + 1 - after.length) :: pattern.found after
      else pattern.found rest
termination_by text.length

/-- Exactly this character. -/
def character (expected : Char) : Pattern := one (· == expected)

/-- A pattern at least once, the more often the better. -/
def atLeastOnce (inner : Pattern) : Pattern := both inner (many inner)

end Pattern

/-- A unit of a quoted span: an escape, or a character that is neither a backslash nor a quote. -/
def unitPattern : Pattern :=
  .either (.both (.character '\\') (.one (· != '\n'))) (.one fun character => character != '\\' && character != '"')

/-- A quoted span: units between quotes. -/
def quotedPattern : Pattern := .both (.character '"') (.both (.many unitPattern) (.character '"'))

/-- One item inside brackets: a quoted span, a run of characters that neither separate nor close, or a comma. -/
def itemPattern : Pattern := .either quotedPattern (.either (.atLeastOnce (.one isListItem)) (.character ','))

/-- A name with items in brackets. -/
def bracketedPattern : Pattern :=
  .both (.atLeastOnce (.one isNameCharacter)) (.both (.character ':') (.both (.character '[')
    (.both (.atLeastOnce itemPattern) (.character ']'))))

/-- A filter expression: a name with items in brackets, or a run of characters without commas. -/
def expressionPattern : Pattern := .either bracketedPattern (.atLeastOnce (.one (· != ',')))

/-- A filter argument: a quoted span, or a run of characters that neither separate, nor bracket, nor quote. -/
def argumentPattern : Pattern := .either quotedPattern (.atLeastOnce (.one isArgumentCharacter))

/-- A text without the quotes at its two ends, if it has both. -/
def unquote (text : List Char) : List Char :=
  if 2 ≤ text.length ∧ text.head? = some '"' ∧ text.getLast? = some '"' then text.tail.dropLast else text

namespace Pattern

/-- The rests after any number of steps are those after one that takes something, and the whole text. -/
theorem iterate_eq (step : List Char → List (List Char)) (text : List Char) : iterate step text =
    ((step text).filter fun rest => rest.length < text.length).flatMap (iterate step) ++ [text] := by
  rw [iterate, List.flatMap_subtype (g := iterate step) fun _ _ => rfl, List.unattach_attach]

/-- A step that takes something is taken again and again from its rests. -/
theorem iterate_of_shorter {step : List Char → List (List Char)} {text : List Char}
    (shorter : ∀ rest ∈ step text, rest.length < text.length) :
    iterate step text = (step text).flatMap (iterate step) ++ [text] := by
  rw [iterate_eq, List.filter_eq_self.2 fun rest member => by simpa using shorter rest member]

/-- Where no step can be taken, the whole text is left. -/
theorem iterate_of_nil {step : List Char → List (List Char)} {text : List Char} (none : step text = []) :
    iterate step text = [text] := by
  rw [iterate_eq, none]
  rfl

/-- What a match leaves is the end of the text. -/
theorem suffix_of_mem_rests {pattern : Pattern} {text rest : List Char} (member : rest ∈ pattern.rests text) :
    rest <:+ text := by
  induction pattern generalizing text rest with
  | one test =>
    cases text with
    | nil => exact absurd member List.not_mem_nil
    | cons first tail =>
      unfold rests at member
      split at member
      · rw [List.mem_singleton.1 member]
        exact List.suffix_cons first tail
      · exact absurd member List.not_mem_nil
  | both first second ihFirst ihSecond =>
    obtain ⟨middle, before, after⟩ := List.mem_flatMap.1 member
    exact (ihSecond after).trans (ihFirst before)
  | either first second ihFirst ihSecond => exact (List.mem_append.1 member).elim ihFirst ihSecond
  | many inner ih =>
    -- Each step shortens the text, and what it leaves is the end of what was there.
    induction size : text.length using Nat.strongRecOn generalizing text with
    | ind length shorter =>
      rw [rests, iterate_eq] at member
      rcases List.mem_append.1 member with member | member
      · obtain ⟨middle, listed, after⟩ := List.mem_flatMap.1 member
        obtain ⟨step, less⟩ := List.mem_filter.1 listed
        exact (shorter middle.length (size ▸ of_decide_eq_true less) after rfl).trans (ih step)
      · exact List.mem_singleton.1 member ▸ List.suffix_refl text

/-- Every match of the pattern takes a character. -/
def takesSome : Pattern → Bool
  | one _ => true
  | both first second => first.takesSome || second.takesSome
  | either first second => first.takesSome && second.takesSome
  | many _ => false

/-- What a match leaves is shorter than the text, if every match takes a character. -/
theorem length_lt_of_mem_rests {pattern : Pattern} (takes : pattern.takesSome = true) {text rest : List Char}
    (member : rest ∈ pattern.rests text) : rest.length < text.length := by
  induction pattern generalizing text rest with
  | one test =>
    cases text with
    | nil => exact absurd member List.not_mem_nil
    | cons first tail =>
      unfold rests at member
      split at member
      · rw [List.mem_singleton.1 member]
        exact Nat.lt_succ_self _
      · exact absurd member List.not_mem_nil
  | both first second ihFirst ihSecond =>
    obtain ⟨middle, before, after⟩ := List.mem_flatMap.1 member
    rcases Bool.or_eq_true_iff.1 takes with takes | takes
    · exact Nat.lt_of_le_of_lt (suffix_of_mem_rests after).length_le (ihFirst takes before)
    · exact Nat.lt_of_lt_of_le (ihSecond takes after) (suffix_of_mem_rests before).length_le
  | either first second ihFirst ihSecond =>
    obtain ⟨takesFirst, takesSecond⟩ := Bool.and_eq_true_iff.1 takes
    exact (List.mem_append.1 member).elim (ihFirst takesFirst) (ihSecond takesSecond)
  | many inner => exact absurd takes Bool.false_ne_true

/-- A run of characters that pass a test is taken whole before it is taken in part, and what a part leaves
begins with a character that passes. -/
theorem rests_many_one (test : Char → Bool) (text : List Char) :
    ∃ others, (many (one test)).rests text = text.dropWhile test :: others ∧
      ∀ rest ∈ others, rest <:+ text ∧ ∃ first tail, rest = first :: tail ∧ test first = true := by
  show ∃ others, iterate (one test).rests text = _ ∧ _
  induction text with
  | nil => exact ⟨[], iterate_of_nil rfl, fun _ member => absurd member List.not_mem_nil⟩
  | cons first tail ih =>
    cases passes : test first with
    | false =>
      refine ⟨[], ?_, fun _ member => absurd member List.not_mem_nil⟩
      rw [List.dropWhile_cons_of_neg (by simp [passes])]
      exact iterate_of_nil (by simp [rests, passes])
    | true =>
      obtain ⟨others, shape, shorter⟩ := ih
      have step : (one test).rests (first :: tail) = [tail] := by simp [rests, passes]
      refine ⟨others ++ [first :: tail], ?_, fun rest member => ?_⟩
      · rw [iterate_of_shorter (by simp [step]), step, List.flatMap_singleton, shape,
          List.dropWhile_cons_of_pos passes]
        rfl
      · rcases List.mem_append.1 member with member | member
        · exact ⟨(shorter rest member).1.trans (List.suffix_cons first tail), (shorter rest member).2⟩
        · rw [List.mem_singleton.1 member]
          exact ⟨List.suffix_refl _, first, tail, rfl, passes⟩

/-- What follows one pattern and then another follows the second from some rest of the first. -/
theorem head?_rests_both (first second : Pattern) (text : List Char) : ((both first second).rests text).head? =
    (first.rests text).findSome? fun rest => (second.rests rest).head? := List.head?_flatMap

/-- A character is taken where it is expected. -/
theorem rests_character (expected first : Char) (rest : List Char) :
    (character expected).rests (first :: rest) = if first = expected then [rest] else [] := by
  simp [character, rests]

end Pattern

open Pattern

/-! ### Quoted spans -/

/-- A quoted span ends at the quote that the scanner finds, and nowhere else. -/
theorem flatMap_rests_units (text : List Char) :
    ((many unitPattern).rests text).flatMap (character '"').rests =
      ((takeQuoted? text).map Prod.snd).toList := by
  show (iterate unitPattern.rests text).flatMap _ = _
  fun_induction takeQuoted? text with
  | case1 => rw [iterate_of_nil rfl]; rfl
  | case2 rest => rw [iterate_of_nil rfl]; rfl
  | case3 => rw [iterate_of_nil rfl]; rfl
  | case4 rest => rw [iterate_of_nil rfl]; rfl
  | case5 escaped rest sameLine ih =>
    have step : unitPattern.rests ('\\' :: escaped :: rest) = [rest] := by
      simp [unitPattern, rests, character, sameLine]
    have shorter : ∀ left ∈ unitPattern.rests ('\\' :: escaped :: rest),
        left.length < ('\\' :: escaped :: rest).length := by
      rw [step]
      intro left member
      rw [List.mem_singleton.1 member, List.length_cons, List.length_cons]
      omega
    rw [iterate_of_shorter shorter, step, List.flatMap_singleton, List.flatMap_append, ih]
    cases takeQuoted? rest <;> rfl
  | case6 first rest noQuote notLast notEscape ih =>
    have noBackslash := ne_backslash notLast notEscape
    have step : unitPattern.rests (first :: rest) = [rest] := by
      have regular : (first != '\\' && first != '"') = true := by
        rw [Bool.and_eq_true, bne_iff_ne, bne_iff_ne]
        exact ⟨noBackslash, noQuote⟩
      simp [unitPattern, rests, character, noBackslash, regular]
    have notClosing : (character '"').rests (first :: rest) = [] := by
      rw [rests_character, if_neg noQuote]
    rw [iterate_of_shorter (by simp [step]), step, List.flatMap_singleton, List.flatMap_append, ih,
      List.flatMap_singleton, notClosing, List.append_nil]
    cases takeQuoted? rest <;> rfl

/-- After an opening quote, a quoted span leaves what the scanner leaves. -/
theorem rests_quotedPattern (rest : List Char) :
    quotedPattern.rests ('"' :: rest) = ((takeQuoted? rest).map Prod.snd).toList := by
  rw [← flatMap_rests_units]
  exact List.append_nil _

/-- Without an opening quote there is no quoted span. -/
theorem rests_quotedPattern_of_ne {first : Char} (noQuote : first ≠ '"') (rest : List Char) :
    quotedPattern.rests (first :: rest) = [] := by
  rw [quotedPattern, rests, rests_character, if_neg noQuote]
  rfl

/-! ### Brackets -/

/-- The rest after items and a closing bracket, as the scanner has it: there is one wherever a bracket closes. -/
def afterList? (text : List Char) : Option (List Char) := if ']' ∈ text then some (takeList text).2 else none

/-- The rest after the items of brackets and the closing one. -/
def closedRest? (text : List Char) : Option (List Char) :=
  (((many itemPattern).rests text).flatMap (character ']').rests).head?

/-- Items in brackets are one item and then others, or none at a closing bracket. -/
theorem closedRest?_eq (text : List Char) : closedRest? text =
    ((itemPattern.rests text).findSome? closedRest?).or ((character ']').rests text).head? := by
  have shorter : ∀ rest ∈ itemPattern.rests text, rest.length < text.length :=
    fun _ member => length_lt_of_mem_rests rfl member
  rw [closedRest?, rests, iterate_of_shorter shorter, List.flatMap_append, List.head?_append,
    List.flatMap_assoc, List.head?_flatMap, List.flatMap_singleton]
  rfl

/-- A run inside brackets has no closing bracket. -/
theorem mem_dropWhile_isListItem {text : List Char} : ']' ∈ text.dropWhile isListItem ↔ ']' ∈ text := by
  constructor
  · exact fun member => (List.dropWhile_sublist isListItem).mem member
  · intro member
    rw [← List.takeWhile_append_dropWhile (p := isListItem) (l := text)] at member
    refine (List.mem_append.1 member).resolve_left fun inRun => ?_
    exact absurd (List.all_eq_true.1 List.all_takeWhile ']' inRun) (by decide)

/-- Where a run inside brackets begins it is taken whole, for a part of it is no better. -/
theorem findSome?_run (first : Char) (tail : List Char) :
    ((atLeastOnce (.one isListItem)).rests (first :: tail)).findSome? afterList? =
      if isListItem first then afterList? (tail.dropWhile isListItem) else none := by
  obtain ⟨others, shape, parts⟩ := rests_many_one isListItem tail
  rw [atLeastOnce, rests, rests]
  split
  · rw [List.flatMap_singleton, shape, List.findSome?_cons]
    cases found : afterList? (tail.dropWhile isListItem) with
    | some after => rfl
    | none =>
      -- Nothing closes the brackets after the whole run, so nothing does after a part of it.
      have unclosed : ']' ∉ tail := by
        intro member
        rw [afterList?, if_pos (mem_dropWhile_isListItem.2 member)] at found
        contradiction
      refine List.findSome?_eq_none_iff.2 fun rest member => if_neg fun closing => unclosed ?_
      exact (parts rest member).1.mem closing
  · rfl

/-- At a quote inside brackets the scanner takes the quoted span if the brackets close after it, and else the
run. -/
theorem takeList_quote (tail : List Char) : (takeList ('"' :: tail)).2 =
    match takeQuoted? tail with
    | some (_, others) =>
      if ']' ∈ others then (takeList others).2 else (takeList (tail.dropWhile isListItem)).2
    | none => (takeList (tail.dropWhile isListItem)).2 := by
  rw [takeList, if_pos rfl]
  · split
    · next taken =>
      rw [taken]
      simp only
      split <;> rfl
    · next refused => rw [refused]
  · exact fun same => absurd same (by decide)
  · exact fun same => absurd same (by decide)

/-- The closing bracket is found through the run that begins inside the brackets, or after the quoted span. -/
theorem afterList?_item {first : Char} (item : isListItem first = true) (tail : List Char) :
    afterList? (first :: tail) =
      ((quotedPattern.rests (first :: tail)).findSome? afterList?).or (afterList? (tail.dropWhile isListItem)) := by
  obtain ⟨noComma, noBracket⟩ : first ≠ ',' ∧ first ≠ ']' := by simpa [isListItem] using item
  have closes : ']' ∈ first :: tail ↔ ']' ∈ tail.dropWhile isListItem := by
    rw [mem_dropWhile_isListItem, List.mem_cons]
    exact or_iff_right (Ne.symm noBracket)
  have unquoted : (if ']' ∈ first :: tail then some (takeList (tail.dropWhile isListItem)).2 else none) =
      afterList? (tail.dropWhile isListItem) := by
    rw [afterList?]
    simp only [closes]
  by_cases quote : first = '"'
  · subst quote
    rw [rests_quotedPattern, afterList?, takeList_quote, ← unquoted]
    cases taken : takeQuoted? tail with
    | none => rfl
    | some parts =>
      obtain ⟨inside, others⟩ := parts
      have inTail : ']' ∈ others → ']' ∈ '"' :: tail := by
        rw [takeQuoted?_eq taken]
        exact fun member => by simp [member]
      rw [Option.map_some, Option.toList_some, List.findSome?_singleton, afterList?]
      by_cases closing : ']' ∈ others
      · simp [closing, inTail closing]
      · simp [closing]
  · rw [rests_quotedPattern_of_ne quote, List.findSome?_nil, Option.none_or, ← unquoted, afterList?, takeList,
      if_neg quote]
    · exact noBracket
    · exact noComma

/-- Items run to the closing bracket that the scanner finds. -/
theorem closedRest?_eq_afterList? (text : List Char) : closedRest? text = afterList? text := by
  induction size : text.length using Nat.strongRecOn generalizing text with
  | ind length ih =>
    have shorter : (itemPattern.rests text).findSome? closedRest? =
        (itemPattern.rests text).findSome? afterList? := by
      have each : (itemPattern.rests text).map closedRest? = (itemPattern.rests text).map afterList? :=
        List.map_congr_left fun rest member => ih rest.length (size ▸ length_lt_of_mem_rests rfl member) rest rfl
      have first : ∀ follow : List Char → Option (List Char), (itemPattern.rests text).findSome? follow =
          ((itemPattern.rests text).map follow).findSome? id := fun follow => by rw [List.findSome?_map]; rfl
      rw [first, each, ← first]
    rw [closedRest?_eq, shorter]
    cases text with
    | nil => rfl
    | cons first tail =>
      rw [itemPattern, rests, rests, List.findSome?_append, List.findSome?_append, findSome?_run,
        rests_character, rests_character]
      cases item : isListItem first with
      | true =>
        obtain ⟨noComma, noBracket⟩ : first ≠ ',' ∧ first ≠ ']' := by simpa [isListItem] using item
        rw [afterList?_item item, if_pos rfl, if_neg noComma, if_neg noBracket]
        simp
      | false =>
        have delimits : first = ',' ∨ first = ']' := by
          rw [isListItem, Bool.and_eq_false_iff, bne_eq_false_iff_eq, bne_eq_false_iff_eq] at item
          exact item
        rcases delimits with rfl | rfl
        · rw [rests_quotedPattern_of_ne (by decide)]
          simp [afterList?, takeList]
        · rw [rests_quotedPattern_of_ne (by decide)]
          simp [afterList?, takeList]

/-! ### Expressions -/

/-- A run of characters that pass a test is followed by what cannot follow a part of it only where it is
taken whole. -/
theorem findSome?_atLeastOnce {test : Char → Bool} {follow : List Char → Option (List Char)}
    (stops : ∀ first tail, test first = true → follow (first :: tail) = none) (first : Char) (tail : List Char) :
    ((atLeastOnce (.one test)).rests (first :: tail)).findSome? follow =
      if test first then follow (tail.dropWhile test) else none := by
  obtain ⟨others, shape, parts⟩ := rests_many_one test tail
  have nothing : others.findSome? follow = none := by
    refine List.findSome?_eq_none_iff.2 fun rest member => ?_
    obtain ⟨-, next, more, rfl, passes⟩ := parts rest member
    exact stops next more passes
  rw [atLeastOnce, rests, rests]
  split
  · rw [List.flatMap_singleton, shape, List.findSome?_cons, nothing]
    cases follow (tail.dropWhile test) <;> rfl
  · rfl

/-- The rest after what follows the name of a bracketed expression. -/
def afterName? (text : List Char) : Option (List Char) :=
  ((both (character ':') (both (character '[') (both (atLeastOnce itemPattern) (character ']')))).rests text).head?

/-- After the name of a bracketed expression come a colon and items in brackets, at least one. -/
theorem afterName?_brackets (body : List Char) : afterName? (':' :: '[' :: body) =
    if body.head? ≠ some ']' ∧ ']' ∈ body then some (takeList body).2 else none := by
  have items : afterName? (':' :: '[' :: body) = (itemPattern.rests body).findSome? closedRest? := by
    rw [afterName?, rests, rests_character, if_pos rfl, List.flatMap_singleton, rests, rests_character,
      if_pos rfl, List.flatMap_singleton, rests, atLeastOnce, rests, List.flatMap_assoc, List.head?_flatMap]
    rfl
  have closed := closedRest?_eq body
  rw [closedRest?_eq_afterList?, ← items] at closed
  cases body with
  | nil => rfl
  | cons first tail =>
    rw [rests_character] at closed
    by_cases closes : first = ']'
    · subst closes
      rw [items, itemPattern, rests, rests_quotedPattern_of_ne (by decide)]
      rfl
    · rw [if_neg closes, List.head?_nil, Option.or_none] at closed
      rw [← closed, afterList?]
      simp [closes]

/-- Without a colon and a bracket no bracketed expression goes on. -/
theorem afterName?_eq_none {text : List Char} (other : ∀ body, text ≠ ':' :: '[' :: body) :
    afterName? text = none := by
  match text with
  | [] => rfl
  | first :: [] =>
    rw [afterName?, rests, rests_character]
    split <;> rfl
  | first :: second :: body =>
    rw [afterName?, rests, rests_character]
    split
    · next colon =>
      have noBracket : second ≠ '[' := fun bracket => other body (by rw [colon, bracket])
      rw [List.flatMap_singleton, rests, rests_character, if_neg noBracket]
      rfl
    · rfl

/-- A bracketed expression ends where the scanner ends it. -/
theorem head?_rests_bracketed (text : List Char) :
    (bracketedPattern.rests text).head? = (takeBracketed? text).map Prod.snd := by
  have stops : ∀ first tail, isNameCharacter first = true → afterName? (first :: tail) = none := by
    intro first tail named
    refine afterName?_eq_none fun body same => ?_
    rw [(List.cons.inj same).1] at named
    contradiction
  rw [bracketedPattern, head?_rests_both]
  cases text with
  | nil => rfl
  | cons first tail =>
    refine (findSome?_atLeastOnce stops first tail).trans ?_
    rw [takeBracketed?]
    cases named : isNameCharacter first with
    | true =>
      rw [if_pos rfl, List.takeWhile_cons_of_pos named, List.dropWhile_cons_of_pos named]
      split
      · next body shape =>
        rw [shape, afterName?_brackets]
        simp only [ne_eq, List.cons_ne_nil, not_false_eq_true, true_and]
        split <;> rfl
      · next other => exact afterName?_eq_none fun body shape => other body shape
    | false =>
      rw [if_neg Bool.false_ne_true, List.takeWhile_cons_of_neg (by simp [named])]
      split <;> simp

/-- An expression has no match at a comma. -/
theorem head?_rests_comma (rest : List Char) : (expressionPattern.rests (',' :: rest)).head? = none := by
  rw [expressionPattern, rests, List.head?_append, head?_rests_bracketed]
  rfl

/-- At any other character the bracketed expression is preferred to the run up to the next comma. -/
theorem head?_rests_expression {first : Char} (noComma : first ≠ ',') (rest : List Char) :
    (expressionPattern.rests (first :: rest)).head? =
      ((takeBracketed? (first :: rest)).map Prod.snd).or (some (rest.dropWhile (· != ','))) := by
  have within : (first != ',') = true := bne_iff_ne.2 noComma
  obtain ⟨others, shape, -⟩ := rests_many_one (· != ',') rest
  rw [expressionPattern, rests, List.head?_append, head?_rests_bracketed, atLeastOnce, rests, rests,
    if_pos within, List.flatMap_singleton, shape]
  rfl

namespace Pattern

/-- Where a pattern has no match, it finds what it finds after the next character. -/
theorem found_of_none {pattern : Pattern} {first : Char} {rest : List Char}
    (none : (pattern.rests (first :: rest)).head? = none) :
    pattern.found (first :: rest) = pattern.found rest := by
  rw [found, none]

/-- A match that takes something is found, and then what comes after it. -/
theorem found_of_match {pattern : Pattern} {text taken after : List Char} (present : taken ≠ [])
    (whole : text = taken ++ after) (preferred : (pattern.rests text).head? = Option.some after) :
    pattern.found text = taken :: pattern.found after := by
  obtain ⟨first, inside, rfl⟩ := List.exists_cons_of_ne_nil present
  subst whole
  have shorter : after.length ≤ (inside ++ after).length := by simp
  have size : (inside ++ after).length + 1 - after.length = (first :: inside).length := by
    simp
    omega
  rw [List.cons_append] at preferred ⊢
  rw [found, preferred]
  simp only [if_pos shorter, size]
  rw [← List.cons_append, List.take_left]

end Pattern

/-- The scanner of filter values finds what the pattern of an expression finds. -/
theorem found_expressionPattern (value : List Char) : expressionPattern.found value = expressions value := by
  unfold expressions
  fun_induction tiles value with
  | case1 =>
    rw [found]
    rfl
  | case2 rest ih =>
    rw [found_of_none (head?_rests_comma rest), ih]
    rfl
  | case3 first rest noComma expression after taken ih =>
    have preferred := head?_rests_expression (fun same => noComma same) rest
    rw [taken] at preferred
    rw [found_of_match (takeBracketed?_ne_nil taken) (takeBracketed?_eq taken) preferred, ih]
    rfl
  | case4 first rest noComma refused ih =>
    have preferred := head?_rests_expression (fun same => noComma same) rest
    rw [refused] at preferred
    have whole : first :: rest = (first :: rest.takeWhile (· != ',')) ++ rest.dropWhile (· != ',') := by simp
    rw [found_of_match (List.cons_ne_nil _ _) whole preferred, ih]
    rfl

/-! ### Arguments -/

/-- An argument is a quoted span that the scanner finds, or else a run. -/
theorem head?_rests_argument (first : Char) (rest : List Char) :
    (argumentPattern.rests (first :: rest)).head? =
      if first = '"' then (takeQuoted? rest).map Prod.snd
      else if isArgumentCharacter first then some (rest.dropWhile isArgumentCharacter) else none := by
  obtain ⟨others, shape, -⟩ := rests_many_one isArgumentCharacter rest
  rw [argumentPattern, rests, List.head?_append, atLeastOnce, rests, rests]
  by_cases quote : first = '"'
  · subst quote
    rw [rests_quotedPattern, if_pos rfl]
    cases takeQuoted? rest <;> rfl
  · rw [rests_quotedPattern_of_ne quote, if_neg quote]
    split
    · rw [List.flatMap_singleton, shape]
      rfl
    · rfl

/-- A quoted span is unquoted to its inside. -/
theorem unquote_quoted (inside : List Char) : unquote ('"' :: (inside ++ ['"'])) = inside := by
  have last : ('"' :: (inside ++ ['"'])).getLast? = some '"' := by
    rw [← List.cons_append]
    exact List.getLast?_concat
  simp [unquote, last]

/-- A text that does not begin with a quote is unquoted to itself. -/
theorem unquote_of_ne {first : Char} (unquoted : first ≠ '"') (rest : List Char) :
    unquote (first :: rest) = first :: rest := by
  simp [unquote, unquoted]

/-- The scanner of arguments finds what the pattern of an argument finds, without the quotes around it. -/
theorem map_unquote_found_argumentPattern (text : List Char) :
    (argumentPattern.found text).map unquote = arguments text := by
  fun_induction arguments text with
  | case1 =>
    rw [found]
    rfl
  | case2 rest inside after taken ih =>
    have preferred := head?_rests_argument '"' rest
    rw [if_pos rfl, taken] at preferred
    have whole : '"' :: rest = ('"' :: (inside ++ ['"'])) ++ after := by simp [takeQuoted?_eq taken]
    rw [found_of_match (List.cons_ne_nil _ _) whole preferred, List.map_cons, unquote_quoted, ih]
  | case3 rest refused ih =>
    have none := head?_rests_argument '"' rest
    rw [if_pos rfl, refused] at none
    rw [found_of_none none, ih]
  | case4 first rest unquoted allowed ih =>
    have preferred := head?_rests_argument first rest
    rw [if_neg unquoted, if_pos allowed] at preferred
    have whole : first :: rest =
        (first :: rest.takeWhile isArgumentCharacter) ++ rest.dropWhile isArgumentCharacter := by simp
    rw [found_of_match (List.cons_ne_nil _ _) whole preferred, List.map_cons, unquote_of_ne unquoted, ih]
  | case5 first rest unquoted refused ih =>
    have none := head?_rests_argument first rest
    rw [if_neg unquoted, if_neg refused] at none
    rw [found_of_none none, ih]

end ResourceQuery.Parameter
