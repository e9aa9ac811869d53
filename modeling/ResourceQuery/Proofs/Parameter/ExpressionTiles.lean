import ResourceQuery.Proofs.Parameter.Patterns
import ResourceQuery.Proofs.Parameter.WrittenElements

/-!
# Filter values are tiled

Whatever a filter value looks like, it is cut into commas and expressions that tile it: nothing but commas is
passed over between expressions, and nothing is read twice. An expression is a name with something in
brackets, or everything up to the next comma (`Tile.Fits`). So nothing is read from a value that is not
there: names and segments come without separators, arguments end where their quotes do
(`FilterCall.Regular`), and a value without colons is the list of its tokens (`expressions_tile`).
-/
namespace ResourceQuery.Parameter

/-- The tile has its form, before the text that follows it. A bracketed expression is a name without commas
and colons, a colon, and something in brackets; a bare one has characters but no commas, and ends at the next
comma or with the value. -/
def Tile.Fits (following : List Char) : Tile → Prop
  | comma => True
  | bracketed text => ∃ name inside, text = name ++ ':' :: '[' :: (inside ++ [']']) ∧ inside ≠ [] ∧
      name ≠ [] ∧ ∀ character ∈ name, character ≠ ',' ∧ character ≠ ':'
  | bare text => text ≠ [] ∧ ',' ∉ text ∧ Ends following

/-- The text has none of the characters that separate expressions, names and segments. -/
def Unseparated (text : List Char) : Prop :=
  ∀ character ∈ text, character ≠ ',' ∧ character ≠ ':' ∧ character ≠ '.'

/-- What can be read as an argument: characters without commas, brackets and quotes, or a text in which every
quote is escaped, that is, comes after whole units and a backslash. -/
def IsArgument (argument : List Char) : Prop :=
  (argument ≠ [] ∧ ∀ character ∈ argument,
    character ≠ ',' ∧ character ≠ '[' ∧ character ≠ ']' ∧ character ≠ '"') ∨
  ∀ before after, argument = before ++ '"' :: after →
    ∃ units : List QuotedUnit, before = units.flatMap QuotedUnit.characters ++ ['\\']

/-- The tokens of a value: what is between its commas, where that is anything. -/
def tokens (value : List Char) : List (List Char) :=
  (Text.pieces (· == ',') value).filter fun token => !token.isEmpty

/-- A call as it can be read. -/
structure FilterCall.Regular (call : FilterCall) : Prop where
  /-- The segments of its path have no separators. -/
  segments : ∀ segment ∈ call.path.segments, Unseparated segment.toList
  /-- Nor has its name. -/
  name : Unseparated call.name.toList
  /-- Its arguments can be read. -/
  arguments : ∀ argument ∈ call.arguments, IsArgument argument.toList

/-! ### Tiles -/

/-- What is taken to a closing bracket ends with it. -/
theorem bracket_suffix_takeList {text : List Char} (closes : ']' ∈ text) : [']'] <:+ (takeList text).1 := by
  have beyond : ∀ {first : Char} {rest : List Char}, first ≠ ']' → ']' ∈ first :: rest →
      ']' ∈ rest.dropWhile isListItem := fun other member =>
    mem_dropWhile_isListItem.2 ((List.mem_cons.1 member).resolve_left (Ne.symm other))
  fun_induction takeList text with
  | case1 => exact absurd closes List.not_mem_nil
  | case2 rest => exact List.suffix_refl [']']
  | case3 rest inside after taken ih =>
    rw [taken] at ih
    exact (ih ((List.mem_cons.1 closes).resolve_left (by decide))).trans (List.suffix_cons ',' inside)
  | case4 rest quoted others _ closing inside after taken _ _ _ ih =>
    rw [taken] at ih
    exact ((ih closing).trans (List.suffix_cons '"' inside)).trans (List.suffix_append ('"' :: quoted) _)
  | case5 rest run unquoted quoted others _ _ _ _ ih =>
    exact (ih (beyond (by decide) closes)).trans (List.suffix_append ('"' :: run) _)
  | case6 rest run unquoted _ _ _ ih =>
    exact (ih (beyond (by decide) closes)).trans (List.suffix_append ('"' :: run) _)
  | case7 first rest noBracket _ run unquoted _ ih =>
    exact (ih (beyond noBracket closes)).trans (List.suffix_append (first :: run) _)

/-- A bracketed expression has a name, a colon, and something in brackets. -/
theorem fits_of_takeBracketed? {text expression after : List Char}
    (taken : takeBracketed? text = some (expression, after)) (following : List Char) :
    (Tile.bracketed expression).Fits following := by
  obtain ⟨name, body, -, rfl, -, present, regular, begins, closes⟩ := takeBracketed?_cases taken
  obtain ⟨inside, ends⟩ := bracket_suffix_takeList closes
  refine ⟨name, inside, by rw [ends], ?_, present, regular⟩
  rintro rfl
  rw [← takeList_append body, ← ends] at begins
  exact begins rfl

/-- What is left after the characters up to the next comma is that comma, or nothing. -/
theorem ends_dropWhile (text : List Char) : Ends (text.dropWhile (· != ',')) := by
  intro character first
  simpa using Text.stops_dropWhile (· != ',') text character first

/-- Every tile has its form, before the tiles that follow it. -/
theorem fits_tiles {value : List Char} {before after : List Tile} {tile : Tile}
    (cut : tiles value = before ++ tile :: after) : tile.Fits (after.flatMap Tile.characters) := by
  fun_induction tiles value generalizing before with
  | case1 => simp at cut
  | case2 rest ih =>
    cases before with
    | nil =>
      obtain ⟨rfl, -⟩ := List.cons.inj cut
      trivial
    | cons first others => exact ih (List.cons.inj cut).2
  | case3 first rest _ expression remainder taken ih =>
    cases before with
    | nil =>
      obtain ⟨rfl, rfl⟩ := List.cons.inj cut
      exact fits_of_takeBracketed? taken _
    | cons _ others => exact ih (List.cons.inj cut).2
  | case4 first rest noComma _ ih =>
    cases before with
    | nil =>
      obtain ⟨rfl, rfl⟩ := List.cons.inj cut
      rw [flatMap_characters_tiles]
      refine ⟨List.cons_ne_nil _ _, fun comma => ?_, ends_dropWhile rest⟩
      rcases List.mem_cons.1 comma with first | comma
      · exact noComma first.symm
      · exact absurd (List.all_eq_true.1 List.all_takeWhile ',' comma) (by decide)
    | cons _ others => exact ih (List.cons.inj cut).2

/-! ### Names and arguments -/

/-- A quote in written units is escaped. -/
theorem escaped_of_units {units : List QuotedUnit} {before after : List Char}
    (cut : units.flatMap QuotedUnit.characters = before ++ '"' :: after) :
    ∃ earlier : List QuotedUnit, before = earlier.flatMap QuotedUnit.characters ++ ['\\'] := by
  induction units generalizing before with
  | nil => exact absurd (congrArg List.length cut) (by simp)
  | cons unit rest ih =>
    cases unit with
    | plain character regular =>
      have shape : character :: rest.flatMap QuotedUnit.characters = before ++ '"' :: after := cut
      cases before with
      | nil => exact absurd (List.cons.inj shape).1 regular.1
      | cons first others =>
        obtain ⟨rfl, inRest⟩ := List.cons.inj shape
        obtain ⟨earlier, rfl⟩ := ih inRest
        exact ⟨.plain character regular :: earlier, rfl⟩
    | escaped character sameLine =>
      have shape : '\\' :: character :: rest.flatMap QuotedUnit.characters = before ++ '"' :: after := cut
      match before with
      | [] => exact absurd (List.cons.inj shape).1 (by decide)
      | [only] =>
        obtain ⟨rfl, -⟩ := List.cons.inj shape
        exact ⟨[], rfl⟩
      | first :: second :: others =>
        obtain ⟨rfl, others⟩ := List.cons.inj shape
        obtain ⟨rfl, inRest⟩ := List.cons.inj others
        obtain ⟨earlier, rfl⟩ := ih inRest
        exact ⟨.escaped character sameLine :: earlier, rfl⟩

/-- What stands for a written argument is an argument. -/
theorem isArgument_text (written : WrittenArgument) : IsArgument written.text := by
  cases written with
  | bare first rest regular => exact .inl ⟨List.cons_ne_nil first rest, regular⟩
  | quoted units => exact .inr fun before after cut => escaped_of_units cut

/-- The path and the name in a qualified name without commas and colons are without separators. -/
theorem unseparated_splitName {qualified : List Char}
    (regular : ∀ character ∈ qualified, character ≠ ',' ∧ character ≠ ':') :
    (∀ segment ∈ (Path.splitName qualified).1.segments, Unseparated segment.toList) ∧
      Unseparated (Path.splitName qualified).2.toList := by
  have segments : ∀ text : List Char, (∀ character ∈ text, character ≠ ',' ∧ character ≠ ':') →
      ∀ segment ∈ (Path.ofCharacters text).segments, Unseparated segment.toList := by
    intro text regular segment member
    unfold Path.ofCharacters at member
    split at member
    · exact absurd member List.not_mem_nil
    · obtain ⟨piece, listed, rfl⟩ := List.mem_map.1 member
      rw [String.toList_ofList]
      intro character inside
      obtain ⟨inText, notPoint⟩ := Text.of_mem_pieces listed character inside
      exact ⟨(regular character inText).1, (regular character inText).2,
        by simpa [Path.separator] using notPoint⟩
  unfold Path.splitName
  cases cut : Text.splitLast? Path.separator qualified with
  | none =>
    have noPoint := Text.splitLast?_eq_none_iff.1 cut
    refine ⟨fun segment member => absurd member List.not_mem_nil, fun character inside => ?_⟩
    rw [String.toList_ofList] at inside
    exact ⟨(regular character inside).1, (regular character inside).2,
      fun point => noPoint (by rwa [point] at inside)⟩
  | some parts =>
    obtain ⟨before, name⟩ := parts
    obtain ⟨rfl, noPoint⟩ := Text.splitLast?_eq_some_iff.1 cut
    refine ⟨segments before fun character inside => regular character (List.mem_append_left _ inside),
      fun character inside => ?_⟩
    rw [String.toList_ofList] at inside
    have own := regular character (List.mem_append_right _ (.tail _ inside))
    exact ⟨own.1, own.2, fun point => noPoint (by rwa [point] at inside)⟩

/-- The call of a written expression is regular. -/
theorem regular_call (expression : WrittenExpression) : expression.call.Regular where
  segments := (unseparated_splitName expression.regular).1
  name := (unseparated_splitName expression.regular).2
  arguments := by
    intro argument member
    obtain ⟨written, -, rfl⟩ := List.mem_map.1 member
    rw [String.toList_ofList]
    exact isArgument_text written

/-! ### Values without colons -/

/-- Commas before and between tokens are passed over. -/
theorem tokens_comma (rest : List Char) : tokens (',' :: rest) = tokens rest := rfl

/-- A token is everything up to the next comma. -/
theorem tokens_run {run following : List Char} (present : run ≠ []) (noComma : ',' ∉ run)
    (ends : Ends following) : tokens (run ++ following) = run :: tokens following := by
  have pieces : ∀ run : List Char, ',' ∉ run →
      Text.firstPiece (· == ',') (run ++ following) = (run, (Text.firstPiece (· == ',') following).2) := by
    intro run noComma
    induction run with
    | nil =>
      cases following with
      | nil => rfl
      | cons first rest =>
        obtain rfl := ends first rfl
        rfl
    | cons first rest ih =>
      obtain ⟨other, noComma⟩ := not_or.1 (mt List.mem_cons.2 noComma)
      rw [List.cons_append, Text.firstPiece, ih noComma]
      simp [Ne.symm other]
  have head : (Text.firstPiece (· == ',') following).1 = [] := congrArg Prod.fst (pieces [] List.not_mem_nil)
  have whole : run.isEmpty = false := by simpa using present
  rw [tokens, Text.pieces, pieces run noComma, tokens, Text.pieces, head]
  simp [whole]

/-- Without colons the expressions of a value are its tokens. -/
theorem expressions_eq_tokens {value : List Char} (noColon : ':' ∉ value) :
    expressions value = tokens value := by
  unfold expressions
  fun_induction tiles value with
  | case1 => rfl
  | case2 rest ih =>
    rw [tokens_comma]
    exact ih fun colon => noColon (.tail _ colon)
  | case3 first rest _ expression after taken _ =>
    obtain ⟨name, inside, rfl, -⟩ := fits_of_takeBracketed? taken []
    rw [takeBracketed?_eq taken] at noColon
    simp at noColon
  | case4 first rest noComma _ ih =>
    have whole : first :: rest = (first :: rest.takeWhile (· != ',')) ++ rest.dropWhile (· != ',') := by simp
    have free : ',' ∉ first :: rest.takeWhile (· != ',') := by
      intro comma
      rcases List.mem_cons.1 comma with first | comma
      · exact noComma first.symm
      · exact absurd (List.all_eq_true.1 List.all_takeWhile ',' comma) (by decide)
    have later := ih fun colon => noColon (.tail _ ((List.dropWhile_sublist _).mem colon))
    rw [whole, tokens_run (List.cons_ne_nil _ _) free (ends_dropWhile rest), ← later]
    rfl

/-- Names without arguments, each once, in the order in which they first came. -/
def bareSet (names : List String) : Filters := ⟨names.eraseDups.map fun name => (name, [])⟩

/-- A name without arguments is added to those that were assigned before it, unless it is among them. -/
theorem insert_bareSet (held : List String) (name : String) :
    (bareSet held).insert name [] = bareSet (held ++ [name]) := by
  have again : ∀ {held : List String}, name ∈ held →
      Filters.assign name [] (held.map fun name => (name, [])) = held.map fun name => (name, []) := by
    intro held member
    induction held with
    | nil => exact absurd member List.not_mem_nil
    | cons first rest ih =>
      rw [List.map_cons, Filters.assign]
      split
      · next same => rw [same]
      · next other => rw [ih ((List.mem_cons.1 member).resolve_left (Ne.symm other))]
  rw [bareSet, bareSet, Filters.insert, List.eraseDups_append]
  by_cases known : name ∈ held
  · rw [again (List.mem_eraseDups.2 known)]
    simp [List.removeAll, known]
  · have alone : [name].removeAll held = [name] := by simp [List.removeAll, known]
    rw [Filters.assign_of_not_mem (by simpa using known), alone, List.map_append]
    rfl

/-- Calls without arguments at one path make up the set of their names, if there are any. -/
theorem foldl_assignAt_bare (path : Path) (names : List String) :
    (names.map fun name => FilterCall.mk path name []).foldl assignAt none =
      if names = [] then none else some (bareSet names) := by
  have later : ∀ names held : List String,
      (names.map fun name => FilterCall.mk path name []).foldl assignAt (some (bareSet held)) =
        some (bareSet (held ++ names)) := by
    intro names
    induction names with
    | nil => exact fun held => by rw [List.append_nil]; rfl
    | cons name rest ih =>
      intro held
      have step : assignAt (some (bareSet held)) ⟨path, name, []⟩ = some (bareSet (held ++ [name])) :=
        congrArg some (insert_bareSet held name)
      rw [List.map_cons, List.foldl_cons, step, ih, List.append_assoc]
      rfl
  cases names with
  | nil => rfl
  | cons name rest => exact later rest [name]

/-- Without colons the filters of a path are its names among the tokens, each once and without arguments. -/
theorem find?_filters_of_noColon {value : List Char} (noColon : ':' ∉ value) (path : Path) :
    (filters value).find? path =
      if ofPath path ((tokens value).map Path.splitName) = [] then none
      else some (bareSet (ofPath path ((tokens value).map Path.splitName))) := by
  have bare : (expressions value).map FilterCall.ofExpression =
      ((tokens value).map Path.splitName).map fun entry => ⟨entry.1, entry.2, []⟩ := by
    rw [expressions_eq_tokens noColon, List.map_map]
    refine List.map_congr_left fun token member => ?_
    have noColon : ':' ∉ token := fun colon => noColon
      (Text.of_mem_pieces (List.mem_filter.1 member).1 ':' colon).1
    rw [FilterCall.ofExpression, Text.splitFirst?_eq_none_iff.2 noColon]
    rfl
  have own : (((tokens value).map Path.splitName).map fun entry => FilterCall.mk entry.1 entry.2 []).filter
      (·.path = path) =
        (ofPath path ((tokens value).map Path.splitName)).map fun name => FilterCall.mk path name [] := by
    rw [ofPath, List.filter_map, List.map_map]
    refine List.map_congr_left fun entry member => ?_
    have here : entry.1 = path := of_decide_eq_true (List.mem_filter.1 member).2
    rw [here]
    rfl
  rw [filters, bare, find?_foldl_assignCall, own, SortedMap.find?_empty, foldl_assignAt_bare]

/-- The expressions of a filter value tile it. What the pattern of an expression finds are the tiles of the
value other than commas, and what that of an argument finds, unquoted, are the arguments that are read; the
tiles written one after the other are the value, and each has its form before those that follow it. So every
call that is read is regular, and a value without colons is read as the names of its tokens: each path has its
own, once each in the order in which they first came, without arguments. -/
theorem expressions_tile (value : List Char) :
    expressionPattern.found value = (tiles value).filterMap Tile.expression? ∧
    (∀ text, (argumentPattern.found text).map unquote = arguments text) ∧
    (tiles value).flatMap Tile.characters = value ∧
    (∀ before tile after, tiles value = before ++ tile :: after →
      tile.Fits (after.flatMap Tile.characters)) ∧
    (∀ path set, (filters value).find? path = some set →
      set.entries ≠ [] ∧ ∀ call ∈ callsAt path set, call.Regular) ∧
    (':' ∉ value → ∀ path, (filters value).find? path =
      if ofPath path ((tokens value).map Path.splitName) = [] then none
      else some (bareSet (ofPath path ((tokens value).map Path.splitName)))) := by
  refine ⟨found_expressionPattern value, map_unquote_found_argumentPattern, flatMap_characters_tiles value,
    fun _ _ _ => fits_tiles, fun path set found => ?_, find?_filters_of_noColon⟩
  have read := readAt_filters found
  refine ⟨read.present, fun call member => ?_⟩
  obtain ⟨expression, same, -⟩ := read.readable call member
  exact same ▸ regular_call expression

/-- A value with text right after brackets, an escaped quote after an inner bracket, and a quote and a bracket
that nothing closes. -/
def ragged : List Char := "a:[b]]:c,s.x:[\"d],\\\"\"],,name:[\"abc".toList

/-- A value without colons in which the root is spelled in two ways. -/
def plainNames : List Char := "a,t.b,,c,_.a".toList

/-- A ragged value is tiled all the same, and names alone are read as they stand. -/
theorem ragged_tiled :
    tiles ragged = [.bracketed "a:[b]".toList, .bare "]:c".toList, .comma,
      .bracketed "s.x:[\"d],\\\"\"]".toList, .comma, .comma, .bare "name:[\"abc".toList] ∧
    (Tile.bare "]:c".toList).Fits ",s.x:[\"d],\\\"\"],,name:[\"abc".toList ∧
    (FilterCall.mk ⟨["s"]⟩ "x" ["d],\\\""]).Regular ∧
    (filters plainNames).find? .root = some ⟨[("a", []), ("c", [])]⟩ := by
  obtain ⟨-, -, -, fits, regular, -⟩ := expressions_tile ragged
  obtain ⟨-, -, -, -, -, bare⟩ := expressions_tile plainNames
  have cut : tiles ragged = [.bracketed "a:[b]".toList, .bare "]:c".toList, .comma,
      .bracketed "s.x:[\"d],\\\"\"]".toList, .comma, .comma, .bare "name:[\"abc".toList] := by
    decide +kernel
  have found : (filters ragged).find? ⟨["s"]⟩ = some ⟨[("x", ["d],\\\""])]⟩ := by decide +kernel
  refine ⟨cut, fits [_] _ _ cut, (regular _ _ found).2 _ (.head []), ?_⟩
  rw [bare (by decide) .root]
  decide +kernel

end ResourceQuery.Parameter
