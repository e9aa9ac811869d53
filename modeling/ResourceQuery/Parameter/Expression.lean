import ResourceQuery.Parameter.Elements
import ResourceQuery.Parameter.Filters

/-!
# Filter expressions

The value of the filter parameter is cut into tiles: commas and expressions. An expression is a
qualified name alone, or with arguments in brackets: `messages.state_in:[new,"seen, kept"]`. A
quoted argument may hold commas and brackets; a backslash in it keeps the next character from
ending it, and stays in the argument. Nothing is refused: what cannot be read as brackets is read
up to the next comma, and the tiles of a value written one after the other are the value again
(`flatMap_characters_tiles`).
-/
namespace ResourceQuery.Parameter

/-- The inside of a quoted span and the text after its closing quote, given the text after its
opening quote. A backslash takes the next character with it, unless that is a line feed. -/
def takeQuoted? : List Char → Option (List Char × List Char)
  | [] => none
  | '"' :: rest => some ([], rest)
  | ['\\'] => none
  | '\\' :: escaped :: rest =>
    if escaped = '\n' then none
    else (takeQuoted? rest).map fun (inside, after) => ('\\' :: escaped :: inside, after)
  | character :: rest => (takeQuoted? rest).map fun (inside, after) => (character :: inside, after)

/-- A quoted span is its inside, the closing quote and the text after it. -/
theorem takeQuoted?_eq {text inside after : List Char}
    (taken : takeQuoted? text = some (inside, after)) : text = inside ++ '"' :: after := by
  fun_induction takeQuoted? text generalizing inside with
  | case1 => contradiction
  | case2 rest => grind
  | case3 => contradiction
  | case4 => contradiction
  | case5 escaped rest regular ih =>
    obtain ⟨⟨left, right⟩, found, same⟩ := Option.map_eq_some_iff.1 taken
    simp only [Prod.mk.injEq] at same
    obtain ⟨rfl, rfl⟩ := same
    simp [ih found]
  | case6 character rest _ _ _ ih =>
    obtain ⟨⟨left, right⟩, found, same⟩ := Option.map_eq_some_iff.1 taken
    simp only [Prod.mk.injEq] at same
    obtain ⟨rfl, rfl⟩ := same
    simp [ih found]

/-- A character inside an unquoted item of a bracketed list. -/
def isListItem (character : Char) : Bool := character != ',' && character != ']'

/-- The inside of brackets through the closing one, and the text after it. At the start of an
item a quoted span is taken whole if a closing bracket follows it somewhere; anything else runs to
the next comma or closing bracket. -/
def takeList (text : List Char) : List Char × List Char :=
  match text with
  | [] => ([], [])
  | ']' :: rest => ([']'], rest)
  | ',' :: rest =>
    let (inside, after) := takeList rest
    (',' :: inside, after)
  | character :: rest =>
    let run := rest.takeWhile isListItem
    let unquoted := takeList (rest.dropWhile isListItem)
    if character = '"' then
      match _taken : takeQuoted? rest with
      | some (quoted, others) =>
        if ']' ∈ others then
          let (inside, after) := takeList others
          ('"' :: quoted ++ '"' :: inside, after)
        else (character :: run ++ unquoted.1, unquoted.2)
      | none => (character :: run ++ unquoted.1, unquoted.2)
    else (character :: run ++ unquoted.1, unquoted.2)
termination_by text.length
decreasing_by
  · simp
  · exact Nat.lt_succ_of_le (List.dropWhile_suffix isListItem).length_le
  · simp only [takeQuoted?_eq _taken, List.length_append, List.length_cons]
    omega

/-- A list and the text after it are the text they were taken from. -/
theorem takeList_append (text : List Char) : (takeList text).1 ++ (takeList text).2 = text := by
  fun_induction takeList text with
  | case1 => rfl
  | case2 => rfl
  | case3 rest inside after taken ih => simp_all
  | case4 rest quoted others taken =>
    rw [takeQuoted?_eq taken]
    simp_all
  | case5 | case6 | case7 =>
    simp_all +zetaDelta [List.takeWhile_append_dropWhile]

/-- One piece of a filter value. -/
inductive Tile where
  /-- A comma between expressions. -/
  | comma
  /-- A name with arguments in brackets. -/
  | bracketed (text : List Char)
  /-- Everything up to the next comma or the end. -/
  | bare (text : List Char)
deriving DecidableEq

namespace Tile

/-- The characters of a tile. -/
def characters : Tile → List Char
  | comma => [',']
  | bracketed text => text
  | bare text => text

/-- The expression that a tile is, a comma being none. -/
def expression? : Tile → Option (List Char)
  | comma => none
  | bracketed text => some text
  | bare text => some text

end Tile

/-- A character of the qualified name before brackets. -/
def isNameCharacter (character : Char) : Bool := character != ',' && character != ':'

/-- A bracketed expression at the front of a text, and the text after it: a name, `:[`, at least
one character that does not close the brackets, and a closing bracket somewhere. -/
def takeBracketed? (text : List Char) : Option (List Char × List Char) :=
  let name := text.takeWhile isNameCharacter
  match text.dropWhile isNameCharacter with
  | ':' :: '[' :: body =>
    if name ≠ [] ∧ body.head? ≠ some ']' ∧ ']' ∈ body then
      some (name ++ ':' :: '[' :: (takeList body).1, (takeList body).2)
    else none
  | _ => none

/-- A bracketed expression is a name without commas and colons, a colon, and a list that begins with something
else than its closing bracket. -/
theorem takeBracketed?_cases {text expression after : List Char}
    (taken : takeBracketed? text = some (expression, after)) :
    ∃ name body, text = name ++ ':' :: '[' :: body ∧
      expression = name ++ ':' :: '[' :: (takeList body).1 ∧ after = (takeList body).2 ∧
      name ≠ [] ∧ (∀ character ∈ name, character ≠ ',' ∧ character ≠ ':') ∧
      body.head? ≠ some ']' ∧ ']' ∈ body := by
  have whole : text.takeWhile isNameCharacter ++ text.dropWhile isNameCharacter = text :=
    List.takeWhile_append_dropWhile
  simp only [takeBracketed?] at taken
  split at taken
  · next body shape =>
    split at taken
    · next opens =>
      obtain ⟨present, begins, closes⟩ := opens
      obtain ⟨rfl, rfl⟩ := Prod.mk.inj (Option.some.inj taken)
      refine ⟨text.takeWhile isNameCharacter, body, by rw [← shape, whole], rfl, rfl, present,
        fun character member => ?_, begins, closes⟩
      have named := List.all_eq_true.1 List.all_takeWhile character member
      simpa only [isNameCharacter, Bool.and_eq_true, bne_iff_ne] using named
    · contradiction
  · contradiction

/-- A bracketed expression and the text after it are the text they were taken from. -/
theorem takeBracketed?_eq {text expression after : List Char}
    (taken : takeBracketed? text = some (expression, after)) : text = expression ++ after := by
  obtain ⟨name, body, rfl, rfl, rfl, -⟩ := takeBracketed?_cases taken
  simp [takeList_append]

/-- A bracketed expression has characters. -/
theorem takeBracketed?_ne_nil {text expression after : List Char}
    (taken : takeBracketed? text = some (expression, after)) : expression ≠ [] := by
  obtain ⟨name, body, -, rfl, -⟩ := takeBracketed?_cases taken
  exact List.append_ne_nil_of_right_ne_nil name (List.cons_ne_nil _ _)

/-- The tiles of a filter value. -/
def tiles (value : List Char) : List Tile :=
  match value with
  | [] => []
  | ',' :: rest => .comma :: tiles rest
  | character :: rest =>
    match _taken : takeBracketed? (character :: rest) with
    | some (expression, after) => .bracketed expression :: tiles after
    | none =>
      .bare (character :: rest.takeWhile (· != ',')) :: tiles (rest.dropWhile (· != ','))
termination_by value.length
decreasing_by
  · simp
  · have shape := congrArg List.length (takeBracketed?_eq _taken)
    have size := List.length_pos_iff.2 (takeBracketed?_ne_nil _taken)
    rw [List.length_append] at shape
    omega
  · exact Nat.lt_succ_of_le (List.dropWhile_suffix _).length_le

/-- The tiles written one after the other are the value. -/
theorem flatMap_characters_tiles (value : List Char) :
    (tiles value).flatMap Tile.characters = value := by
  fun_induction tiles value with
  | case1 => rfl
  | case2 rest ih => simp [Tile.characters, ih]
  | case3 character rest _ expression after taken ih =>
    simp [Tile.characters, ih, ← takeBracketed?_eq taken]
  | case4 character rest _ _ ih => simp [Tile.characters, ih, List.takeWhile_append_dropWhile]

/-- The expressions of a filter value. -/
def expressions (value : List Char) : List (List Char) :=
  (tiles value).filterMap Tile.expression?

/-- A character of an unquoted argument. -/
def isArgumentCharacter (character : Char) : Bool :=
  character != ',' && character != ']' && character != '[' && character != '"'

/-- The arguments in a text: quoted spans without their quotes and runs of other characters; a
quote that nothing closes is passed over. -/
def arguments (text : List Char) : List (List Char) :=
  match text with
  | [] => []
  | character :: rest =>
    if character = '"' then
      match _taken : takeQuoted? rest with
      | some (quoted, after) => quoted :: arguments after
      | none => arguments rest
    else if isArgumentCharacter character then
      (character :: rest.takeWhile isArgumentCharacter) ::
        arguments (rest.dropWhile isArgumentCharacter)
    else arguments rest
termination_by text.length
decreasing_by
  · simp only [takeQuoted?_eq _taken, List.length_append, List.length_cons]
    omega
  · simp
  · exact Nat.lt_succ_of_le (List.dropWhile_suffix _).length_le
  · simp

/-- One filter asked for: where, under which name, with which arguments. -/
structure FilterCall where
  /-- The path it applies to. -/
  path : Path
  /-- Its name. -/
  name : String
  /-- Its arguments. -/
  arguments : List String
deriving DecidableEq

/-- The call that an expression writes: a qualified name, and the arguments after the first colon
if there is one. -/
def FilterCall.ofExpression (expression : List Char) : FilterCall :=
  match Text.splitFirst? ':' expression with
  | some (qualified, list) =>
    ⟨(Path.splitName qualified).1, (Path.splitName qualified).2,
      (Parameter.arguments list).map String.ofList⟩
  | none => ⟨(Path.splitName expression).1, (Path.splitName expression).2, []⟩

/-- Filter sets with one more call assigned. -/
def assignCall (sets : PathMap Filters) (call : FilterCall) : PathMap Filters :=
  sets.alter call.path fun present =>
    (present.getD Filters.empty).insert call.name call.arguments

/-- Filter sets by path. -/
def filters (value : List Char) : PathMap Filters :=
  ((expressions value).map FilterCall.ofExpression).foldl assignCall .empty

end ResourceQuery.Parameter
