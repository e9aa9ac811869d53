import ResourceQuery.Proofs.Statement.Texts

/-!
# The clauses of a statement

A reader that knows the quotes of a dialect and the keywords of the language cuts the text of a statement
into its clauses (`Dialect.clauses`): a clause begins at each keyword outside of names. It finds the source of
the rows in the first clause and their conditions in the one after it, unless that one begins with another
keyword. Whatever the names are, keywords among them, and whatever values an order lists further on, it finds
the source and the conditions that the statement was written of (`Statement.clauses_sql`). So the statements
for the rows of a selection and for their number have the same source and the same conditions, and the one for
the rows binds the bounds of its window besides (`Selection.countsItsRows`).
-/
namespace ResourceQuery

namespace Dialect

/-- What clauses begin with. -/
def keywords : List String := [" FROM ", " WHERE ", " ORDER BY ", " LIMIT ", " OFFSET "]

/-- A text goes on with a keyword. -/
def startsClause (text : List Char) : Bool := keywords.any fun keyword => keyword.toList.isPrefixOf text

/-- Clauses, the first of them with a text before it. -/
def after (text : List Char) (clauses : List (List Char)) : List (List Char) :=
  clauses.modifyHead (text ++ ·)

/-- The clauses in the rest of a text, the first one being the one that the reader is in; `inName` holds
between quotes. A doubled quote leaves a name and enters it again at once. -/
def clausesFrom (dialect : Dialect) : Bool → List Char → List (List Char)
  | _, [] => [[]]
  | inName, character :: rest =>
    let clauses := after [character] (dialect.clausesFrom (inName ^^ (character == dialect.quote)) rest)
    if !inName && startsClause (character :: rest) then [] :: clauses else clauses

/-- The clauses of a text, after what comes before the first keyword. -/
def clauses (dialect : Dialect) (text : String) : List String :=
  (dialect.clausesFrom false text.toList).map String.ofList

/-- The clause at a place, if it begins with a keyword. -/
def clause? (dialect : Dialect) (place : Nat) (keyword text : String) : Option String :=
  (dialect.clauses text)[place]?.filter fun clause => keyword.toList.isPrefixOf clause.toList

/-- The table in a text, in the first clause. -/
def source? (dialect : Dialect) (text : String) : Option String := dialect.clause? 1 " FROM " text

/-- The conditions in a text, in the clause after the source. -/
def conditions? (dialect : Dialect) (text : String) : Option String := dialect.clause? 2 " WHERE " text

/-- Neither of two texts begins with the other. -/
def clash (left right : List Char) : Bool := !left.isPrefixOf right && !right.isPrefixOf left

/-- No keyword begins inside of a text or across its end, unless a letter follows its last blank. -/
def isCalm : List Char → Bool
  | [] => true
  | character :: rest =>
    (character != ' ' || rest.isEmpty || keywords.all fun keyword => clash keyword.toList (character :: rest)) &&
      isPlainCharacter character && isCalm rest

/-- A text does not go on with a capital letter. -/
def isApart (text : List Char) : Bool := text.head?.all fun first => !first.isUpper

variable {dialect : Dialect}

/-- Keywords begin with a blank. -/
theorem startsClause_of_ne {character : Char} (other : character ≠ ' ') (rest : List Char) :
    startsClause (character :: rest) = false := by
  have apart : (' ' == character) = false := beq_false_of_ne other.symm
  simp [startsClause, keywords, List.isPrefixOf, apart]

/-- Keywords go on with a capital letter. -/
theorem startsClause_blank {rest : List Char} (apart : isApart rest = true) :
    startsClause (' ' :: rest) = false := by
  cases rest with
  | nil => decide
  | cons first others =>
    have ne : ∀ capital : Char, capital.isUpper = true → (capital == first) = false := by
      intro capital upper
      refine beq_false_of_ne ?_
      rintro rfl
      simp [isApart, upper] at apart
    simp [startsClause, keywords, List.isPrefixOf, ne]

/-- A text that clashes with a keyword does not begin with it, whatever follows. -/
theorem not_isPrefixOf_append {keyword text : List Char} (clashes : clash keyword text = true)
    (rest : List Char) : keyword.isPrefixOf (text ++ rest) = false := by
  simp only [clash, Bool.and_eq_true, Bool.not_eq_true', ← Bool.not_eq_true, List.isPrefixOf_iff_prefix]
    at clashes ⊢
  intro starts
  rcases List.prefix_or_prefix_of_prefix starts (List.prefix_append text rest) with short | long
  · exact clashes.1 short
  · exact clashes.2 long

/-- A text that clashes with every keyword does not go on with one, whatever follows. -/
theorem startsClause_of_clash {text : List Char}
    (clashes : (keywords.all fun keyword => clash keyword.toList text) = true) (rest : List Char) :
    startsClause (text ++ rest) = false := by
  refine List.any_eq_false.2 fun keyword member => Bool.not_eq_true _ ▸ ?_
  exact not_isPrefixOf_append (List.all_eq_true.1 clashes keyword member) rest

/-! ### Reading on in a clause -/

/-- No text before clauses. -/
theorem after_nil (clauses : List (List Char)) : after [] clauses = clauses := by
  cases clauses <;> rfl

/-- A text before clauses and another one before it. -/
theorem after_after (before text : List Char) (clauses : List (List Char)) :
    after before (after text clauses) = after (before ++ text) clauses := by
  cases clauses with
  | nil => rfl
  | cons clause others => simp [after]

/-- Outside of names a reader that meets no keyword stays in its clause. -/
theorem clausesFrom_outside {character : Char} {rest : List Char}
    (within : startsClause (character :: rest) = false) (plain : character ≠ dialect.quote) :
    dialect.clausesFrom false (character :: rest) =
      after [character] (dialect.clausesFrom false rest) := by
  have outside : (character == dialect.quote) = false := beq_false_of_ne plain
  simp [clausesFrom, within, outside]

/-- At a quote a reader stays in its clause and enters or leaves a name. -/
theorem clausesFrom_quote (inName : Bool) (rest : List Char) :
    dialect.clausesFrom inName (dialect.quote :: rest) =
      after [dialect.quote] (dialect.clausesFrom (!inName) rest) := by
  have within : startsClause (dialect.quote :: rest) = false :=
    startsClause_of_ne (by cases dialect <;> decide) rest
  simp [clausesFrom, within]

/-- Inside of a name a reader stays in its clause, whatever it meets. -/
theorem clausesFrom_inside (name rest : List Char) :
    let quoted := name.flatMap fun character =>
      if character = dialect.quote then [character, character] else [character]
    dialect.clausesFrom true (quoted ++ rest) =
      after quoted (dialect.clausesFrom true rest) := by
  induction name with
  | nil => exact (after_nil _).symm
  | cons character others ih =>
    simp only [List.flatMap_cons, List.append_assoc]
    by_cases quoted : character = dialect.quote
    · -- The first of two quotes leaves the name, the second enters it again.
      rw [if_pos quoted, quoted, List.cons_append, List.singleton_append, clausesFrom_quote, Bool.not_true,
        clausesFrom_quote, Bool.not_false, ih, after_after, after_after]
      rfl
    · have inside : (character == dialect.quote) = false := beq_false_of_ne quoted
      rw [if_neg quoted, List.singleton_append, clausesFrom, inside, Bool.xor_false, ih]
      exact after_after [character] _ _

/-- A quoted name is read over. -/
theorem clausesFrom_quoteName (name : String) (rest : List Char) :
    dialect.clausesFrom false (dialect.quoteName name ++ rest) =
      after (dialect.quoteName name) (dialect.clausesFrom false rest) := by
  rw [quoteName, List.cons_append, List.cons_append, clausesFrom_quote, Bool.not_false, List.append_assoc,
    clausesFrom_inside, List.singleton_append, clausesFrom_quote, Bool.not_true, after_after,
    after_after]
  rfl

/-- Text without blanks and quotes is read over. -/
theorem clausesFrom_solid {text : List Char}
    (solid : ∀ character ∈ text, character ≠ ' ' ∧ character ≠ dialect.quote) (rest : List Char) :
    dialect.clausesFrom false (text ++ rest) =
      after text (dialect.clausesFrom false rest) := by
  induction text with
  | nil => exact (after_nil _).symm
  | cons character others ih =>
    obtain ⟨visible, plain⟩ := solid character (.head others)
    rw [List.cons_append, clausesFrom_outside (startsClause_of_ne visible _) plain,
      ih fun other member => solid other (.tail character member)]
    exact after_after [character] others _

/-- A placeholder is read over. -/
theorem clausesFrom_placeholder (position : Nat) (rest : List Char) :
    dialect.clausesFrom false (dialect.placeholder position ++ rest) =
      after (dialect.placeholder position) (dialect.clausesFrom false rest) := by
  refine clausesFrom_solid (fun character member => ?_) rest
  rw [placeholder_eq] at member
  rcases List.mem_cons.1 member with rfl | member
  · cases dialect <;> decide
  · have decimal := isDigit_of_mem_digits member
    constructor
    · rintro rfl
      cases decimal
    · rintro rfl
      cases dialect <;> cases decimal

/-- Calm text is read over, where no capital letter follows. -/
theorem clausesFrom_calm {text rest : List Char} (calm : isCalm text = true) (apart : isApart rest = true) :
    dialect.clausesFrom false (text ++ rest) =
      after text (dialect.clausesFrom false rest) := by
  induction text with
  | nil => exact (after_nil _).symm
  | cons character others ih =>
    simp only [isCalm, Bool.and_eq_true, Bool.or_eq_true, bne_iff_ne] at calm
    obtain ⟨⟨here, plain⟩, later⟩ := calm
    have within : startsClause (character :: (others ++ rest)) = false := by
      by_cases visible : character = ' '
      · -- A blank at the end would begin a keyword together with what follows, if that were a capital letter.
        rcases here with (other | last) | clashes
        · exact absurd visible other
        · rw [List.isEmpty_iff.1 last, visible]
          exact startsClause_blank apart
        · exact startsClause_of_clash clashes rest
      · exact startsClause_of_ne visible _
    rw [List.cons_append, clausesFrom_outside within (ne_quote_of_plain plain), ih later]
    exact after_after [character] others _

end Dialect

/-! ### Pieces and clauses -/

namespace Piece

/-- Fixed text is calm and does not begin with a capital letter; of a literal nothing is known. -/
def isCalm : Piece → Bool
  | fixed text => !text.toList.isEmpty && Dialect.isApart text.toList && Dialect.isCalm text.toList
  | literal _ => false
  | _ => true

/-- The pieces are those of the clause with a keyword, or none. -/
inductive IsClause (keyword : String) : List Piece → Prop where
  /-- There is no such clause. -/
  | absent : IsClause keyword []
  /-- The keyword with calm pieces after it. -/
  | present (rest : List Piece) (calm : rest.all isCalm = true) : IsClause keyword (fixed keyword :: rest)

end Piece

namespace Dialect

variable {dialect : Dialect}

/-- Calm pieces do not begin with a capital letter. -/
theorem isApart_write {pieces : List Piece} (calm : pieces.all Piece.isCalm = true) {rest : List Char}
    (apart : isApart rest = true) (position : Nat) :
    isApart (dialect.write position pieces ++ rest) = true := by
  cases pieces with
  | nil => exact apart
  | cons piece others =>
    obtain ⟨here, -⟩ := Bool.and_eq_true_iff.1 (List.all_cons.symm.trans calm)
    cases piece with
    | fixed text =>
      simp only [Piece.isCalm, Bool.and_eq_true] at here
      obtain ⟨⟨present, begins⟩, -⟩ := here
      rw [write]
      cases characters : text.toList with
      | nil => simp [characters] at present
      | cons first later => simpa [isApart, characters] using begins
    | name name => cases dialect <;> rfl
    | bind value => cases dialect <;> rfl
    | literal value => contradiction

/-- Calm pieces are read over, where no capital letter follows. -/
theorem clausesFrom_write {pieces : List Piece} (calm : pieces.all Piece.isCalm = true) {rest : List Char}
    (apart : isApart rest = true) (position : Nat) :
    dialect.clausesFrom false (dialect.write position pieces ++ rest) =
      after (dialect.write position pieces) (dialect.clausesFrom false rest) := by
  induction pieces generalizing position with
  | nil => exact (after_nil _).symm
  | cons piece others ih =>
    obtain ⟨here, later⟩ := Bool.and_eq_true_iff.1 (List.all_cons.symm.trans calm)
    cases piece with
    | fixed text =>
      simp only [Piece.isCalm, Bool.and_eq_true] at here
      rw [write, List.append_assoc, clausesFrom_calm here.2 (isApart_write later apart position),
        ih later, after_after]
    | name name =>
      rw [write, List.append_assoc, clausesFrom_quoteName, ih later, after_after]
    | bind value =>
      rw [write, List.append_assoc, clausesFrom_placeholder, ih later, after_after]
    | literal value => contradiction

/-- The text of pieces one after the other. -/
theorem write_append (position : Nat) (pieces rest : List Piece) :
    dialect.write position (pieces ++ rest) =
      dialect.write position pieces ++ dialect.write (position + (boundValues pieces).length) rest := by
  induction pieces generalizing position with
  | nil => rfl
  | cons piece others ih =>
    cases piece with
    | fixed text | name text | literal value =>
      rw [List.cons_append, write, write, ih, List.append_assoc]
      rfl
    | bind value =>
      rw [List.cons_append, write, write, ih, List.append_assoc, Nat.add_assoc, Nat.add_comm 1]
      rfl

/-- After its blank a keyword is calm. -/
theorem exists_calm_of_mem_keywords {keyword : String} (known : keyword ∈ keywords) :
    ∃ rest, keyword.toList = ' ' :: rest ∧ isCalm rest = true := by
  simp only [keywords, List.mem_cons, List.not_mem_nil, or_false] at known
  rcases known with rfl | rfl | rfl | rfl | rfl <;> exact ⟨_, rfl, by decide⟩

/-- A reader begins a clause at a keyword. -/
theorem clausesFrom_clause {keyword : String} (known : keyword ∈ keywords) {clause : List Piece}
    (shaped : Piece.IsClause keyword clause) {rest : List Char} {clauses : List (List Char)}
    (apart : isApart rest = true) (later : dialect.clausesFrom false rest = [] :: clauses)
    (position : Nat) :
    dialect.clausesFrom false (dialect.write position clause ++ rest) =
        [] :: ((if clause = [] then [] else [dialect.write position clause]) ++ clauses) ∧
      isApart (dialect.write position clause ++ rest) = true := by
  cases shaped with
  | absent => exact ⟨later, apart⟩
  | present pieces calm =>
    obtain ⟨letters, blank, calmLetters⟩ := exists_calm_of_mem_keywords known
    have starts : startsClause (' ' :: (letters ++ (dialect.write position pieces ++ rest))) = true := by
      refine List.any_eq_true.2 ⟨keyword, known, ?_⟩
      rw [blank, ← List.cons_append]
      exact List.isPrefixOf_iff_prefix.2 (List.prefix_append _ _)
    have outside : (' ' == dialect.quote) = false := by cases dialect <;> rfl
    rw [write, blank, List.append_assoc]
    refine ⟨?_, rfl⟩
    rw [List.cons_append, clausesFrom, outside, Bool.xor_false,
      clausesFrom_calm calmLetters (isApart_write calm apart position), clausesFrom_write calm apart, later,
      starts, if_neg (List.cons_ne_nil _ _)]
    simp [after]

/-- There is always a clause that a reader is in. -/
theorem clausesFrom_ne_nil (inName : Bool) (text : List Char) : dialect.clausesFrom inName text ≠ [] := by
  induction text generalizing inName with
  | nil => exact List.cons_ne_nil _ _
  | cons character rest ih =>
    have within : after [character] (dialect.clausesFrom (inName ^^ (character == dialect.quote)) rest) ≠ [] :=
      fun none => ih _ (List.modifyHead_eq_nil_iff.1 none)
    rw [clausesFrom]
    split
    · exact List.cons_ne_nil _ _
    · exact within

/-- Whatever follows, a clause begins with the blank and the letter that its keyword begins with. -/
theorem clausesFrom_opening {letter : Char} {rest : List Char} (visible : letter ≠ ' ')
    (plain : letter ≠ dialect.quote) (starts : startsClause (' ' :: letter :: rest) = true) :
    ∃ first others, dialect.clausesFrom false (' ' :: letter :: rest) =
      [] :: (' ' :: letter :: first) :: others := by
  have outside : (' ' == dialect.quote) = false := by cases dialect <;> rfl
  obtain ⟨first, others, shape⟩ := List.exists_cons_of_ne_nil (@clausesFrom_ne_nil dialect false rest)
  refine ⟨first, others, ?_⟩
  rw [clausesFrom, starts, outside, Bool.xor_false, clausesFrom_outside (startsClause_of_ne visible rest) plain,
    shape]
  rfl

end Dialect

/-! ### The clauses of statements -/

namespace Piece

variable {separator : String}

/-- Calm lists stay calm with a calm separator between them. -/
theorem all_isCalm_separate (calm : isCalm (fixed separator) = true) {lists : List (List Piece)}
    (each : ∀ list ∈ lists, list.all isCalm = true) : (separate separator lists).all isCalm = true := by
  cases lists with
  | nil => rfl
  | cons first others =>
    have following : (others.flatMap fun list => fixed separator :: list).all isCalm = true := by
      refine List.all_flatMap.trans (List.all_eq_true.2 fun list member => ?_)
      exact Bool.and_eq_true_iff.2 ⟨calm, each list (.tail first member)⟩
    rw [separate_cons, List.all_append, each first (.head others), following]
    rfl

/-- A list comparison is calm. -/
theorem all_isCalm_member {operator : String} (calm : isCalm (fixed operator) = true) (column : String)
    (equalWhenEmpty : Bool) (values : List Bound) :
    (member column operator equalWhenEmpty values).all isCalm = true := by
  cases values with
  | nil => rfl
  | cons first others =>
    have listed : (separate ", " ((first :: others).map fun value => [bind value])).all isCalm = true := by
      refine all_isCalm_separate (by decide) fun list member => ?_
      obtain ⟨value, -, rfl⟩ := List.mem_map.1 member
      rfl
    rw [member.eq_2 _ _ _ _ (List.cons_ne_nil first others), List.all_append, List.all_append, listed]
    show (true && (isCalm (fixed operator) && _) && true && _) = true
    rw [calm]
    rfl

/-- A predicate is calm. -/
theorem all_isCalm_ofPredicate (predicate : Predicate) : (ofPredicate predicate).all isCalm = true := by
  obtain ⟨column, comparison, value⟩ := predicate
  cases comparison with
  | equal | notEqual =>
    simp only [ofPredicate]
    cases value.isNull <;> rfl
  | greater | atLeast | less | atMost | like | notLike | isNull | isNotNull => rfl
  | among | notAmong => exact all_isCalm_member (by decide) _ _ _

/-- The conditions are a clause. -/
theorem isClause_whereClause (conditions : List Predicate) :
    IsClause " WHERE " (whereClause conditions) := by
  cases conditions with
  | nil => exact .absent
  | cons first others =>
    rw [whereClause.eq_2 _ (List.cons_ne_nil first others)]
    refine .present _ (all_isCalm_separate (by decide) fun list member => ?_)
    obtain ⟨predicate, -, rfl⟩ := List.mem_map.1 member
    exact all_isCalm_ofPredicate predicate

/-- The table is a clause. -/
theorem isClause_source (table : String) : IsClause " FROM " [fixed " FROM ", name table] :=
  .present _ rfl

/-- The selected columns are calm. -/
theorem all_isCalm_ofColumns (columns : Option (List String)) :
    (ofColumns columns).all isCalm = true := by
  cases columns with
  | none => decide
  | some columns =>
    refine all_isCalm_separate (by decide) fun list member => ?_
    obtain ⟨column, -, rfl⟩ := List.mem_map.1 member
    rfl

/-- The value that a piece binds. -/
def value? : Piece → Option Bound
  | bind value => some value
  | _ => none

/-- The values bound are those among the operands. -/
theorem boundValues_eq (pieces : List Piece) : boundValues pieces = (operands pieces).filterMap value? := by
  induction pieces with
  | nil => rfl
  | cons piece rest ih =>
    cases piece with
    | fixed text | name text | literal value => exact ih
    | bind value => exact congrArg (value :: ·) ih

/-- Names bind no value. -/
theorem filterMap_value?_name (names : List String) : (names.map name).filterMap value? = [] := by
  rw [List.filterMap_map]
  exact List.filterMap_eq_nil_iff.2 fun _ _ => rfl

/-- Bound values are themselves. -/
theorem filterMap_value?_bind {α : Type} (value : α → Bound) (values : List α) :
    (values.map fun each => bind (value each)).filterMap value? = values.map value := by
  rw [List.filterMap_map]
  exact congrFun List.filterMap_eq_map values

end Piece

namespace Statement

/-- What a statement asks for. -/
def wanted : Statement → List Piece
  | rows columns .. => .fixed "SELECT " :: Piece.ofColumns columns
  | count .. => [.fixed "SELECT COUNT(*) AS ", .name "count"]

/-- The table that a statement reads. -/
def table : Statement → String
  | rows _ table .. => table
  | count table _ => table

/-- The conditions of a statement. -/
def conditions : Statement → List Predicate
  | rows _ _ conditions .. => conditions
  | count _ conditions => conditions

/-- The order and the bounds of a statement. -/
def window : Statement → List Piece
  | rows _ _ _ orders limit offset =>
    Piece.orderClause orders ++ Piece.windowClause " LIMIT " limit ++ Piece.windowClause " OFFSET " offset
  | count .. => []

/-- A statement is written of its clauses. -/
theorem pieces_eq (statement : Statement) :
    statement.pieces = statement.wanted ++ ([.fixed " FROM ", .name statement.table] ++
      (Piece.whereClause statement.conditions ++ statement.window)) := by
  cases statement with
  | rows | count => simp [pieces, wanted, table, conditions, window]

/-- The window is nothing, or begins with a keyword of its own. -/
theorem window_cases (statement : Statement) : statement.window = [] ∨
    ∃ keyword ∈ [" ORDER BY ", " LIMIT ", " OFFSET "], ∃ rest, statement.window = .fixed keyword :: rest := by
  cases statement with
  | count => exact .inl rfl
  | rows columns table conditions orders limit offset =>
    cases orders with
    | cons key others =>
      exact .inr ⟨_, .head _, _, by rw [window, Piece.orderClause.eq_2 _ (List.cons_ne_nil _ _)]; rfl⟩
    | nil =>
      cases limit with
      | some limit => exact .inr ⟨_, .tail _ (.head _), _, rfl⟩
      | none =>
        cases offset with
        | some offset => exact .inr ⟨_, .tail _ (.tail _ (.head _)), _, rfl⟩
        | none => exact .inl rfl

/-- Whatever an order lists, a reader finds no conditions at the beginning of a window. -/
theorem clausesFrom_window (dialect : Dialect) (statement : Statement) (position : Nat) :
    ∃ clauses, dialect.clausesFrom false (dialect.write position statement.window) = [] :: clauses ∧
      Dialect.isApart (dialect.write position statement.window) = true ∧
      ∀ first ∈ clauses.head?, " WHERE ".toList.isPrefixOf first = false := by
  rcases statement.window_cases with none | ⟨keyword, known, rest, begins⟩
  · rw [none]
    exact ⟨[], rfl, rfl, fun _ member => nomatch member⟩
  · have shape : ∃ letter more, keyword.toList = ' ' :: letter :: more ∧ letter ≠ ' ' ∧
        letter ≠ dialect.quote ∧ letter ≠ 'W' := by
      simp only [List.mem_cons, List.not_mem_nil, or_false] at known
      rcases known with rfl | rfl | rfl <;>
        exact ⟨_, _, rfl, by decide, by cases dialect <;> decide, by decide⟩
    have isKeyword : keyword ∈ Dialect.keywords := .tail _ (.tail _ known)
    obtain ⟨letter, more, letters, visible, plain, other⟩ := shape
    rw [begins, Dialect.write, letters]
    have starts : Dialect.startsClause (' ' :: letter :: (more ++ dialect.write position rest)) = true := by
      refine List.any_eq_true.2 ⟨keyword, isKeyword, ?_⟩
      rw [letters]
      exact List.isPrefixOf_iff_prefix.2 (List.prefix_append _ _)
    obtain ⟨first, others, found⟩ := Dialect.clausesFrom_opening visible plain starts
    refine ⟨_, found, rfl, fun clause member => ?_⟩
    obtain rfl := Option.some.inj member
    simp [List.isPrefixOf, beq_false_of_ne other.symm]

/-- What a statement asks for is fixed text with calm pieces after it, and it binds no value. -/
theorem exists_wanted (statement : Statement) :
    ∃ text rest, statement.wanted = .fixed text :: rest ∧ Dialect.isCalm text.toList = true ∧
      rest.all Piece.isCalm = true ∧ boundValues rest = [] := by
  cases statement with
  | rows columns =>
    refine ⟨_, _, rfl, by decide, Piece.all_isCalm_ofColumns columns, ?_⟩
    rw [Piece.boundValues_eq, Piece.operands_ofColumns]
    exact Piece.filterMap_value?_name _
  | count => exact ⟨_, _, rfl, by decide, rfl, rfl⟩

/-- A reader finds in the text of a statement what it asks for, then its source, and then its conditions if there
are any; what comes after begins with another keyword. -/
theorem clausesFrom_write (dialect : Dialect) (statement : Statement) :
    ∃ window, dialect.clausesFrom false (dialect.write 1 statement.pieces) =
        dialect.write 1 statement.wanted :: dialect.write 1 [.fixed " FROM ", .name statement.table] ::
          ((if Piece.whereClause statement.conditions = [] then []
            else [dialect.write 1 (Piece.whereClause statement.conditions)]) ++ window) ∧
      ∀ first ∈ window.head?, " WHERE ".toList.isPrefixOf first = false := by
  obtain ⟨text, rest, wanted, calmText, calmRest, unbound⟩ := statement.exists_wanted
  have next : 1 + (boundValues (.fixed text :: rest)).length = 1 := congrArg (1 + List.length ·) unbound
  have read : 1 + (boundValues [.fixed " FROM ", .name statement.table]).length = 1 := rfl
  obtain ⟨window, found, apart, otherwise⟩ := statement.clausesFrom_window dialect
    (1 + (boundValues (Piece.whereClause statement.conditions)).length)
  obtain ⟨conditions, apart⟩ := Dialect.clausesFrom_clause (by decide)
    (Piece.isClause_whereClause statement.conditions) apart found 1
  obtain ⟨source, apart⟩ := Dialect.clausesFrom_clause (by decide)
    (Piece.isClause_source statement.table) apart conditions 1
  refine ⟨window, ?_, otherwise⟩
  rw [pieces_eq, wanted, Dialect.write_append, next, Dialect.write_append, read, Dialect.write_append,
    Dialect.write, List.append_assoc, Dialect.clausesFrom_calm calmText (Dialect.isApart_write calmRest apart 1),
    Dialect.clausesFrom_write calmRest apart, source, Dialect.after_after, if_neg (List.cons_ne_nil _ _)]
  simp [Dialect.after]

/-- A reader cuts the text of a statement so. -/
theorem clauses_sql (dialect : Dialect) (statement : Statement) :
    ∃ window : List String, dialect.clauses (statement.sql dialect) =
        String.ofList (dialect.write 1 statement.wanted) ::
          (" FROM " ++ String.ofList (dialect.quoteName statement.table)) ::
          ((if Piece.whereClause statement.conditions = [] then []
            else [String.ofList (dialect.write 1 (Piece.whereClause statement.conditions))]) ++ window) ∧
      ∀ first ∈ window.head?, " WHERE ".toList.isPrefixOf first.toList = false := by
  obtain ⟨window, read, otherwise⟩ := statement.clausesFrom_write dialect
  have source : String.ofList (dialect.write 1 [.fixed " FROM ", .name statement.table]) =
      " FROM " ++ String.ofList (dialect.quoteName statement.table) := by
    rw [Dialect.write, Dialect.write, Dialect.write, List.append_nil, String.ofList_append, String.ofList_toList]
  refine ⟨window.map String.ofList, ?_, fun first member => ?_⟩
  · rw [Dialect.clauses, sql, String.toList_ofList, read, List.map_cons, List.map_cons, List.map_append, source,
      apply_ite (List.map String.ofList)]
    rfl
  · rw [List.head?_map] at member
    obtain ⟨clause, here, rfl⟩ := Option.map_eq_some_iff.1 member
    have letters : (String.ofList clause).toList = clause := String.toList_ofList
    rw [letters]
    exact otherwise clause here

/-- A keyword in a name begins no clause, though a quote comes before it. -/
example : Dialect.sqlite.clauses ((Statement.count "a\" WHERE b" []).sql .sqlite) =
    ["SELECT COUNT(*) AS \"count\"", " FROM \"a\"\" WHERE b\""] := rfl

/-- The table in the text of a statement. -/
theorem source?_sql (dialect : Dialect) (statement : Statement) :
    dialect.source? (statement.sql dialect) =
      some (" FROM " ++ String.ofList (dialect.quoteName statement.table)) := by
  obtain ⟨window, found, -⟩ := statement.clauses_sql dialect
  have begins : " FROM ".toList.isPrefixOf
      (" FROM " ++ String.ofList (dialect.quoteName statement.table)).toList = true := by
    rw [String.toList_append]
    exact List.isPrefixOf_iff_prefix.2 (List.prefix_append _ _)
  rw [Dialect.source?, Dialect.clause?, found, List.getElem?_cons_succ, List.getElem?_cons_zero,
    Option.filter_some, if_pos begins]

/-- The conditions in the text of a statement: their text, or nothing if there are none. -/
theorem conditions?_sql (dialect : Dialect) (statement : Statement) :
    dialect.conditions? (statement.sql dialect) =
      if Piece.whereClause statement.conditions = [] then none
      else some (String.ofList (dialect.write 1 (Piece.whereClause statement.conditions))) := by
  obtain ⟨window, found, otherwise⟩ := statement.clauses_sql dialect
  rw [Dialect.conditions?, Dialect.clause?, found, List.getElem?_cons_succ, List.getElem?_cons_succ]
  split
  · rw [List.nil_append, ← List.head?_eq_getElem?]
    cases window with
    | nil => rfl
    | cons first others =>
      rw [List.head?_cons, Option.filter_some, otherwise first rfl]
      rfl
  · next present =>
    have begins : " WHERE ".toList.isPrefixOf
        (String.ofList (dialect.write 1 (Piece.whereClause statement.conditions))).toList = true := by
      have letters : (String.ofList (dialect.write 1 (Piece.whereClause statement.conditions))).toList =
        dialect.write 1 (Piece.whereClause statement.conditions) := String.toList_ofList
      rw [letters]
      generalize Piece.whereClause statement.conditions = clause,
        Piece.isClause_whereClause statement.conditions = shaped at present ⊢
      cases shaped with
      | absent => exact absurd rfl present
      | present rest => exact List.isPrefixOf_iff_prefix.2 (List.prefix_append _ _)
    rw [List.singleton_append, List.getElem?_cons_zero, Option.filter_some, if_pos begins]

end Statement

namespace Selection

/-- How the statements for the rows of a selection and for their number agree in a dialect. -/
structure CountsItsRows (dialect : Dialect) (selection : Selection) : Prop where
  /-- The two have one text for the conditions. -/
  conditions : dialect.conditions? (selection.countStatement.sql dialect) =
    dialect.conditions? (selection.rowsStatement.sql dialect)
  /-- It is there unless there are no conditions. -/
  present : (dialect.conditions? (selection.countStatement.sql dialect)).isNone = selection.conditions.isEmpty
  /-- The two read one table. -/
  table : dialect.source? (selection.countStatement.sql dialect) =
    dialect.source? (selection.rowsStatement.sql dialect)
  /-- It is the one of the selection. -/
  source : dialect.source? (selection.countStatement.sql dialect) =
    some (" FROM " ++ String.ofList (dialect.quoteName selection.table))
  /-- The bounds of the window are bound last, by the statement for the rows alone. -/
  values : selection.rowsStatement.values = selection.countStatement.values ++
    selection.limit.toList.map .count ++ selection.offset.toList.map .count

variable (dialect : Dialect) (selection : Selection)

/-- The statements for the rows of a selection and for their number agree. -/
theorem countsItsRows : selection.CountsItsRows dialect := by
  have conditions := (selection.countStatement.conditions?_sql dialect).trans
    (selection.rowsStatement.conditions?_sql dialect).symm
  have source := selection.countStatement.source?_sql dialect
  refine ⟨conditions, ?_, source.trans (selection.rowsStatement.source?_sql dialect).symm, source, ?_⟩
  · rw [selection.countStatement.conditions?_sql]
    show Option.isNone (if Piece.whereClause selection.conditions = [] then _ else _) = _
    cases selection.conditions with
    | nil => rfl
    | cons first others =>
      rw [Piece.whereClause.eq_2 _ (List.cons_ne_nil first others), if_neg (List.cons_ne_nil _ _)]
      rfl
  · rw [Statement.values, Statement.values, Piece.boundValues_eq, Piece.boundValues_eq,
      operands_rowsStatement, operands_countStatement, operands, countOperands]
    simp only [List.filterMap_append, List.filterMap_cons, Piece.filterMap_value?_bind,
      Piece.filterMap_value?_name, Piece.value?, List.append_nil, List.nil_append]

end Selection

end ResourceQuery
