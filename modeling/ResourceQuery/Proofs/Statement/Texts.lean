import ResourceQuery.Proofs.Statement.Reading

/-!
# The texts of statements

A statement is written as spaced pieces (`Statement.spaced_pieces`), so a reader of its text meets the names
and placeholders of these pieces: the columns selected, the table, and what the predicates, the order and the
window are made of (`Selection.operands`), whatever characters the names hold. Values that an order lists are
in the text as they are; those with a quote in them take in a reader that does not know quoted texts
(`listed_quote_hides_limit`). The text is the same for predicates of one form (`Predicate.form`): of a value
it tells whether an equality is one with null, and of a list how many values it has.
-/
namespace ResourceQuery

/-! ### What a selection asks for -/

namespace Predicate

/-- What a predicate says apart from its values. -/
structure Form where
  /-- The column compared. -/
  column : String
  /-- The comparison. -/
  comparison : Comparison
  /-- It is an equality with null, or an inequality. -/
  isNull : Bool
  /-- The number of values of a list comparison, one for a value that is no list. -/
  length : Nat
deriving DecidableEq

/-- What a predicate says apart from its values. -/
def form (predicate : Predicate) : Form where
  column := predicate.column
  comparison := predicate.comparison
  isNull :=
    match predicate.comparison with
    | .equal | .notEqual => predicate.value.isNull
    | _ => false
  length :=
    match predicate.comparison, predicate.value with
    | .among, .array items | .notAmong, .array items => items.length
    | _, _ => 1

/-- The values that a predicate compares its column with. -/
def values (predicate : Predicate) : List Bound :=
  match predicate.comparison with
  | .equal | .notEqual => if predicate.value.isNull then [] else [.ofJson predicate.value]
  | .greater | .atLeast | .less | .atMost => [.ofJson predicate.value]
  | .like | .notLike => [.pattern predicate.value]
  | .among | .notAmong => Bound.list predicate.value
  | .isNull | .isNotNull => []

/-- The two constants compared in place of a column with a list without values: different ones for a
membership, equal ones for its negation. -/
def constants? (predicate : Predicate) : Option (List Bound) :=
  match predicate.comparison, predicate.value with
  | .among, .array [] => some [.constant 1, .constant 2]
  | .notAmong, .array [] => some [.constant 1, .constant 1]
  | _, _ => none

/-- The column that a predicate names, none where it compares constants. -/
def names (predicate : Predicate) : List String :=
  match predicate.constants? with
  | some _ => []
  | none => [predicate.column]

/-- The column of a predicate and after it the values, or the constants alone. -/
def operands (predicate : Predicate) : List Piece :=
  match predicate.constants? with
  | some constants => constants.map .bind
  | none => .name predicate.column :: predicate.values.map .bind

end Predicate

namespace SortKey

/-- The column of a sort key; listed values are compared with it one by one. -/
def names (key : SortKey) : List String :=
  match key.direction with
  | .listed values => List.replicate values.length key.column
  | _ => [key.column]

/-- The values that a sort key lists, if any, are plain. -/
def isPlain (key : SortKey) : Bool :=
  match key.direction with
  | .listed values => values.all Literal.isPlain
  | _ => true

end SortKey

namespace Selection

/-- The names of a selection in their order. -/
def names (selection : Selection) : List String :=
  selection.columns.getD [] ++ selection.table :: selection.conditions.flatMap Predicate.names ++
    selection.orders.flatMap SortKey.names

/-- The names and values of a selection in their order. -/
def operands (selection : Selection) : List Piece :=
  (selection.columns.getD []).map .name ++ .name selection.table ::
    selection.conditions.flatMap Predicate.operands ++
    (selection.orders.flatMap SortKey.names).map .name ++
    selection.limit.toList.map (fun limit => .bind (.count limit)) ++
    selection.offset.toList.map (fun offset => .bind (.count offset))

/-- The names and values of a selection's count. -/
def countOperands (selection : Selection) : List Piece :=
  .name "count" :: .name selection.table :: selection.conditions.flatMap Predicate.operands

end Selection

namespace Piece

/-- The name that a piece is. -/
def name? : Piece → Option String
  | name text => some text
  | _ => none

/-- The piece without its value. -/
def blank : Piece → Piece
  | bind _ => bind (.constant 0)
  | piece => piece

variable {separator : String} {pieces rest : List Piece} {texts : Bool}

/-! ### Separated pieces -/

/-- The first list, and every other one after the separator. -/
theorem separate_cons (pieces : List Piece) (others : List (List Piece)) :
    separate separator (pieces :: others) =
      pieces ++ others.flatMap fun list => fixed separator :: list := by
  induction others generalizing pieces with
  | nil => simp [separate]
  | cons next others ih =>
    have separated := ih next
    rw [separate] at separated ⊢
    rw [List.intercalate_cons_cons, separated, List.flatMap_cons, List.append_assoc]
    rfl

/-- The operands of pieces before others. -/
theorem operands_append (pieces rest : List Piece) :
    operands (pieces ++ rest) = operands pieces ++ operands rest := List.filter_append pieces rest

/-- The separator holds no name and no value. -/
theorem operands_separate (lists : List (List Piece)) :
    operands (separate separator lists) = lists.flatMap operands := by
  cases lists with
  | nil => rfl
  | cons pieces others =>
    rw [separate_cons, operands_append, operands, operands, List.filter_flatMap]
    rfl

/-- Spaced pieces stay spaced before others that start with fixed text. -/
theorem spaced_append (before : spaced texts pieces = true) (after : spaced texts rest = true)
    (fixed : startsFixed rest = true) : spaced texts (pieces ++ rest) = true := by
  induction pieces with
  | nil => exact after
  | cons piece others ih =>
    obtain ⟨here, later⟩ := Bool.and_eq_true_iff.1 before
    refine Bool.and_eq_true_iff.2 ⟨?_, ih later⟩
    cases piece with
    | fixed text | literal value => exact here
    | name text | bind value =>
      cases others with
      | nil => exact fixed
      | cons next others => exact here

/-- Spaced lists stay spaced with a plain separator between them. -/
theorem spaced_separate (plain : isPlain separator = true) {lists : List (List Piece)}
    (each : ∀ list ∈ lists, spaced texts list = true) : spaced texts (separate separator lists) = true := by
  cases lists with
  | nil => rfl
  | cons first others =>
    have following : ∀ lists : List (List Piece), (∀ list ∈ lists, spaced texts list = true) →
        spaced texts (lists.flatMap fun list => fixed separator :: list) = true ∧
          startsFixed (lists.flatMap fun list => fixed separator :: list) = true := by
      intro lists each
      induction lists with
      | nil => exact ⟨rfl, rfl⟩
      | cons list lists ih =>
        obtain ⟨later, start⟩ := ih fun other member => each other (.tail list member)
        rw [List.flatMap_cons, List.cons_append]
        exact ⟨Bool.and_eq_true_iff.2 ⟨plain, spaced_append (each list (.head lists)) later start⟩, rfl⟩
    obtain ⟨later, start⟩ := following others fun list member => each list (.tail first member)
    rw [separate_cons]
    exact spaced_append (each first (.head others)) later start

/-- A list comparison is spaced. -/
theorem spaced_member {operator : String} (plain : isPlain operator = true) (column : String)
    (equalWhenEmpty : Bool) (values : List Bound) :
    spaced texts (member column operator equalWhenEmpty values) = true := by
  cases values with
  | nil => rfl
  | cons first others =>
    rw [member]
    · have listed : spaced texts (separate ", " ((first :: others).map fun value => [bind value])) = true := by
        refine spaced_separate rfl fun list member => ?_
        obtain ⟨value, -, rfl⟩ := List.mem_map.1 member
        rfl
      have closed : spaced texts (_ ++ [fixed ")"]) = true := spaced_append listed rfl rfl
      rw [List.append_assoc]
      simp only [List.cons_append, List.nil_append, spaced, isSpacedBefore, startsFixed, List.head?_cons,
        Option.all_some, isFixed, plain, closed, Bool.and_true]
      rfl
    · exact List.cons_ne_nil first others

/-- A predicate is spaced. -/
theorem spaced_ofPredicate (predicate : Predicate) : spaced texts (ofPredicate predicate) = true := by
  obtain ⟨column, comparison, value⟩ := predicate
  cases comparison with
  | equal | notEqual =>
    simp only [ofPredicate]
    cases value.isNull <;> rfl
  | greater | atLeast | less | atMost | like | notLike | isNull | isNotNull => rfl
  | among | notAmong => exact spaced_member rfl _ _ _

/-- The conditions are spaced and start with fixed text. -/
theorem spaced_whereClause (conditions : List Predicate) :
    spaced texts (whereClause conditions) = true ∧ startsFixed (whereClause conditions) = true := by
  cases conditions with
  | nil => exact ⟨rfl, rfl⟩
  | cons first others =>
    rw [whereClause.eq_2 _ (List.cons_ne_nil first others)]
    refine ⟨Bool.and_eq_true_iff.2 ⟨rfl, spaced_separate rfl fun list member => ?_⟩, rfl⟩
    obtain ⟨predicate, -, rfl⟩ := List.mem_map.1 member
    exact spaced_ofPredicate predicate

/-- Text around a number is plain. -/
theorem isPlain_number (before after : String) (number : Nat) (present : isPlain before = true)
    (plain : after.toList.all isPlainCharacter = true) :
    isPlain (before ++ toString number ++ after) = true := by
  have digits : (Nat.toDigits 10 number).all isPlainCharacter = true := by
    refine List.all_eq_true.2 fun digit member => ?_
    have decimal := Nat.isDigit_of_mem_toDigits (by decide) (by decide) member
    have apart : ∀ other : Char, other.isDigit = false → (digit != other) = true := by
      intro other unlike
      refine bne_iff_ne.2 ?_
      rintro rfl
      exact absurd decimal (by simp [unlike])
    simp only [isPlainCharacter, apart '"' rfl, apart '\x60' rfl, apart '\x27' rfl, apart '?' rfl, apart '$' rfl,
      Bool.and_self]
  obtain ⟨first, plainBefore⟩ := Bool.and_eq_true_iff.1 present
  have characters : (before ++ toString number ++ after).toList =
      before.toList ++ (Nat.toDigits 10 number ++ after.toList) := by
    simp [toString, Nat.repr]
  rw [isPlain, characters, List.all_append, List.all_append, plainBefore, digits, plain]
  cases letters : before.toList with
  | nil => simp [letters] at first
  | cons letter others => simpa [letters] using first

/-- Listed values are spaced for a reader of quoted texts, and plain ones for every reader. -/
theorem spaced_listed (column : String) {values : List (Literal × Nat)}
    (plain : ∀ value ∈ values, (texts || value.1.isPlain) = true) {rest : List Piece}
    (after : spaced texts rest = true) :
    spaced texts (values.flatMap (fun (value, place) => ofListed column value place) ++ rest) = true := by
  induction values with
  | nil => exact after
  | cons value others ih =>
    have later := ih fun other member => plain other (.tail value member)
    have place : isPlain (" THEN " ++ toString value.2 ++ " ") = true := isPlain_number _ _ _ rfl rfl
    rw [List.flatMap_cons, List.append_assoc]
    simp only [ofListed, List.cons_append, List.nil_append, spaced, isSpacedBefore, Bool.and_eq_true]
    exact ⟨rfl, rfl, rfl, plain value (.head others), place, later⟩

/-- A sort key is spaced for a reader of quoted texts, and for every reader if it lists plain values at most. -/
theorem spaced_ofSortKey {key : SortKey} (plain : (texts || key.isPlain) = true) :
    spaced texts (ofSortKey key) = true := by
  obtain ⟨column, direction⟩ := key
  cases direction with
  | ascending | descending => rfl
  | listed values =>
    have each : ∀ value ∈ values.zipIdx, (texts || value.1.isPlain) = true := by
      intro value member
      rcases Bool.or_eq_true_iff.1 plain with known | all
      · rw [known, Bool.true_or]
      · rw [List.all_eq_true.1 all value.1 (List.fst_mem_of_mem_zipIdx member), Bool.or_true]
    have closing : spaced texts [fixed ("ELSE " ++ toString values.length ++ " END")] = true :=
      Bool.and_eq_true_iff.2 ⟨isPlain_number _ _ _ rfl rfl, rfl⟩
    exact Bool.and_eq_true_iff.2 ⟨rfl, spaced_listed column each closing⟩

/-- An order is spaced where its keys are, and it starts with fixed text. -/
theorem spaced_orderClause {orders : List SortKey} (plain : ∀ key ∈ orders, (texts || key.isPlain) = true) :
    spaced texts (orderClause orders) = true ∧ startsFixed (orderClause orders) = true := by
  cases orders with
  | nil => exact ⟨rfl, rfl⟩
  | cons first others =>
    rw [orderClause.eq_2 _ (List.cons_ne_nil first others)]
    refine ⟨Bool.and_eq_true_iff.2 ⟨rfl, spaced_separate rfl fun list member => ?_⟩, rfl⟩
    obtain ⟨key, listed, rfl⟩ := List.mem_map.1 member
    exact spaced_ofSortKey (plain key listed)

/-- The selected columns are spaced. -/
theorem spaced_ofColumns (columns : Option (List String)) : spaced texts (ofColumns columns) = true := by
  cases columns with
  | none => rfl
  | some columns =>
    refine spaced_separate rfl fun list member => ?_
    obtain ⟨column, -, rfl⟩ := List.mem_map.1 member
    rfl

/-- A bound on the rows is spaced and starts with fixed text. -/
theorem spaced_windowClause (keyword : String) (plain : isPlain keyword = true) (count : Option Nat) :
    spaced texts (windowClause keyword count) = true ∧ startsFixed (windowClause keyword count) = true := by
  cases count with
  | none => exact ⟨rfl, rfl⟩
  | some count => exact ⟨Bool.and_eq_true_iff.2 ⟨plain, rfl⟩, rfl⟩

end Piece

/-- The keys by which a statement orders its rows. -/
def Statement.orders : Statement → List SortKey
  | rows _ _ _ orders .. => orders
  | count .. => []

/-- The pieces of a statement are spaced for a reader of quoted texts, and for every reader if its order lists
plain values at most. -/
theorem Statement.spaced_pieces {texts : Bool} {statement : Statement}
    (plain : ∀ key ∈ statement.orders, (texts || key.isPlain) = true) :
    Piece.spaced texts statement.pieces = true := by
  cases statement with
  | rows columns table conditions orders limit offset =>
    obtain ⟨conditionsSpaced, conditionsStart⟩ := Piece.spaced_whereClause conditions
    obtain ⟨orderSpaced, orderStart⟩ := Piece.spaced_orderClause plain
    obtain ⟨limitSpaced, limitStart⟩ := Piece.spaced_windowClause " LIMIT " rfl limit
    obtain ⟨offsetSpaced, offsetStart⟩ := Piece.spaced_windowClause " OFFSET " rfl offset
    have selected : Piece.spaced texts (.fixed "SELECT " :: Piece.ofColumns columns) = true :=
      Bool.and_eq_true_iff.2 ⟨rfl, Piece.spaced_ofColumns columns⟩
    have source : Piece.spaced texts (.fixed " FROM " :: .name table :: Piece.whereClause conditions) = true :=
      Bool.and_eq_true_iff.2 ⟨rfl, Bool.and_eq_true_iff.2 ⟨conditionsStart, conditionsSpaced⟩⟩
    exact Piece.spaced_append (Piece.spaced_append (Piece.spaced_append
      (Piece.spaced_append selected source rfl) orderSpaced orderStart) limitSpaced limitStart)
      offsetSpaced offsetStart
  | count table conditions =>
    obtain ⟨conditionsSpaced, conditionsStart⟩ := Piece.spaced_whereClause conditions
    refine Bool.and_eq_true_iff.2 ⟨rfl, Bool.and_eq_true_iff.2 ⟨rfl, Bool.and_eq_true_iff.2 ⟨rfl, ?_⟩⟩⟩
    exact Bool.and_eq_true_iff.2 ⟨conditionsStart, conditionsSpaced⟩

/-! ### Names and values of pieces -/

namespace Piece

/-- The names among the tokens of pieces are the names among the pieces. -/
theorem names_tokens (dialect : Dialect) (position : Nat) (pieces : List Piece) :
    Token.names (tokens dialect position pieces) = (operands pieces).filterMap name? := by
  induction pieces generalizing position with
  | nil => rfl
  | cons piece rest ih =>
    cases piece with
    | fixed text | bind value | literal value => exact ih _
    | name text => exact congrArg (text :: ·) (ih position)

/-- There is one placeholder for every value. -/
theorem placeholders_tokens (dialect : Dialect) (position : Nat) (pieces : List Piece) :
    Token.placeholders (tokens dialect position pieces) =
      (List.range' position (boundValues pieces).length).map dialect.number := by
  induction pieces generalizing position with
  | nil => rfl
  | cons piece rest ih =>
    cases piece with
    | fixed text | name text | literal value => exact ih position
    | bind value => exact congrArg (dialect.number position :: ·) (ih (position + 1))

/-- With the values at their placeholders the tokens are the names and bound values again. -/
theorem operands_tokens (dialect : Dialect) (before : List Bound) (pieces : List Piece) :
    Token.operands (before ++ boundValues pieces) (before.length + 1)
      (tokens dialect (before.length + 1) pieces) = operands pieces := by
  induction pieces generalizing before with
  | nil => rfl
  | cons piece rest ih =>
    cases piece with
    | fixed text | literal value => exact ih before
    | name text => exact congrArg (name text :: ·) (ih before)
    | bind value =>
      have later := ih (before ++ [value])
      rw [List.append_assoc, List.singleton_append, List.length_append, List.length_singleton] at later
      have position : (dialect.number (before.length + 1)).getD (before.length + 1) - 1 = before.length := by
        cases dialect <;> rfl
      have found : (before ++ value :: boundValues rest)[before.length]? = some value := by simp
      show (Option.map bind (before ++ value :: boundValues rest)[_]?).toList ++ _ = bind value :: operands rest
      rw [position, found, ← later]
      rfl

/-- The operands of a comparison with a list that has values: the column and the values. -/
theorem operands_member (column operator : String) (equalWhenEmpty : Bool) {values : List Bound}
    (present : values ≠ []) :
    operands (member column operator equalWhenEmpty values) = name column :: values.map bind := by
  have listed : operands (separate ", " (values.map fun value => [bind value])) = values.map bind := by
    rw [operands_separate, List.flatMap_map, List.map_eq_flatMap]
    rfl
  rw [member.eq_2 _ _ _ _ present, operands_append, operands_append, listed]
  exact congrArg (name column :: ·) (List.append_nil _)

/-- The operands of a predicate. -/
theorem operands_ofPredicate (predicate : Predicate) :
    operands (ofPredicate predicate) = predicate.operands := by
  obtain ⟨column, comparison, value⟩ := predicate
  cases comparison with
  | equal | notEqual =>
    simp only [ofPredicate, Predicate.operands, Predicate.constants?, Predicate.values]
    cases value.isNull <;> rfl
  | greater | atLeast | less | atMost | like | notLike | isNull | isNotNull => rfl
  | among =>
    cases value with
    | array items =>
      cases items with
      | nil => rfl
      | cons first others => exact operands_member column " IN" false (List.cons_ne_nil _ _)
    | null | bool | number | string | object => rfl
  | notAmong =>
    cases value with
    | array items =>
      cases items with
      | nil => rfl
      | cons first others => exact operands_member column " NOT IN" true (List.cons_ne_nil _ _)
    | null | bool | number | string | object => rfl

/-- The operands of conditions. -/
theorem operands_whereClause (conditions : List Predicate) :
    operands (whereClause conditions) = conditions.flatMap Predicate.operands := by
  cases conditions with
  | nil => rfl
  | cons first others =>
    have each : (fun predicate => operands (ofPredicate predicate)) = Predicate.operands :=
      funext operands_ofPredicate
    rw [whereClause.eq_2 _ (List.cons_ne_nil first others), ← each, ← List.flatMap_map, ← operands_separate]
    rfl

/-- The operands of a sort key are its column, once for each listed value. -/
theorem operands_ofSortKey (key : SortKey) : operands (ofSortKey key) = key.names.map name := by
  obtain ⟨column, direction⟩ := key
  cases direction with
  | ascending | descending => rfl
  | listed values =>
    have each : ∀ (values : List Literal) (place : Nat),
        operands ((values.zipIdx place).flatMap fun (value, place) => ofListed column value place) =
          List.replicate values.length (name column) := by
      intro values
      induction values with
      | nil => exact fun _ => rfl
      | cons value others ih => exact fun place => congrArg (name column :: ·) (ih (place + 1))
    show operands (_ ++ [fixed _]) = (List.replicate values.length column).map name
    rw [operands_append, List.map_replicate, ← each values 0]
    exact List.append_nil _

/-- The operands of an order are its columns. -/
theorem operands_orderClause (orders : List SortKey) :
    operands (orderClause orders) = (orders.flatMap SortKey.names).map name := by
  cases orders with
  | nil => rfl
  | cons first others =>
    have each : (fun key => operands (ofSortKey key)) = fun key => key.names.map name :=
      funext operands_ofSortKey
    rw [orderClause.eq_2 _ (List.cons_ne_nil first others), List.map_flatMap, ← each, ← List.flatMap_map,
      ← operands_separate]
    rfl

/-- The operands of the selected columns. -/
theorem operands_ofColumns (columns : Option (List String)) :
    operands (ofColumns columns) = (columns.getD []).map name := by
  cases columns with
  | none => rfl
  | some columns =>
    rw [ofColumns, operands_separate, List.flatMap_map, Option.getD_some, List.map_eq_flatMap]
    rfl

/-- The operand of a bound on the rows. -/
theorem operands_windowClause (keyword : String) (count : Option Nat) :
    operands (windowClause keyword count) = count.toList.map fun count => bind (.count count) := by
  cases count <;> rfl

end Piece

namespace Selection

variable (selection : Selection)

/-- The operands of the statement for rows. -/
theorem operands_rowsStatement :
    Piece.operands selection.rowsStatement.pieces = selection.operands := by
  have selected : Piece.operands (.fixed "SELECT " :: Piece.ofColumns selection.columns) =
      (selection.columns.getD []).map .name := Piece.operands_ofColumns selection.columns
  have source : Piece.operands (.fixed " FROM " :: .name selection.table ::
      Piece.whereClause selection.conditions) =
        .name selection.table :: selection.conditions.flatMap Predicate.operands :=
    congrArg _ (Piece.operands_whereClause selection.conditions)
  rw [rowsStatement, Statement.pieces, Piece.operands_append, Piece.operands_append, Piece.operands_append,
    Piece.operands_append, selected, source, Piece.operands_orderClause, Piece.operands_windowClause,
    Piece.operands_windowClause, operands]

/-- The operands of the statement for the number of rows. -/
theorem operands_countStatement :
    Piece.operands selection.countStatement.pieces = selection.countOperands :=
  congrArg (_ :: _ :: ·) (Piece.operands_whereClause selection.conditions)

end Selection

/-! ### The names among operands -/

namespace Piece

/-- Bound values are no names. -/
theorem names_bind {α : Type} (value : α → Bound) (values : List α) :
    (values.map fun each => bind (value each)).filterMap name? = [] := by
  rw [List.filterMap_map]
  exact List.filterMap_eq_nil_iff.2 fun _ _ => rfl

/-- Names are themselves. -/
theorem names_name (names : List String) : (names.map name).filterMap name? = names := by
  rw [List.filterMap_map]
  exact List.filterMap_some

end Piece

/-- The names of a predicate are those among its operands. -/
theorem Predicate.names_operands (predicate : Predicate) :
    predicate.operands.filterMap Piece.name? = predicate.names := by
  unfold operands names
  cases predicate.constants? with
  | none => exact congrArg (predicate.column :: ·) (Piece.names_bind id predicate.values)
  | some constants => exact Piece.names_bind id constants

namespace Selection

variable (selection : Selection)

/-- The names of conditions are those among their operands. -/
theorem names_conditions (conditions : List Predicate) :
    (conditions.flatMap Predicate.operands).filterMap Piece.name? =
      conditions.flatMap Predicate.names := by
  have each : (fun predicate : Predicate => predicate.operands.filterMap Piece.name?) = Predicate.names :=
    funext Predicate.names_operands
  rw [List.filterMap_flatMap, each]

/-- The names of a selection are those among its operands. -/
theorem names_operands : selection.operands.filterMap Piece.name? = selection.names := by
  have source : (Piece.name selection.table :: selection.conditions.flatMap Predicate.operands).filterMap
      Piece.name? = selection.table :: selection.conditions.flatMap Predicate.names :=
    congrArg (_ :: ·) (names_conditions selection.conditions)
  rw [operands, List.filterMap_append, List.filterMap_append, List.filterMap_append, List.filterMap_append,
    Piece.names_bind, Piece.names_bind, Piece.names_name, source, Piece.names_name, List.append_nil,
    List.append_nil, names]

end Selection

/-! ### Texts and what is read in them -/

namespace Statement

/-- What a reader finds in the text of a statement: the names; one placeholder for every bound value, in
their order; and, with the values at their placeholders, the operands. -/
structure Reads (dialect : Dialect) (texts : Bool) (statement : Statement) (names : List String)
    (operands : List Piece) : Prop where
  /-- The quoted names stand for the names. -/
  names : Token.names (dialect.tokens texts (statement.sql dialect)) = names
  /-- The placeholders are those of the values from the first to the last. -/
  placeholders : Token.placeholders (dialect.tokens texts (statement.sql dialect)) =
    (List.range' 1 statement.values.length).map dialect.number
  /-- Every value is where it belongs among the names. -/
  operands : Token.operands statement.values 1 (dialect.tokens texts (statement.sql dialect)) = operands

/-- A reader of quoted texts finds the operands of the pieces, and every reader if the order lists plain values
at most. -/
theorem reads (dialect : Dialect) {texts : Bool} {statement : Statement}
    (plain : ∀ key ∈ statement.orders, (texts || key.isPlain) = true) :
    statement.Reads dialect texts ((Piece.operands statement.pieces).filterMap Piece.name?)
      (Piece.operands statement.pieces) := by
  have met : dialect.tokens texts (statement.sql dialect) = Piece.tokens dialect 1 statement.pieces := by
    rw [Dialect.tokens, sql, String.toList_ofList]
    exact Dialect.tokensFrom_write (spaced_pieces plain) 1
  constructor
  · rw [met]
    exact Piece.names_tokens dialect 1 statement.pieces
  · rw [met]
    exact Piece.placeholders_tokens dialect 1 statement.pieces
  · rw [met]
    exact Piece.operands_tokens dialect [] statement.pieces

end Statement

/-- The text of a seven, and that of a text with the quote of a name, a doubled quote and a placeholder. -/
def sevenAndQuotes : List Literal :=
  [⟨"7", "7", "7", by decide, by decide, by decide⟩,
    ⟨"'\"it''s?'", "'\"it\\'s?'", "E'\"it\\'s?'", by decide, by decide, by decide⟩]

/-- A reader that knows no quoted texts takes a quote in a listed value for the beginning of a name, and misses the
placeholder after it. -/
theorem listed_quote_hides_limit :
    let selection : Selection :=
      { entity := "people", table := "people", primaryKey := "id", foreignKey := none, columns := none,
        conditions := [], orders := [⟨"name", .listed sevenAndQuotes⟩], offset := none, limit := some 3 }
    selection.rowsStatement.values = [.count 3] ∧
      Token.placeholders (Dialect.sqlite.tokens true (selection.rowsStatement.sql .sqlite)) = [none] ∧
      Token.placeholders (Dialect.sqlite.tokens false (selection.rowsStatement.sql .sqlite)) = [] := by
  decide +kernel

end ResourceQuery
