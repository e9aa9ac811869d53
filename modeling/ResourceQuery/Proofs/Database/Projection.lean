import ResourceQuery.Database.Loading
import ResourceQuery.Proofs.Json.Keep
import ResourceQuery.Proofs.Query.Unrestricted

/-!
# Loading less is projecting what is loaded

For a database whose column lists merely project (`Projecting`), a query with column lists loads what the
same query without them loads, each row kept to the columns of its node and the relations included there
(`Database.loads_of_joins`). This needs that the columns by which rows are matched are selected at every
node and that no included relation takes the place of one (`Query.Joins`): then both queries ask for the
related rows of the same keys.
-/
namespace ResourceQuery

variable {σ α : Type}

/-- A session with an outcome that does not depend on the state and leaves it as it is. -/
def settled (outcome : Except DatabaseError α) : Session σ α := ExceptT.mk fun state => (outcome, state)

/-- The database that answers every statement as a function of it. -/
def Database.answering (answer : Statement → Except DatabaseError (List Json)) : Database σ :=
  ⟨fun statement => settled (answer statement)⟩

/-- Rows are objects, and a list of columns keeps of the same rows what it lists. -/
structure Projecting (answer : Statement → Except DatabaseError (List Json)) : Prop where
  /-- Every row is an object. -/
  objects : ∀ statement rows, answer statement = .ok rows → ∀ row ∈ rows, row.IsObject
  /-- The rows with listed columns are the rows with all columns, each with the listed ones. -/
  columns : ∀ names table conditions orders limit offset,
    answer (.rows (some names) table conditions orders limit offset) =
      (answer (.rows none table conditions orders limit offset)).map (List.map (Json.project names))

/-- The answers of tables of which every row meets what is asked and fits the window. -/
def Database.wholeTables (tables : String → List Json) : Statement → Except DatabaseError (List Json)
  | .rows none table _ _ _ _ => .ok (tables table)
  | .rows (some names) table _ _ _ _ => .ok ((tables table).map (Json.project names))
  | .count table _ => .ok [.ofMembers [("count", .natural (tables table).length)]]

/-- Tables of objects answer with objects, and column lists project them. -/
theorem Database.projecting_wholeTables {tables : String → List Json}
    (objects : ∀ table, ∀ row ∈ tables table, row.IsObject) : Projecting (wholeTables tables) where
  objects statement rows answered row member := by
    cases statement with
    | rows columns table conditions orders limit offset =>
      cases columns with
      | none =>
        have same := Except.ok.inj answered
        subst same
        exact objects table row member
      | some names =>
        have same := Except.ok.inj answered
        subst same
        obtain ⟨whole, listed, rfl⟩ := List.mem_map.1 member
        exact (objects table whole listed).project names
    | count table conditions =>
      have same := Except.ok.inj answered
      subst same
      have same := List.mem_singleton.1 member
      subst same
      exact Json.isObject_ofMembers _
  columns names table conditions orders limit offset := rfl

/-- A count of rows is read as it is, as long as it is an integer of 64 bits. -/
theorem Database.countOf_ofMembers {count : Nat} (small : (count : Int) ≤ Text.int64Max) :
    countOf [.ofMembers [("count", .natural count)]] = .ok count := by
  have read : ((Json.ofMembers [("count", .natural count)]).member? "count").bind Json.int64? =
      some (count : Int) := by
    have low : Text.int64Min ≤ (count : Int) := by simp only [Text.int64Min]; omega
    exact if_pos ⟨low, small⟩
  simp only [countOf, read, Int.toNat_natCast]

/-- Rows are counted by their statement, as long as their number is an integer of 64 bits. -/
theorem Database.total_answering {answer : Statement → Except DatabaseError (List Json)} {query : Query}
    {count : Nat} (counted : answer query.selection.countStatement =
      .ok [.ofMembers [("count", .natural count)]]) (small : (count : Int) ≤ Text.int64Max) :
    (Database.answering answer : Database σ).total query = settled (.ok count) := by
  have statement : (Database.answering answer : Database σ).run query.selection.countStatement =
      settled (.ok [.ofMembers [("count", .natural count)]]) := congrArg settled counted
  rw [Database.total, statement]
  show (MonadExcept.ofExcept (Database.countOf [.ofMembers [("count", .natural count)]]) : Session σ Nat) = _
  rw [Database.countOf_ofMembers small]
  rfl

/-- One session gives the objects of another, as a rule keeps them. -/
def Keeps (rule : KeepRule) (whole kept : Session σ (List Json)) : Prop :=
  ∃ outcome : Except DatabaseError (List Json), whole = settled outcome ∧
    kept = settled (outcome.map (List.map (Json.keep rule))) ∧
    ∀ rows, outcome = .ok rows → ∀ row ∈ rows, row.IsObject

/-- Sessions that go on alike after objects and what a rule keeps of them are alike. -/
theorem Keeps.bind {before after : KeepRule} {whole kept : Session σ (List Json)}
    {wholeNext keptNext : List Json → Session σ (List Json)} (first : Keeps before whole kept)
    (next : ∀ rows : List Json, (∀ row ∈ rows, row.IsObject) →
      Keeps after (wholeNext rows) (keptNext (rows.map (Json.keep before)))) :
    Keeps after (whole >>= wholeNext) (kept >>= keptNext) := by
  obtain ⟨outcome, rfl, rfl, objects⟩ := first
  cases outcome with
  | error error => exact ⟨.error error, rfl, rfl, fun rows failed => by contradiction⟩
  | ok rows => exact next rows (objects rows rfl)

/-- What is kept of settled rows is settled. -/
theorem Keeps.eq_of_settled {rule : KeepRule} {whole kept : Session σ (List Json)} (keeps : Keeps rule whole kept)
    {rows : List Json} (gives : whole = settled (.ok rows)) :
    kept = settled (.ok (rows.map (Json.keep rule))) := by
  obtain ⟨outcome, same, rfl, -⟩ := keeps
  show (fun state => (_, state)) = fun state => (_, state)
  funext state
  obtain rfl : outcome = .ok rows :=
    congrArg Prod.fst (congrFun (same.symm.trans gives) state : (outcome, state) = (.ok rows, state))
  rfl

/-- A statement of some columns gives what they keep of the rows. -/
theorem Projecting.keeps {answer : Statement → Except DatabaseError (List Json)}
    (projecting : Projecting answer) (selection : Selection) :
    Keeps (fun chain name => !chain.isEmpty || selection.selects name)
      ((Database.answering answer : Database σ).run selection.unrestrict.rowsStatement)
      ((Database.answering answer : Database σ).run selection.rowsStatement) := by
  have objects := projecting.objects selection.unrestrict.rowsStatement
  refine ⟨answer selection.unrestrict.rowsStatement, rfl, congrArg settled ?_, objects⟩
  cases listed : selection.columns with
  | none =>
    have same := Selection.unrestrict_of_columns_none listed
    have selected : ∀ name, selection.selects name = true := fun name => by rw [← same]; rfl
    have whole : ∀ row : Json,
        row.keep (fun chain name => !chain.isEmpty || selection.selects name) = row :=
      Json.keep_of_always fun chain name => by rw [selected, Bool.or_true]
    rw [same]
    cases answer selection.rowsStatement with
    | error error => rfl
    | ok rows =>
      have unchanged : rows.map (Json.keep fun chain name => !chain.isEmpty || selection.selects name) =
          rows := List.map_id'' whole rows
      exact congrArg Except.ok unchanged.symm
  | some names =>
    have selected : ∀ name, selection.selects name = names.contains name := by
      intro name
      rw [Selection.selects, listed]
    have projected : answer selection.rowsStatement =
        (answer selection.unrestrict.rowsStatement).map (List.map (Json.project names)) := by
      rw [Selection.rowsStatement, listed]
      exact projecting.columns names _ _ _ _ _
    simp only [selected]
    rw [projected]
    cases found : answer selection.unrestrict.rowsStatement with
    | error error => rfl
    | ok rows =>
      have kept : rows.map (Json.project names) =
          rows.map (Json.keep fun chain name => !chain.isEmpty || names.contains name) :=
        List.map_congr_left fun row member => Json.project_eq_keep names (objects rows found row member)
      exact congrArg Except.ok kept

namespace Query

/-- The rows of a query have a member: a column that is selected or an included relation. -/
def has (query : Query) (name : String) : Bool :=
  query.selection.selects name || (query.includes.map includedName).contains name

/-- The members that a query gives the objects at a chain: those of the rows of the node there. Values that
no relation leads to are whole. -/
def kept (query : Query) : KeepRule := fun chain name =>
  ((query.at? chain).map fun reached => reached.has name).getD true

/-- Rows can be matched at every node: the columns that match rows are selected, and no included relation
takes the place of one. -/
inductive Joins : Query → Prop
  /-- A node with its included relations. -/
  | node {selection : Selection} {includes : List (Relation × Query)}
      (names : (includes.map includedName).Nodup)
      (parents : ∀ included ∈ includes, selection.selects included.1.parentColumn = true ∧
        included.1.parentColumn ∉ includes.map includedName)
      (children : ∀ included ∈ includes,
        included.2.selection.selects included.1.childColumn = true ∧
          included.1.childColumn ∉ included.2.includes.map includedName)
      (below : ∀ included ∈ includes, Joins included.2) : Joins (.node selection includes)

/-- Rows can be matched in a query that mirrors a catalog if they can at every node of it. -/
theorem joins_of_nodes {catalog : Catalog} {query : Query} (mirrors : query.Mirrors catalog)
    (matched : ∀ chain node, query.at? chain = some node → ∀ included ∈ node.includes,
      (node.selection.selects included.1.parentColumn = true ∧
        included.1.parentColumn ∉ node.includes.map includedName) ∧
      (included.2.selection.selects included.1.childColumn = true ∧
        included.1.childColumn ∉ included.2.includes.map includedName)) : query.Joins := by
  induction query using inductionOn with
  | node selection includes ih =>
    obtain ⟨names, -, below⟩ := mirrors
    have here := matched [] (.node selection includes) rfl
    refine .node names (fun included member => (here included member).1)
      (fun included member => (here included member).2) (fun included member => ?_)
    apply ih included member (below included member)
    intro chain node found
    apply matched (included.1.name :: chain) node
    rw [at?_cons, child?_of_mem names member]
    exact found

/-- Below a relation, the rule is that of its query. -/
theorem under_kept_of_child {query child : Query} {name : String}
    (found : query.child? name = some child) : query.kept.under name = child.kept := by
  funext chain other
  show ((query.at? (name :: chain)).map _).getD true = _
  rw [at?_cons, found]
  rfl

/-- Below a column, everything is kept. -/
theorem under_kept_of_column {query : Query} {name : String} (absent : query.child? name = none)
    (chain : List String) (other : String) : query.kept.under name chain other = true := by
  show ((query.at? (name :: chain)).map _).getD true = _
  rw [at?_cons, absent]
  rfl

/-- With its join columns a node has what it had and the missing columns. -/
theorem has_withJoinColumns (query : Query) (name : String) :
    query.withJoinColumns.has name = true ↔ query.selection.selects name = true ∨
      name ∈ query.selection.missingColumns query.includes ∨
        name ∈ query.includes.map includedName := by
  rw [has, Bool.or_eq_true, selects_withJoinColumns, names_withJoinColumns, List.contains_iff_mem,
    or_assoc]

/-- Without relations, rows have the selected columns. -/
theorem kept_leaf (selection : Selection) : (node selection []).kept =
    fun chain name => !chain.isEmpty || selection.selects name := by
  funext chain name
  cases chain with
  | nil => exact Bool.or_false _
  | cons first rest => rfl

/-- A name that no included relation has is that of no child. -/
theorem child?_eq_none {query : Query} {name : String}
    (absent : name ∉ query.includes.map includedName) : query.child? name = none := by
  refine Option.map_eq_none_iff.2 (List.find?_eq_none.2 fun included member => ?_)
  intro found
  have same : included.1.name = name := by simpa using found
  exact absent (List.mem_map.2 ⟨included, member, same⟩)

/-- Where a name is of no relation and its column is selected, rows keep the member as it is. -/
theorem member?_kept {query : Query} {name : String} (selected : query.selection.selects name = true)
    (absent : name ∉ query.includes.map includedName) (row : Json) :
    (row.keep query.kept).member? name = row.member? name := by
  have stays : query.kept [] name = true := by
    show (query.selection.selects name || _) = true
    rw [selected, Bool.true_or]
  have whole : ∀ value : Json, value.keep (query.kept.under name) = value :=
    Json.keep_of_always (under_kept_of_column (child?_eq_none absent))
  rw [Json.member?_keep, if_pos stays]
  cases row.member? name with
  | none => rfl
  | some value => exact congrArg some (whole value)

/-- The children of a query with one more relation are its own, and the new one under its name. -/
theorem child?_append (selection : Selection) (done : List (Relation × Query))
    (included : Relation × Query) (name : String) :
    (node selection (done ++ [included])).child? name = ((node selection done).child? name).or
      (if included.1.name = name then some included.2 else none) := by
  rw [child?_node, child?_node, List.find?_append]
  cases done.find? fun other => other.1.name = name with
  | some found => rfl
  | none =>
    by_cases same : included.1.name = name <;> simp [same]

end Query

namespace Relation

/-- Rows whose parent column is kept have the same keys. -/
theorem joinKeys_map {relation : Relation} {change : Json → Json} {rows : List Json}
    (same : ∀ row ∈ rows, (change row).member? relation.parentColumn = row.member? relation.parentColumn) :
    relation.joinKeys (rows.map change) = relation.joinKeys rows := by
  have listed : ∀ rows : List Json, rows.filterMap (Json.member? relation.parentColumn) =
      (rows.map (Json.member? relation.parentColumn)).filterMap id := fun rows => by
    rw [List.filterMap_map, Function.id_comp]
  have held : (rows.map change).map (Json.member? relation.parentColumn) =
      rows.map (Json.member? relation.parentColumn) := by
    rw [List.map_map]
    exact List.map_congr_left same
  unfold joinKeys
  rw [listed, held, ← listed]

/-- Related rows whose child column is kept go with the same rows. -/
theorem childrenOf_map {relation : Relation} {below : Json → Json} {row changed : Json} {related : List Json}
    (parent : changed.member? relation.parentColumn = row.member? relation.parentColumn)
    (child : ∀ row ∈ related, (below row).member? relation.childColumn = row.member? relation.childColumn) :
    relation.childrenOf (related.map below) changed = (relation.childrenOf related row).map below := by
  have parentKey : relation.parentKey? changed = relation.parentKey? row := by
    rw [parentKey?, parentKey?, parent]
  unfold childrenOf
  rw [parentKey]
  cases relation.parentKey? row with
  | none => rfl
  | some key =>
    show (related.map below).filter _ = (related.filter _).map below
    rw [List.filter_map]
    congr 1
    apply List.filter_congr
    intro other member
    show (relation.childKey? (below other) == some key) = (relation.childKey? other == some key)
    rw [childKey?, childKey?, child other member]

/-- What a rule keeps of gathered rows is what is gathered of the kept rows. -/
theorem gather_map (relation : Relation) (rule : KeepRule) (children : List Json) :
    relation.gather (children.map (Json.keep rule)) = (relation.gather children).keep rule := by
  unfold gather
  cases relation.kind with
  | many => exact (Json.keep_array rule children).symm
  | one | owner => cases children <;> rfl

/-- Attaching what is kept of related rows to what is kept of a row is keeping, with one more relation, the
row with its related rows attached. -/
theorem attach_kept {selection : Selection} {done : List (Relation × Query)} {relation : Relation}
    {query : Query} (fresh : relation.name ∉ done.map Query.includedName)
    (parent : selection.selects relation.parentColumn = true ∧
      relation.parentColumn ∉ done.map Query.includedName)
    (child : query.selection.selects relation.childColumn = true ∧
      relation.childColumn ∉ query.includes.map Query.includedName)
    (related : List Json) {row : Json} (shape : row.IsObject) :
    relation.attach (related.map (Json.keep query.kept)) (row.keep (Query.node selection done).kept) =
      (relation.attach related row).keep (Query.node selection (done ++ [(relation, query)])).kept := by
  have absent : (Query.node selection done).child? relation.name = none := Query.child?_eq_none fresh
  have under : (Query.node selection (done ++ [(relation, query)])).kept.under relation.name =
      query.kept := by
    apply Query.under_kept_of_child
    rw [Query.child?_append, absent, if_pos rfl]
    rfl
  have parents : ∀ row : Json, (row.keep (Query.node selection done).kept).member?
      relation.parentColumn = row.member? relation.parentColumn := Query.member?_kept parent.1 parent.2
  have children := childrenOf_map (parents row) fun row (_ : row ∈ related) =>
    Query.member?_kept child.1 child.2 row
  unfold attach
  rw [children, gather_map, ← under]
  refine Json.keep_setMember shape ?_ (fun other apart => ?_) _
  · show (selection.selects relation.name || _) = true
    simp [Query.includes, Query.includedName]
  · have same : (Query.node selection (done ++ [(relation, query)])).child? other =
        (Query.node selection done).child? other := by
      rw [Query.child?_append, if_neg (Ne.symm apart), Option.or_none]
    constructor
    · have more : other ∈ (done ++ [(relation, query)]).map Query.includedName ↔
          other ∈ done.map Query.includedName := by simp [Query.includedName, apart]
      have held : ((done ++ [(relation, query)]).map Query.includedName).contains other =
          (done.map Query.includedName).contains other := by
        rw [Bool.eq_iff_iff, List.contains_iff_mem, List.contains_iff_mem, more]
      exact congrArg (selection.selects other || ·) held.symm
    · funext chain name
      show (((Query.node selection done).at? (other :: chain)).map _).getD true =
        (((Query.node selection (done ++ [(relation, query)])).at? (other :: chain)).map _).getD true
      rw [Query.at?_cons, Query.at?_cons, same]

end Relation

namespace Database

/-- The rows that a query loads are what it keeps of those that it loads without column lists. -/
def Loads (answer : Statement → Except DatabaseError (List Json)) (query : Query) : Prop :=
  ∀ predicates, Keeps query.kept
    ((answering answer : Database σ).loadWhere predicates query.unrestrict)
    ((answering answer : Database σ).loadWhere predicates query)

/-- The related rows of a relation: none without keys, else those of the keys. -/
def related (database : Database σ) (relation : Relation) (query : Query) (keys : List Json) :
    Session σ (List Json) :=
  if keys.isEmpty then pure [] else database.loadWhere [relation.joinPredicate keys] query

/-- The related rows of a first relation are attached before those of the others. -/
theorem attachAll_cons (database : Database σ) (relation : Relation) (query : Query)
    (rest : List (Relation × Query)) (rows : List Json) :
    database.attachAll ((relation, query) :: rest) rows =
      database.related relation query (relation.joinKeys rows) >>= fun related =>
        database.attachAll rest (rows.map (relation.attach related)) := by
  rw [attachAll, related]
  show (if (relation.joinKeys rows).isEmpty = true then _ else _) = _
  split <;> rfl

/-- Attaching relations one after the other to what is kept of rows is keeping the rows with their
relations attached. -/
theorem attachAll_keeps {answer : Statement → Except DatabaseError (List Json)} {selection : Selection}
    {done rest : List (Relation × Query)}
    (names : ((done ++ rest).map Query.includedName).Nodup)
    (parents : ∀ included ∈ rest, selection.selects included.1.parentColumn = true ∧
      included.1.parentColumn ∉ (done ++ rest).map Query.includedName)
    (children : ∀ included ∈ rest, included.2.selection.selects included.1.childColumn = true ∧
      included.1.childColumn ∉ included.2.includes.map Query.includedName)
    (loads : ∀ included ∈ rest, Loads (σ := σ) answer included.2)
    {rows : List Json} (objects : ∀ row ∈ rows, row.IsObject) :
    Keeps (Query.node selection (done ++ rest)).kept
      ((answering answer : Database σ).attachAll (Query.unrestrictAll rest) rows)
      ((answering answer : Database σ).attachAll rest
        (rows.map (Json.keep (Query.node selection done).kept))) := by
  induction rest generalizing done rows with
  | nil =>
    rw [List.append_nil, Query.unrestrictAll, attachAll, attachAll]
    refine ⟨.ok rows, rfl, rfl, fun loaded same => ?_⟩
    have rowsLoaded := Except.ok.inj same
    subst rowsLoaded
    exact objects
  | cons included others ih =>
    obtain ⟨relation, query⟩ := included
    have whole : done ++ (relation, query) :: others = done ++ [(relation, query)] ++ others :=
      List.append_cons done (relation, query) others
    have fresh : relation.name ∉ done.map Query.includedName := by
      intro member
      rw [List.map_append] at names
      exact (List.nodup_append.1 names).2.2 _ member _ (.head _) rfl
    obtain ⟨selected, apart⟩ := parents (relation, query) (.head _)
    have parent : selection.selects relation.parentColumn = true ∧
        relation.parentColumn ∉ done.map Query.includedName :=
      ⟨selected, fun member => apart (by rw [List.map_append]; exact List.mem_append_left _ member)⟩
    have child := children (relation, query) (.head _)
    have parentMember : ∀ row : Json, (row.keep (Query.node selection done).kept).member?
        relation.parentColumn = row.member? relation.parentColumn :=
      Query.member?_kept parent.1 parent.2
    have keys := Relation.joinKeys_map fun row (_ : row ∈ rows) => parentMember row
    rw [Query.unrestrictAll, attachAll_cons, attachAll_cons, keys]
    have first : Keeps query.kept
        ((answering answer : Database σ).related relation query.unrestrict (relation.joinKeys rows))
        ((answering answer : Database σ).related relation query (relation.joinKeys rows)) := by
      unfold related
      split
      · exact ⟨.ok [], rfl, rfl, fun rows none => by obtain rfl := Except.ok.inj none; simp⟩
      · exact loads (relation, query) (.head _) _
    apply first.bind
    intro related _
    have attached : (rows.map (Json.keep (Query.node selection done).kept)).map
        (relation.attach (related.map (Json.keep query.kept))) = (rows.map (relation.attach related)).map
          (Json.keep (Query.node selection (done ++ [(relation, query)])).kept) := by
      rw [List.map_map, List.map_map]
      exact List.map_congr_left fun row member =>
        Relation.attach_kept fresh parent child related (objects row member)
    rw [attached, whole]
    refine ih (whole ▸ names) ?_ ?_ ?_ ?_
    · exact fun included member => whole ▸ parents included (.tail _ member)
    · exact fun included member => children included (.tail _ member)
    · exact fun included member => loads included (.tail _ member)
    · intro row member
      obtain ⟨before, listed, rfl⟩ := List.mem_map.1 member
      exact (objects before listed).setMember relation.name _

/-- A query loads what it keeps of the rows that it loads without column lists. -/
theorem loads_of_joins {answer : Statement → Except DatabaseError (List Json)}
    (projecting : Projecting answer) {query : Query} (joins : query.Joins) :
    Loads (σ := σ) answer query := by
  induction joins with
  | @node selection includes names parents children below ih =>
    intro predicates
    rw [Query.unrestrict, loadWhere, loadWhere]
    have own : Keeps (Query.node selection []).kept
        ((answering answer : Database σ).run (selection.unrestrict.filterBy predicates).rowsStatement)
        ((answering answer : Database σ).run (selection.filterBy predicates).rowsStatement) := by
      rw [Query.kept_leaf]
      exact projecting.keeps (selection.filterBy predicates)
    exact own.bind fun rows objects =>
      @attachAll_keeps σ answer selection [] includes names parents children ih rows objects

end Database

end ResourceQuery
