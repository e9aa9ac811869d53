import ResourceQuery.Proofs.Database.Projection

/-!
# Loading in batches is loading row by row

The plain way to load related rows runs, for every row and every included relation, one statement for the
rows with that row's own key (`Database.loadByRow`). Loading in batches gives the same rows with the same
relations (`Database.load_eq_loadByRow`), because what is attached to a row depends on no other row:
either loader completes the rows of a statement one by one, and by the same rule (`Database.Completes`).
For this a predicate on keys has to filter the rows of a statement (`Query.FiltersByKey`), and relations
must not take the place of columns that match rows (`Query.Separate`).
-/
namespace ResourceQuery

variable {σ α β : Type}

/-! ### Sessions that find something -/

/-- A session that leaves the state as it is and gives what is found, or fails where nothing is. -/
def Finds (session : Session σ α) (found : Option α) : Prop :=
  ∃ outcome : Except DatabaseError α, session = settled outcome ∧ outcome.toOption = found

namespace Finds

/-- A value is found without any statement. -/
theorem pure (value : α) : Finds (Pure.pure value : Session σ α) (some value) := ⟨.ok value, rfl, rfl⟩

/-- A statement finds what the database answers. -/
theorem run (answer : Statement → Except DatabaseError (List Json)) (statement : Statement) :
    Finds ((Database.answering answer : Database σ).run statement) (answer statement).toOption :=
  ⟨answer statement, rfl, rfl⟩

/-- After a value is found, what the rest of the session finds is found. -/
theorem bind {session : Session σ α} {found : Option α} {next : α → Session σ β}
    {later : α → Option β} (first : Finds session found)
    (rest : ∀ value, found = some value → Finds (next value) (later value)) :
    Finds (session >>= next) (found.bind later) := by
  obtain ⟨outcome, rfl, rfl⟩ := first
  cases outcome with
  | error error => exact ⟨.error error, rfl, rfl⟩
  | ok value => exact rest value rfl

/-- One session after another for the items of a list finds what each of them does. -/
theorem mapM {visit : α → Session σ β} {found : α → Option β} {items : List α}
    (each : ∀ item ∈ items, Finds (visit item) (found item)) :
    Finds (items.mapM visit) (items.mapM found) := by
  induction items with
  | nil => exact .pure []
  | cons item rest ih =>
    have others := ih fun other member => each other (.tail item member)
    rw [List.mapM_cons, List.mapM_cons]
    exact (each item (.head rest)).bind fun value _ => others.bind fun values _ => .pure (value :: values)

end Finds

/-- Where nothing is found for one item, nothing is found for the list. -/
theorem mapM_eq_none {found : α → Option β} {items : List α} {item : α} (member : item ∈ items)
    (fails : found item = none) : items.mapM found = none := by
  induction items with
  | nil => contradiction
  | cons first rest ih =>
    rw [List.mapM_cons]
    rcases List.mem_cons.1 member with rfl | later
    · rw [fails]
      rfl
    · rw [ih later]
      cases found first <;> rfl

/-- Where something is found for every item, the list of it is found. -/
theorem mapM_eq_some_map {found : α → Option β} {give : α → β} {items : List α}
    (each : ∀ item ∈ items, found item = some (give item)) :
    items.mapM found = some (items.map give) := by
  induction items with
  | nil => rfl
  | cons first rest ih =>
    rw [List.mapM_cons, each first (.head rest), ih fun item member => each item (.tail first member)]
    rfl

/-- What is found for a list depends on what is found for its items. -/
theorem mapM_congr {left right : α → Option β} {items : List α}
    (same : ∀ item ∈ items, left item = right item) : items.mapM left = items.mapM right := by
  induction items with
  | nil => rfl
  | cons first rest ih =>
    rw [List.mapM_cons, List.mapM_cons, same first (.head rest),
      ih fun item member => same item (.tail first member)]

/-! ### Keys -/

/-- A value has no key exactly when it is null. -/
theorem Json.key?_eq_none_iff {json : Json} : json.key? = none ↔ json.isNull = true := by
  cases json <;> simp [key?, isNull]

/-- A set member is the value, and the other members of an object stay. -/
theorem Json.member?_setMember {json : Json} (shape : json.IsObject) (name other : String)
    (value : Json) : (json.setMember name value).member? other =
      if other = name then some value else json.member? other := by
  obtain ⟨members, order, rfl⟩ := shape
  exact Assoc.lookup_upsert order name other fun _ => value

/-- The values of distinct keys have the keys of the values. -/
theorem exists_mem_firstByKey_iff {values : List Json} {key : String} :
    (∃ value ∈ firstByKey values, value.key? = some key) ↔ ∃ value ∈ values, value.key? = some key := by
  induction values with
  | nil => rfl
  | cons value rest ih =>
    rw [firstByKey]
    cases own : value.key? with
    | none => simp [own, ih]
    | some present =>
      simp only [List.mem_cons, exists_eq_or_imp, List.mem_filter, own, Option.some.injEq, ← ih]
      by_cases same : present = key
      · simp [same]
      · -- The key is another one, so no value with it was dropped for the sake of this value.
        simp only [same, false_or]
        constructor
        · rintro ⟨other, ⟨member, -⟩, found⟩
          exact ⟨other, member, found⟩
        · rintro ⟨other, member, found⟩
          refine ⟨other, ⟨member, ?_⟩, found⟩
          simp [found, Ne.symm same]

/-- There are no distinct keys exactly where no value has a key. -/
theorem firstByKey_eq_nil_iff {values : List Json} :
    firstByKey values = [] ↔ ∀ value ∈ values, value.key? = none := by
  induction values with
  | nil => simp [firstByKey]
  | cons value rest ih =>
    rw [firstByKey]
    cases own : value.key? with
    | none => simp [own, ih]
    | some key => simp [own]

namespace Relation

/-- A related row has the key of one of the values. -/
def matchesAny (relation : Relation) (values : List Json) (child : Json) : Bool :=
  match relation.childKey? child with
  | none => false
  | some key => values.any fun value => value.key? == some key

/-- A related row has the key of one of the join keys when it has that of one of the rows. -/
theorem matchesAny_joinKeys {relation : Relation} {rows : List Json} {child : Json} :
    relation.matchesAny (relation.joinKeys rows) child = true ↔
      ∃ row ∈ rows, ∃ key, relation.parentKey? row = some key ∧ relation.childKey? child = some key := by
  unfold matchesAny
  cases relation.childKey? child with
  | none => simp
  | some key =>
    have keys := @exists_mem_firstByKey_iff (rows.filterMap (Json.member? relation.parentColumn)) key
    rw [joinKeys, List.any_eq_true]
    simp only [beq_iff_eq]
    rw [keys]
    simp only [List.mem_filterMap, parentKey?, Option.bind_eq_some_iff, Option.some.injEq]
    grind

/-- A related row has the key of a single value when its key is that one. -/
theorem matchesAny_singleton {relation : Relation} {value : Json} {key : String}
    (own : value.key? = some key) :
    relation.matchesAny [value] = fun child => relation.childKey? child == some key := by
  funext child
  unfold matchesAny
  cases relation.childKey? child with
  | none => rfl
  | some other =>
    simp only [List.any_cons, own, List.any_nil, Bool.or_false]
    exact Bool.beq_comm

/-- There are no join keys exactly where no row has a key. -/
theorem joinKeys_eq_nil_iff {relation : Relation} {rows : List Json} :
    relation.joinKeys rows = [] ↔ ∀ row ∈ rows, relation.parentKey? row = none := by
  rw [joinKeys, firstByKey_eq_nil_iff]
  simp only [List.mem_filterMap, forall_exists_index, and_imp, parentKey?, Option.bind_eq_none_iff]
  exact ⟨fun none row member value held => none value row member held,
    fun none value row member held => none row member value held⟩

/-- The value by which a row finds its related rows: that of the parent column, unless it is missing or
null. -/
def ownKey? (relation : Relation) (row : Json) : Option Json :=
  (row.member? relation.parentColumn).filter fun value => !value.isNull

/-- The key of a row is that of its own value. -/
theorem parentKey?_eq_ownKey? (relation : Relation) (row : Json) :
    relation.parentKey? row = (relation.ownKey? row).bind Json.key? := by
  unfold parentKey? ownKey?
  cases row.member? relation.parentColumn with
  | none => rfl
  | some value =>
    cases absent : value.isNull with
    | true => simp [Option.filter, absent, Json.key?_eq_none_iff.2 absent]
    | false => simp [Option.filter, absent]

/-- Which of all related rows are found for one row, each completed: none without a key, else those of
its key. -/
def foundFor (relation : Relation) (all : Option (List Json)) (complete : Json → Option Json)
    (row : Json) : Option (List Json) :=
  match relation.parentKey? row with
  | none => some []
  | some key => all.bind fun children =>
      (children.filter fun child => relation.childKey? child == some key).mapM complete

/-- Which of all related rows are found for several rows at once, each completed: none without a key, else
those of their keys. -/
def foundForAll (relation : Relation) (all : Option (List Json)) (complete : Json → Option Json)
    (rows : List Json) : Option (List Json) :=
  if (relation.joinKeys rows).isEmpty then some []
  else all.bind fun children =>
    (children.filter (relation.matchesAny (relation.joinKeys rows))).mapM complete

/-- Where all related rows of some rows are completed, those found for one of the rows alone are those
that have its key among them. -/
theorem foundFor_eq_childrenOf {relation : Relation} {children rows : List Json}
    {complete : Json → Option Json} {give : Json → Json}
    (given : ∀ child ∈ children, relation.matchesAny (relation.joinKeys rows) child = true →
      complete child = some (give child))
    (same : ∀ child ∈ children, relation.matchesAny (relation.joinKeys rows) child = true →
      relation.childKey? (give child) = relation.childKey? child)
    {row : Json} (member : row ∈ rows) :
    relation.foundFor (some children) complete row = some (relation.childrenOf
      ((children.filter (relation.matchesAny (relation.joinKeys rows))).map give) row) := by
  unfold foundFor childrenOf
  cases own : relation.parentKey? row with
  | none => rfl
  | some key =>
    have within : ∀ child, relation.childKey? child = some key →
        relation.matchesAny (relation.joinKeys rows) child = true := fun child held =>
      matchesAny_joinKeys.2 ⟨row, member, key, own, held⟩
    have each : ∀ child ∈ children.filter fun child => relation.childKey? child == some key,
        complete child = some (give child) := by
      intro child listed
      obtain ⟨present, held⟩ := List.mem_filter.1 listed
      exact given child present (within child (beq_iff_eq.1 held))
    have kept : ∀ child ∈ children.filter (relation.matchesAny (relation.joinKeys rows)),
        (relation.childKey? (give child) == some key) = (relation.childKey? child == some key) := by
      intro child listed
      obtain ⟨present, matched⟩ := List.mem_filter.1 listed
      rw [same child present matched]
    have narrowed : ∀ child ∈ children, ((relation.childKey? child == some key) &&
        relation.matchesAny (relation.joinKeys rows) child) = (relation.childKey? child == some key) := by
      intro child _
      cases held : relation.childKey? child == some key with
      | false => rfl
      | true => rw [within child (beq_iff_eq.1 held), Bool.and_self]
    show (children.filter _).mapM complete = some (((children.filter _).map give).filter _)
    rw [mapM_eq_some_map each, List.filter_map]
    show _ = some (List.map give (List.filter (fun child => relation.childKey? (give child) == some key) _))
    rw [List.filter_congr kept, List.filter_filter, List.filter_congr narrowed]

/-- What is found for several rows at once is, for each of them, what is found for it alone; and where
nothing is found, nothing is found for one of them alone. -/
theorem foundForAll_spec {relation : Relation} {all : Option (List Json)}
    {complete : Json → Option Json} (rows : List Json)
    (same : ∀ children, all = some children → ∀ child ∈ children, ∀ done,
      complete child = some done → relation.childKey? done = relation.childKey? child) :
    (∃ related, relation.foundForAll all complete rows = some related ∧
      ∀ row ∈ rows, relation.foundFor all complete row = some (relation.childrenOf related row)) ∨
    (relation.foundForAll all complete rows = none ∧
      ∃ row ∈ rows, relation.foundFor all complete row = none) := by
  by_cases keyless : relation.joinKeys rows = []
  · -- No row has a key, so no statement is run for any.
    refine .inl ⟨[], by simp [foundForAll, keyless], fun row member => ?_⟩
    have none := joinKeys_eq_nil_iff.1 keyless row member
    rw [foundFor, childrenOf, none]
  have keyed : (relation.joinKeys rows).isEmpty = false := by simpa using keyless
  rw [foundForAll, keyed, if_neg Bool.false_ne_true]
  cases all with
  | none =>
    obtain ⟨row, member, own⟩ : ∃ row ∈ rows, relation.parentKey? row ≠ none := by
      simpa [joinKeys_eq_nil_iff] using keyless
    refine .inr ⟨rfl, row, member, ?_⟩
    obtain ⟨key, own⟩ := Option.ne_none_iff_exists'.1 own
    rw [foundFor, own]
    rfl
  | some children =>
    by_cases failing : ∃ child ∈ children,
        relation.matchesAny (relation.joinKeys rows) child = true ∧ complete child = none
    · -- A related row is not completed, and neither is the row that it belongs to.
      obtain ⟨child, listed, matched, failed⟩ := failing
      refine .inr ⟨mapM_eq_none (List.mem_filter.2 ⟨listed, matched⟩) failed, ?_⟩
      obtain ⟨row, member, key, own, held⟩ := matchesAny_joinKeys.1 matched
      refine ⟨row, member, ?_⟩
      rw [foundFor, own]
      exact mapM_eq_none (List.mem_filter.2 ⟨listed, beq_iff_eq.2 held⟩) failed
    · have given : ∀ child ∈ children, relation.matchesAny (relation.joinKeys rows) child = true →
          complete child = some ((complete child).getD child) := by
        intro child listed matched
        cases found : complete child with
        | none => exact absurd ⟨child, listed, matched, found⟩ failing
        | some done => rfl
      refine .inl ⟨_, mapM_eq_some_map fun child member => ?_, fun row member =>
        foundFor_eq_childrenOf given (fun child listed matched => ?_) member⟩
      · obtain ⟨listed, matched⟩ := List.mem_filter.1 member
        exact given child listed matched
      · exact same children rfl child listed _ (given child listed matched)

end Relation

/-! ### The plain loader -/

namespace Database

mutual

/-- The rows that also meet some predicates, each with its related rows loaded for it alone. -/
def loadByRowWhere (database : Database σ) (predicates : List Predicate) :
    Query → Session σ (List Json)
  | .node selection includes => do
    let rows ← database.run (selection.filterBy predicates).rowsStatement
    rows.mapM fun row => database.attachByRow includes row row

/-- What was made of a row so far, with the related rows of the row for every included relation in turn:
those whose child column holds the row's own value, none where that is missing or null. -/
def attachByRow (database : Database σ) :
    List (Relation × Query) → Json → Json → Session σ Json
  | [], _, made => pure made
  | (relation, query) :: rest, row, made => do
    let related ←
      match relation.ownKey? row with
      | none => pure []
      | some value => database.loadByRowWhere [relation.joinPredicate [value]] query
    database.attachByRow rest row (made.setMember relation.name (relation.gather related))

end

/-- The rows of a query, each with the rows of the included relations loaded for it alone. -/
def loadByRow (database : Database σ) (query : Query) : Session σ (List Json) :=
  database.loadByRowWhere [] query

/-- The related rows of one row: none without a value of its own, else those of the value. -/
def ownRelated (database : Database σ) (relation : Relation) (query : Query) (row : Json) :
    Session σ (List Json) :=
  match relation.ownKey? row with
  | none => pure []
  | some value => database.loadByRowWhere [relation.joinPredicate [value]] query

/-- The related rows of a first relation are set before those of the others. -/
theorem attachByRow_cons (database : Database σ) (relation : Relation) (query : Query)
    (rest : List (Relation × Query)) (row made : Json) :
    database.attachByRow ((relation, query) :: rest) row made =
      database.ownRelated relation query row >>= fun related =>
        database.attachByRow rest row (made.setMember relation.name (relation.gather related)) := by
  rw [attachByRow, ownRelated]
  cases relation.ownKey? row <;> rfl

end Database

namespace Query

/-- No included relation is named as a column by which rows are matched where it is included: the parent
column of a relation included there, or the child column by which the rows there are matched. -/
inductive Separate : Query → Prop
  /-- A node with its included relations. -/
  | node {selection : Selection} {includes : List (Relation × Query)}
      (parents : ∀ included ∈ includes, included.1.parentColumn ∉ includes.map includedName)
      (children : ∀ included ∈ includes,
        included.1.childColumn ∉ included.2.includes.map includedName)
      (below : ∀ included ∈ includes, Separate included.2) : Separate (.node selection includes)

/-- At every included query, the predicate on the keys of some values filters the rows of the statement
without it: those stay, in their order, whose child column has the key of one of the values. -/
inductive FiltersByKey (answer : Statement → Except DatabaseError (List Json)) : Query → Prop
  /-- A node with its included relations. -/
  | node {selection : Selection} {includes : List (Relation × Query)}
      (filters : ∀ included ∈ includes, ∀ values,
        answer (included.2.selection.filterBy [included.1.joinPredicate values]).rowsStatement =
          (answer included.2.selection.rowsStatement).map
            (List.filter (included.1.matchesAny values)))
      (below : ∀ included ∈ includes, FiltersByKey answer included.2) :
      FiltersByKey answer (.node selection includes)

end Query

namespace Database

variable {answer : Statement → Except DatabaseError (List Json)}

/-- Either loader completes the rows of a statement one by one and by the same rule, which leaves all
members of a row but the included relations as they are. -/
structure Completes (σ : Type) (answer : Statement → Except DatabaseError (List Json)) (query : Query)
    (complete : Json → Option Json) : Prop where
  /-- Batches complete the rows. -/
  batched : ∀ predicates, Finds ((answering answer : Database σ).loadWhere predicates query)
    ((answer (query.selection.filterBy predicates).rowsStatement).toOption.bind fun rows =>
      rows.mapM complete)
  /-- Loading row by row completes the rows. -/
  byRow : ∀ predicates, Finds ((answering answer : Database σ).loadByRowWhere predicates query)
    ((answer (query.selection.filterBy predicates).rowsStatement).toOption.bind fun rows =>
      rows.mapM complete)
  /-- The columns of a row stay. -/
  columns : ∀ row done, row.IsObject → complete row = some done →
    ∀ name ∉ query.includes.map Query.includedName, done.member? name = row.member? name

/-- The rows that a list of included relations completes, in batches or one by one. -/
structure CompletesRows (σ : Type) (answer : Statement → Except DatabaseError (List Json))
    (includes : List (Relation × Query)) (complete : Json → Option Json) : Prop where
  /-- Batches complete the rows. -/
  batched : ∀ rows, (∀ row ∈ rows, row.IsObject) →
    Finds ((answering answer : Database σ).attachAll includes rows) (rows.mapM complete)
  /-- Each row is completed on its own, from what was made of it without touching its parent columns. -/
  byRow : ∀ row made, made.IsObject → (∀ included ∈ includes,
      made.member? included.1.parentColumn = row.member? included.1.parentColumn) →
    Finds ((answering answer : Database σ).attachByRow includes row made) (complete made)
  /-- The columns of a row stay. -/
  columns : ∀ row done, row.IsObject → complete row = some done →
    ∀ name ∉ includes.map Query.includedName, done.member? name = row.member? name

/-- The related rows of several rows are found at once. -/
theorem finds_related {relation : Relation} {query : Query} {complete : Json → Option Json}
    (completes : Completes σ answer query complete)
    (filters : ∀ values, answer (query.selection.filterBy [relation.joinPredicate values]).rowsStatement =
      (answer query.selection.rowsStatement).map (List.filter (relation.matchesAny values)))
    (rows : List Json) :
    Finds ((answering answer : Database σ).related relation query (relation.joinKeys rows))
      (relation.foundForAll (answer query.selection.rowsStatement).toOption complete rows) := by
  unfold related Relation.foundForAll
  split
  · exact .pure []
  · have found := completes.batched [relation.joinPredicate (relation.joinKeys rows)]
    rw [filters] at found
    cases statement : answer query.selection.rowsStatement <;> rw [statement] at found <;> exact found

/-- The related rows of one row are found by its own value. -/
theorem finds_ownRelated {relation : Relation} {query : Query} {complete : Json → Option Json}
    (completes : Completes σ answer query complete)
    (filters : ∀ values, answer (query.selection.filterBy [relation.joinPredicate values]).rowsStatement =
      (answer query.selection.rowsStatement).map (List.filter (relation.matchesAny values)))
    (row : Json) :
    Finds ((answering answer : Database σ).ownRelated relation query row)
      (relation.foundFor (answer query.selection.rowsStatement).toOption complete row) := by
  unfold Relation.foundFor ownRelated
  rw [Relation.parentKey?_eq_ownKey?]
  cases own : relation.ownKey? row with
  | none => exact .pure []
  | some value =>
    have present : value.isNull = false := by
      simpa using (Option.filter_eq_some_iff.1 own).2
    obtain ⟨key, held⟩ : ∃ key, value.key? = some key := by
      refine Option.ne_none_iff_exists'.1 fun none => ?_
      rw [Json.key?_eq_none_iff.1 none] at present
      contradiction
    have found := completes.byRow [relation.joinPredicate [value]]
    rw [filters, Relation.matchesAny_singleton held] at found
    simp only [Option.bind_some, held]
    cases statement : answer query.selection.rowsStatement <;> rw [statement] at found <;> exact found

/-- What completes a row by a first relation, and then by others. -/
def completion (relation : Relation) (all : Option (List Json)) (complete further : Json → Option Json)
    (row : Json) : Option Json :=
  (relation.foundFor all complete row).bind fun children =>
    further (row.setMember relation.name (relation.gather children))

/-- A first relation completes rows in batches as it does one by one, if the others do. -/
theorem CompletesRows.cons {relation : Relation} {query : Query} {rest : List (Relation × Query)}
    {complete further : Json → Option Json}
    (objects : ∀ statement rows, answer statement = .ok rows → ∀ row ∈ rows, row.IsObject)
    (completes : Completes σ answer query complete)
    (filters : ∀ values, answer (query.selection.filterBy [relation.joinPredicate values]).rowsStatement =
      (answer query.selection.rowsStatement).map (List.filter (relation.matchesAny values)))
    (child : relation.childColumn ∉ query.includes.map Query.includedName)
    (parents : ∀ included ∈ rest, included.1.parentColumn ≠ relation.name)
    (later : CompletesRows σ answer rest further) :
    CompletesRows σ answer ((relation, query) :: rest)
      (completion relation (answer query.selection.rowsStatement).toOption complete further) := by
  have keysStay : ∀ all, (answer query.selection.rowsStatement).toOption = some all →
      ∀ child ∈ all, ∀ done, complete child = some done →
        relation.childKey? done = relation.childKey? child := by
    intro all answered row member done completed
    have listed : answer query.selection.rowsStatement = .ok all := by
      cases statement : answer query.selection.rowsStatement <;> rw [statement] at answered
      · contradiction
      · exact congrArg Except.ok (Option.some.inj answered)
    have same := completes.columns row done (objects _ _ listed row member) completed _ child
    rw [Relation.childKey?, Relation.childKey?, same]
  have batch := finds_related (σ := σ) completes filters
  have single := finds_ownRelated (σ := σ) completes filters
  generalize (answer query.selection.rowsStatement).toOption = all at keysStay batch single
  refine ⟨fun rows objectRows => ?_, fun row made shape agree => ?_,
    fun row done shape found name absent => ?_⟩
  · rw [attachAll_cons]
    obtain ⟨related, found, each⟩ | ⟨missing, row, member, alone⟩ :=
      Relation.foundForAll_spec rows keysStay
    · have attached := (batch rows).bind fun value _ =>
        later.batched (rows.map (relation.attach value)) fun row member => by
          obtain ⟨before, listed, rfl⟩ := List.mem_map.1 member
          exact (objectRows before listed).setMember relation.name _
      have same : (rows.map (relation.attach related)).mapM further =
          rows.mapM (completion relation all complete further) := by
        rw [List.mapM_map]
        refine mapM_congr fun row member => ?_
        rw [completion, each row member]
        rfl
      rwa [found, Option.bind_some, same] at attached
    · have nothing : rows.mapM (completion relation all complete further) = none :=
        mapM_eq_none member (by rw [completion, alone]; rfl)
      have failed : Finds ((answering answer : Database σ).related relation query (relation.joinKeys rows) >>=
          fun related => (answering answer).attachAll rest (rows.map (relation.attach related)))
          ((relation.foundForAll all complete rows).bind fun _ => none) :=
        (batch rows).bind fun value found => by rw [missing] at found; contradiction
      rwa [missing, Option.bind_none, ← nothing] at failed
  · have here := agree (relation, query) (.head rest)
    have own : relation.foundFor all complete row = relation.foundFor all complete made := by
      unfold Relation.foundFor Relation.parentKey?
      rw [here]
    rw [attachByRow_cons, completion, ← own]
    refine (single row).bind fun children _ => later.byRow row _ (shape.setMember relation.name _) ?_
    intro included member
    rw [Json.member?_setMember shape, if_neg (parents included member)]
    exact agree included (.tail _ member)
  · obtain ⟨children, own, found⟩ := Option.bind_eq_some_iff.1 found
    have apart : name ≠ relation.name := fun same => absent (same ▸ .head _)
    rw [later.columns _ done (shape.setMember relation.name _) found name fun held =>
      absent (.tail _ held), Json.member?_setMember shape, if_neg apart]

/-- Relations one after the other complete rows in batches as they do one by one. -/
theorem exists_completesRows {includes : List (Relation × Query)}
    (objects : ∀ statement rows, answer statement = .ok rows → ∀ row ∈ rows, row.IsObject)
    (parents : ∀ included ∈ includes, included.1.parentColumn ∉ includes.map Query.includedName)
    (children : ∀ included ∈ includes,
      included.1.childColumn ∉ included.2.includes.map Query.includedName)
    (filters : ∀ included ∈ includes, ∀ values,
      answer (included.2.selection.filterBy [included.1.joinPredicate values]).rowsStatement =
        (answer included.2.selection.rowsStatement).map (List.filter (included.1.matchesAny values)))
    (below : ∀ included ∈ includes, ∃ complete, Completes σ answer included.2 complete) :
    ∃ complete, CompletesRows σ answer includes complete := by
  induction includes with
  | nil =>
    refine ⟨some, fun rows _ => ?_, fun row made _ _ => ?_, fun row done _ same name _ => ?_⟩
    · rw [attachAll, mapM_eq_some_map fun _ _ => rfl, List.map_id']
      exact .pure rows
    · rw [attachByRow]
      exact .pure made
    · rw [Option.some.inj same]
  | cons first rest ih =>
    obtain ⟨relation, query⟩ := first
    obtain ⟨complete, completes⟩ := below (relation, query) (.head rest)
    obtain ⟨further, later⟩ := ih
      (fun included member held => parents included (.tail _ member) (.tail _ held))
      (fun included member => children included (.tail _ member))
      (fun included member => filters included (.tail _ member))
      (fun included member => below included (.tail _ member))
    have apart : ∀ included ∈ rest, included.1.parentColumn ≠ relation.name := fun included member same =>
      parents included (.tail _ member) (same ▸ .head _)
    exact ⟨_, .cons objects completes (filters _ (.head rest)) (children _ (.head rest)) apart later⟩

/-- Loading a query completes the rows of its statement. -/
theorem exists_completes {query : Query}
    (objects : ∀ statement rows, answer statement = .ok rows → ∀ row ∈ rows, row.IsObject)
    (separate : query.Separate) (filters : query.FiltersByKey answer) :
    ∃ complete, Completes σ answer query complete := by
  induction query using Query.inductionOn with
  | node selection includes ih =>
    obtain ⟨parents, children, separateBelow⟩ := separate
    obtain ⟨filtersHere, filtersBelow⟩ := filters
    obtain ⟨complete, rows⟩ := exists_completesRows (σ := σ) objects parents children filtersHere
      fun included member => ih included member (separateBelow included member) (filtersBelow included member)
    have listed : ∀ statement rows, (answer statement).toOption = some rows → ∀ row ∈ rows, row.IsObject := by
      intro statement rows answered
      cases given : answer statement <;> rw [given] at answered
      · contradiction
      · exact Option.some.inj answered ▸ objects statement _ given
    refine ⟨complete, fun predicates => ?_, fun predicates => ?_, rows.columns⟩
    · rw [loadWhere]
      exact (Finds.run answer _).bind fun found same => rows.batched found (listed _ _ same)
    · rw [loadByRowWhere]
      exact (Finds.run answer _).bind fun found same => Finds.mapM fun row member =>
        rows.byRow row row (listed _ _ same row member) fun _ _ => rfl

/-- Loading in batches is loading row by row. For a database that answers every statement with objects, a
query whose predicates on keys filter what they are added to, and whose relations are not named as columns
that match rows, both loaders leave the state as it is and give the same rows with the same relations in
the same order; where a statement fails that one of them runs, both fail. -/
theorem load_eq_loadByRow {query : Query}
    (objects : ∀ statement rows, answer statement = .ok rows → ∀ row ∈ rows, row.IsObject)
    (separate : query.Separate) (filters : query.FiltersByKey answer) :
    ∃ batched byRow : Except DatabaseError (List Json),
      (answering answer : Database σ).load query = settled batched ∧
      (answering answer : Database σ).loadByRow query = settled byRow ∧
      batched.toOption = byRow.toOption := by
  obtain ⟨complete, completes⟩ := exists_completes (σ := σ) objects separate filters
  obtain ⟨batched, loaded, found⟩ := completes.batched []
  obtain ⟨byRow, loadedByRow, foundByRow⟩ := completes.byRow []
  exact ⟨batched, byRow, loaded, loadedByRow, found.trans foundByRow.symm⟩

end Database

/-! ### Tables with keys -/

/-- A row meets a predicate that lists keys; other predicates are met by every row. -/
def Predicate.listsKeyOf (predicate : Predicate) (row : Json) : Bool :=
  match predicate.value with
  | .array values => Relation.matchesAny ⟨"", "", .many, "", predicate.column⟩ values row
  | _ => true

namespace Database

/-- The answers of tables whose rows are looked up by key. -/
def keyedTables (tables : String → List Json) : Statement → Except DatabaseError (List Json)
  | .rows _ table conditions _ _ _ =>
    .ok ((tables table).filter fun row => conditions.all fun predicate => predicate.listsKeyOf row)
  | .count table _ => .ok [.ofMembers [("count", .natural (tables table).length)]]

/-- In tables whose rows are looked up by key, predicates on keys filter. -/
theorem filtersByKey_keyedTables (tables : String → List Json) (query : Query) :
    query.FiltersByKey (keyedTables tables) := by
  induction query using Query.inductionOn with
  | node selection includes ih =>
    refine .node (fun included member values => ?_) ih
    obtain ⟨relation, query⟩ := included
    show Except.ok _ = Except.ok _
    congr 1
    rw [List.filter_filter]
    apply List.filter_congr
    intro row _
    show (query.selection.conditions ++ [relation.joinPredicate values]).all _ = _
    rw [List.all_append, Bool.and_comm]
    congr 1
    exact Bool.and_true _

/-- Two users, and three messages between them: one without a recipient, and two to the same recipient,
whose key is a text in one of them. -/
def correspondence : String → List Json
  | "users" =>
    [.ofMembers [("id", .natural 1), ("name", .string "Ada")],
      .ofMembers [("id", .natural 2), ("name", .string "Bob")]]
  | "messages" =>
    [.ofMembers [("id", .natural 7), ("sender", .natural 1), ("to", .string "2")],
      .ofMembers [("id", .natural 8), ("sender", .natural 2), ("to", .null)],
      .ofMembers [("id", .natural 9), ("sender", .natural 1), ("to", .natural 2)]]
  | _ => []

/-- Users with the messages that they sent and the recipients of these. -/
def sentMessages : Query :=
  .node (.ofEntity (.ofTable "users" "users")) [(⟨"messages", "messages", .many, "id", "sender"⟩,
    .node (.ofEntity (.ofTable "messages" "messages")) [(⟨"recipient", "users", .owner, "to", "id"⟩,
      .node (.ofEntity (.ofTable "users" "users")) [])])]

/-- The relations of sent messages are not named as columns that match rows. -/
theorem separate_sentMessages : sentMessages.Separate := by
  have leaf : ∀ selection, (Query.node selection []).Separate := fun selection =>
    .node (by simp) (by simp) (by simp)
  refine .node (by decide) (by decide) fun included member => ?_
  have same := List.mem_singleton.1 member
  subst same
  refine .node (by decide) (by decide) fun included member => ?_
  have same := List.mem_singleton.1 member
  subst same
  exact leaf _

/-- Batches load the correspondence as it is loaded row by row. -/
theorem load_correspondence :
    (∀ statement rows, keyedTables correspondence statement = .ok rows → ∀ row ∈ rows, row.IsObject) ∧
    sentMessages.Separate ∧ sentMessages.FiltersByKey (keyedTables correspondence) ∧
    (answering (keyedTables correspondence) : Database Unit).load sentMessages = settled (.ok [
      .object [("id", .natural 1), ("messages", .array [
        .object [("id", .natural 7), ("recipient", .object [("id", .natural 2), ("name", .string "Bob")]),
          ("sender", .natural 1), ("to", .string "2")],
        .object [("id", .natural 9), ("recipient", .object [("id", .natural 2), ("name", .string "Bob")]),
          ("sender", .natural 1), ("to", .natural 2)]]), ("name", .string "Ada")],
      .object [("id", .natural 2), ("messages", .array [
        .object [("id", .natural 8), ("recipient", .null), ("sender", .natural 2), ("to", .null)]]),
        ("name", .string "Bob")]]) ∧
    ∃ batched byRow : Except DatabaseError (List Json),
      (answering (keyedTables correspondence) : Database Unit).load sentMessages = settled batched ∧
      (answering (keyedTables correspondence) : Database Unit).loadByRow sentMessages = settled byRow ∧
      batched.toOption = byRow.toOption := by
  have rows : ∀ table, ∀ row ∈ correspondence table, row.IsObject := by
    intro table row member
    unfold correspondence at member
    split at member <;> simp only [List.mem_cons, List.not_mem_nil, or_false] at member
    · rcases member with rfl | rfl <;> exact Json.isObject_ofMembers _
    · rcases member with rfl | rfl | rfl <;> exact Json.isObject_ofMembers _
  have objects : ∀ statement rows, keyedTables correspondence statement = .ok rows →
      ∀ row ∈ rows, row.IsObject := by
    intro statement found answered row member
    cases statement with
    | rows columns table conditions orders limit offset =>
      have same := Except.ok.inj answered
      subst same
      exact rows table row (List.mem_filter.1 member).1
    | count table conditions =>
      have same := Except.ok.inj answered
      subst same
      have same := List.mem_singleton.1 member
      subst same
      exact Json.isObject_ofMembers _
  have filters := filtersByKey_keyedTables correspondence sentMessages
  exact ⟨objects, separate_sentMessages, filters, rfl,
    load_eq_loadByRow objects separate_sentMessages filters⟩

end Database

end ResourceQuery
