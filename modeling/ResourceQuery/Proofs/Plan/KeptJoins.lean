import ResourceQuery.Proofs.Plan.RequestedFields

/-!
# Restricted fields never break joins

However often the fields of a node are restricted, and in whatever order with the relations below it, and
whatever predicates and sort keys operations add, the node keeps the columns that identify its rows and match
them with those of its parent (`Selection.SelectsKeys`), for every call on a plan keeps them at every node
(`Follows.selectsKeys`). Finishing the plan adds the columns that the relations of a node match by. So in the
end both sides of every relation are selected, no statement lists no columns at all, and what finishing added
is surplus where it was added (`joins_kept`).
-/
namespace ResourceQuery

/-- The columns that identify and match the rows are selected. -/
def Selection.SelectsKeys (selection : Selection) : Prop :=
  ∀ key ∈ Plan.keyColumns selection, selection.selects key = true

/-- A statement for rows that lists columns lists some. -/
def Statement.NamesColumns : Statement → Prop
  | .rows (some []) _ _ _ _ _ => False
  | _ => True

namespace Selection

variable {selection : Selection}

/-- A selection of all columns selects the keys. -/
theorem selectsKeys_of_columns_none (every : selection.columns = none) : selection.SelectsKeys := by
  intro key _
  rw [selects, every]

/-- What keeps the rows and the columns keeps the keys selected. -/
theorem SelectsKeys.of_columns {other : Selection} (keys : selection.SelectsKeys)
    (bare : other.bare = selection.bare) (columns : other.columns = selection.columns) : other.SelectsKeys := by
  intro key member
  rw [Plan.selects_of_columns columns]
  exact keys key (keyColumns_of_bare bare ▸ member)

/-- A selection that is restricted to fields keeps the keys selected. -/
theorem SelectsKeys.restrictTo (keys : selection.SelectsKeys) (fields : List String) :
    (selection.restrictTo fields).SelectsKeys := by
  by_cases named : fields = []
  · subst named
    exact keys
  · intro key member
    rw [keyColumns_of_bare (bare_restrictTo fields selection)] at member
    exact (selects_restrictTo named selection key).2 (.inl member)

/-- A selection with more columns keeps the keys selected. -/
theorem SelectsKeys.foldl_addColumn (keys : selection.SelectsKeys) (columns : List String) :
    (columns.foldl addColumn selection).SelectsKeys := by
  intro key member
  rw [keyColumns_of_bare (bare_foldl_addColumn columns selection)] at member
  exact (selects_foldl_addColumn columns selection key).2 (.inl (keys key member))

/-- Where the keys are selected, no statement for the rows lists no columns. -/
theorem SelectsKeys.namesColumns (keys : selection.SelectsKeys) (added : List Predicate) :
    (selection.filterBy added).rowsStatement.NamesColumns := by
  have own := keys selection.primaryKey (.head _)
  cases listed : selection.columns with
  | none =>
    show (Statement.rows selection.columns _ _ _ _ _).NamesColumns
    rw [listed]
    trivial
  | some columns =>
    show (Statement.rows selection.columns _ _ _ _ _).NamesColumns
    rw [listed]
    rw [selects, listed] at own
    cases columns with
    | nil => contradiction
    | cons column rest => trivial

end Selection

namespace Plan

variable {registry : Registry} {catalog : Catalog} {start : Query} {trace : Trace} {plan : Plan}

/-- Fresh nodes of relations select their keys. -/
theorem selectsKeys_ofRelation (relation : Relation) (target : Entity) :
    (Selection.ofRelation relation target).SelectsKeys := Selection.selectsKeys_of_columns_none rfl

/-- The query for every row of an entity selects its keys. -/
theorem selectsKeys_ofEntity (entity : Entity) : (Query.ofEntity entity).EveryNode Selection.SelectsKeys := by
  intro chain selection found
  cases chain with
  | nil =>
    obtain rfl := Option.some.inj found
    exact Selection.selectsKeys_of_columns_none rfl
  | cons name rest => exact nomatch found

/-- Join columns leave the keys selected at every node. -/
theorem selectsKeys_withJoinColumns {query : Query} (every : query.EveryNode Selection.SelectsKeys) :
    query.withJoinColumns.EveryNode Selection.SelectsKeys := by
  intro chain selection found
  rw [Query.selectionAt?_withJoinColumns] at found
  obtain ⟨node, there, rfl⟩ := Option.map_eq_some_iff.1 found
  exact (every chain _ (Query.selectionAt?_of_at? there)).foldl_addColumn _

/-- A change of the rows that keeps the columns keeps the keys selected at every node. -/
theorem selectsKeys_mapSelection (every : plan.query.EveryNode Selection.SelectsKeys)
    {change : Selection → Selection} (bare : ∀ selection, (change selection).bare = selection.bare)
    (columns : ∀ selection, (change selection).columns = selection.columns) :
    (plan.mapSelection change).query.EveryNode Selection.SelectsKeys :=
  every.mapSelection fun keys => keys.of_columns (bare _) (columns _)

section AppendOnly

variable [registry.AppendOnly]

/-- A list of calls keeps the keys selected at every node if each of them does. -/
theorem Follows.selectsKeys_runCalls {calls : List Call} (each : ∀ call ∈ calls, ∀ {start trace plan},
      Follows catalog start trace plan → plan.query.EveryNode Selection.SelectsKeys →
        (call.run registry catalog plan).2.query.EveryNode Selection.SelectsKeys)
    (follows : Follows catalog start trace plan) (every : plan.query.EveryNode Selection.SelectsKeys) :
    (Plan.runCalls registry catalog calls plan).2.query.EveryNode Selection.SelectsKeys := by
  induction calls generalizing trace plan with
  | nil => exact every
  | cons call rest ih =>
    rw [Plan.runCalls]
    exact ih (fun other member => each other (.tail _ member)) (follows.run call)
      (each call (.head rest) follows every)

/-- Every call keeps the keys selected at every node. -/
theorem Follows.selectsKeys (follows : Follows catalog start trace plan)
    (every : plan.query.EveryNode Selection.SelectsKeys) (call : Call) :
    (call.run registry catalog plan).2.query.EveryNode Selection.SelectsKeys := by
  induction call using Call.inductionOn generalizing start trace plan with
  | filter filters =>
    rw [Call.run, filter_eq]
    exact selectsKeys_mapSelection every (fun _ => rfl) fun _ => rfl
  | sort names =>
    rw [Call.run, sort_eq]
    exact selectsKeys_mapSelection every (fun _ => rfl) fun _ => rfl
  | skip count => exact selectsKeys_mapSelection every (fun _ => rfl) fun _ => rfl
  | take count => exact selectsKeys_mapSelection every (fun _ => rfl) fun _ => rfl
  | fields names =>
    rw [Call.run, query_restrict]
    exact every.mapSelection fun keys => keys.restrictTo names
  | relation name calls ih =>
    have inner : ∀ node : Query, node.Mirrors catalog →
        Follows catalog node (Plan.runCalls registry catalog calls (.ofQuery node)).1
          (Plan.runCalls registry catalog calls (.ofQuery node)).2 := fun node mirrors =>
      Follows.runCalls (fun call _ _ _ _ follows => follows.run call) (.ofQuery mirrors)
    have keeps := fun node mirrors => And.intro (inner node mirrors).mirrors (inner node mirrors).bare
    rw [Call.run]
    rcases withRelation_cases registry name keeps follows.mirrors with
      refused | ⟨reached, result, further, leads, made, configured⟩
    · simp only [refused]
      exact every
    · simp only [made]
      have node := every.nodeAt follows.mirrors selectsKeys_ofRelation (Option.isSome_iff_exists.2 ⟨reached, leads⟩)
      refine every.configuredAt selectsKeys_ofRelation ?_ configured
      exact Follows.selectsKeys_runCalls (fun call member => ih call member)
        (.ofQuery (Query.nodeAt_spec follows.mirrors leads).1) node

end AppendOnly

/-- Restricted fields never break joins where operations only add. Whatever calls make a plan of the query for
every row of an entity, at every node of the finished plan the columns that identify its rows are selected, and
for every relation included there the parent column at the node and the child column at the included query; so
no statement for the rows of the node lists no columns, whatever predicates are added to it. And every column of
the node that was selected by finishing the plan is surplus there. -/
theorem joins_kept (registry : Registry) [registry.AppendOnly] (catalog : Catalog) (entity : Entity)
    (calls : List Call) :
    let plan := (runCalls registry catalog calls (.ofQuery (.ofEntity entity))).2
    ∀ chain selection, (chain, selection) ∈ plan.finish.query.nodes →
      selection.selects selection.primaryKey = true ∧
      (∃ node, plan.finish.query.at? chain = some node ∧ node.selection = selection ∧
        ∀ included ∈ node.includes,
          plan.finish.query.at? (chain ++ [included.1.name]) = some included.2 ∧
          selection.selects included.1.parentColumn = true ∧
          included.2.selection.selects included.1.childColumn = true) ∧
      (∀ added, (selection.filterBy added).rowsStatement.NamesColumns) ∧
      ∃ before, plan.query.selectionAt? chain = some before ∧ ∀ column,
        before.selects column = false → selection.selects column = true →
          column ∈ plan.finish.surplus.fieldsAt ⟨chain⟩ := by
  intro plan chain selection listed
  have leaf : (Query.ofEntity entity).Mirrors catalog := .leaf catalog (.ofEntity entity)
  have follows : Follows catalog (.ofEntity entity) _ plan :=
    Follows.runCalls (fun call _ _ _ _ follows => follows.run call) (.ofQuery leaf)
  have every : plan.query.EveryNode Selection.SelectsKeys := Follows.selectsKeys_runCalls
    (fun call _ _ _ _ follows every => follows.selectsKeys every call) (.ofQuery leaf) (selectsKeys_ofEntity entity)
  have finished : plan.finish.query.EveryNode Selection.SelectsKeys := selectsKeys_withJoinColumns every
  have mirrors : plan.finish.query.Mirrors catalog := follows.mirrors.withJoinColumns
  have found := (Query.mem_nodes_iff mirrors).1 listed
  obtain ⟨node, there, rfl⟩ := Option.map_eq_some_iff.1 found
  have keys := finished chain _ found
  have along := there
  rw [query_finish, Query.at?_withJoinColumns] at along
  obtain ⟨before, present, rfl⟩ := Option.map_eq_some_iff.1 along
  refine ⟨keys _ (.head _), ⟨_, there, rfl, fun included member => ?_⟩, keys.namesColumns,
    before.selection, Query.selectionAt?_of_at? present, fun column lacked selected => ?_⟩
  · have below := mirrors.at?_included there member
    refine ⟨below, ?_, ?_⟩
    · rw [Query.includes_withJoinColumns] at member
      obtain ⟨own, listed, rfl⟩ := List.mem_map.1 member
      have selected := Query.selects_parentColumn_withJoinColumns listed
      exact selected
    · exact finished _ _ (Query.selectionAt?_of_at? below) _ ((mirrors.at there).childColumn_mem_keyColumns member)
  · refine (mem_fieldsAt_finish follows.mirrors follows.ordered ⟨chain⟩ column).2 (.inr ⟨before, present, ?_⟩)
    refine ((before.selects_withJoinColumns column).1 selected).resolve_left fun held => ?_
    rw [lacked] at held
    contradiction

/-- Messages with the user whom each went to. -/
def addressed : Catalog :=
  .insert (.insert .empty (Entity.ofTable "users" "users"))
    ((Entity.ofTable "messages" "messages").relateOwner "recipient" "users" "to" "id")

/-- The subjects of messages, before and after the names of their recipients. -/
def subjectsAgain : List Call :=
  [.fields ["to"], .relation "recipient" [.fields ["name"]], .fields ["subject"]]

/-- Messages with their keys, their subjects and the column that their recipients are found by. -/
def joinedSubjects : Selection :=
  ⟨"messages", "messages", "id", none, some ["id", "subject", "to"], [], [], none, none⟩

/-- Subjects asked for after the recipients leave them joined: the column of the messages that was dropped comes
back, and it is surplus. -/
theorem recipients_joined :
    let registry := Registry.empty.setInclusions "messages" [.path "recipient"]
    let entity := (Entity.ofTable "messages" "messages").relateOwner "recipient" "users" "to" "id"
    let plan := (runCalls registry addressed subjectsAgain (.ofQuery (.ofEntity entity))).2
    registry.AppendOnly ∧ ([], joinedSubjects) ∈ plan.finish.query.nodes ∧
      plan.query.selection.columns = some ["id", "subject"] ∧
      joinedSubjects.selects joinedSubjects.primaryKey = true ∧
      (∃ node, plan.finish.query.at? [] = some node ∧ node.selection = joinedSubjects ∧
        ∀ included ∈ node.includes,
          plan.finish.query.at? ([] ++ [included.1.name]) = some included.2 ∧
          joinedSubjects.selects included.1.parentColumn = true ∧
          included.2.selection.selects included.1.childColumn = true) ∧
      (∀ added, (joinedSubjects.filterBy added).rowsStatement.NamesColumns) ∧
      ∃ before, plan.query.selectionAt? [] = some before ∧ ∀ column,
        before.selects column = false → joinedSubjects.selects column = true →
          column ∈ plan.finish.surplus.fieldsAt ⟨[]⟩ := by
  intro registry entity plan
  have listed : ([], joinedSubjects) ∈ plan.finish.query.nodes := .head _
  have adds : registry.AppendOnly := ⟨Registry.Each.empty.setInclusions "messages" _⟩
  exact ⟨adds, listed, rfl, joins_kept registry addressed entity subjectsAgain _ _ listed⟩

end Plan

end ResourceQuery
