import ResourceQuery.Proofs.Database.Readings
import ResourceQuery.Proofs.Parameter.AskedValues
import ResourceQuery.Proofs.Parameter.WrittenElements
import ResourceQuery.Proofs.Service.AllowListed
import ResourceQuery.Proofs.Service.Root

/-!
# The windows of statements

Configuring a path gives its node a limit and an offset, and nothing else does but taking the first row of an
item: what operations do to the windows of rows is undone there. So where they change what is asked of the rows
alone, the nodes of a plan have the windows of their paths where these were configured, and none where they are
on the way to one (`Service.Arranged.window_finish`). The statements of a page, an item and a row's relations
read these nodes, whatever the database answers, and their windows are bounded by the settings
(`Service.statements_paginated`).
-/
namespace ResourceQuery

variable {σ : Type}

namespace Statement

/-- The greatest number of rows, if the statement has one. -/
def limit? : Statement → Option Nat
  | .rows _ _ _ _ limit _ => limit
  | .count _ _ => none

/-- The number of rows passed over, if the statement has one. -/
def offset? : Statement → Option Nat
  | .rows _ _ _ _ _ offset => offset
  | .count _ _ => none

/-- The statement gives at least one row and no more than so many, after an offset of 64 bits. -/
structure Paginated (greatest : Int) (statement : Statement) : Prop where
  /-- The limit is between one and the greatest. -/
  limit : ∃ limit, statement.limit? = some limit ∧ 1 ≤ limit ∧ (limit : Int) ≤ greatest
  /-- The offset is a signed integer of 64 bits that is not negative. -/
  offset : ∃ offset, statement.offset? = some offset ∧ (offset : Int) ≤ Text.int64Max

/-- The statement has neither a limit nor an offset. -/
structure Whole (statement : Statement) : Prop where
  /-- There is no limit. -/
  limit : statement.limit? = none
  /-- There is no offset. -/
  offset : statement.offset? = none

/-- The statement has an offset only beside a limit. -/
def Bounded (statement : Statement) : Prop := statement.offset?.isSome → statement.limit?.isSome

/-- What is paginated is bounded. -/
theorem Paginated.bounded {greatest : Int} {statement : Statement} (paginated : statement.Paginated greatest) :
    statement.Bounded := by
  obtain ⟨limit, limited, -⟩ := paginated.limit
  intro _
  rw [limited]
  rfl

/-- What has no window is bounded. -/
theorem Whole.bounded {statement : Statement} (whole : statement.Whole) : statement.Bounded := by
  intro shifted
  rw [whole.offset] at shifted
  exact nomatch shifted

end Statement

/-! ### The windows of nodes -/

/-- The limit and the offset of a selection. -/
def Selection.window (selection : Selection) : Option Nat × Option Nat := (selection.limit, selection.offset)

/-- Added columns leave the window. -/
theorem Selection.window_foldl_addColumn (columns : List String) (selection : Selection) :
    (columns.foldl addColumn selection).window = selection.window := by
  obtain ⟨all, shape⟩ := foldl_addColumn_eq columns selection
  rw [shape]
  rfl

namespace Service

variable {service : Service} {start : Selection} {held : List String} {runs : List Path} {plan : Plan}

/-- The window that a path is configured with. -/
def windowAt (service : Service) (path : Path) : Option Nat × Option Nat :=
  (some (service.request.limit path), some (service.request.offset path))

/-- A path is configured with its window. -/
theorem window_arrange (service : Service) (path : Path) (selection : Selection) :
    (service.arrange path selection).window = service.windowAt path := rfl

/-- The finished query of an arranged plan has the window of the start at the root, those of the configured
paths at their nodes, and none at the nodes that are only on the way to them. -/
theorem Arranged.window_finish (arranged : Arranged service start held runs plan) {chain : List String}
    {own : Selection} (found : plan.finish.query.selectionAt? chain = some own) : own.window =
      if chain = [] then start.window else if ⟨chain⟩ ∈ runs then service.windowAt ⟨chain⟩ else (none, none) := by
  rw [Plan.query_finish, Query.selectionAt?_withJoinColumns] at found
  obtain ⟨node, there, rfl⟩ := Option.map_eq_some_iff.1 found
  have before := Query.selectionAt?_of_at? there
  rw [Selection.window_foldl_addColumn]
  split
  · next root =>
    subst root
    rw [Query.selectionAt?_nil, arranged.root] at before
    rw [← Option.some.inj before]
  · next below =>
    rw [arranged.selections, arranged?] at before
    split at before
    · obtain ⟨reached, leads, same⟩ := Option.map_eq_some_iff.1 before
      rw [← same]
      split
      · next configured =>
        obtain ⟨times, often⟩ := Nat.exists_eq_succ_of_ne_zero (List.count_pos_iff.2 configured).ne'
        rw [often]
        exact service.window_arrange ⟨chain⟩ _
      · next passed =>
        rw [List.count_eq_zero_of_not_mem passed]
        exact (congrArg Selection.window (Catalog.bare_of_reach? leads below)).symm
    · contradiction

/-- The relations of a request over a selection of its own make an arranged plan. -/
theorem arranged_withRelations (service : Service) [service.registry.Local] (start : Selection) (held : List String) :
    Arranged service start held (service.admitted start.entity service.request.relations)
      (service.withRelations ⟨.node start [], .node held []⟩) :=
  (Arranged.leaf service start held).foldl_withRelation service.request.relations

/-- The plan of an item is what configuring the admitted paths makes of the restricted root. -/
theorem arranged_itemPlan (service : Service) [service.registry.Local] (selection : Selection) :
    Arranged service (selection.restrictTo (service.request.fields .root))
      (forced (service.request.fields .root) selection)
      (service.admitted selection.entity service.request.relations)
      (service.itemPlan (.node selection [])) := by
  have entity : (selection.restrictTo (service.request.fields .root)).entity = selection.entity :=
    Selection.entity_of_bare (Selection.bare_restrictTo _ selection)
  have restricted : (Plan.ofQuery (.node selection [])).restrict (service.request.fields .root) =
      ⟨.node (selection.restrictTo (service.request.fields .root)) [],
        .node (forced (service.request.fields .root) selection) []⟩ :=
    Plan.eq_mk (Plan.query_restrict _ _) (Plan.surplus_restrict rfl)
  rw [itemPlan, restricted, ← entity]
  exact service.arranged_withRelations _ _

end Service

/-! ### The bounds of windows -/

/-- A value between two bounds, the nearer bound where it is not; nothing where the bounds cross. -/
def clamp? (low high value : Int) : Option Int :=
  if low ≤ high then some (if value < low then low else if high < value then high else value) else none

namespace Request

/-- The limit that is asked for or supplied at a path, the usual one where none is. -/
def wantedLimit (request : Request) (path : Path) : Int :=
  ((request.asked.limits.find? path).or (request.supplied.limits.find? path)).getD request.settings.limits.usual

/-- The limit of a path is the wanted one between bounds that never cross. -/
theorem clamp?_wantedLimit (request : Request) (path : Path) :
    clamp? 1 request.greatestLimit (request.wantedLimit path) = some (request.limit path : Int) := by
  have ordered : 1 ≤ request.greatestLimit := by
    unfold greatestLimit
    omega
  rw [clamp?, if_pos ordered, limit, ← wantedLimit]
  congr 1
  split
  · omega
  · split <;> omega

/-- The offsets that pairs ask for are integers of 64 bits. -/
theorem isInt64_asked_offset {settings : Settings} {supplied : ParameterSet} {pairs : List (String × String)}
    {path : Path} {offset : Int}
    (found : (ofPairs settings supplied pairs).asked.offsets.find? path = some offset) :
    Text.IsInt64 offset := by
  rw [show (ofPairs settings supplied pairs).asked = .ofPairs settings.names pairs from rfl,
    ParameterSet.ofPairs_eq] at found
  cases last : settings.names.lastValue? .offset pairs with
  | none =>
    rw [last, Option.map_none, Option.getD_none, SortedMap.find?_empty] at found
    exact nomatch found
  | some text =>
    rw [last, Option.map_some, Option.getD_some] at found
    exact Parameter.isInt64_of_find?_integers found

/-- The offset of a path is an integer of 64 bits where the supplied ones are. -/
theorem offset_le {settings : Settings} {supplied : ParameterSet} (pairs : List (String × String))
    (supplies : ∀ path offset, supplied.offsets.find? path = some offset → Text.IsInt64 offset) (path : Path) :
    ((ofPairs settings supplied pairs).offset path : Int) ≤ Text.int64Max := by
  have wanted : ((((ofPairs settings supplied pairs).asked.offsets.find? path).or
      (supplied.offsets.find? path)).getD 0) ≤ Text.int64Max := by
    cases asked : (ofPairs settings supplied pairs).asked.offsets.find? path with
    | some offset => exact (isInt64_asked_offset asked).2
    | none =>
      cases given : supplied.offsets.find? path with
      | some offset => exact (supplies path offset given).2
      | none => decide
  unfold offset
  rw [show (ofPairs settings supplied pairs).supplied = supplied from rfl]
  have positive : (0 : Int) ≤ Text.int64Max := by decide
  omega

end Request

/-! ### What requests run -/

namespace Query

/-- The statements that read a query are those of its root and of nodes below it, in their order. -/
theorem ReadBy.nodes {catalog : Catalog} {query : Query} (mirrors : query.Mirrors catalog)
    {statements : List Statement} (reads : query.ReadBy [] statements) :
    ∃ (root : Reading) (rest : List Reading), statements = (root :: rest).map Reading.statement ∧
      root.chain = [] ∧ (∀ reading ∈ rest, reading.chain ≠ []) ∧
      ((root :: rest).map Reading.node).Sublist query.nodes ∧
      ∀ reading ∈ root :: rest, query.selectionAt? reading.chain = some reading.selection := by
  obtain ⟨rest, rfl, below⟩ := reads
  have listed : (((⟨[], query.selection, []⟩ : Reading) :: rest).map Reading.node).Sublist query.nodes := by
    obtain ⟨selection, includes⟩ := query
    exact below.cons_cons ([], selection)
  refine ⟨⟨[], query.selection, []⟩, rest, rfl, rfl, fun reading member => ?_, listed, fun reading member =>
    (mem_nodes_iff mirrors).1 (listed.subset (List.mem_map_of_mem member))⟩
  obtain ⟨included, -, longer, along, -⟩ :=
    mem_includedNodes_iff.1 (below.subset (List.mem_map_of_mem member))
  have along : reading.chain = included.1.name :: longer := along
  rw [along]
  exact List.cons_ne_nil _ _

end Query

/-- A reading has the limit of its node. -/
theorem Reading.limit?_statement (reading : Reading) : reading.statement.limit? = reading.selection.window.1 := rfl

/-- A reading has the offset of its node. -/
theorem Reading.offset?_statement (reading : Reading) : reading.statement.offset? = reading.selection.window.2 := rfl

variable {database : Database σ} {log : σ → List Statement}

/-- An item reads the finished query for its first row. -/
theorem Plan.runs_item (logs : database.Logs log) (plan : Plan) :
    Runs log ((plan.finish.take 1).query.ReadBy []) (plan.item database.rowSource) := by
  have loaded := Database.runs_loadWhere logs (plan.finish.take 1).query []
  refine (Runs.ofSession loaded).bind_nothing fun rows => ?_
  cases rows with
  | nil => exact .nothing_throw _
  | cons row rest => exact .nothing_pure _

/-- A page reads the finished query, and counts its rows. -/
theorem Plan.runs_page (logs : database.Logs log) (plan : Plan) :
    Runs log (fun statements => ∃ reads totals, statements = reads ++ totals ∧
      plan.finish.query.ReadBy [] reads ∧ ∀ total ∈ totals, total = plan.finish.query.selection.countStatement)
      (plan.page database.rowSource) := by
  have loaded := Database.runs_loadWhere logs plan.finish.query []
  have counted := Database.runs_total logs plan.finish.query
  refine (Runs.ofSession loaded).bind
    (fun rows => (Runs.ofSession counted).bind_nothing fun total => .nothing_pure _) ?_ ?_
  · exact fun statements reads => ⟨statements, [], (List.append_nil _).symm, reads, nofun⟩
  · rintro before after reads rfl
    exact ⟨before, _, rfl, reads, fun total listed => List.mem_singleton.1 listed⟩

namespace Service

variable {service : Service} {start : Selection} {held : List String} {runs : List Path} {plan : Plan}

/-- Projecting a row that is at hand reads the plan of its relations, or runs nothing. -/
theorem runs_project (logs : database.Logs log) (service : Service) (name : String) (row : Json) :
    Runs log (fun statements => statements = [] ∨ ∃ entity key,
      (service.loadingPlan entity key).query.ReadBy [] statements)
      (service.project database.rowSource name row) := by
  unfold project
  cases service.catalog.entity? name with
  | none => exact (Runs.nothing_throw _).mono fun _ nothing => .inl nothing
  | some entity =>
    cases row with
    | object members =>
      simp only
      cases service.loadingKey? entity members with
      | none => exact .pure (.inl rfl) _
      | some key =>
        have loaded := Database.runs_loadWhere logs (service.loadingPlan entity key).query []
        refine (Runs.ofSession (loaded.mono fun statements reads => .inr ⟨entity, key, reads⟩)).bind_nothing ?_
        exact fun rows => .nothing_pure _
    | null => exact .pure (.inl rfl) _
    | bool value => exact .pure (.inl rfl) _
    | number value => exact .pure (.inl rfl) _
    | string text => exact .pure (.inl rfl) _
    | array items => exact .pure (.inl rfl) _

/-- The window of a configured path is within bounds. -/
theorem paginated_of_window {catalog : Catalog} {registry : Registry} {settings : Settings}
    {supplied : ParameterSet} {pairs : List (String × String)}
    (supplies : ∀ path offset, supplied.offsets.find? path = some offset → Text.IsInt64 offset)
    {reading : Reading} {path : Path} (window : reading.selection.window =
      (⟨catalog, registry, .ofPairs settings supplied pairs⟩ : Service).windowAt path) :
    reading.statement.Paginated (max 1 settings.limits.greatest) := by
  obtain ⟨positive, bounded⟩ := (Request.ofPairs settings supplied pairs).limit_mem path
  have shifted : ((Request.ofPairs settings supplied pairs).offset path : Int) ≤ Text.int64Max :=
    Request.offset_le pairs supplies path
  rw [Request.greatestLimit, Int.max_comm] at bounded
  exact ⟨⟨_, reading.limit?_statement.trans (congrArg Prod.fst window), positive, bounded⟩,
    ⟨_, reading.offset?_statement.trans (congrArg Prod.snd window), shifted⟩⟩

/-- A node without a window is read whole. -/
theorem whole_of_window {reading : Reading} (window : reading.selection.window = (none, none)) :
    reading.statement.Whole where
  limit := by rw [reading.limit?_statement, window]
  offset := by rw [reading.offset?_statement, window]

/-- What reads the finished query of an arranged plan is bounded where its root is. -/
theorem Arranged.bounded (arranged : Arranged service start held runs plan)
    (root : start.window.2.isSome → start.window.1.isSome) {reading : Reading}
    (found : plan.finish.query.selectionAt? reading.chain = some reading.selection) :
    reading.statement.Bounded := by
  have window := arranged.window_finish found
  rw [Statement.Bounded, reading.limit?_statement, reading.offset?_statement, window]
  split
  · exact root
  · split
    · exact fun _ => rfl
    · exact fun shifted => nomatch shifted

/-- A node of the finished plan of a page is read paginated where it is the root or its path is included, and
whole elsewhere. -/
theorem read_pagePlan {catalog : Catalog} {registry : Registry} [registry.Local] {settings : Settings}
    {supplied : ParameterSet} {pairs : List (String × String)}
    (supplies : ∀ path offset, supplied.offsets.find? path = some offset → Text.IsInt64 offset)
    {selection : Selection} {reading : Reading} :
    let service : Service := ⟨catalog, registry, .ofPairs settings supplied pairs⟩
    let paged : Prop := reading.chain = [] ∨
      ⟨reading.chain⟩ ∈ service.admitted selection.entity service.request.relations
    (service.pagePlan (.node selection [])).finish.query.selectionAt? reading.chain = some reading.selection →
    (paged → reading.statement.Paginated (max 1 settings.limits.greatest)) ∧
      (¬ paged → reading.statement.Whole) ∧ reading.statement.Bounded := by
  intro service paged found
  have : service.registry.Local := ‹registry.Local›
  have arranged := service.arranged_pagePlan selection
  have window := arranged.window_finish found
  refine ⟨fun here => ?_, fun elsewhere => ?_, arranged.bounded (fun _ => rfl) found⟩
  · have configured : reading.selection.window = service.windowAt ⟨reading.chain⟩ := by
      rw [window]
      split
      · next root =>
        rw [root]
        rfl
      · next below => rw [if_pos (here.resolve_left below)]
    exact paginated_of_window supplies configured
  · obtain ⟨below, passed⟩ := not_or.1 elsewhere
    rw [if_neg below, if_neg passed] at window
    exact whole_of_window window

/-- A node of the finished plan of an item is read for one row, from the first on, where it is the root. -/
theorem read_itemPlan [service.registry.Local] {selection : Selection} (unshifted : selection.offset = none)
    {reading : Reading}
    (found : ((service.itemPlan (.node selection [])).finish.take 1).query.selectionAt? reading.chain =
      some reading.selection) :
    (reading.chain = [] → reading.statement.limit? = some 1 ∧ reading.statement.offset? = none) ∧
      reading.statement.Bounded := by
  have arranged := service.arranged_itemPlan selection
  generalize start : selection.restrictTo (service.request.fields .root) = restricted at arranged
  have unshiftedStart : restricted.offset = none := by
    obtain ⟨columns, shape⟩ := selection.restrictTo_eq (service.request.fields .root)
    rw [← start, shape]
    exact unshifted
  have taken : ((service.itemPlan (.node selection [])).finish.take 1).query.selectionAt? reading.chain = _ :=
    Query.selectionAt?_mapSelection _ _ reading.chain
  rw [taken] at found
  by_cases root : reading.chain = []
  · rw [if_pos root] at found
    have limited : reading.statement.limit? = some 1 := by
      rw [reading.limit?_statement, ← Option.some.inj found]
      rfl
    have unshiftedHere : reading.statement.offset? = none := by
      have window := arranged.window_finish (Query.selectionAt?_nil _)
      rw [if_pos rfl] at window
      rw [reading.offset?_statement, ← Option.some.inj found]
      exact (congrArg Prod.snd window).trans unshiftedStart
    refine ⟨fun _ => ⟨limited, unshiftedHere⟩, fun _ => ?_⟩
    rw [limited]
    rfl
  · rw [if_neg root] at found
    refine ⟨fun here => absurd here root, arranged.bounded (fun shifted => ?_) found⟩
    rw [show restricted.window.2 = none from unshiftedStart] at shifted
    exact nomatch shifted

/-- Every statement that a request causes has a window within bounds, where operations change what is asked of the
rows alone. The statements of a page are those of nodes of its plan, the root first, and at most counts at the
end: the root and the included paths are paginated up to the greatest limit that is configured, and a node that
is only on the way to one is read whole. The root of an item is read for one row. No statement of a page, an item
or the relations of a row has an offset without a limit. And no limit is held between bounds that cross. -/
theorem statements_paginated (catalog : Catalog) (registry : Registry) [registry.Local] (settings : Settings)
    {supplied : ParameterSet}
    (supplies : ∀ path offset, supplied.offsets.find? path = some offset → Text.IsInt64 offset)
    (pairs : List (String × String)) {selection : Selection} (unshifted : selection.offset = none)
    (logs : database.Logs log) :
    let request := Request.ofPairs settings supplied pairs
    let service : Service := ⟨catalog, registry, request⟩
    let included := service.admitted selection.entity request.relations
    let paginated (reading : Reading) := reading.statement.Paginated (max 1 settings.limits.greatest)
    Runs log (fun statements => ∃ (root : Reading) (rest : List Reading) (totals : List Statement),
        statements = (root :: rest).map Reading.statement ++ totals ∧
        ((root :: rest).map Reading.node).Sublist (service.pagePlan (.node selection [])).finish.query.nodes ∧
        root.chain = [] ∧ paginated root ∧
        (∀ reading ∈ rest, ⟨reading.chain⟩ ∈ included → paginated reading) ∧
        (∀ reading ∈ rest, ⟨reading.chain⟩ ∉ included → reading.statement.Whole) ∧
        (∀ total ∈ totals, total.Whole) ∧ ∀ statement ∈ statements, statement.Bounded)
      (service.page database.rowSource (.node selection [])) ∧
    Runs log (fun statements => ∃ (root : Reading) (rest : List Reading),
        statements = (root :: rest).map Reading.statement ∧
        root.chain = [] ∧ root.statement.limit? = some 1 ∧ root.statement.offset? = none ∧
        ∀ statement ∈ statements, statement.Bounded)
      (service.item database.rowSource (.node selection [])) ∧
    (∀ name row, Runs log (fun statements => ∀ statement ∈ statements, statement.Bounded)
      (service.project database.rowSource name row)) ∧
    ∀ path, clamp? 1 request.greatestLimit (request.wantedLimit path) = some (request.limit path : Int) := by
  intro request service included paginated
  have : service.registry.Local := ‹registry.Local›
  refine ⟨?page, ?item, fun name row => ?row, request.clamp?_wantedLimit⟩
  case page =>
    have mirrors := (service.arranged_pagePlan selection).mirrors.withJoinColumns
    refine Runs.mono ((Plan.runs_page logs _).bind_nothing fun _ => .nothing_pure _) ?_
    rintro statements ⟨reads, totals, rfl, loaded, counts⟩
    obtain ⟨root, rest, rfl, atRoot, below, listed, nodes⟩ := loaded.nodes mirrors
    have read (reading : Reading) (member : reading ∈ root :: rest) :=
      read_pagePlan supplies (nodes reading member)
    have wholes : ∀ total ∈ totals, total.Whole := by
      intro total member
      rw [counts total member]
      exact ⟨rfl, rfl⟩
    refine ⟨root, rest, totals, rfl, listed, atRoot, (read root (.head rest)).1 (.inl atRoot),
      fun reading member configured => (read reading (.tail root member)).1 (.inr configured),
      fun reading member passed => (read reading (.tail root member)).2.1
        (not_or.2 ⟨below reading member, passed⟩), wholes, fun statement member => ?_⟩
    rcases List.mem_append.1 member with ofNode | counted
    · obtain ⟨reading, among, rfl⟩ := List.mem_map.1 ofNode
      exact (read reading among).2.2
    · exact (wholes statement counted).bounded
  case item =>
    have mirrors : ((service.itemPlan (.node selection [])).finish.take 1).query.Mirrors catalog :=
      (service.arranged_itemPlan selection).mirrors.withJoinColumns.mapSelection rfl
    refine (Plan.runs_item logs _).mono fun statements loaded => ?_
    obtain ⟨root, rest, rfl, atRoot, -, -, nodes⟩ := loaded.nodes mirrors
    obtain ⟨limited, unshiftedRoot⟩ := (read_itemPlan unshifted (nodes root (.head rest))).1 atRoot
    refine ⟨root, rest, rfl, atRoot, limited, unshiftedRoot, fun statement member => ?_⟩
    obtain ⟨reading, among, rfl⟩ := List.mem_map.1 member
    exact (read_itemPlan unshifted (nodes reading among)).2
  case row =>
    refine (runs_project logs service name row).mono ?_
    rintro statements (rfl | ⟨entity, key, loaded⟩) statement member
    · contradiction
    · have arranged := service.arranged_withRelations
        ((Selection.ofEntity entity).filterBy [⟨entity.primaryKey, .equal, key⟩]) []
      obtain ⟨root, rest, rfl, -, -, -, nodes⟩ := loaded.nodes arranged.mirrors.withJoinColumns
      obtain ⟨reading, among, rfl⟩ := List.mem_map.1 member
      exact arranged.bounded nofun (nodes reading among)

/-- Users with the recipients of their messages, where the settings want a limit below zero and admit none, and
an offset that is out of range: the users and the recipients are read one at a time, the messages in between
whole. -/
theorem recipients_paginated :
    let request := Request.ofPairs ⟨.standard, ⟨-7, 0⟩⟩ .empty
      [("with", "messages.recipient"), ("offset", "99999999999999999999")]
    let service : Service := ⟨recipientsOnly.catalog, recipientsOnly.registry, request⟩
    let user := Json.ofMembers [("id", .natural 1)]
    let message := Json.ofMembers [("id", .natural 5), ("sender_id", .natural 1), ("recipient_id", .natural 1)]
    let answers := [.ok [user], .ok [message], .ok [user], .ok [.ofMembers [("count", .natural 1)]]]
    recipientsOnly.registry.Local ∧
    ((service.page Script.database.rowSource (.ofEntity senders)).run.run ⟨answers, []⟩).2.log.map
        (fun statement => (statement.limit?, statement.offset?)) =
      [(some 1, some 9223372036854775807), (none, none), (some 1, some 0), (none, none)] ∧
    (∀ row, Runs Script.log (fun statements => ∀ statement ∈ statements, statement.Bounded)
      (service.project Script.database.rowSource "users" row)) ∧
    ∀ path, clamp? 1 request.greatestLimit (request.wantedLimit path) = some (request.limit path : Int) := by
  intro request service user message answers
  have supplies : ∀ path offset, ParameterSet.empty.offsets.find? path = some offset → Text.IsInt64 offset :=
    nofun
  have unshifted : (Selection.ofEntity senders).offset = none := rfl
  obtain ⟨-, -, rows, limits⟩ := statements_paginated recipientsOnly.catalog recipientsOnly.registry
    ⟨.standard, ⟨-7, 0⟩⟩ supplies [("with", "messages.recipient"), ("offset", "99999999999999999999")]
    unshifted Script.logs_database
  exact ⟨inferInstance, by decide +kernel, rows "users", limits⟩

end Service

end ResourceQuery
