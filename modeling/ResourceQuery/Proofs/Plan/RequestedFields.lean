import ResourceQuery.Proofs.Plan.Calls
import ResourceQuery.Proofs.Plan.JoinColumns

/-!
# Fields that were asked for and are surplus all the same

A visit of a query forgets what earlier visits of it made surplus: it starts without surplus, and what it
ends with is added to theirs. So a column of a node is surplus in the end when some visit of the node,
not only the latest, ended its fields without it, and the column identifies or matches rows
(`Follows.surplus`). A field that the latest call asked for is among them exactly when an earlier visit
left it out (`requested_surplus_iff`); at the root, which is visited once, it never is.
-/
namespace ResourceQuery

/-- Erasing fields removes them at the root, and changes no other path. -/
theorem Surplus.foldl_erase_spec {surplus : Surplus} (ordered : surplus.Ordered) (fields : List String) :
    (fields.foldl erase surplus).Ordered ∧ ∀ path name,
      name ∈ (fields.foldl erase surplus).fieldsAt path ↔
        name ∈ surplus.fieldsAt path ∧ (path = .root → name ∉ fields) := by
  induction fields generalizing surplus with
  | nil => exact ⟨ordered, fun path name => by simp⟩
  | cons field rest ih =>
    obtain ⟨restOrdered, members⟩ := ih (ordered.erase field)
    refine ⟨restOrdered, fun path name => ?_⟩
    rw [List.foldl_cons, members, fieldsAt_erase]
    by_cases root : path = .root
    · subst root
      rw [if_pos rfl, List.mem_filter, List.mem_cons]
      have own : surplus.fieldsAt .root = surplus.fields := rfl
      rw [own]
      simp [and_assoc]
    · simp [root]

namespace Plan

/-- The columns that identify and match the rows at the end of a chain. -/
def keyColumnsAt (catalog : Catalog) (start : Selection) (chain : List String) : List String :=
  ((catalog.reach? start chain).map keyColumns).getD []

/-- A visit leaves a key column when it asked for fields and the last of them do not have it. -/
def Visit.Leaves (visit : Visit) (keys : List String) (name : String) : Prop :=
  ∃ latest, visit.asked.getLast? = some latest ∧ name ∈ keys ∧ name ∉ latest

/-- Some visit of a chain leaves a key column. -/
def LeftAt (visits : List Visit) (keys chain : List String) (name : String) : Prop :=
  ∃ visit ∈ visits, visit.chain = chain ∧ visit.Leaves keys name

/-- A column is left by earlier or by later visits. -/
theorem leftAt_append {earlier later : List Visit} {keys chain : List String} {name : String} :
    LeftAt (earlier ++ later) keys chain name ↔
      LeftAt earlier keys chain name ∨ LeftAt later keys chain name := by
  simp only [LeftAt, List.mem_append, or_and_right, exists_or]

/-- A column is left by a list of calls at the root, or by the calls on a relation. -/
theorem leftAt_all {trace : Trace} {keys chain : List String} {name : String} :
    LeftAt trace.all keys chain name ↔
      (chain = [] ∧ (Visit.mk [] trace.asked).Leaves keys name) ∨ LeftAt trace.visits keys chain name := by
  simp only [LeftAt, Trace.all, List.mem_cons, or_and_right, exists_or, exists_eq_left]
  exact or_congr_left (and_congr_left fun _ => eq_comm)

/-- Calls on a relation leave columns at the chains beyond it. -/
theorem leftAt_beneath {start : List String} {trace : Trace} {keys chain : List String} {name : String} :
    LeftAt (trace.beneath start).visits keys chain name ↔
      start <+: chain ∧ LeftAt trace.all keys (chain.drop start.length) name := by
  constructor
  · rintro ⟨visit, member, rfl, leaves⟩
    obtain ⟨inner, visited, rfl⟩ := List.mem_map.1 member
    exact ⟨List.prefix_append start inner.chain, inner, visited, List.drop_left.symm, leaves⟩
  · rintro ⟨⟨rest, rfl⟩, inner, visited, same, leaves⟩
    rw [List.drop_left] at same
    exact ⟨_, List.mem_map_of_mem visited, congrArg (start ++ ·) same, leaves⟩

/-- A plan is what calls that left a trace made of a query. -/
structure Follows (catalog : Catalog) (start : Query) (trace : Trace) (plan : Plan) : Prop where
  /-- The query mirrors the catalog. -/
  mirrors : plan.query.Mirrors catalog
  /-- The rows are the same. -/
  bare : plan.query.selection.bare = start.selection.bare
  /-- The surplus is in order. -/
  ordered : plan.surplus.Ordered
  /-- Relations are visited below the query. -/
  below : ∀ visit ∈ trace.visits, visit.chain ≠ []
  /-- Every node has the columns of the latest fields that were asked for there. -/
  columns : ∀ chain, Chosen (askedAt trace.all chain) (start.selectionAt? chain)
    (plan.query.selectionAt? chain)
  /-- Surplus at a node are the key columns that a visit left. -/
  surplus : ∀ chain name, name ∈ plan.surplus.fieldsAt ⟨chain⟩ ↔
    LeftAt trace.all (keyColumnsAt catalog start.selection chain) chain name

variable {registry : Registry} {catalog : Catalog} {start : Query} {trace : Trace} {plan : Plan}

/-- Without calls the plan of a query is the query itself. -/
theorem Follows.ofQuery {query : Query} (mirrors : query.Mirrors catalog) :
    Follows catalog query .empty (.ofQuery query) where
  mirrors := mirrors
  bare := rfl
  ordered := Surplus.ordered_empty
  below visit member := absurd member List.not_mem_nil
  columns chain := by
    have nothing : askedAt Trace.empty.all chain = [] := by
      rw [Trace.askedAt_all _ fun visit member => absurd member List.not_mem_nil]
      exact ite_self []
    rw [nothing]
    exact .keep fun selection found => ⟨selection, found, rfl⟩
  surplus chain name := by
    have none : name ∉ (Plan.ofQuery query).surplus.fieldsAt ⟨chain⟩ := by
      show name ∉ Surplus.empty.fieldsAt ⟨chain⟩
      rw [Surplus.fieldsAt_empty]
      exact List.not_mem_nil
    refine iff_of_false none ?_
    rintro ⟨visit, member, -, latest, said, -⟩
    obtain rfl := List.mem_singleton.1 member
    contradiction

/-- A change of the rows that keeps the columns keeps what the plan follows. -/
theorem Follows.mapSelection (follows : Follows catalog start trace plan) {change : Selection → Selection}
    (bare : ∀ selection, (change selection).bare = selection.bare)
    (columns : ∀ selection, (change selection).columns = selection.columns) :
    Follows catalog start (trace.append .empty) (plan.mapSelection change) := by
  rw [Trace.append_empty]
  refine ⟨follows.mirrors.mapSelection (bare _), ?_, follows.ordered, follows.below, fun chain => ?_,
    follows.surplus⟩
  · exact (congrArg Selection.bare (plan.query.selection_mapSelection change)).trans
      ((bare _).trans follows.bare)
  · have kept : Chosen [] (plan.query.selectionAt? chain)
        ((plan.query.mapSelection change).selectionAt? chain) := by
      refine .keep fun selection found => ?_
      rw [Query.selectionAt?_mapSelection]
      split
      · next root =>
        subst root
        obtain rfl := Option.some.inj found
        exact ⟨_, rfl, columns _⟩
      · exact ⟨selection, found, rfl⟩
    have both := (follows.columns chain).append kept
    rwa [List.append_nil] at both

/-- Restricting to fields makes the key columns surplus that are not among them, and none of them. -/
theorem surplus_restrict_spec (ordered : plan.surplus.Ordered) {fields : List String}
    (named : fields ≠ []) : (plan.restrict fields).surplus.Ordered ∧ ∀ path name,
      name ∈ (plan.restrict fields).surplus.fieldsAt path ↔ (name ∈ plan.surplus.fieldsAt path ∨
        (path = .root ∧ name ∈ keyColumns plan.query.selection)) ∧ (path = .root → name ∉ fields) := by
  have shape : (plan.restrict fields).surplus = fields.foldl Surplus.erase
      ((keyColumns plan.query.selection).foldl (fun surplus key => surplus.insert .root key)
        plan.surplus) := by
    rw [Plan.restrict, if_neg (by simpa using named)]
  obtain ⟨insertedOrdered, inserted⟩ := Surplus.foldl_insert_spec ordered
    ((keyColumns plan.query.selection).map fun key => (Path.root, key))
  rw [List.foldl_map] at insertedOrdered inserted
  obtain ⟨erasedOrdered, erased⟩ := Surplus.foldl_erase_spec insertedOrdered fields
  rw [shape]
  refine ⟨erasedOrdered, fun path name => ?_⟩
  rw [erased, inserted, List.mem_map]
  refine and_congr_left fun _ => or_congr_right ?_
  constructor
  · rintro ⟨key, member, same⟩
    obtain ⟨rfl, rfl⟩ := Prod.mk.inj same
    exact ⟨rfl, member⟩
  · rintro ⟨rfl, member⟩
    exact ⟨name, member, rfl⟩

/-- What was left once more fields were asked for at the root: there the key columns that they do not
have, and elsewhere what was left before. -/
theorem Follows.leftAt_asked (follows : Follows catalog start trace plan) (fields : List String)
    {chain : List String} {name : String} :
    LeftAt (Trace.mk (trace.asked ++ [fields]) trace.visits).all
        (keyColumnsAt catalog start.selection chain) chain name ↔
      (LeftAt trace.all (keyColumnsAt catalog start.selection chain) chain name ∨
        (chain = [] ∧ name ∈ keyColumnsAt catalog start.selection [])) ∧ (chain = [] → name ∉ fields) := by
  have now : (Visit.mk [] (trace.asked ++ [fields])).Leaves
      (keyColumnsAt catalog start.selection chain) name ↔
        name ∈ keyColumnsAt catalog start.selection chain ∧ name ∉ fields := by
    simp [Visit.Leaves]
  rw [leftAt_all, leftAt_all, now]
  by_cases root : chain = []
  · -- The root is visited by the calls themselves, and what they left was a key column.
    subst root
    have noVisit : ¬ LeftAt trace.visits (keyColumnsAt catalog start.selection []) [] name := by
      rintro ⟨visit, member, root, -⟩
      exact follows.below visit member root
    have leftKeys : (Visit.mk [] trace.asked).Leaves (keyColumnsAt catalog start.selection []) name →
        name ∈ keyColumnsAt catalog start.selection [] := by
      rintro ⟨latest, -, inKeys, -⟩
      exact inKeys
    simp only [noVisit, or_false, true_and, forall_const]
    exact and_congr_left fun _ => (or_iff_right_of_imp leftKeys).symm
  · simp [root]

/-- Restricting to fields adds them to what was asked for. -/
theorem Follows.restrict (follows : Follows catalog start trace plan) {fields : List String}
    (named : fields ≠ []) :
    Follows catalog start (trace.append ⟨[fields], []⟩) (plan.restrict fields) := by
  have asked : trace.append ⟨[fields], []⟩ = ⟨trace.asked ++ [fields], trace.visits⟩ := by
    simp [Trace.append]
  have keys : keyColumns plan.query.selection = keyColumnsAt catalog start.selection [] :=
    Selection.keyColumns_of_bare follows.bare
  obtain ⟨ordered, surplus⟩ := surplus_restrict_spec follows.ordered named
  rw [asked]
  refine ⟨?_, ?_, ordered, follows.below, fun chain => ?_, fun chain name => ?_⟩
  · rw [query_restrict]
    exact follows.mirrors.mapSelection (Selection.bare_restrictTo fields _)
  · rw [query_restrict, Query.selection_mapSelection, Selection.bare_restrictTo]
    exact follows.bare
  · have before := follows.columns chain
    have now : askedAt (Trace.mk (trace.asked ++ [fields]) trace.visits).all chain =
        if chain = [] then trace.asked ++ [fields] else askedAt trace.visits chain :=
      Trace.askedAt_all ⟨trace.asked ++ [fields], trace.visits⟩ follows.below chain
    rw [query_restrict, Query.selectionAt?_mapSelection, now]
    rw [Trace.askedAt_all _ follows.below] at before
    by_cases root : chain = []
    · subst root
      have chosen : Chosen [fields] (plan.query.selectionAt? [])
          (some (plan.query.selection.restrictTo fields)) :=
        ⟨_, rfl, fun name member => (Selection.selects_restrictTo named _ name).2 (.inr member)⟩
      exact before.append chosen
    · rw [if_neg root] at before ⊢
      rwa [if_neg root]
  · have root : Path.mk chain = Path.root ↔ chain = [] := ⟨congrArg Path.segments, congrArg Path.mk⟩
    rw [surplus, follows.surplus, follows.leftAt_asked, root, keys]

/-- From the node at the end of a chain, the key columns are those of the longer chains. -/
theorem keyColumnsAt_nodeAt {query : Query} {selection : Selection} (mirrors : query.Mirrors catalog)
    (same : query.selection.bare = selection.bare) {chain : List String} (further : chain ≠ [])
    {reached : Selection} (leads : catalog.reach? query.selection chain = some reached)
    (rest : List String) : keyColumnsAt catalog selection (chain ++ rest) =
      keyColumnsAt catalog (Query.nodeAt catalog chain query).selection rest := by
  have node := (Query.nodeAt_spec mirrors leads).2
  unfold keyColumnsAt
  rw [← Catalog.reach?_congr (Selection.entity_of_bare same) (List.append_ne_nil_of_left_ne_nil further rest),
    Catalog.reach?_append, leads, Option.bind_some]
  cases rest with
  | nil => exact (Selection.keyColumns_of_bare node).symm
  | cons name others =>
    rw [Catalog.reach?_congr (Selection.entity_of_bare node) (List.cons_ne_nil name others)]

/-- With what calls on a relation made of the node there, the columns are those the calls asked for beyond
the relation, and elsewhere as they were. -/
theorem Follows.chosen_graft (follows : Follows catalog start trace plan) {path : Path}
    (leads : (catalog.reach? plan.query.selection path.segments).isSome) {inner : Trace} {made : Plan}
    {result : Query}
    (innerFollows : Follows catalog (Query.nodeAt catalog path.segments plan.query) inner made)
    (configured : Query.ConfiguredAt catalog path.segments plan.query made.query result)
    (chain : List String) :
    Chosen (askedAt (inner.beneath path.segments).visits chain) (plan.query.selectionAt? chain)
      (result.selectionAt? chain) := by
  rw [Trace.askedAt_beneath, configured.selectionAt]
  by_cases begins : path.segments <+: chain
  · obtain ⟨rest, rfl⟩ := begins
    have chosen := innerFollows.columns rest
    rw [Query.selectionAt?_nodeAt follows.mirrors leads] at chosen
    rw [if_pos (List.prefix_append _ rest), if_pos (List.prefix_append _ rest), List.drop_left]
    split at chosen
    · next here =>
      subst here
      rw [List.append_nil]
      exact chosen.of_or
    · exact chosen
  · rw [if_neg begins, if_neg begins]
    refine .keep fun selection found => ⟨selection, ?_, rfl⟩
    split
    · rw [found, Option.some_or]
    · exact found

/-- With what calls on a relation made of the node there, the plan follows the trace of both. -/
theorem Follows.graft (follows : Follows catalog start trace plan) {path : Path}
    (further : path.segments ≠ []) {reached : Selection}
    (leads : catalog.reach? plan.query.selection path.segments = some reached) {inner : Trace}
    {made : Plan} {result : Query}
    (innerFollows : Follows catalog (Query.nodeAt catalog path.segments plan.query) inner made)
    (configured : Query.ConfiguredAt catalog path.segments plan.query made.query result) :
    Follows catalog start (trace.append (inner.beneath path.segments))
      ⟨result, plan.surplus.unionAt path made.surplus⟩ := by
  have visits : (trace.append (inner.beneath path.segments)).all =
      trace.all ++ (inner.beneath path.segments).visits := by
    simp [Trace.append, Trace.all, Trace.beneath]
  refine ⟨configured.mirrors, configured.bare.trans follows.bare,
    follows.ordered.unionAt innerFollows.ordered path, fun visit member => ?_, fun chain => ?_,
    fun chain name => ?_⟩
  · rcases List.mem_append.1 member with earlier | within
    · exact follows.below visit earlier
    · obtain ⟨deeper, -, rfl⟩ := List.mem_map.1 within
      exact List.append_ne_nil_of_left_ne_nil further deeper.chain
  · rw [visits, askedAt_append]
    have reaches : (catalog.reach? plan.query.selection path.segments).isSome :=
      Option.isSome_iff_exists.2 ⟨reached, leads⟩
    exact (follows.columns chain).append (follows.chosen_graft reaches innerFollows configured chain)
  · rw [visits, leftAt_append, leftAt_beneath, Surplus.fieldsAt_unionAt follows.ordered innerFollows.ordered]
    by_cases begins : path.segments <+: chain
    · obtain ⟨rest, rfl⟩ := begins
      rw [if_pos (List.prefix_append _ rest), Surplus.mem_foldl_addField, follows.surplus, List.drop_left,
        innerFollows.surplus, keyColumnsAt_nodeAt follows.mirrors follows.bare further leads]
      simp
    · rw [if_neg begins, follows.surplus]
      simp [begins]

/-- A list of calls keeps what the plan follows if each of them does. -/
theorem Follows.runCalls {calls : List Call} (each : ∀ call ∈ calls, ∀ {start trace plan},
      Follows catalog start trace plan →
        Follows catalog start (trace.append (call.run registry catalog plan).1)
          (call.run registry catalog plan).2)
    (follows : Follows catalog start trace plan) :
    Follows catalog start (trace.append (Plan.runCalls registry catalog calls plan).1)
      (Plan.runCalls registry catalog calls plan).2 := by
  induction calls generalizing trace plan with
  | nil =>
    rw [Plan.runCalls, Trace.append_empty]
    exact follows
  | cons call rest ih =>
    have first := each call (.head rest) follows
    have later := ih (fun other member => each other (.tail _ member)) first
    have joined : ∀ one two : Trace, trace.append (one.append two) = (trace.append one).append two := by
      simp [Trace.append]
    rw [Plan.runCalls]
    simp only [joined]
    exact later

/-- Where operations only add, every call keeps what the plan follows. -/
theorem Follows.run [registry.AppendOnly] (follows : Follows catalog start trace plan) (call : Call) :
    Follows catalog start (trace.append (call.run registry catalog plan).1)
      (call.run registry catalog plan).2 := by
  induction call using Call.inductionOn generalizing start trace plan with
  | filter filters =>
    rw [Call.run, filter_eq]
    exact follows.mapSelection (fun _ => rfl) fun _ => rfl
  | sort names =>
    rw [Call.run, sort_eq]
    exact follows.mapSelection (fun _ => rfl) fun _ => rfl
  | fields names =>
    rw [Call.run]
    by_cases named : names = []
    · subst named
      exact trace.append_empty.symm ▸ follows
    · rw [if_neg (by simpa using named)]
      exact follows.restrict named
  | skip count =>
    rw [Call.run]
    exact follows.mapSelection (fun _ => rfl) fun _ => rfl
  | take count =>
    rw [Call.run]
    exact follows.mapSelection (fun _ => rfl) fun _ => rfl
  | relation name calls ih =>
    have inner : ∀ node : Query, node.Mirrors catalog →
        Follows catalog node (Plan.runCalls registry catalog calls (.ofQuery node)).1
          (Plan.runCalls registry catalog calls (.ofQuery node)).2 := by
      intro node mirrors
      exact Follows.runCalls (fun call member => ih call member) (.ofQuery mirrors)
    have keeps := fun node mirrors => And.intro (inner node mirrors).mirrors (inner node mirrors).bare
    rw [Call.run]
    rcases withRelation_cases registry name keeps follows.mirrors with
      refused | ⟨reached, result, further, leads, made, configured⟩
    · simp only [refused, Option.map_none, Option.getD_none, Trace.append_empty]
      exact follows
    · have nodeMirrors := (Query.nodeAt_spec follows.mirrors leads).1
      simp only [made, Option.map_some, Option.getD_some]
      exact follows.graft further leads (inner _ nodeMirrors) configured

/-- A visit that leaves out a field which is in the latest fields of its chain has later ones there. -/
theorem askedAt_ne_nil_of_leaves {earlier later : List Visit} {visit : Visit} {keys fields : List String}
    {field : String} (leaves : visit.Leaves keys field)
    (asked : (askedAt (earlier ++ visit :: later) visit.chain).getLast? = some fields)
    (member : field ∈ fields) : askedAt later visit.chain ≠ [] := by
  intro nothing
  obtain ⟨latest, said, -, absent⟩ := leaves
  have own : askedAt (visit :: later) visit.chain = visit.asked ++ askedAt later visit.chain := by
    rw [askedAt, List.filter_cons_of_pos (by simp), List.flatMap_cons]
    rfl
  rw [askedAt_append, own, nothing, List.append_nil, List.getLast?_append, said, Option.some_or] at asked
  exact absent (Option.some.inj asked ▸ member)

/-- The plan of a finished run has surplus at a node, of the latest fields there, what a visit left. -/
theorem Follows.mem_fieldsAt_finish_iff (follows : Follows catalog start trace plan)
    {chain fields : List String} {field : String}
    (asked : (askedAt trace.all chain).getLast? = some fields) (member : field ∈ fields) :
    field ∈ plan.finish.surplus.fieldsAt ⟨chain⟩ ↔
      LeftAt trace.all (keyColumnsAt catalog start.selection chain) chain field := by
  rw [mem_fieldsAt_finish follows.mirrors follows.ordered, follows.surplus]
  refine or_iff_left ?_
  -- A join column is added where it is missing, and the fields are selected.
  rintro ⟨node, found, lacked⟩
  have chosen := follows.columns chain
  rw [Chosen, asked, Query.selectionAt?_of_at? found] at chosen
  obtain ⟨selection, same, selected⟩ := chosen
  have missing := (Selection.mem_missingColumns.1 lacked).2
  rw [Option.some.inj same, selected field member] at missing
  contradiction

/-- The root is visited once, so no column of the latest fields is left there. -/
theorem Follows.not_leftAt_root (follows : Follows catalog start trace plan) {keys fields : List String}
    {field : String} (asked : (askedAt trace.all []).getLast? = some fields) (member : field ∈ fields) :
    ¬ LeftAt trace.all keys [] field := by
  rw [Trace.askedAt_all trace follows.below, if_pos rfl] at asked
  rw [leftAt_all]
  rintro (⟨-, latest, said, -, absent⟩ | ⟨visit, visited, root, -⟩)
  · exact absent (Option.some.inj (asked.symm.trans said) ▸ member)
  · exact follows.below visit visited root

/-- A field that the latest call with fields on a query asked for is surplus there exactly when it is a key
column of the query that an earlier visit of the query left out of its latest fields. The visits after it
do not take back what it made surplus. The root has no earlier visit, so there no field that was asked for
last is surplus. That is so where operations only add predicates and sort keys: what else one of them did to
columns would be no call for fields. -/
theorem requested_surplus_iff (registry : Registry) [registry.AppendOnly] {catalog : Catalog} {query : Query}
    (mirrors : query.Mirrors catalog) (calls : List Call) {chain fields : List String} {field : String}
    (asked : (askedAt (runCalls registry catalog calls (.ofQuery query)).1.all chain).getLast? =
      some fields) (member : field ∈ fields) :
    (field ∈ (runCalls registry catalog calls (.ofQuery query)).2.finish.surplus.fieldsAt ⟨chain⟩ ↔
      ∃ earlier visit later,
        (runCalls registry catalog calls (.ofQuery query)).1.all = earlier ++ visit :: later ∧
          visit.chain = chain ∧ visit.Leaves (keyColumnsAt catalog query.selection chain) field ∧
            askedAt later chain ≠ []) ∧
    (chain = [] →
      field ∉ (runCalls registry catalog calls (.ofQuery query)).2.finish.surplus.fieldsAt ⟨chain⟩) := by
  have follows : Follows catalog query (runCalls registry catalog calls (.ofQuery query)).1
      (runCalls registry catalog calls (.ofQuery query)).2 :=
    Follows.runCalls (fun call _ _ _ _ before => before.run call) (Follows.ofQuery mirrors)
  generalize runCalls registry catalog calls (.ofQuery query) = run at asked follows ⊢
  obtain ⟨trace, plan⟩ := run
  rw [follows.mem_fieldsAt_finish_iff asked member]
  constructor
  · constructor
    · rintro ⟨visit, visited, rfl, leaves⟩
      obtain ⟨earlier, later, split⟩ := List.append_of_mem visited
      have further := askedAt_ne_nil_of_leaves leaves (split ▸ asked) member
      exact ⟨earlier, visit, later, split, rfl, leaves, further⟩
    · rintro ⟨earlier, visit, later, split, here, leaves, -⟩
      exact ⟨visit, split ▸ List.mem_append_right earlier (.head later), here, leaves⟩
  · rintro rfl
    exact follows.not_leftAt_root asked member

/-- Users with the messages that they sent. -/
def senders : Catalog :=
  .insert (.insert .empty ((Entity.ofTable "users" "users").relateMany "messages" "messages" "sender_id"))
    (Entity.ofTable "messages" "messages")

/-- Users may come with their messages. -/
def sendersRegistry : Registry := Registry.empty.setInclusions "users" [.path "messages"]

/-- Every user. -/
def everySender : Query := .ofEntity (.ofTable "users" "users")

/-- The names of users with the subjects of their messages, and then with the keys and subjects of them. -/
def subjectsThenKeys : List Call :=
  [.fields ["name"], .relation "messages" [.fields ["subject"]],
    .relation "messages" [.fields ["id", "subject"]]]

/-- The same relations the other way around: the visit that left the key comes last. -/
def keysThenSubjects : List Call :=
  [.fields ["name"], .relation "messages" [.fields ["id", "subject"]],
    .relation "messages" [.take 3, .fields [], .fields ["id"], .fields ["subject"]]]

/-- The key of the messages is surplus when their subjects were asked for first, and it leaves the rows though
the latest call asked for it. -/
theorem key_asked_for_last_leaves_rows :
    let run := runCalls sendersRegistry senders subjectsThenKeys (.ofQuery everySender)
    (askedAt run.1.all ["messages"]).getLast? = some ["id", "subject"] ∧
    "id" ∈ run.2.finish.surplus.fieldsAt ⟨["messages"]⟩ ∧
    run.2.finish.surplus.strip (.ofMembers [("id", .natural 1), ("name", .string "Ada"),
        ("messages", .array [.ofMembers [("id", .natural 7), ("sender_id", .natural 1),
          ("subject", .string "hi")]])]) =
      .ofMembers [("name", .string "Ada"),
        ("messages", .array [.ofMembers [("subject", .string "hi")]])] := by
  intro run
  exact ⟨by decide +kernel, by decide +kernel, by rfl⟩

/-- What is surplus of the messages is what the visits of them left: the key in both orders, the subject in
neither. -/
theorem messages_surplus :
    let first := runCalls sendersRegistry senders subjectsThenKeys (.ofQuery everySender)
    let second := runCalls sendersRegistry senders keysThenSubjects (.ofQuery everySender)
    sendersRegistry.AppendOnly ∧ (askedAt first.1.all ["messages"]).getLast? = some ["id", "subject"] ∧
    (askedAt second.1.all ["messages"]).getLast? = some ["subject"] ∧
    (∃ earlier visit later, first.1.all = earlier ++ visit :: later ∧ visit.chain = ["messages"] ∧
      visit.Leaves (keyColumnsAt senders everySender.selection ["messages"]) "id" ∧
        askedAt later ["messages"] ≠ []) ∧
    "subject" ∉ second.2.finish.surplus.fieldsAt ⟨["messages"]⟩ := by
  intro first second
  have askedFirst : (askedAt first.1.all ["messages"]).getLast? = some ["id", "subject"] := by
    decide +kernel
  have askedSecond : (askedAt second.1.all ["messages"]).getLast? = some ["subject"] := by
    decide +kernel
  have tracked : "id" ∈ first.2.finish.surplus.fieldsAt ⟨["messages"]⟩ := by decide +kernel
  have keys : keyColumnsAt senders everySender.selection ["messages"] = ["id", "sender_id"] := by
    decide +kernel
  have mirrors : everySender.Mirrors senders := .leaf senders _
  have adds : sendersRegistry.AppendOnly := ⟨Registry.Each.empty.setInclusions "users" _⟩
  refine ⟨adds, askedFirst, askedSecond,
    (requested_surplus_iff sendersRegistry mirrors subjectsThenKeys askedFirst (.head _)).1.1 tracked,
    fun held => ?_⟩
  obtain ⟨_, visit, _, -, -, ⟨_, -, key, -⟩, -⟩ :=
    (requested_surplus_iff sendersRegistry mirrors keysThenSubjects askedSecond (.head _)).1.1 held
  rw [keys] at key
  exact absurd key (by decide)

end Plan

end ResourceQuery
