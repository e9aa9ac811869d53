import ResourceQuery.Proofs.Database.Carried
import ResourceQuery.Proofs.Service.FieldProjection
import ResourceQuery.Proofs.Service.Root

/-!
# Which included relations rows keep

A surplus field leaves every object at its node, whatever it holds by then, and a relation that is named as
a column takes the column's place. So a node where fields are named loses the relations that are named as a
column by which its rows are identified or matched and that is not among the fields
(`Service.spares`), and keeps all others (`relations_of_answers`): every object of an answer, at the root
and at every node below, has a member with the related rows for each relation that is spared. Operations
that choose columns themselves would make others leave, so this is for operations that only add.
-/
namespace ResourceQuery.Service

variable {service : Service} {σ : Type}

/-- The columns that identify and match the rows of a node, and those that its relations match by. -/
def structural (node : Query) : List String :=
  Plan.keyColumns node.selection ++ node.includes.map fun included => included.1.parentColumn

/-- The relations that rows keep: all but those named as a structural column of a narrowed node that is not
among the fields. -/
def spares (service : Service) (selection : Selection) : KeepRule := fun chain name =>
  ((service.related selection).at? chain).all fun node =>
    !(service.narrows selection.entity chain && (structural node).contains name &&
      !(service.request.fields ⟨chain⟩).contains name)

/-- What rows carry is a matter of the included relations, and not of columns. -/
theorem carries_withJoinColumns {query : Query} {rule : KeepRule} :
    query.withJoinColumns.Carries rule = query.Carries rule := by
  induction query using Query.inductionOn generalizing rule with
  | node selection includes ih =>
    funext row
    rw [eq_iff_iff, Query.carries_iff, Query.carries_iff, Query.includes_withJoinColumns,
      List.forall_mem_map]
    refine and_congr_right fun _ => forall₂_congr fun included member => ?_
    obtain ⟨relation, query⟩ := included
    rw [Query.CarriesOne, Query.CarriesOne, ih (relation, query) member]

/-- The rows of a finished query over the relations of a request carry these relations. -/
theorem yields_rows {database : Database σ} (objects : database.GivesObjects) {selection : Selection}
    {query : Query} (mirrors : query.Mirrors service.catalog)
    (includes : query.includes = (service.related selection).withJoinColumns.includes) :
    Yields (fun rows => ∀ row ∈ rows, (service.related selection).Carries Query.everything row)
      (database.load query) := by
  have same : query.Carries Query.everything = (service.related selection).Carries Query.everything := by
    have finished := @carries_withJoinColumns (service.related selection) Query.everything
    rw [← finished]
    funext row
    rw [eq_iff_iff, Query.carries_iff, Query.carries_iff, includes]
  rw [← same]
  exact Database.yields_loadWhere objects mirrors []

section AppendOnly

variable [service.registry.AppendOnly]

/-- The structural columns of a node of a page are those of the node in the query of its relations. -/
theorem structural_at?_pagePlan (selection : Selection) (chain : List String) :
    ((service.pagePlan (.node selection [])).query.at? chain).map structural =
      ((service.related selection).at? chain).map structural := by
  rw [pagePlan_eq_reroot]
  cases chain with
  | nil =>
    have rows : (service.arrange .root selection).bare = (service.related selection).selection.bare := by
      rw [related, selection_withRelations, bare_arrange]
      rfl
    show some (Plan.keyColumns (service.arrange .root selection) ++ _) =
      some (Plan.keyColumns (service.related selection).selection ++ _)
    rw [Selection.keyColumns_of_bare rows]
    rfl
  | cons name rest =>
    rw [Query.at?_cons, related, Query.at?_cons]
    rfl

/-- What leaves a node of a page are the structural columns that are not among the fields, where the node is
narrowed. -/
theorem mem_fieldsAt_finish_pagePlan {selection : Selection} (every : selection.columns = none)
    {chain : List String} {node : Query}
    (found : (service.pagePlan (.node selection [])).query.at? chain = some node) (name : String) :
    name ∈ (service.pagePlan (.node selection [])).finish.surplus.fieldsAt ⟨chain⟩ ↔
      service.narrows selection.entity chain = true ∧ name ∈ structural node ∧
        name ∉ service.request.fields ⟨chain⟩ := by
  have arranged := service.arranged_pagePlan selection
  have here := Query.selectionAt?_of_at? found
  have selected := selects_pagePlan every here name
  have missing : (∃ other, (service.pagePlan (.node selection [])).query.at? chain = some other ∧
      name ∈ other.selection.missingColumns other.includes) ↔
        (∃ included ∈ node.includes, included.1.parentColumn = name) ∧
          ¬ node.selection.selects name = true := by
    rw [found, Bool.not_eq_true, ← Selection.mem_missingColumns]
    simp
  rw [Plan.mem_fieldsAt_finish arranged.mirrors arranged.ordered, mem_fieldsAt_pagePlan here, missing,
    selected, structural, List.mem_append, List.mem_map]
  by_cases key : name ∈ Plan.keyColumns node.selection
  · simp [key]
  · by_cases asked : name ∈ service.request.fields ⟨chain⟩
    · simp [asked]
    · simp [key, asked, and_comm]

/-- The surplus of a page spares the members that the request spares. -/
theorem rule_finish_pagePlan {selection : Selection} (every : selection.columns = none) :
    (service.pagePlan (.node selection [])).finish.surplus.rule = service.spares selection := by
  have arranged := service.arranged_pagePlan selection
  funext chain name
  have spared : service.spares selection chain name =
      (((service.related selection).at? chain).map structural).all fun columns =>
        !(service.narrows selection.entity chain && columns.contains name &&
          !(service.request.fields ⟨chain⟩).contains name) := by
    rw [Option.all_map]
    rfl
  rw [spared, ← structural_at?_pagePlan, Surplus.rule]
  cases found : (service.pagePlan (.node selection [])).query.at? chain with
  | some node =>
    have leaves := mem_fieldsAt_finish_pagePlan every found name
    rw [Option.map_some, Option.all_some]
    congr 1
    rw [Bool.eq_iff_iff, List.contains_iff_mem, leaves]
    simp [and_assoc]
  | none =>
    have absent : (service.pagePlan (.node selection [])).query.selectionAt? chain = none := by
      rw [Query.selectionAt?, found]
      rfl
    have stays : name ∉ (service.pagePlan (.node selection [])).finish.surplus.fieldsAt ⟨chain⟩ := by
      rw [Plan.mem_fieldsAt_finish arranged.mirrors arranged.ordered]
      rintro (held | ⟨node, foundToo, -⟩)
      · exact not_mem_fieldsAt_pagePlan absent name held
      · rw [found] at foundToo
        contradiction
    simpa using stays

/-- The objects of an answer have the related rows of the relations that the request spares, at the root and
at every node below: whatever the fields are, rows lose no relation but one that is named as a column by
which a narrowed node identifies or matches its rows, and that the fields do not name; that one they lose. -/
theorem relations_of_answers {database : Database σ} (objects : database.GivesObjects)
    {selection : Selection} (every : selection.columns = none) :
    Yields (fun page => ∀ row ∈ page.data, (service.related selection).Carries (service.spares selection) row)
        (service.page database.rowSource (.node selection [])) ∧
      Yields ((service.related selection).Carries (service.spares selection))
        (service.item database.rowSource (.node selection [])) := by
  have mirrors := (service.arranged_pagePlan selection).mirrors.withJoinColumns
  have includes : (service.pagePlan (.node selection [])).finish.query.includes =
      (service.related selection).withJoinColumns.includes := by
    rw [pagePlan_eq_reroot, Plan.query_finish, Query.includes_withJoinColumns,
      Query.includes_withJoinColumns]
    rfl
  have stripped : ∀ row, (service.related selection).Carries Query.everything row →
      (service.related selection).Carries (service.spares selection)
        ((service.pagePlan (.node selection [])).finish.surplus.strip row) := by
    intro row carries
    rw [Surplus.strip_eq_keep, rule_finish_pagePlan every]
    exact carries.keep _
  constructor
  · rw [page_eq_bind]
    refine (yields_rows objects mirrors includes).ofSession.bind fun rows carried => ?_
    have anything : Yields (fun _ : Nat => True) (Outcome.ofSession (database.rowSource.total
      (service.pagePlan (.node selection [])).finish.query)) := fun _ _ _ _ => trivial
    refine anything.bind fun total _ => .pure fun row member => ?_
    obtain ⟨whole, listed, rfl⟩ := List.mem_map.1 member
    exact stripped whole (carried whole listed)
  · obtain ⟨own, entity, root⟩ := service.query_itemPlan selection
    have pageEntity : (service.pagePlan (.node selection [])).finish.query.selection.entity =
        selection.entity := by
      rw [Plan.query_finish, Query.selection_withJoinColumns, (service.arranged_pagePlan selection).root]
      exact Selection.entity_of_bare ((Selection.bare_foldl_addColumn _ _).trans (bare_arrange _ _ selection))
    have itemMirrors := Query.Mirrors.reroot mirrors (entity.trans pageEntity.symm)
    rw [item_eq_bind, surplus_itemPlan, root]
    refine (yields_rows objects itemMirrors includes).ofSession.bind fun rows carried => ?_
    cases rows with
    | nil => exact fun _ _ _ given => nomatch given
    | cons row rest => exact .pure (stripped row (carried row (.head rest)))

end AppendOnly

/-! ### A relation named as its column -/

/-- Messages whose column `sender` holds the key of the user that the relation `sender` leads to. -/
def letters : Entity :=
  (Entity.ofTable "messages" "messages").relateOwner "sender" "users" "sender" "id"

/-- A message and its sender. -/
def letterbox : String → List Json
  | "messages" =>
    [.ofMembers [("id", .natural 7), ("sender", .natural 1), ("subject", .string "hi")]]
  | "users" => [.ofMembers [("id", .natural 1), ("name", .string "Ada")]]
  | _ => []

/-- A request for the subjects and senders of messages. -/
def subjectsAndSenders : Service where
  catalog := .insert (.insert .empty letters) (Entity.ofTable "users" "users")
  registry := Registry.empty.setInclusions "messages" [.path "sender"]
  request := {
    asked := {
      ParameterSet.empty with
      fields := SortedMap.empty.insert .root ["subject"]
      relations := ["sender"] }
    supplied := .empty
    settings := .standard }

/-- The tables of the message and its sender answer with objects. -/
theorem givesObjects_letterbox :
    (Database.answering (Database.wholeTables letterbox) : Database σ).GivesObjects := by
  have objects : ∀ table, ∀ row ∈ letterbox table, row.IsObject := by
    intro table row member
    unfold letterbox at member
    split at member
    · obtain rfl := List.mem_singleton.1 member
      exact Json.isObject_ofMembers _
    · obtain rfl := List.mem_singleton.1 member
      exact Json.isObject_ofMembers _
    · contradiction
  intro statement state rows after answered
  obtain ⟨given, -⟩ := Prod.mk.inj answered
  exact (Database.projecting_wholeTables objects).objects statement rows given

/-- The subjects are all that is left: the senders are loaded, and leave the answer in the place of the
column that they are named as. Without fields they stay. -/
theorem sender_leaves_message :
    (subjectsAndSenders.page (Database.answering (Database.wholeTables letterbox) : Database Unit).rowSource
      (.ofEntity letters) = pure ⟨1, 10, 0, 1, [.object [("subject", .string "hi")]]⟩) ∧
    (subjectsAndSenders.item (Database.answering (Database.wholeTables letterbox) : Database Unit).rowSource
      (.ofEntity letters) = pure (.object [("subject", .string "hi")])) ∧
    ¬ (subjectsAndSenders.related (.ofEntity letters)).Carries Query.everything
      (.object [("subject", .string "hi")]) ∧
    (subjectsAndSenders.withoutFields.page
      (Database.answering (Database.wholeTables letterbox) : Database Unit).rowSource (.ofEntity letters) =
        pure ⟨1, 10, 0, 1, [.object [("id", .natural 7),
          ("sender", .object [("id", .natural 1), ("name", .string "Ada")]), ("subject", .string "hi")]]⟩) := by
  refine ⟨rfl, rfl, fun carries => ?_, rfl⟩
  obtain ⟨-, each⟩ := Query.carries_iff.1 carries
  obtain ⟨value, found, -⟩ := (each _ (List.Mem.head [])).1 rfl
  exact nomatch found

/-- The request for subjects and senders spares no sender, and its rows need carry none; the same request
without fields spares the sender, and its rows carry it. -/
theorem message_without_sender :
    subjectsAndSenders.registry.AppendOnly ∧
    (Database.answering (Database.wholeTables letterbox) : Database Unit).GivesObjects ∧
    subjectsAndSenders.spares (.ofEntity letters) [] "sender" = false ∧
    Yields (fun page => ∀ row ∈ page.data, (subjectsAndSenders.related (.ofEntity letters)).Carries
        (subjectsAndSenders.spares (.ofEntity letters)) row)
      (subjectsAndSenders.page (Database.answering (Database.wholeTables letterbox) : Database Unit).rowSource
        (.ofEntity letters)) ∧
    subjectsAndSenders.withoutFields.spares (.ofEntity letters) [] "sender" = true ∧
    Yields ((subjectsAndSenders.withoutFields.related (.ofEntity letters)).Carries
        (subjectsAndSenders.withoutFields.spares (.ofEntity letters)))
      (subjectsAndSenders.withoutFields.item
        (Database.answering (Database.wholeTables letterbox) : Database Unit).rowSource (.ofEntity letters)) := by
  have adds : subjectsAndSenders.registry.AppendOnly := ⟨Registry.Each.empty.setInclusions "messages" _⟩
  exact ⟨adds, givesObjects_letterbox, by decide, (relations_of_answers givesObjects_letterbox rfl).1, by decide,
    (relations_of_answers givesObjects_letterbox rfl).2⟩

end ResourceQuery.Service
