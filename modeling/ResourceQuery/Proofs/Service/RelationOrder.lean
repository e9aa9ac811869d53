import Mathlib.Data.List.Nodup
import ResourceQuery.Proofs.Plan.JoinColumns
import ResourceQuery.Proofs.Service.Inclusion

/-!
# The order of the relations of a request

Including two paths in either order leaves the same nodes (`Service.including_comm`), although each makes
nodes on the way of the other: a node on the way is there or fresh, whichever path needs it first, and only
its own path configures it. So permuted relations give the same selection at every chain and the same surplus
fields at every path. What remains of the order is that of the siblings, and with it that of the columns
which their joins force (`Query.Alike`, `relations_in_any_order`).

This is so where operations change what is asked of the rows alone (`Registry.Local`). One that configures
another node by including it runs before or after the entries of that node, as the entries come
(`order_of_operations_that_include`).
-/
namespace ResourceQuery

namespace Selection

/-- The selections differ in the order of the last columns at most. -/
structure Agrees (left right : Selection) : Prop where
  /-- Apart from the columns they are the same. -/
  apart : { left with columns := none } = { right with columns := none }
  /-- After the same columns they have others in two orders, or both have all columns. -/
  columns : ∃ (chosen : Option (List String)) (first second : List String), first.Perm second ∧
    left.columns = chosen.map (· ++ first) ∧ right.columns = chosen.map (· ++ second)

/-- Selections that agree select the same columns. -/
theorem Agrees.selects {left right : Selection} (agree : left.Agrees right) (column : String) :
    left.selects column = right.selects column := by
  obtain ⟨chosen, first, second, order, leftColumns, rightColumns⟩ := agree.columns
  rw [Selection.selects, Selection.selects, leftColumns, rightColumns]
  cases chosen with
  | none => rfl
  | some columns =>
    rw [Option.map_some, Option.map_some, Bool.eq_iff_iff, List.contains_iff_mem, List.contains_iff_mem,
      List.mem_append, List.mem_append, order.mem_iff]

/-- Columns that are missing, each once, are added after the present ones. -/
theorem foldl_addColumn_missing {columns : List String} (distinct : columns.Nodup) {selection : Selection}
    (missing : ∀ column ∈ columns, selection.selects column = false) :
    columns.foldl addColumn selection =
      { selection with columns := selection.columns.map (· ++ columns) } := by
  induction columns generalizing selection with
  | nil =>
    obtain ⟨entity, table, primaryKey, foreignKey, columns, conditions, orders, offset, limit⟩ := selection
    cases columns <;> simp
  | cons column rest ih =>
    obtain ⟨fresh, others⟩ := List.nodup_cons.1 distinct
    have lacked := missing column (.head rest)
    have stillMissing : ∀ other ∈ rest, (selection.addColumn column).selects other = false := by
      intro other member
      have different : other ≠ column := fun same => fresh (same ▸ member)
      rw [selects_addColumn, missing other (.tail _ member)]
      simpa using different
    rw [List.foldl_cons, ih others stillMissing, addColumn, if_neg (by simp [lacked])]
    simp only [Option.map_map]
    congr 2
    funext present
    simp

end Selection

namespace Query

/-- The queries are equal up to the order of siblings and of the columns that joins force. -/
inductive Alike : Query → Query → Prop
  /-- Two nodes that agree, over the same relations in two orders. -/
  | node {left right : Selection} {lefts rights : List (Relation × Query)} (own : left.Agrees right)
      (relations : (lefts.map Prod.fst).Perm (rights.map Prod.fst))
      (below : ∀ included ∈ lefts, ∀ other ∈ rights, included.1 = other.1 → Alike included.2 other.2) :
      Alike (.node left lefts) (.node right rights)

/-- Where the same relations are included, the same columns are missing. -/
theorem agrees_missingColumns (selection : Selection) {lefts rights : List (Relation × Query)}
    (relations : (lefts.map Prod.fst).Perm (rights.map Prod.fst)) :
    ((selection.missingColumns lefts).foldl Selection.addColumn selection).Agrees
      ((selection.missingColumns rights).foldl Selection.addColumn selection) := by
  have distinct := selection.nodup_missingColumns
  have missing (includes : List (Relation × Query)) :
      ∀ column ∈ selection.missingColumns includes, selection.selects column = false :=
    fun column member => (Selection.mem_missingColumns.1 member).2
  have order : (selection.missingColumns lefts).Perm (selection.missingColumns rights) := by
    refine (List.perm_ext_iff_of_nodup (distinct lefts) (distinct rights)).2 fun column => ?_
    have parents (includes : List (Relation × Query)) :
        (∃ included ∈ includes, included.1.parentColumn = column) ↔
          column ∈ (includes.map Prod.fst).map Relation.parentColumn := by simp
    rw [Selection.mem_missingColumns, Selection.mem_missingColumns, parents, parents,
      (relations.map Relation.parentColumn).mem_iff]
  rw [Selection.foldl_addColumn_missing (distinct lefts) (missing lefts),
    Selection.foldl_addColumn_missing (distinct rights) (missing rights)]
  exact ⟨rfl, selection.columns, _, _, order, rfl, rfl⟩

/-- An included relation of a query that mirrors a catalog is included in every other that mirrors it and has
the same nodes. -/
theorem Mirrors.mem_relations {catalog : Catalog} {left right : Query} (mirrors : left.Mirrors catalog)
    (others : right.Mirrors catalog) (same : left.selectionAt? = right.selectionAt?) {relation : Relation}
    (member : relation ∈ left.includes.map Prod.fst) : relation ∈ right.includes.map Prod.fst := by
  obtain ⟨selection, lefts⟩ := left
  obtain ⟨other, rights⟩ := right
  obtain ⟨names, known, -⟩ := mirrors
  obtain ⟨-, knownThere, -⟩ := others
  obtain ⟨⟨relation, query⟩, listed, rfl⟩ := List.mem_map.1 member
  have atRoot : selection = other := Option.some.inj (congrFun same [])
  have here := congrFun same [relation.name]
  rw [selectionAt?_cons, child?_of_mem names listed, selectionAt?_cons] at here
  obtain ⟨child, found, -⟩ := Option.bind_eq_some_iff.1 here.symm
  obtain ⟨towards, there, named⟩ := mem_of_child? found
  obtain ⟨target, step, -⟩ := known _ listed
  obtain ⟨targetThere, stepThere, -⟩ := knownThere _ there
  rw [← atRoot, includedName, named] at stepThere
  have same : relation = towards := congrArg Prod.fst (Option.some.inj (step.symm.trans stepThere))
  exact List.mem_map.2 ⟨_, there, same.symm⟩

/-- In a query that mirrors a catalog no relation is included twice. -/
theorem Mirrors.nodup_relations {catalog : Catalog} {query : Query} (mirrors : query.Mirrors catalog) :
    (query.includes.map Prod.fst).Nodup := by
  obtain ⟨selection, includes⟩ := query
  obtain ⟨names, -, -⟩ := mirrors
  have shape : includes.map includedName = (includes.map Prod.fst).map Relation.name := by
    rw [List.map_map]
    rfl
  exact List.Nodup.of_map _ (shape ▸ names)

/-- Queries that mirror one catalog and have the same nodes are alike, their join columns included. -/
theorem alike_withJoinColumns {catalog : Catalog} {left right : Query} (mirrors : left.Mirrors catalog)
    (others : right.Mirrors catalog) (same : left.selectionAt? = right.selectionAt?) :
    left.withJoinColumns.Alike right.withJoinColumns := by
  induction left using inductionOn generalizing right with
  | node selection lefts ih =>
    obtain ⟨other, rights⟩ := right
    have atRoot : selection = other := Option.some.inj (congrFun same [])
    subst atRoot
    have relations : (lefts.map Prod.fst).Perm (rights.map Prod.fst) :=
      (List.perm_ext_iff_of_nodup mirrors.nodup_relations others.nodup_relations).2 fun relation =>
        ⟨mirrors.mem_relations others same, others.mem_relations mirrors same.symm⟩
    obtain ⟨names, -, below⟩ := mirrors
    obtain ⟨otherNames, -, othersBelow⟩ := others
    rw [withJoinColumns_node, withJoinColumns_node]
    refine .node (agrees_missingColumns selection relations) ?_ ?_
    · rw [List.map_map, List.map_map]
      exact relations
    · intro included member other otherMember alike
      obtain ⟨⟨relation, query⟩, listed, rfl⟩ := List.mem_map.1 member
      obtain ⟨⟨towards, child⟩, otherListed, rfl⟩ := List.mem_map.1 otherMember
      have towardsSame : relation = towards := alike
      subst towardsSame
      refine ih _ listed (below _ listed) (othersBelow _ otherListed) (funext fun rest => ?_)
      have deeper := congrFun same (relation.name :: rest)
      rw [selectionAt?_cons, selectionAt?_cons, child?_of_mem names listed,
        child?_of_mem otherNames otherListed] at deeper
      exact deeper

/-- Alike queries agree at their roots. -/
theorem Alike.agrees {left right : Query} (alike : left.Alike right) :
    left.selection.Agrees right.selection := by
  obtain ⟨own, -, -⟩ := alike
  exact own

/-- Where queries have the same nodes, they have the same ones from the end of every chain on. -/
theorem at?_of_selectionAt?_eq {left right node : Query} (same : left.selectionAt? = right.selectionAt?)
    {chain : List String} (found : left.at? chain = some node) :
    ∃ other, right.at? chain = some other ∧ node.selectionAt? = other.selectionAt? := by
  have here := congrFun same chain
  rw [selectionAt?_of_at? found] at here
  obtain ⟨other, foundThere, -⟩ := Option.map_eq_some_iff.1 here.symm
  refine ⟨other, foundThere, funext fun rest => ?_⟩
  have deeper := congrFun same (chain ++ rest)
  rw [selectionAt?_append, selectionAt?_append, found, foundThere] at deeper
  exact deeper

/-- Queries that mirror one catalog and have the same nodes agree at every chain, their join columns
included. -/
theorem agrees_selectionAt? {catalog : Catalog} {left right : Query} (mirrors : left.Mirrors catalog)
    (others : right.Mirrors catalog) (same : left.selectionAt? = right.selectionAt?) (chain : List String) :
    Option.Rel Selection.Agrees (left.withJoinColumns.selectionAt? chain)
      (right.withJoinColumns.selectionAt? chain) := by
  unfold selectionAt?
  rw [at?_withJoinColumns, at?_withJoinColumns]
  cases found : left.at? chain with
  | none =>
    have absent := congrFun same chain
    rw [selectionAt?, found] at absent
    rw [Option.map_eq_none_iff.1 absent.symm]
    exact .none
  | some node =>
    obtain ⟨other, foundThere, alike⟩ := at?_of_selectionAt?_eq same found
    rw [foundThere]
    exact .some (alike_withJoinColumns (mirrors.at found) (others.at foundThere) alike).agrees

/-- A column that a node lacks is one that the node there lacks in every query that mirrors the same catalog
and has the same nodes. -/
theorem Mirrors.lacks {catalog : Catalog} {left right : Query} (mirrors : left.Mirrors catalog)
    (others : right.Mirrors catalog) (same : left.selectionAt? = right.selectionAt?) {chain : List String}
    {name : String} (lacks : ∃ node, left.at? chain = some node ∧
      name ∈ node.selection.missingColumns node.includes) :
    ∃ node, right.at? chain = some node ∧ name ∈ node.selection.missingColumns node.includes := by
  obtain ⟨node, found, lacked⟩ := lacks
  obtain ⟨other, foundThere, alike⟩ := at?_of_selectionAt?_eq same found
  obtain ⟨⟨included, member, parent⟩, unselected⟩ := Selection.mem_missingColumns.1 lacked
  obtain ⟨⟨relation, query⟩, listed, towards⟩ := List.mem_map.1 ((mirrors.at found).mem_relations
    (others.at foundThere) alike (List.mem_map.2 ⟨included, member, rfl⟩))
  have atRoot : node.selection = other.selection := Option.some.inj (congrFun alike [])
  refine ⟨other, foundThere, Selection.mem_missingColumns.2 ⟨⟨_, listed, ?_⟩, atRoot ▸ unselected⟩⟩
  rw [← parent, ← towards]

end Query

namespace Service

variable {service : Service} {plan : Plan}

/-- A path is configured alike before and after another path makes a node at its end. -/
theorem including_end_comm (service : Service) (start : Selection)
    (nodes : List String → Option Selection) {first second : Path} (apart : first ≠ second) :
    service.including start (service.including start nodes first) second first.segments =
      service.including start (service.including start nodes second) first first.segments := by
  have elsewhere : first.segments ≠ second.segments := fun same => apart (congrArg Path.mk same)
  simp only [including, if_true, if_neg elsewhere]
  split
  · cases nodes first.segments with
    | some present => rfl
    | none => cases service.catalog.reach? start first.segments <;> rfl
  · rfl

/-- Two paths may be included in either order. -/
theorem including_comm (service : Service) (start : Selection) (nodes : List String → Option Selection)
    (first second : Path) :
    service.including start (service.including start nodes first) second =
      service.including start (service.including start nodes second) first := by
  by_cases same : first = second
  · rw [same]
  · funext other
    by_cases atFirst : other = first.segments
    · rw [atFirst, including_end_comm service start nodes same]
    · by_cases atSecond : other = second.segments
      · rw [atSecond, including_end_comm service start nodes (Ne.symm same)]
      · -- Elsewhere the paths need a way at most, and a way that is needed twice is made once.
        have once : ((nodes other).or (service.catalog.reach? start other)).or
            (service.catalog.reach? start other) = (nodes other).or (service.catalog.reach? start other) := by
          rw [Option.or_assoc, Option.or_self]
        simp only [including, if_neg atFirst, if_neg atSecond]
        split <;> split <;> simp only [once]

/-- What including paths makes of a plan, whatever way there is to them. -/
structure IncludedAll (service : Service) (paths : List Path) (plan after : Plan) : Prop where
  /-- The query mirrors the catalog. -/
  mirrors : after.query.Mirrors service.catalog
  /-- The selection of the root stays. -/
  root : after.query.selection = plan.query.selection
  /-- The paths are included one after the other. -/
  selections : after.query.selectionAt? =
    paths.foldl (service.including plan.query.selection) plan.query.selectionAt?
  /-- The surplus is in order. -/
  ordered : after.surplus.Ordered
  /-- The surplus is what it was and what the fields of each path force. -/
  fields : ∀ path name, name ∈ after.surplus.fieldsAt path ↔ name ∈ plan.surplus.fieldsAt path ∨
    (path ∈ paths ∧ ∃ reached, service.catalog.reach? plan.query.selection path.segments = some reached ∧
      name ∈ forced (service.request.fields path) reached)

/-- A run over entries includes the paths of the admitted ones. -/
theorem includedAll_foldl_withRelation [service.registry.Local] (mirrors : plan.query.Mirrors service.catalog)
    (ordered : plan.surplus.Ordered) (relations : List String) :
    IncludedAll service (service.admitted plan.entity relations) plan
      (relations.foldl service.withRelation plan) := by
  induction relations generalizing plan with
  | nil => exact ⟨mirrors, rfl, rfl, ordered, fun path name => by simp [admitted]⟩
  | cons relation rest ih =>
    rw [List.foldl_cons, ← configuration_plan]
    cases admittedHere : service.admits plan.entity relation with
    | false =>
      rw [configuration_of_refused admittedHere, admitted_cons_of_refused admittedHere]
      exact ih mirrors ordered
    | true =>
      obtain ⟨handed, next, step, received, included⟩ :=
        configuration_of_admitted mirrors ordered admittedHere
      have later := ih included.mirrors included.ordered
      have entity : next.entity = plan.entity := congrArg Selection.entity included.root
      rw [step, admitted_cons_of_admits admittedHere]
      rw [entity] at later
      refine ⟨later.mirrors, later.root.trans included.root, ?_, later.ordered, fun path name => ?_⟩
      · rw [later.selections, included.root, included.selections_eq received, List.foldl_cons]
      · rw [later.fields, included.fields, included.root, List.mem_cons, or_and_right, or_assoc]
        refine or_congr_right (or_congr_left (and_congr_right fun here => ?_))
        rw [here]

/-- The order of the relations does not matter, where operations change what is asked of the rows alone. Over one
plan, permuted relations, repeated or not, make queries that are equal up to the order of siblings and of the
columns that joins force: at every chain both or neither have a node, with the same conditions, order and
window, and the same columns. And the same fields leave the answer at every path. -/
theorem relations_in_any_order (service : Service) [service.registry.Local] {plan : Plan}
    (mirrors : plan.query.Mirrors service.catalog) (ordered : plan.surplus.Ordered)
    {relations others : List String} (order : relations.Perm others) :
    let left := (relations.foldl service.withRelation plan).finish
    let right := (others.foldl service.withRelation plan).finish
    left.query.Alike right.query ∧
    (∀ chain, Option.Rel Selection.Agrees (left.query.selectionAt? chain) (right.query.selectionAt? chain)) ∧
    (∀ path name, name ∈ left.surplus.fieldsAt path ↔ name ∈ right.surplus.fieldsAt path) := by
  intro left right
  have included := includedAll_foldl_withRelation mirrors ordered relations
  have includedToo := includedAll_foldl_withRelation mirrors ordered others
  have paths : (service.admitted plan.entity relations).Perm (service.admitted plan.entity others) :=
    (order.filter _).map _
  have same : (relations.foldl service.withRelation plan).query.selectionAt? =
      (others.foldl service.withRelation plan).query.selectionAt? := by
    rw [included.selections, includedToo.selections]
    exact paths.foldl_eq' (fun first _ second _ nodes => service.including_comm _ nodes first second) _
  refine ⟨Query.alike_withJoinColumns included.mirrors includedToo.mirrors same,
    Query.agrees_selectionAt? included.mirrors includedToo.mirrors same, fun path name => ?_⟩
  rw [Plan.mem_fieldsAt_finish included.mirrors included.ordered,
    Plan.mem_fieldsAt_finish includedToo.mirrors includedToo.ordered, included.fields, includedToo.fields,
    paths.mem_iff]
  exact or_congr_right ⟨included.mirrors.lacks includedToo.mirrors same,
    includedToo.mirrors.lacks included.mirrors same.symm⟩

/-- Messages with their senders and recipients. -/
def envelopes : Entity :=
  ((Entity.ofTable "messages" "messages").relateOwner "sender" "users" "sender_id" "id").relateOwner
    "recipient" "users" "recipient_id" "id"

/-- A request for the subjects of messages and the names of senders, whose own messages are allowed as
well. -/
def subjectsAndNames : Service where
  catalog := .insert (.insert .empty envelopes)
    ((Entity.ofTable "users" "users").relateMany "messages" "messages" "sender_id")
  registry := Registry.empty.setInclusions "messages" [.path "sender.messages", .path "recipient", .path "sender"]
  request := {
    asked := {
      ParameterSet.empty with
      fields := (SortedMap.empty.insert .root ["subject"]).insert ⟨["sender"]⟩ ["name"] }
    supplied := .empty
    settings := .standard }

/-- Including the sender after its messages and before the recipient, or in between and once more at the end:
the columns of the root come in another order, and the queries are alike. -/
theorem senders_in_any_order :
    let root := subjectsAndNames.configure .root (.ofQuery (.ofEntity envelopes))
    let left := (["sender.messages", "sender", "drafts", "recipient", "sender"].foldl
      subjectsAndNames.withRelation root).finish
    let right := (["recipient", "sender", "sender.messages", "sender", "drafts"].foldl
      subjectsAndNames.withRelation root).finish
    subjectsAndNames.registry.Local ∧
    left.query.selection.columns = some ["id", "subject", "sender_id", "recipient_id"] ∧
    right.query.selection.columns = some ["id", "subject", "recipient_id", "sender_id"] ∧
    left.query.Alike right.query ∧
    (∀ path name, name ∈ left.surplus.fieldsAt path ↔ name ∈ right.surplus.fieldsAt path) := by
  intro root left right
  have own : subjectsAndNames.registry.Local := ⟨Registry.Each.empty.setInclusions "messages" _⟩
  have mirrors : root.query.Mirrors subjectsAndNames.catalog := .leaf _ _
  have ordered : root.surplus.Ordered := .leaf _
  have order : ["sender.messages", "sender", "drafts", "recipient", "sender"].Perm
      ["recipient", "sender", "sender.messages", "sender", "drafts"] := by decide
  obtain ⟨alike, -, fields⟩ := relations_in_any_order subjectsAndNames mirrors ordered order
  exact ⟨own, by decide +kernel, by decide +kernel, alike, fields⟩

/-- A filter of messages that includes their senders, and asks for those named Ada. -/
def sentByAda : FilterTable :=
  Operations.register .empty "by_ada" (.nullary fun query =>
    ((query.configure? subjectsAndNames.catalog ["sender"] fun node =>
      ((), node.filterBy [⟨"name", .equal, .string "Ada"⟩])).map Prod.snd).getD query)

/-- Users with the messages that Ada sent, and the senders of an age. -/
def adaFirst : Service where
  catalog := .insert subjectsAndNames.catalog
    ((Entity.ofTable "users" "users").relateMany "messages" "messages" "sender_id")
  registry := ((Registry.empty.setInclusions "users" [.path "messages", .path "messages.sender"]).setFilters
    "messages" [sentByAda]).setFilters "users" [columnFilters ["age"]]
  request := {
    asked := {
      ParameterSet.empty with
      filters := (SortedMap.empty.insert ⟨["messages"]⟩ ⟨[("by_ada", [])]⟩).insert ⟨["messages", "sender"]⟩
        ⟨[("age", ["36"])]⟩ }
    supplied := .empty
    settings := .standard }

/-- Where an operation includes a relation and filters it, the conditions at that relation come in the order of the
entries. -/
theorem order_of_operations_that_include :
    let users := (Entity.ofTable "users" "users").relateMany "messages" "messages" "sender_id"
    let root := Plan.ofQuery (.ofEntity users)
    let conditions (relations : List String) :=
      ((relations.foldl adaFirst.withRelation root).query.selectionAt? ["messages", "sender"]).map fun senders =>
        senders.conditions.map Predicate.column
    conditions ["messages", "messages.sender"] = some ["name", "age"] ∧
      conditions ["messages.sender", "messages"] = some ["age", "name"] := by
  decide +kernel

end Service

end ResourceQuery
