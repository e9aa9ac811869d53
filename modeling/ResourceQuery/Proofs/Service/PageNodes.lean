import ResourceQuery.Proofs.Database.Projection
import ResourceQuery.Proofs.Service.IncludedPaths

/-!
# The nodes of a page

What the query of a page selects at each of its nodes, and what leaves the answer there. A node is
narrowed when fields are named for its path and the path is the root or was configured
(`Service.narrows`); there it selects the fields, the columns that identify and match its rows and those
that its relations match by, and all but the fields are surplus. Every other node selects every column,
and nothing is surplus. That is so where operations only add: one that chose the columns itself would be
heard at a node that is not narrowed.
-/
namespace ResourceQuery

/-- No relation of an entity has the name of a column that identifies or matches its rows: its primary key,
the parent column of one of its relations or the child column of a relation to it. -/
structure Catalog.NamesApart (catalog : Catalog) : Prop where
  /-- A relation is not named as the primary key. -/
  primaryKey : ∀ name entity, catalog.entity? name = some entity →
    ∀ relation ∈ entity.relations, relation.name ≠ entity.primaryKey
  /-- A relation is not named as a column by which a relation of the entity matches. -/
  parentColumn : ∀ name entity, catalog.entity? name = some entity →
    ∀ relation ∈ entity.relations, ∀ other ∈ entity.relations, relation.name ≠ other.parentColumn
  /-- A relation is not named as a column by which a relation to the entity matches. -/
  childColumn : ∀ name entity, catalog.entity? name = some entity →
    ∀ source holder, catalog.entity? source = some holder → ∀ other ∈ holder.relations,
      other.target = name → ∀ relation ∈ entity.relations, relation.name ≠ other.childColumn

/-- Names are apart where they are for every relation of every listed entity. -/
theorem Catalog.namesApart_of_entities {catalog : Catalog}
    (apart : ∀ entity ∈ catalog.entities, ∀ relation ∈ entity.relations,
      relation.name ≠ entity.primaryKey ∧
      (∀ other ∈ entity.relations, relation.name ≠ other.parentColumn) ∧
      ∀ holder ∈ catalog.entities, ∀ other ∈ holder.relations, other.target = entity.name →
        relation.name ≠ other.childColumn) : catalog.NamesApart where
  primaryKey _ entity found relation member :=
    (apart entity (List.mem_of_find?_eq_some found) relation member).1
  parentColumn _ entity found relation member :=
    (apart entity (List.mem_of_find?_eq_some found) relation member).2.1
  childColumn _ entity found _ holder holderFound other otherMember target relation member :=
    (apart entity (List.mem_of_find?_eq_some found) relation member).2.2 holder
      (List.mem_of_find?_eq_some holderFound) other otherMember
      (target.trans (Catalog.name_of_entity? found).symm)

/-- At no node of a query is an included relation named as a column that identifies or matches the rows of the node,
or as one by which a relation included there matches. -/
def Query.NodesApart (query : Query) : Prop :=
  ∀ chain node, query.at? chain = some node →
    (∀ column ∈ Plan.keyColumns node.selection, column ∉ node.includes.map includedName) ∧
      ∀ included ∈ node.includes, included.1.parentColumn ∉ node.includes.map includedName

namespace Service

variable {service : Service}

/-- Fields are named for the rows at a chain, which is the root or a configured path. -/
def narrows (service : Service) (entity : String) (chain : List String) : Bool :=
  !(service.request.fields ⟨chain⟩).isEmpty &&
    (chain.isEmpty || (service.admitted entity service.request.relations).contains ⟨chain⟩)

/-- Rows are narrowed when fields are named for a root or a configured path. -/
theorem narrows_iff {entity : String} {chain : List String} : service.narrows entity chain = true ↔
    service.request.fields ⟨chain⟩ ≠ [] ∧
      (chain = [] ∨ ⟨chain⟩ ∈ service.admitted entity service.request.relations) := by
  unfold narrows
  simp

variable [service.registry.AppendOnly]

/-- Without fields, arranging again and again keeps the columns. -/
theorem columns_repeat_arrange {path : Path} (none : service.request.fields path = []) (times : Nat)
    (selection : Selection) :
    (Nat.repeat (service.arrange path) times selection).columns = selection.columns := by
  induction times with
  | zero => rfl
  | succ times ih => exact (columns_arrange none _).trans ih

/-- Arranging a selection of every column again and again selects every column, or once fields are named
the fields and the columns that identify and match its rows. -/
theorem selects_repeat_arrange {path : Path} {selection : Selection} (every : selection.columns = none)
    (times : Nat) (name : String) :
    (Nat.repeat (service.arrange path) times selection).selects name = true ↔
      (0 < times ∧ service.request.fields path ≠ [] →
        name ∈ Plan.keyColumns selection ∨ name ∈ service.request.fields path) := by
  have whole : ∀ {other : Selection}, other.columns = none → other.selects name = true := by
    intro other unlisted
    rw [Selection.selects, unlisted]
  by_cases unnamed : service.request.fields path = []
  · apply iff_of_true (whole ((columns_repeat_arrange unnamed times selection).trans every))
    exact fun named => absurd unnamed named.2
  · cases times with
    | zero =>
      refine iff_of_true (whole every) fun some => absurd some.1 (Nat.lt_irrefl 0)
    | succ times =>
      have rows := Selection.keyColumns_of_bare (service.bare_repeat_arrange path times selection)
      rw [Nat.repeat, selects_arrange unnamed, rows]
      constructor
      · exact fun selected _ => selected
      · exact fun selected => selected ⟨Nat.succ_pos times, unnamed⟩

/-- A node of the plan of a page is a selection of every column that was arranged, and arranged at all
exactly when it is the root or its path was configured. -/
theorem arranged_node {selection own : Selection} (every : selection.columns = none)
    {chain : List String}
    (found : (service.pagePlan (.node selection [])).query.selectionAt? chain = some own) :
    ∃ times base, own = Nat.repeat (service.arrange ⟨chain⟩) times base ∧ base.columns = none ∧
      (0 < times ↔ chain = [] ∨
        ⟨chain⟩ ∈ service.admitted selection.entity service.request.relations) := by
  have arranged := service.arranged_pagePlan selection
  by_cases root : chain = []
  · subst root
    have same : own = service.arrange .root selection := by
      rw [Query.selectionAt?_nil] at found
      exact (Option.some.inj found).symm.trans arranged.root
    exact ⟨1, selection, same, every, by simp⟩
  · rw [arranged.selections, arranged?] at found
    split at found
    · obtain ⟨reached, leads, rfl⟩ := Option.map_eq_some_iff.1 found
      obtain ⟨source, name, relation, target, -, rfl⟩ := Catalog.step_of_reach? leads root
      refine ⟨_, _, rfl, rfl, ?_⟩
      rw [List.count_pos_iff]
      simp [root]
    · contradiction

/-- A node of the plan of a page selects every column, unless it is narrowed: then it selects the fields
and the columns that identify and match its rows. -/
theorem selects_pagePlan {selection own : Selection} (every : selection.columns = none)
    {chain : List String}
    (found : (service.pagePlan (.node selection [])).query.selectionAt? chain = some own)
    (name : String) : own.selects name = true ↔ (service.narrows selection.entity chain = true →
      name ∈ Plan.keyColumns own ∨ name ∈ service.request.fields ⟨chain⟩) := by
  obtain ⟨times, base, rfl, unlisted, often⟩ := arranged_node every found
  rw [selects_repeat_arrange unlisted, narrows_iff, often,
    Selection.keyColumns_of_bare (service.bare_repeat_arrange ⟨chain⟩ times base), and_comm]

/-- What leaves the answer at a node of the plan of a page are the columns that identify and match its rows
and are not among the fields, where the node is narrowed. -/
theorem mem_fieldsAt_pagePlan {selection own : Selection} {chain : List String}
    (found : (service.pagePlan (.node selection [])).query.selectionAt? chain = some own)
    (name : String) : name ∈ (service.pagePlan (.node selection [])).surplus.fieldsAt ⟨chain⟩ ↔
      service.narrows selection.entity chain = true ∧ name ∈ Plan.keyColumns own ∧
        name ∉ service.request.fields ⟨chain⟩ := by
  have arranged := service.arranged_pagePlan selection
  rw [arranged.fields, narrows_iff]
  by_cases root : chain = []
  · subst root
    have unnamed : (⟨[]⟩ : Path) ∉ service.admitted selection.entity service.request.relations := by
      intro member
      obtain ⟨relation, -, admitted, same⟩ := mem_admitted_iff.1 member
      exact (admits_iff.1 admitted).2.1 (congrArg Path.segments same)
    have same : own = service.arrange .root selection := by
      rw [Query.selectionAt?_nil] at found
      exact (Option.some.inj found).symm.trans arranged.root
    have rows : Plan.keyColumns own = Plan.keyColumns selection := by
      rw [same]
      exact Selection.keyColumns_of_bare (bare_arrange service .root selection)
    rw [rows]
    constructor
    · rintro (⟨-, held⟩ | ⟨member, -⟩)
      · obtain ⟨named, key, apart⟩ := mem_forced.1 held
        exact ⟨⟨named, .inl rfl⟩, key, apart⟩
      · exact absurd member unnamed
    · rintro ⟨⟨named, -⟩, key, apart⟩
      exact .inl ⟨rfl, mem_forced.2 ⟨named, key, apart⟩⟩
  · have below : (⟨chain⟩ : Path) ≠ .root := fun same => root (congrArg Path.segments same)
    rw [arranged.selections, arranged?] at found
    split at found
    · obtain ⟨reached, leads, rfl⟩ := Option.map_eq_some_iff.1 found
      rw [Selection.keyColumns_of_bare (service.bare_repeat_arrange ⟨chain⟩ _ reached)]
      constructor
      · rintro (⟨same, -⟩ | ⟨member, other, leadsToo, held⟩)
        · exact absurd same below
        · have alike : reached = other := Option.some.inj (leads.symm.trans leadsToo)
          subst alike
          obtain ⟨named, key, apart⟩ := mem_forced.1 held
          exact ⟨⟨named, .inr member⟩, key, apart⟩
      · rintro ⟨⟨named, here | member⟩, key, apart⟩
        · exact absurd here root
        · exact .inr ⟨member, reached, leads, mem_forced.2 ⟨named, key, apart⟩⟩
    · contradiction

/-- Where the plan of a page has no node, nothing leaves the answer. -/
theorem not_mem_fieldsAt_pagePlan {selection : Selection} {chain : List String}
    (absent : (service.pagePlan (.node selection [])).query.selectionAt? chain = none) (name : String) :
    name ∉ (service.pagePlan (.node selection [])).surplus.fieldsAt ⟨chain⟩ := by
  have arranged := service.arranged_pagePlan selection
  rw [arranged.fields]
  rintro (⟨same, -⟩ | ⟨member, reached, leads, -⟩)
  · have here : chain = [] := congrArg Path.segments same
    subst here
    rw [Query.selectionAt?_nil] at absent
    contradiction
  · have covered : chain = [] ∨ ∃ path ∈ service.admitted selection.entity service.request.relations,
        chain <+: path.segments := .inr ⟨⟨chain⟩, member, List.prefix_refl chain⟩
    rw [arranged.selections, arranged?, if_pos covered] at absent
    rw [Option.map_eq_none_iff.1 absent] at leads
    contradiction

/-- An included relation of a node is one that the entity of its rows declares. -/
theorem declared_of_included {catalog : Catalog} {node : Query} (mirrors : node.Mirrors catalog)
    {included : Relation × Query} (member : included ∈ node.includes) :
    ∃ holder, catalog.entity? node.selection.entity = some holder ∧ included.1 ∈ holder.relations := by
  obtain ⟨selection, includes⟩ := node
  obtain ⟨-, known, -⟩ := mirrors
  obtain ⟨target, step, -⟩ := known included member
  obtain ⟨relationKnown, -⟩ := Catalog.step?_eq_some_iff.1 step
  obtain ⟨holder, holderKnown, named⟩ := Option.bind_eq_some_iff.1 relationKnown
  exact ⟨holder, holderKnown, List.mem_of_find?_eq_some named⟩

section Nodes

variable {selection : Selection} (apart : (service.pagePlan (.node selection [])).query.NodesApart)
  (every : selection.columns = none)

include apart every

/-- What a finished node selects and does not drop: its fields and its relations where it is narrowed,
everything elsewhere. -/
theorem shows_iff {chain : List String} {node : Query}
    (found : (service.pagePlan (.node selection [])).query.at? chain = some node) (name : String) :
    (node.withJoinColumns.has name = true ∧
      name ∉ (service.pagePlan (.node selection [])).finish.surplus.fieldsAt ⟨chain⟩) ↔
    (service.narrows selection.entity chain = true →
      name ∈ service.request.fields ⟨chain⟩ ∨ name ∈ node.includes.map Query.includedName) := by
  have arranged := service.arranged_pagePlan selection
  have own := Query.selectionAt?_of_at? found
  have selected := selects_pagePlan every own name
  have dropped := mem_fieldsAt_pagePlan own name
  obtain ⟨keys, parents⟩ := apart chain node found
  have finished : name ∈ (service.pagePlan (.node selection [])).finish.surplus.fieldsAt ⟨chain⟩ ↔
      name ∈ (service.pagePlan (.node selection [])).surplus.fieldsAt ⟨chain⟩ ∨
        name ∈ node.selection.missingColumns node.includes := by
    rw [Plan.mem_fieldsAt_finish arranged.mirrors arranged.ordered]
    simp [found]
  have lacks : name ∈ node.selection.missingColumns node.includes →
      ¬ node.selection.selects name = true := by
    intro lacked
    rw [(Selection.mem_missingColumns.1 lacked).2]
    exact Bool.false_ne_true
  have relation : name ∈ node.includes.map Query.includedName →
      name ∉ Plan.keyColumns node.selection ∧
        name ∉ node.selection.missingColumns node.includes := by
    intro named
    constructor
    · exact fun key => keys name key named
    · intro lacked
      obtain ⟨⟨included, member, column⟩, -⟩ := Selection.mem_missingColumns.1 lacked
      exact parents included member (column ▸ named)
  rw [Query.has_withJoinColumns, finished, dropped, selected]
  rw [selected] at lacks
  grind

/-- Rows can be matched at every node of the finished query of a page. -/
theorem joins_finish_of_nodes :
    (service.pagePlan (.node selection [])).finish.query.Joins := by
  have arranged := service.arranged_pagePlan selection
  apply Query.joins_of_nodes arranged.mirrors.withJoinColumns
  intro chain finished foundFinished included listed
  rw [Query.at?_withJoinColumns] at foundFinished
  obtain ⟨node, found, rfl⟩ := Option.map_eq_some_iff.1 foundFinished
  rw [Query.includes_withJoinColumns] at listed
  obtain ⟨⟨relation, child⟩, member, rfl⟩ := List.mem_map.1 listed
  have childFound := arranged.mirrors.at?_included found member
  have key : relation.childColumn ∈ Plan.keyColumns child.selection :=
    (arranged.mirrors.at found).childColumn_mem_keyColumns member
  have parentSelected := Query.selects_parentColumn_withJoinColumns member
  have parents := (apart chain node found).2 _ member
  have keys := (apart _ child childFound).1 _ key
  have selected : child.selection.selects relation.childColumn = true :=
    (selects_pagePlan every (Query.selectionAt?_of_at? childFound) _).2 fun _ => .inl key
  rw [Query.names_withJoinColumns, Query.names_withJoinColumns]
  constructor
  · exact ⟨parentSelected, parents⟩
  · exact ⟨(child.selects_withJoinColumns relation.childColumn).2 (.inl selected), keys⟩

end Nodes

/-! ### Nodes of the page of an entity -/

section Entities

variable {selection : Selection} {entity : Entity} (rows : selection.bare = .ofEntity entity)
  (known : service.catalog.entity? entity.name = some entity)

include rows known

/-- The rows of a node of a page are those of an entity of the catalog, and are matched by the child column
of a relation to it. -/
theorem rows_of_node {chain : List String} {own : Selection}
    (found : (service.pagePlan (.node selection [])).query.selectionAt? chain = some own) :
    ∃ holder, service.catalog.entity? own.entity = some holder ∧ own.primaryKey = holder.primaryKey ∧
      ∀ column ∈ own.foreignKey, ∃ source other relation, service.catalog.entity? source = some other ∧
        relation ∈ other.relations ∧ relation.target = own.entity ∧ relation.childColumn = column := by
  have arranged := service.arranged_pagePlan selection
  by_cases root : chain = []
  · subst root
    have same : own.bare = .ofEntity entity := by
      rw [Query.selectionAt?_nil, arranged.root] at found
      rw [← Option.some.inj found, bare_arrange, rows]
    have primaryKey : own.primaryKey = entity.primaryKey := congrArg Selection.primaryKey same
    have name : own.entity = entity.name := congrArg Selection.entity same
    have unmatched : own.foreignKey = none := congrArg Selection.foreignKey same
    refine ⟨entity, name ▸ known, primaryKey, fun column matched => ?_⟩
    rw [unmatched] at matched
    contradiction
  · rw [arranged.selections, arranged?] at found
    split at found
    · obtain ⟨reached, leads, rfl⟩ := Option.map_eq_some_iff.1 found
      obtain ⟨source, name, relation, target, step, rfl⟩ := Catalog.step_of_reach? leads root
      generalize own : Nat.repeat (service.arrange ⟨chain⟩) _ (Selection.ofRelation relation target) =
        selected
      have same : selected.bare = .ofRelation relation target :=
        own ▸ service.bare_repeat_arrange ⟨chain⟩ _ _
      have primaryKey : selected.primaryKey = target.primaryKey := congrArg Selection.primaryKey same
      have entityName : selected.entity = relation.target :=
        (congrArg Selection.entity same).trans (Catalog.target_of_step? step)
      have matched : selected.foreignKey = some relation.childColumn := congrArg Selection.foreignKey same
      obtain ⟨relationKnown, targetKnown⟩ := Catalog.step?_eq_some_iff.1 step
      obtain ⟨other, otherKnown, named⟩ := Option.bind_eq_some_iff.1 relationKnown
      refine ⟨target, entityName ▸ targetKnown, primaryKey, fun column held => ?_⟩
      rw [matched] at held
      exact ⟨source, other, relation, otherKnown, List.mem_of_find?_eq_some named, entityName.symm,
        Option.some.inj held⟩
    · contradiction

variable (apart : service.catalog.NamesApart)

include apart

/-- Where names are apart in the catalog, they are at every node of a page. -/
theorem nodesApart_pagePlan : (service.pagePlan (.node selection [])).query.NodesApart := by
  intro chain node found
  have mirrors := (service.arranged_pagePlan selection).mirrors.at found
  obtain ⟨holder, holderKnown, primaryKey, matched⟩ :=
    rows_of_node rows known (Query.selectionAt?_of_at? found)
  have declared : ∀ included ∈ node.includes, included.1 ∈ holder.relations := by
    intro included member
    obtain ⟨other, otherKnown, listed⟩ := declared_of_included mirrors member
    have same : holder = other := Option.some.inj (holderKnown.symm.trans otherKnown)
    exact same ▸ listed
  constructor
  · intro column key named
    obtain ⟨included, member, name⟩ := List.mem_map.1 named
    have relation := declared included member
    rcases List.mem_cons.1 key with primary | foreign
    · exact apart.primaryKey _ holder holderKnown _ relation (name.trans (primary.trans primaryKey))
    · obtain ⟨source, other, towards, otherKnown, listed, target, child⟩ :=
        matched column (Option.mem_toList.1 foreign)
      exact apart.childColumn _ holder holderKnown source other otherKnown towards listed target _
        relation (name.trans child.symm)
  · intro included member named
    obtain ⟨other, otherMember, name⟩ := List.mem_map.1 named
    exact apart.parentColumn _ holder holderKnown _ (declared other otherMember) _
      (declared included member) name

/-- Rows can be matched at every node of the finished query of a page of a catalog whose names are apart. -/
theorem joins_finish (every : selection.columns = none) :
    (service.pagePlan (.node selection [])).finish.query.Joins :=
  joins_finish_of_nodes (nodesApart_pagePlan rows known apart) every

end Entities

end Service

end ResourceQuery
