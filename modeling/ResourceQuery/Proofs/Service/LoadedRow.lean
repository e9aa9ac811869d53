import ResourceQuery.Proofs.Database.RowByRow
import ResourceQuery.Proofs.Service.FieldProjection
import ResourceQuery.Proofs.Service.RootRelations

/-!
# A loaded row is the item of its key

A row that is at hand is projected by leaving out members and setting the relations that a query for its key
loads; an item is selected by columns, and loses those that were selected for the sake of structure. Both
ways end at the object that shows what the request shows of the whole row (`Service.Shows`), so they end at
the same value (`project_and_item`). Operations may do anything to the related rows: the two plans have the
same relations, with the same surplus (`finish_itemPlan_ofKey`), and differ in the root alone, for which no
operation runs.
-/
namespace ResourceQuery

/-- The rows of an entity with a key. -/
def Selection.ofKey (entity : Entity) (key : Json) : Selection :=
  (Selection.ofEntity entity).filterBy [⟨entity.primaryKey, .equal, key⟩]

/-- The source whose rows are a function of the query. -/
def RowSource.answering {σ : Type} (answer : Query → Except DatabaseError (List Json))
    (total : Query → Session σ Nat) : RowSource σ :=
  ⟨fun query => settled (answer query), total⟩

/-- What a source has for the rows of a selection with included relations: there is one, and without the
relations it is the plain row; listed columns, which the relations match by, keep of it what they list and
the relations; and no more than one row is no restriction. -/
structure FindsRow (answer : Query → Except DatabaseError (List Json)) (selection : Selection)
    (includes : List (Relation × Query)) (plain : Json) : Prop where
  /-- There is one row, of which the plain one is what the relations leave. -/
  row : ∃ whole : Json, whole.IsObject ∧ answer (.node selection includes) = .ok [whole] ∧
    whole.keep (KeepRule.atRoot fun name => !(includes.map Query.includedName).contains name) = plain
  /-- Listed columns keep what they list and the relations. -/
  columns : ∀ names : List String, (∀ included ∈ includes, included.1.parentColumn ∈ names) →
    answer (.node { selection with columns := some names } includes) =
      (answer (.node selection includes)).map (List.map (Json.keep
        (KeepRule.atRoot fun name => names.contains name || (includes.map Query.includedName).contains name)))
  /-- A window of one row has all of them. -/
  window : ∀ columns : Option (List String),
    answer (.node ({ selection with columns := columns }.take 1) includes) =
      answer (.node { selection with columns := columns } includes)

namespace Surplus

/-- A member is stripped of what its relation has to lose, which is nothing without a node. -/
theorem strip_under (surplus : Surplus) (name : String) (value : Json) :
    ((surplus.relation? name).map fun nested => nested.strip value).getD value =
      (surplus.under name).strip value := by
  unfold under
  cases surplus.relation? name with
  | some nested => rfl
  | none => exact ((strip_eq_keep empty value).trans (keep_rule_empty value)).symm

end Surplus

namespace Service

variable {service : Service} {σ : Type}

/-- A row with what is left of the member of another under a name, if it has one. -/
def adoptMember (surplus : Surplus) (loaded item : Json) (name : String) : Json :=
  ((loaded.member? name).map fun value => item.setMember name ((surplus.under name).strip value)).getD item

/-- The relations of another row are adopted one after the other. -/
theorem adopt_eq_foldl (plan : Plan) (loaded item : Json) : adopt plan loaded item =
    (plan.query.includes.map Query.includedName).foldl (adoptMember plan.surplus loaded) item := by
  rw [adopt, List.foldl_map]
  congr 1
  funext item included
  obtain ⟨relation, query⟩ := included
  simp only [adoptMember, Query.includedName]
  cases loaded.member? relation.name with
  | none => rfl
  | some value => exact congrArg (item.setMember relation.name) (plan.surplus.strip_under _ value)

/-- One adopted member is what is left of it, or what the row had, and the others are those of the row. -/
theorem member?_adoptMember (surplus : Surplus) (loaded : Json) {item : Json} (shape : item.IsObject)
    (name : String) : (adoptMember surplus loaded item name).IsObject ∧
      ∀ other, (adoptMember surplus loaded item name).member? other = if other = name then
        ((loaded.member? name).map (surplus.under name).strip).or (item.member? name)
      else item.member? other := by
  unfold adoptMember
  cases loaded.member? name with
  | none =>
    refine ⟨shape, fun other => ?_⟩
    split
    · next same => rw [same]; rfl
    · rfl
  | some value =>
    exact ⟨shape.setMember name _, fun other => Json.member?_setMember shape name other _⟩

/-- A row has what is left of the relations of another, and its own members elsewhere. -/
theorem member?_adopt (plan : Plan) (loaded : Json) {item : Json} (shape : item.IsObject) :
    (adopt plan loaded item).IsObject ∧ ∀ name, (adopt plan loaded item).member? name =
      if name ∈ plan.query.includes.map Query.includedName then
        ((loaded.member? name).map (plan.surplus.under name).strip).or (item.member? name)
      else item.member? name := by
  rw [adopt_eq_foldl]
  induction plan.query.includes.map Query.includedName generalizing item with
  | nil => exact ⟨shape, fun name => rfl⟩
  | cons first rest ih =>
    obtain ⟨step, here⟩ := member?_adoptMember plan.surplus loaded shape first
    obtain ⟨done, members⟩ := ih step
    refine ⟨done, fun name => (members name).trans ?_⟩
    rw [here name]
    by_cases same : name = first
    · -- Adopting a member again changes nothing.
      subst same
      cases loaded.member? name <;> simp
    · simp [same]

/-! ### What a row shows -/

/-- The relations that are loaded with the row of a key, with their join columns. -/
def loads (service : Service) (entity : Entity) (key : Json) : List (Relation × Query) :=
  (service.related (.ofKey entity key)).withJoinColumns.includes

/-- What a request shows of the row of a key under a name: under that of an included relation what is left of
the related rows, and elsewhere what the row has, if no fields are asked for or it is among them. -/
def shown? (service : Service) (entity : Entity) (key whole : Json) (name : String) : Option Json :=
  if name ∈ (service.loads entity key).map Query.includedName then
    (whole.member? name).map ((service.loadingPlan entity key).surplus.under name).strip
  else if service.request.fields .root = [] ∨ name ∈ service.request.fields .root then whole.member? name
  else none

/-- The value is an object with the members that a request shows of the row of a key. -/
def Shows (service : Service) (entity : Entity) (key whole value : Json) : Prop :=
  value.IsObject ∧ ∀ name, value.member? name = service.shown? entity key whole name

section Keys

variable {entity : Entity} {key : Json}

/-- There is one such object. -/
theorem Shows.eq {whole left right : Json} (leftShows : service.Shows entity key whole left)
    (rightShows : service.Shows entity key whole right) : left = right :=
  leftShows.1.eq_of_member? rightShows.1 fun name => (leftShows.2 name).trans (rightShows.2 name).symm

/-- The plan that loads the relations of a row has those of its item. -/
theorem query_loadingPlan (service : Service) (entity : Entity) (key : Json) :
    (service.loadingPlan entity key).query = (service.related (.ofKey entity key)).withJoinColumns := rfl

/-- The names of the relations that are loaded. -/
theorem names_loads (service : Service) (entity : Entity) (key : Json) :
    (service.loads entity key).map Query.includedName =
      (service.related (.ofKey entity key)).includes.map Query.includedName :=
  Query.names_withJoinColumns _

/-- The relations that are loaded have the first names of the configured paths, and nothing else below the root
is surplus. -/
theorem rooted_loadingPlan (service : Service) (entity : Entity) (key : Json) :
    Rooted service (service.firstNames entity.name service.request.relations)
      (service.loadingPlan entity key) :=
  (service.rooted_withRelations (.ofKey entity key)).finish

/-- Below a name that no loaded relation has, everything stays. -/
theorem strip_under_of_not_loaded {name : String}
    (absent : name ∉ (service.loads entity key).map Query.includedName) (value : Json) :
    ((service.loadingPlan entity key).surplus.under name).strip value = value := by
  have rooted := service.rooted_loadingPlan entity key
  have none : ¬ (service.loadingPlan entity key).surplus.HasNode name := fun held =>
    absent ((rooted.named name).2 (rooted.surplus name held))
  rw [Surplus.under_of_not_hasNode none, Surplus.strip_eq_keep]
  exact Surplus.keep_rule_empty value

/-- A loaded relation is one that the entity declares. -/
theorem declared_of_related (known : service.catalog.entity? entity.name = some entity)
    {included : Relation × Query} (member : included ∈ (service.related (.ofKey entity key)).includes) :
    included.1 ∈ entity.relations := by
  obtain ⟨target, step⟩ := (service.rooted_withRelations (.ofKey entity key)).declared included member
  have name : (service.withRelations (.ofQuery (.node (.ofKey entity key) []))).entity = entity.name :=
    congrArg Selection.entity (service.selection_withRelations _)
  obtain ⟨relation, -⟩ := Catalog.step?_eq_some_iff.1 step
  rw [name, Catalog.relation?, known] at relation
  exact List.mem_of_find?_eq_some relation

/-- The query of an item of which the first row counts. -/
def itemQuery (service : Service) (entity : Entity) (key : Json) : Query :=
  ((service.related (.ofKey entity key)).reroot
    ((Selection.ofKey entity key).restrictTo (service.request.fields .root))).withJoinColumns

/-- What leaves an item at its root: the columns that identify it and those that its relations match by, if they are
not among the fields. -/
def itemFields (service : Service) (entity : Entity) (key : Json) : List String :=
  let own := (Selection.ofKey entity key).restrictTo (service.request.fields .root)
  (own.missingColumns (service.related (.ofKey entity key)).includes).foldl Surplus.addField
    (forced (service.request.fields .root) (.ofKey entity key))

/-- The plan of an item is the one that loads the relations of its row, but for the root. -/
theorem finish_itemPlan_ofKey (service : Service) (entity : Entity) (key : Json) :
    (service.itemPlan (.node (.ofKey entity key) [])).finish =
      (service.loadingPlan entity key).reroot (service.itemQuery entity key).selection
        (service.itemFields entity key) := by
  rw [itemPlan_eq_reroot, Plan.finish_reroot, itemQuery, Query.selection_withJoinColumns]
  rfl

/-- The query of an item has the relations that are loaded. -/
theorem includes_itemQuery (service : Service) (entity : Entity) (key : Json) :
    (service.itemQuery entity key).includes = service.loads entity key := by
  rw [itemQuery, loads, Query.includes_withJoinColumns, Query.includes_withJoinColumns]
  rfl

/-- Of the query of an item only the first row is asked for. -/
theorem query_itemPlan_ofKey (service : Service) (entity : Entity) (key : Json) :
    ((service.itemPlan (.node (.ofKey entity key) [])).finish.take 1).query =
      .node ((service.itemQuery entity key).selection.take 1) (service.loads entity key) := by
  rw [finish_itemPlan_ofKey]
  rfl

/-- The query of an item asks for rows with the key, and some of their columns. -/
theorem selection_itemQuery (service : Service) (entity : Entity) (key : Json) :
    ∃ columns : Option (List String),
      (service.itemQuery entity key).selection = { Selection.ofKey entity key with columns := columns } := by
  obtain ⟨columns, shape⟩ :=
    Selection.restrictTo_eq (service.request.fields .root) (Selection.ofKey entity key)
  rw [itemQuery, Query.selection_withJoinColumns]
  show ∃ columns, List.foldl _ ((Selection.ofKey entity key).restrictTo _) _ = _
  rw [shape]
  exact Selection.foldl_addColumn_eq _ _

/-- The query of an item finds what it has of the whole row. -/
theorem answer_itemQuery {answer : Query → Except DatabaseError (List Json)} {plain whole : Json}
    (finds : FindsRow answer (.ofKey entity key) (service.loads entity key) plain)
    (found : answer (.node (.ofKey entity key) (service.loads entity key)) = .ok [whole]) :
    answer (.node ((service.itemQuery entity key).selection.take 1) (service.loads entity key)) =
      .ok [whole.keep (KeepRule.atRoot (service.itemQuery entity key).has)] := by
  obtain ⟨columns, shape⟩ := service.selection_itemQuery entity key
  have names := service.includes_itemQuery entity key
  have has : (service.itemQuery entity key).has = fun name =>
      ({ Selection.ofKey entity key with columns := columns } : Selection).selects name ||
        ((service.loads entity key).map Query.includedName).contains name := by
    funext name
    rw [Query.has, shape, names]
  rw [has, shape, finds.window]
  cases columns with
  | none =>
    have whole : whole.keep (KeepRule.atRoot fun name =>
        ({ Selection.ofKey entity key with columns := none } : Selection).selects name ||
          ((service.loads entity key).map Query.includedName).contains name) = whole :=
      Json.keep_of_always (fun chain name => by simp [KeepRule.atRoot, Selection.selects]) whole
    rw [whole]
    exact found
  | some columns =>
    have parents : ∀ included ∈ service.loads entity key, included.1.parentColumn ∈ columns := by
      intro included member
      rw [loads, Query.includes_withJoinColumns] at member
      obtain ⟨before, listed, rfl⟩ := List.mem_map.1 member
      have selected : (service.itemQuery entity key).selection.selects before.1.parentColumn = true :=
        Query.selects_parentColumn_withJoinColumns listed
      rw [shape] at selected
      exact List.contains_iff_mem.1 selected
    rw [finds.columns columns parents, found]
    rfl

/-- An item has and does not lose the relations, and of the other members those that the fields name, or all
without fields. -/
theorem has_and_kept_iff (known : service.catalog.entity? entity.name = some entity)
    (apart : service.catalog.NamesApart) (name : String) :
    ((service.itemQuery entity key).has name = true ∧ name ∉ service.itemFields entity key) ↔
    (name ∈ (service.loads entity key).map Query.includedName ∨
      service.request.fields .root = [] ∨ name ∈ service.request.fields .root) := by
  rw [itemQuery, Query.has_withJoinColumns, itemFields, Surplus.mem_foldl_addField, mem_forced, names_loads,
    Query.selection_reroot, Query.includes_reroot, Selection.mem_missingColumns]
  by_cases unnamed : service.request.fields .root = []
  · have every : ∀ column, ((Selection.ofKey entity key).restrictTo []).selects column = true := fun _ => rfl
    simp [unnamed, every]
  · have columns := Selection.selects_restrictTo unnamed (.ofKey entity key)
    have identified : Plan.keyColumns (Selection.ofKey entity key) = [entity.primaryKey] := rfl
    rw [identified] at columns ⊢
    have relation : name ∈ (service.related (.ofKey entity key)).includes.map Query.includedName →
        name ≠ entity.primaryKey ∧ ∀ included ∈ (service.related (.ofKey entity key)).includes,
          included.1.parentColumn ≠ name := by
      intro listed
      obtain ⟨included, member, rfl⟩ := List.mem_map.1 listed
      have declared := declared_of_related known member
      exact ⟨apart.primaryKey _ entity known _ declared, fun other present =>
        (apart.parentColumn _ entity known _ declared _ (declared_of_related known present)).symm⟩
    have here := columns name
    grind

/-- The item of a key shows what the request shows of the row. -/
theorem exists_item {answer : Query → Except DatabaseError (List Json)} {plain whole : Json}
    (known : service.catalog.entity? entity.name = some entity) (apart : service.catalog.NamesApart)
    (finds : FindsRow answer (.ofKey entity key) (service.loads entity key) plain)
    (shape : whole.IsObject)
    (found : answer (.node (.ofKey entity key) (service.loads entity key)) = .ok [whole])
    (total : Query → Session σ Nat) :
    ∃ value, service.Shows entity key whole value ∧
      service.item (.answering answer total) (.node (.ofKey entity key) []) = pure value := by
  have surplus : (service.itemPlan (.node (.ofKey entity key) [])).finish.surplus =
      .node (service.itemFields entity key) (service.loadingPlan entity key).surplus.relations := by
    rw [finish_itemPlan_ofKey]
    rfl
  refine ⟨(service.itemPlan (.node (.ofKey entity key) [])).finish.surplus.strip
    (whole.keep (KeepRule.atRoot (service.itemQuery entity key).has)), ⟨?_, fun name => ?_⟩, ?_⟩
  · rw [Surplus.strip_eq_keep]
    exact (shape.keep _).keep _
  · have here := @has_and_kept_iff service entity key known apart name
    rw [surplus, Surplus.member?_strip, Json.member?_keep_atRoot, shown?]
    show (if name ∈ service.itemFields entity key then none else Option.map
      ((service.loadingPlan entity key).surplus.under name).strip _) = _
    by_cases relation : name ∈ (service.loads entity key).map Query.includedName
    · obtain ⟨held, stays⟩ := here.2 (.inl relation)
      rw [if_pos relation, if_neg stays, if_pos held]
    · have below : ((service.loadingPlan entity key).surplus.under name).strip = id :=
        funext (strip_under_of_not_loaded relation)
      rw [if_neg relation, below, Option.map_id]
      by_cases asked : service.request.fields .root = [] ∨ name ∈ service.request.fields .root
      · obtain ⟨held, stays⟩ := here.2 (.inr asked)
        rw [if_pos asked, if_neg stays, if_pos held]
        rfl
      · have gone : ¬ ((service.itemQuery entity key).has name = true ∧
            name ∉ service.itemFields entity key) := by
          rw [here]
          exact not_or.2 ⟨relation, asked⟩
        rw [if_neg asked]
        split
        · rfl
        · next stays =>
          rw [if_neg fun held => gone ⟨held, stays⟩]
          rfl
  · rw [item_eq_bind, query_itemPlan_ofKey]
    show Outcome.ofSession (settled (answer _)) >>= _ = _
    rw [answer_itemQuery finds found, ofSession_ok_bind]

/-- The relations of a row are loaded by the query for its key, of which every column is selected. -/
theorem query_loadingPlan_ofKey (service : Service) (entity : Entity) (key : Json) :
    (service.loadingPlan entity key).query =
      .node (.ofKey entity key) (service.loads entity key) := by
  have selection : (service.related (.ofKey entity key)).withJoinColumns.selection = .ofKey entity key := by
    have own : (service.related (.ofKey entity key)).selection = .ofKey entity key :=
      service.selection_withRelations _
    have nothing : (Selection.ofKey entity key).missingColumns
        (service.related (.ofKey entity key)).includes = [] := by
      refine List.eq_nil_iff_forall_not_mem.2 fun column lacked => ?_
      exact nomatch (Selection.mem_missingColumns.1 lacked).2
    rw [Query.selection_withJoinColumns, own, nothing]
    rfl
  rw [query_loadingPlan, loads]
  cases finished : (service.related (.ofKey entity key)).withJoinColumns with
  | node own includes =>
    rw [finished] at selection
    exact congrArg (fun own => Query.node own includes) selection

/-- Without relations to load, a row has its fields kept. -/
theorem project_of_loadingKey_none {source : RowSource σ} {name : String} {members : List (String × Json)}
    (known : service.catalog.entity? name = some entity)
    (unloaded : service.loadingKey? entity members = none) :
    service.project source name (.object members) = pure (.object (service.keepFields members)) := by
  simp only [project, known, unloaded]

/-- With a key to load by, a row with its fields kept adopts the relations of the first row loaded. -/
theorem project_of_loadingKey {source : RowSource σ} {name : String} {members : List (String × Json)}
    (known : service.catalog.entity? name = some entity)
    (loading : service.loadingKey? entity members = some key) :
    service.project source name (.object members) =
      Outcome.ofSession (source.rows (service.loadingPlan entity key).query) >>= fun loaded =>
        pure ((loaded.head?.map fun first =>
          adopt (service.loadingPlan entity key) first (.object (service.keepFields members))).getD
            (.object (service.keepFields members))) := by
  simp only [project, known, loading]

/-- A row with the fields kept has of its members those that the fields name, or all without fields. -/
theorem keepFields_eq_keep (service : Service) (members : List (String × Json)) :
    Json.object (service.keepFields members) = (Json.object members).keep (KeepRule.atRoot fun name =>
      (service.request.fields .root).isEmpty || (service.request.fields .root).contains name) :=
  Json.filter_eq_keep (fun name =>
    (service.request.fields .root).isEmpty || (service.request.fields .root).contains name) members

/-- A row with its fields kept and its relations adopted shows what the request shows of the row. -/
theorem shows_adopt {plain whole : Json} (shape : plain.IsObject)
    (bare : whole.keep (KeepRule.atRoot fun name =>
      !((service.loads entity key).map Query.includedName).contains name) = plain) :
    service.Shows entity key whole (adopt (service.loadingPlan entity key) whole
      (plain.keep (KeepRule.atRoot fun name =>
        (service.request.fields .root).isEmpty || (service.request.fields .root).contains name))) := by
  obtain ⟨adopted, members⟩ := member?_adopt (service.loadingPlan entity key) whole
    (shape.keep (KeepRule.atRoot fun name =>
      (service.request.fields .root).isEmpty || (service.request.fields .root).contains name))
  refine ⟨adopted, fun name => (members name).trans ?_⟩
  have names : (service.loadingPlan entity key).query.includes = service.loads entity key := rfl
  rw [names, shown?, Json.member?_keep_atRoot, ← bare, Json.member?_keep_atRoot]
  by_cases relation : name ∈ (service.loads entity key).map Query.includedName
  · simp [relation]
  · simp [relation]

/-- Without relations to load, a row with its fields kept shows what the request shows of it. -/
theorem shows_keepFields {plain whole : Json} (shape : plain.IsObject)
    (none : service.request.relations = [])
    (bare : whole.keep (KeepRule.atRoot fun name =>
      !((service.loads entity key).map Query.includedName).contains name) = plain) :
    service.Shows entity key whole (plain.keep (KeepRule.atRoot fun name =>
      (service.request.fields .root).isEmpty || (service.request.fields .root).contains name)) := by
  have includes : (service.loadingPlan entity key).query.includes = [] := by
    rw [query_loadingPlan, Query.includes_withJoinColumns, related, withRelations, none]
    rfl
  have shows : service.Shows entity key whole (adopt (service.loadingPlan entity key) whole _) :=
    shows_adopt shape bare
  rwa [adopt, includes, List.foldl_nil] at shows

/-- A row that is at hand, projected, and the item of its key are the same value: for every entity, every row
with a key and every request, if no relation is named as a column that identifies or matches rows. -/
theorem project_and_item {name : String} {answer : Query → Except DatabaseError (List Json)}
    {plain : Json} (known : service.catalog.entity? name = some entity)
    (apart : service.catalog.NamesApart) (keyed : plain.member? entity.primaryKey = some key)
    (present : key.isNull = false)
    (finds : FindsRow answer (.ofKey entity key) (service.loads entity key) plain)
    (total : Query → Session σ Nat) :
    ∃ value, service.project (.answering answer total) name plain = pure value ∧
      service.item (.answering answer total) ((Query.ofEntity entity).mapSelection fun selection =>
        selection.filterBy [⟨entity.primaryKey, .equal, key⟩]) = pure value := by
  obtain ⟨whole, shape, found, bare⟩ := finds.row
  have named : service.catalog.entity? entity.name = some entity := by
    rw [Catalog.name_of_entity? known]
    exact known
  obtain ⟨value, shows, item⟩ := exists_item named apart finds shape found total
  refine ⟨value, ?_, item⟩
  have plainShape : plain.IsObject := bare ▸ shape.keep _
  obtain ⟨members, -, rfl⟩ := id plainShape
  have loading : service.loadingKey? entity members =
      if key.isNull || service.request.relations.isEmpty then none else some key := by
    rw [loadingKey?, show members.lookup entity.primaryKey = some key from keyed]
  rw [present, Bool.false_or] at loading
  cases relations : service.request.relations.isEmpty with
  | true =>
    rw [relations, if_pos rfl] at loading
    rw [project_of_loadingKey_none known loading, keepFields_eq_keep,
      shows.eq (shows_keepFields plainShape (List.isEmpty_iff.1 relations) bare)]
  | false =>
    rw [relations, if_neg Bool.false_ne_true] at loading
    rw [project_of_loadingKey known loading, keepFields_eq_keep]
    show Outcome.ofSession (settled (answer (service.loadingPlan entity key).query)) >>= _ = _
    rw [query_loadingPlan_ofKey, found, ofSession_ok_bind, shows.eq (shows_adopt plainShape bare)]
    rfl

end Keys

/-! ### A user at hand -/

/-- The source that has one row, of which a query has the columns selected and the relations included. -/
def oneRow (whole : Json) (query : Query) : Except DatabaseError (List Json) :=
  .ok [whole.keep (KeepRule.atRoot query.has)]

/-- Without a list of columns a query has all of the row. -/
theorem oneRow_of_columns_none {selection : Selection} (every : selection.columns = none) (whole : Json)
    (includes : List (Relation × Query)) : oneRow whole (.node selection includes) = .ok [whole] := by
  have all : whole.keep (KeepRule.atRoot (Query.node selection includes).has) = whole := by
    refine Json.keep_of_always (fun chain name => ?_) whole
    simp [KeepRule.atRoot, Query.has, Query.selection, Selection.selects, every]
  rw [oneRow, all]

/-- The one row is found, whatever the relations. -/
theorem findsRow_oneRow {whole : Json} (shape : whole.IsObject) {selection : Selection}
    (every : selection.columns = none) (includes : List (Relation × Query)) :
    FindsRow (oneRow whole) selection includes (whole.keep (KeepRule.atRoot fun name =>
      !(includes.map Query.includedName).contains name)) where
  row := ⟨whole, shape, oneRow_of_columns_none every whole includes, rfl⟩
  columns names _ := by
    rw [oneRow_of_columns_none every]
    rfl
  window _ := rfl

/-- A user, and the messages that the user sent. -/
def user : Json :=
  .object [("id", .natural 1),
    ("messages", .array [
      .object [("id", .natural 7), ("sender_id", .natural 1), ("subject", .string "hi")],
      .object [("id", .natural 8), ("sender_id", .natural 1), ("subject", .string "bye")]]),
    ("name", .string "Ada"), ("token", .string "secret")]

/-- A user whose row is at hand and the item of the user's key are the name with the subjects. -/
theorem user_projected :
    let plain : Json := .object [("id", .natural 1), ("name", .string "Ada"), ("token", .string "secret")]
    namesAndSubjects.catalog.entity? "users" = some authors ∧ namesAndSubjects.catalog.NamesApart ∧
    FindsRow (oneRow user) (.ofKey authors (.natural 1)) (namesAndSubjects.loads authors (.natural 1)) plain ∧
    (namesAndSubjects.project (.answering (oneRow user) fun _ => (pure 1 : Session Unit Nat)) "users" plain =
      pure (.object [
        ("messages", .array [.object [("subject", .string "hi")], .object [("subject", .string "bye")]]),
        ("name", .string "Ada")])) ∧
    ∃ value,
      namesAndSubjects.project (.answering (oneRow user) fun _ => (pure 1 : Session Unit Nat)) "users" plain =
        pure value ∧
      namesAndSubjects.item (.answering (oneRow user) fun _ => (pure 1 : Session Unit Nat))
        ((Query.ofEntity authors).mapSelection fun selection =>
          selection.filterBy [⟨authors.primaryKey, .equal, .natural 1⟩]) = pure value := by
  intro plain
  have known : namesAndSubjects.catalog.entity? "users" = some authors := by decide
  have apart : namesAndSubjects.catalog.NamesApart := Catalog.namesApart_of_entities (by decide)
  have shape : user.IsObject := ⟨_, by decide, rfl⟩
  have finds : FindsRow (oneRow user) (.ofKey authors (.natural 1))
      (namesAndSubjects.loads authors (.natural 1)) plain := findsRow_oneRow shape rfl _
  exact ⟨known, apart, finds, rfl, project_and_item known apart rfl rfl finds _⟩

end Service

end ResourceQuery
