import ResourceQuery.Proofs.Service.LoadedRow

/-!
# What a projected row has

A row that is at hand is laid over with the first of the rows that are loaded by its key. Member by member,
the result has what was loaded under the names of the relations that the request includes first, where there
is such a member, and what the fields keep of the row everywhere else (`Service.Overlays`). So nothing comes
from the loaded row but its relations, without their surplus, and nothing that the row keeps is lost but under
their names (`project_overlays`). What operations do to the related rows makes no difference to that.
-/
namespace ResourceQuery.Service

variable {service : Service} {entity : Entity} {key : Json}

/-- What the fields of the root keep of a row under a name. -/
def kept? (service : Service) (row : Json) (name : String) : Option Json :=
  if service.request.fields .root = [] ∨ name ∈ service.request.fields .root then row.member? name else none

/-- What the first of the loaded rows has under a name, without the surplus of the relation of that name. -/
def loaded? (service : Service) (entity : Entity) (key : Json) (rows : List Json) (name : String) :
    Option Json :=
  (rows.head?.bind (Json.member? name)).map fun value =>
    (((service.loadingPlan entity key).surplus.relation? name).map fun nested => nested.strip value).getD value

/-- The request includes a relation with the rows of an entity: it is the first of a path that is requested,
that is allowed, and that leads along known relations. -/
def IncludesFirst (service : Service) (entity : Entity) (name : String) : Prop :=
  ∃ relation ∈ service.request.relations, service.registry.allows entity.name relation = true ∧
    service.catalog.Leads entity.name (Path.ofText relation).segments ∧
      (Path.ofText relation).segments.head? = some name

/-- The value is a row laid over with the first of the rows that were loaded by its key. -/
structure Overlays (service : Service) (entity : Entity) (key row : Json) (rows : List Json) (value : Json) :
    Prop where
  /-- It is an object. -/
  object : value.IsObject
  /-- Under the name of an included relation it has what was loaded, if anything was, or else what the fields
  keep of the row. -/
  related : ∀ name, service.IncludesFirst entity name →
    value.member? name = (service.loaded? entity key rows name).or (service.kept? row name)
  /-- Under every other name it has what the fields keep of the row. -/
  own : ∀ name, ¬ service.IncludesFirst entity name → value.member? name = service.kept? row name

/-- The relations that are loaded are those that the request includes first. -/
theorem mem_names_loads_iff {name : String} :
    name ∈ (service.loads entity key).map Query.includedName ↔ service.IncludesFirst entity name :=
  ((service.rooted_loadingPlan entity key).named name).trans mem_firstNames_iff

/-- A row with its fields kept has what they keep. -/
theorem member?_keepFields (members : List (String × Json)) (name : String) :
    (Json.object (service.keepFields members)).member? name = service.kept? (.object members) name := by
  rw [keepFields_eq_keep, Json.member?_keep_atRoot, kept?]
  simp

/-- A row with its fields kept is an object. -/
theorem isObject_keepFields {members : List (String × Json)} (shape : (Json.object members).IsObject) :
    (Json.object (service.keepFields members)).IsObject := by
  rw [keepFields_eq_keep]
  exact shape.keep _

/-- A row with its fields kept that adopts the relations of the first loaded row is laid over with it. -/
theorem overlays_adopt {members : List (String × Json)} (shape : (Json.object members).IsObject)
    (rows : List Json) : service.Overlays entity key (.object members) rows
      ((rows.head?.map fun first =>
        adopt (service.loadingPlan entity key) first (.object (service.keepFields members))).getD
          (.object (service.keepFields members))) := by
  have own : (Json.object (service.keepFields members)).IsObject := isObject_keepFields shape
  cases rows with
  | nil =>
    exact ⟨own, fun name _ => member?_keepFields members name, fun name _ => member?_keepFields members name⟩
  | cons first rest =>
    obtain ⟨object, here⟩ := member?_adopt (service.loadingPlan entity key) first own
    have names : (service.loadingPlan entity key).query.includes.map Query.includedName =
        (service.loads entity key).map Query.includedName := by
      rw [query_loadingPlan_ofKey]
      rfl
    refine ⟨object, fun name included => (here name).trans ?_, fun name other => (here name).trans ?_⟩
    · have strip : ((service.loadingPlan entity key).surplus.under name).strip = fun value =>
          (((service.loadingPlan entity key).surplus.relation? name).map fun nested =>
            nested.strip value).getD value :=
        funext fun value => ((service.loadingPlan entity key).surplus.strip_under name value).symm
      rw [names, if_pos (mem_names_loads_iff.2 included), member?_keepFields, strip]
      rfl
    · rw [names, if_neg (mt mem_names_loads_iff.1 other), member?_keepFields]

/-- What projecting a row that is at hand comes to, for every row of a known entity and every source. Without
a key, with a null for it, or without relations to include, it is what the fields keep of the row, and the
source is not asked. Otherwise the source is asked once, for the row of the key with the included relations,
and whatever it has, the result is the row laid over with the first of its rows. -/
theorem project_overlays {name : String} (known : service.catalog.entity? name = some entity) {row : Json}
    (shape : row.IsObject) :
    (row.member? entity.primaryKey = none ∨ row.member? entity.primaryKey = some .null ∨
        service.request.relations = [] →
      ∃ value : Json, value.IsObject ∧ (∀ other, value.member? other = service.kept? row other) ∧
        ∀ {σ : Type} (source : RowSource σ), service.project source name row = pure value) ∧
    (∀ key, row.member? entity.primaryKey = some key → key ≠ .null → service.request.relations ≠ [] →
      ∃ value : List Json → Json, (∀ rows, service.Overlays entity key row rows (value rows)) ∧
        ∀ {σ : Type} (source : RowSource σ), service.project source name row =
          Outcome.ofSession (source.rows (.node (.ofKey entity key) (service.loads entity key))) >>= fun rows =>
            pure (value rows)) := by
  obtain ⟨members, -, rfl⟩ := id shape
  have loading : ∀ key, (Json.object members).member? entity.primaryKey = some key →
      service.loadingKey? entity members =
        if key.isNull || service.request.relations.isEmpty then none else some key := fun key found => by
    rw [loadingKey?, show members.lookup entity.primaryKey = some key from found]
  constructor
  · intro unloaded
    have none : service.loadingKey? entity members = none := by
      cases found : (Json.object members).member? entity.primaryKey with
      | none => rw [loadingKey?, show members.lookup entity.primaryKey = none from found]
      | some key =>
        rw [loading key found]
        refine if_pos ?_
        rcases unloaded with absent | null | unasked
        · exact absurd (found.symm.trans absent) (Option.some_ne_none key)
        · rw [Option.some.inj (found.symm.trans null)]
          rfl
        · rw [unasked, List.isEmpty_nil, Bool.or_true]
    exact ⟨_, isObject_keepFields shape, member?_keepFields members,
      fun source => project_of_loadingKey_none known none⟩
  · intro key found present asked
    have keyed : key.isNull = false := by
      cases key with
      | null => exact absurd rfl present
      | bool | number | string | array | object => rfl
    have loads := loading key found
    rw [keyed, Bool.false_or, if_neg (by simpa using asked)] at loads
    refine ⟨_, overlays_adopt shape, fun source => ?_⟩
    rw [project_of_loadingKey known loads, query_loadingPlan_ofKey]

/-- A user as it was before, with a member named as its messages, and with its key or without it. -/
def staleUser (keyed : Bool) : Json :=
  .ofMembers ((if keyed then [("id", .natural 1)] else []) ++
    [("messages", .string "two"), ("name", .string "Eve"), ("token", .string "old")])

/-- The stale user is laid over with the messages of the user that is loaded, and keeps its own name; without
its key it keeps the name alone. -/
theorem staleUser_overlaid :
    let source : RowSource Unit := .answering (oneRow user) fun _ => pure 1
    let laid : Json := .object [
      ("messages", .array [.object [("subject", .string "hi")], .object [("subject", .string "bye")]]),
      ("name", .string "Eve")]
    namesAndSubjects.catalog.entity? "users" = some authors ∧
    namesAndSubjects.IncludesFirst authors "messages" ∧
    namesAndSubjects.Overlays authors (.natural 1) (staleUser true) [user] laid ∧
    namesAndSubjects.project source "users" (staleUser true) = pure laid ∧
    ∃ value, namesAndSubjects.project source "users" (staleUser false) = pure value ∧
      value.member? "name" = some (.string "Eve") ∧ value.member? "messages" = none := by
  intro source laid
  have known : namesAndSubjects.catalog.entity? "users" = some authors := by decide
  have included : namesAndSubjects.IncludesFirst authors "messages" :=
    ⟨"messages", .head [], by decide, Catalog.resolves_iff_leads.1 (by decide), by decide⟩
  obtain ⟨-, loaded⟩ := project_overlays known (Json.isObject_ofMembers _ : (staleUser true).IsObject)
  obtain ⟨value, overlays, projected⟩ := loaded (.natural 1) rfl (fun same => nomatch same) (by decide)
  have here : namesAndSubjects.project source "users" (staleUser true) = pure laid := rfl
  have same : value [user] = laid := Except.ok.inj
    (congrArg (fun run => (run.run.run ()).1) ((projected source).symm.trans here))
  obtain ⟨unloaded, -⟩ := project_overlays known (Json.isObject_ofMembers _ : (staleUser false).IsObject)
  obtain ⟨own, -, members, alone⟩ := unloaded (.inl rfl)
  exact ⟨known, included, same ▸ overlays [user], here, own, alone source, members "name", members "messages"⟩

end ResourceQuery.Service
