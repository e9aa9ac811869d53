import ResourceQuery.Plan.Answer
import ResourceQuery.Request

/-!
# Service

One request carried out: its parameters are applied to the query of an entity and to the queries
of the relations it may include, each with the parameters of its own path. A collection is a page
of rows; an item is one row, for which the root's filters, order and window do not count; a loaded
row is projected as if it had been fetched.
-/
namespace ResourceQuery

/-- A page of rows. -/
structure Page where
  /-- The number of rows on the page. -/
  count : Nat
  /-- The greatest number of rows on a page. -/
  limit : Nat
  /-- The number of rows before the page. -/
  offset : Nat
  /-- The number of rows on all pages. -/
  total : Nat
  /-- The rows. -/
  data : List Json

/-- The page as a JSON value. -/
def Page.json (page : Page) : Json :=
  .ofMembers [("count", .natural page.count), ("limit", .natural page.limit),
    ("offset", .natural page.offset), ("total", .natural page.total), ("data", .array page.data)]

/-- A request with what the server allows. -/
structure Service where
  /-- The entities and relations. -/
  catalog : Catalog
  /-- The operations allowed. -/
  registry : Registry
  /-- The parameters. -/
  request : Request

namespace Service

/-- A plan with the parameters of a path. -/
def configure (service : Service) (path : Path) (plan : Plan) : Plan :=
  ((((plan.sort service.registry (service.request.sort path)).filter service.registry
    (service.request.filters path)).restrict (service.request.fields path)).skip
    (service.request.offset path)).take (service.request.limit path)

/-- A plan with one relation, configured with the parameters of its path. -/
def withRelation (service : Service) (plan : Plan) (relation : String) : Plan :=
  (plan.withRelation service.registry service.catalog relation fun nested =>
    ((), service.configure (Path.ofText relation) nested)).2

/-- A plan with every relation that the request asks for. -/
def withRelations (service : Service) (plan : Plan) : Plan :=
  service.request.relations.foldl service.withRelation plan

/-- The plan of one item. -/
def itemPlan (service : Service) (query : Query) : Plan :=
  service.withRelations ((Plan.ofQuery query).restrict (service.request.fields .root))

/-- The plan of a page. -/
def pagePlan (service : Service) (query : Query) : Plan :=
  service.withRelations (service.configure .root (.ofQuery query))

variable {σ : Type}

/-- The first row of a query. -/
def item (service : Service) (source : RowSource σ) (query : Query) : Outcome σ Json :=
  (service.itemPlan query).item source

/-- A page of the rows of a query. -/
def page (service : Service) (source : RowSource σ) (query : Query) : Outcome σ Page := do
  let (data, total) ← (service.pagePlan query).page source
  return ⟨data.length, service.request.limit .root, service.request.offset .root, total, data⟩

/-- The members of a row that the fields of the root keep. -/
def keepFields (service : Service) (members : List (String × Json)) : List (String × Json) :=
  let fields := service.request.fields .root
  members.filter fun (name, _) => fields.isEmpty || fields.contains name

/-- The key by which the relations of a row are loaded: none without relations to load, and none
where the row has no key. -/
def loadingKey? (service : Service) (entity : Entity) (members : List (String × Json)) :
    Option Json :=
  match members.lookup entity.primaryKey with
  | some key => if key.isNull || service.request.relations.isEmpty then none else some key
  | none => none

/-- The plan that loads the relations of the row with a key. -/
def loadingPlan (service : Service) (entity : Entity) (key : Json) : Plan :=
  (service.withRelations (.ofQuery ((Query.ofEntity entity).mapSelection fun selection =>
    selection.filterBy [⟨entity.primaryKey, .equal, key⟩]))).finish

/-- A row with the relations of another, without their surplus. -/
def adopt (plan : Plan) (loaded item : Json) : Json :=
  plan.query.includes.foldl (fun item (relation, _) =>
    match loaded.member? relation.name with
    | none => item
    | some value =>
      item.setMember relation.name
        (((plan.surplus.relation? relation.name).map fun nested => nested.strip value).getD value))
    item

/-- A row that is at hand, with the fields that the request keeps and the relations it asks
for. -/
def project (service : Service) (source : RowSource σ) (name : String) (row : Json) :
    Outcome σ Json := do
  match service.catalog.entity? name with
  | none => throw (.notFound name none)
  | some entity =>
    match row with
    | .object members =>
      let item := Json.object (service.keepFields members)
      match service.loadingKey? entity members with
      | none => return item
      | some key =>
        let plan := service.loadingPlan entity key
        let loaded ← Outcome.ofSession (source.rows plan.query)
        return ((loaded.head?.map fun first => adopt plan first item).getD item)
    | other => return other

end Service

end ResourceQuery
