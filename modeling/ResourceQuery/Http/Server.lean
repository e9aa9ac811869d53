import ResourceQuery.Http.Response
import ResourceQuery.Http.Target

/-!
# Server

Read-only access to every entity of a catalog: a path of one segment is a collection, a path of
two an item. A path or method that is not served runs no statement. An item that is not found is
reported with the identifier that was asked for.
-/
namespace ResourceQuery.Http

/-- What is served. -/
structure Server (σ : Type) where
  /-- The entities and relations. -/
  catalog : Catalog
  /-- The operations allowed. -/
  registry : Registry
  /-- The settings. -/
  settings : Settings
  /-- The parameters supplied for an entity where a request is silent, the latest first. -/
  supplied : List (String × ParameterSet)
  /-- What answers queries. -/
  source : RowSource σ

namespace Server

variable {σ : Type}

/-- The service of a request to a resource. -/
def service (server : Server σ) (resource : String) (pairs : List (String × String)) : Service :=
  ⟨server.catalog, server.registry,
    .ofPairs server.settings ((server.supplied.lookup resource).getD .empty) pairs⟩

/-- The entity of a resource. -/
def entity (server : Server σ) (resource : String) : Except Fault Entity :=
  match server.catalog.entity? resource with
  | some entity => .ok entity
  | none => .error (.notFound resource none)

/-- The value that an identifier is compared as: an integer where it is one, else the text. -/
def keyOf (id : String) : Json :=
  match Text.integerLiteral? id.toList with
  | some value => .integer value
  | none => .string id

/-- The fault with the identifier that was not found. -/
def withId (id : String) : Fault → Fault
  | .notFound resource _ => .notFound resource (some id)
  | other => other

/-- A page of a resource. -/
def collection (server : Server σ) (resource : String) (pairs : List (String × String)) :
    Outcome σ Response := do
  let entity ← MonadExcept.ofExcept (server.entity resource)
  let page ← (server.service resource pairs).page server.source (.ofEntity entity)
  return .collection resource page

/-- One row of a resource. -/
def item (server : Server σ) (resource id : String) (pairs : List (String × String)) :
    Outcome σ Response := do
  let entity ← MonadExcept.ofExcept (server.entity resource)
  let query := (Query.ofEntity entity).mapSelection fun selection =>
    selection.filterBy [⟨entity.primaryKey, .equal, keyOf id⟩]
  let row ← ExceptT.adapt (withId id) ((server.service resource pairs).item server.source query)
  return .item row

/-- The response of an outcome. -/
def respond (outcome : Outcome σ Response) : StateM σ Response := do
  match ← outcome.run with
  | .ok response => return response
  | .error fault => return .ofFault fault

/-- The response of a route. -/
def follow (server : Server σ) (route : Route) (pairs : List (String × String)) :
    StateM σ Response :=
  match route with
  | .collection resource =>
    match Text.utf8? (percentDecode resource) with
    | none => pure (.undecodable "resource")
    | some resource => respond (server.collection resource pairs)
  | .item resource id =>
    match Text.utf8? (percentDecode resource), Text.utf8? (percentDecode id) with
    | none, _ => pure (.undecodable "resource")
    | some _, none => pure (.undecodable "id")
    | some resource, some id => respond (server.item resource id pairs)

/-- The response to a request. -/
def answer (server : Server σ) (method target : String) : StateM σ Response :=
  let target := Target.ofText target
  match Route.ofPath? target.path with
  | none => pure .noRoute
  | some route =>
    if method = "GET" then server.follow route target.pairs
    else if method = "HEAD" then do
      let response ← server.follow route target.pairs
      return response.withoutBody
    else pure .methodNotAllowed

end Server

end ResourceQuery.Http
