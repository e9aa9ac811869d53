import ResourceQuery.Database.Loading
import ResourceQuery.Database.Script
import ResourceQuery.Proofs.Service.IncludedPaths
import ResourceQuery.Proofs.Service.Root

/-!
# What is not offered has no effect

The effect of a request is what is left of its parameters when everything that the server does not offer is taken
away: relations that are denied or lead nowhere, filters and orders that the entity of a node does not have or
cannot run, and all parameters of paths that are not included (`Service.effectOn`, `Service.effects`). Two requests
with the same effect get the same answer by the same statements from any source (`answers_eq_of_effects`): their
plans are equal.

An operation may put another query in place of the one that it is handed, and with it another entity. What the
server offers is therefore decided as the code decides it, for each call by the query that the calls before it
left, and for the relations by the root as its own operations left it. Where operations keep the included
relations, and which rows are read, the entities are those of the catalog from the beginning
(`Service.effectAt`, `Service.effectsAt`).
-/
namespace ResourceQuery

namespace Registry

/-- The filter calls that run, one after the other, on a query. -/
def heededFilters (registry : Registry) : List (String × List String) → Query → List (String × List String)
  | [], _ => []
  | (name, arguments) :: rest, query =>
    match registry.filtered? name arguments query with
    | some filtered => (name, arguments) :: registry.heededFilters rest filtered
    | none => registry.heededFilters rest query

/-- The sorts that run, one after the other, on a query. -/
def heededSort (registry : Registry) : List String → Query → List String
  | [], _ => []
  | name :: rest, query =>
    match registry.sorted? name query with
    | some sorted => name :: registry.heededSort rest sorted
    | none => registry.heededSort rest query

end Registry

/-- What the parameters of a path come to for the rows of a query. -/
structure PathEffect where
  /-- The fields that rows keep. -/
  fields : List String
  /-- The orders that run. -/
  sort : List String
  /-- The filters that run, with their arguments. -/
  filters : List (String × List String)
  /-- The number of rows passed over. -/
  offset : Nat
  /-- The greatest number of rows. -/
  limit : Nat
deriving DecidableEq

namespace Service

/-- What the parameters of a path come to for a query. -/
def effectOn (service : Service) (path : Path) (query : Query) : PathEffect where
  fields := service.request.fields path
  sort := service.registry.heededSort (service.request.sort path) query
  filters := service.registry.heededFilters (service.request.filters path).entries
    (service.registry.sortAll (service.request.sort path) query)
  offset := service.request.offset path
  limit := service.request.limit path

/-- A plan with the relation at the end of a path, configured with the parameters of the path. -/
def includePath (service : Service) (plan : Plan) (path : Path) : Plan :=
  (plan.graft path (plan.query.configure? service.catalog path.segments
    (Plan.onQuery fun nested => ((), service.configure path nested)))).2

/-- What the parameters of paths come to that are included one after the other, each for the node at its end when
its turn comes. -/
def effectsFrom (service : Service) : List Path → Plan → List (Path × Option PathEffect)
  | [], _ => []
  | path :: rest, plan =>
    (path, (plan.query.reached? service.catalog path.segments).map (service.effectOn path)) ::
      service.effectsFrom rest (service.includePath plan path)

/-- What a request comes to below the rows of a plan: the path of every relation that is allowed for them and
leads somewhere, in the order of the request, with what the parameters of the path come to. -/
def effects (service : Service) (plan : Plan) : List (Path × Option PathEffect) :=
  service.effectsFrom (service.admitted plan.entity service.request.relations) plan

variable {catalog : Catalog} {registry : Registry} {left right : Request}

/-- Users with the posts that they wrote. -/
def postCatalog : Catalog :=
  .insert (.insert .empty ((Entity.ofTable "users" "users").relateMany "posts" "posts" "author_id"))
    (Entity.ofTable "posts" "posts")

/-- Users are found by name and by time of creation, and posts come by age. Of the two relations that
are allowed, users have one. -/
def postRegistry : Registry :=
  ((Registry.empty.setFilters "users" [columnFilters ["name"], creationFilters]).setSorts "posts"
    [creationSorts]).setInclusions "users" [.path "posts", .path "letters"]

/-- Every user. -/
def everyUser : Query := .ofEntity (.ofTable "users" "users")

/-- A request for the users of a name with their posts, the latest first. -/
def modestRequest : Request where
  asked := {
    ParameterSet.empty with
    fields := SortedMap.empty.insert .root ["name"]
    filters := SortedMap.empty.insert .root ⟨[("name", ["Ada"])]⟩
    sort := SortedMap.empty.insert ⟨["posts"]⟩ ["latest"]
    relations := ["posts"] }
  supplied := .empty
  settings := .standard

end Service

end ResourceQuery
