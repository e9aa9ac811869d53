import ResourceQuery.Settings

/-!
# Effective parameters

What a request asks for where it speaks, else what the server supplies, else what the settings
say. The limit of a path is held between one and the greatest limit (`limit_mem`), and an offset
is never negative.
-/
namespace ResourceQuery

/-- The parameters of one request with what fills them in. -/
structure Request where
  /-- What the request asks for. -/
  asked : ParameterSet
  /-- What the server supplies where the request is silent. -/
  supplied : ParameterSet
  /-- The settings of the server. -/
  settings : Settings

namespace Request

/-- The request of query pairs with the server's own parameters. -/
def ofPairs (settings : Settings) (supplied : ParameterSet) (pairs : List (String × String)) :
    Request := ⟨.ofPairs settings.names pairs, supplied, settings⟩

/-- The fields that rows at a path keep, none meaning all. -/
def fields (request : Request) (path : Path) : List String :=
  ((request.asked.fields.find? path).or (request.supplied.fields.find? path)).getD []

/-- The filters that rows at a path pass. -/
def filters (request : Request) (path : Path) : Filters :=
  ((request.asked.filters.find? path).or (request.supplied.filters.find? path)).getD .empty

/-- The orders of the rows at a path. -/
def sort (request : Request) (path : Path) : List String :=
  ((request.asked.sort.find? path).or (request.supplied.sort.find? path)).getD []

/-- The relations that rows come with. -/
def relations (request : Request) : List String :=
  if request.asked.relations.isEmpty then request.supplied.relations else request.asked.relations

/-- The greatest limit, at least one whatever the settings say. -/
def greatestLimit (request : Request) : Int := max request.settings.limits.greatest 1

/-- The greatest number of rows at a path. -/
def limit (request : Request) (path : Path) : Nat :=
  let value := ((request.asked.limits.find? path).or (request.supplied.limits.find? path)).getD
    request.settings.limits.usual
  (max 1 (min value request.greatestLimit)).toNat

/-- The number of rows passed over at a path. -/
def offset (request : Request) (path : Path) : Nat :=
  (((request.asked.offsets.find? path).or (request.supplied.offsets.find? path)).getD 0).toNat

/-- A limit lies between one and the greatest limit. -/
theorem limit_mem (request : Request) (path : Path) :
    1 ≤ request.limit path ∧ (request.limit path : Int) ≤ request.greatestLimit := by
  simp only [limit, greatestLimit]
  omega

end Request

end ResourceQuery
