import ResourceQuery.Parameter.Expression

/-!
# Parameter sets

What one list of name and value pairs asks for. A name plays at most one role: where two roles
were given one name, the earlier role in the order of `Role` takes all its values. A later value
of a role replaces the earlier as a whole, and pairs without a role are passed over.
-/
namespace ResourceQuery

/-- What a query parameter is about. -/
inductive Role where
  /-- The fields that rows keep. -/
  | fields
  /-- The filters that rows pass. -/
  | filter
  /-- The order of rows. -/
  | sort
  /-- The relations that rows come with. -/
  | relations
  /-- The greatest number of rows. -/
  | limit
  /-- The number of rows passed over. -/
  | offset
deriving DecidableEq

/-- The parameter name of every role. -/
structure ParameterNames where
  /-- The name of the fields parameter. -/
  fields : String
  /-- The name of the filter parameter. -/
  filter : String
  /-- The name of the sort parameter. -/
  sort : String
  /-- The name of the parameter that lists relations. -/
  relations : String
  /-- The name of the limit parameter. -/
  limit : String
  /-- The name of the offset parameter. -/
  offset : String
deriving DecidableEq

namespace ParameterNames

/-- The names used where none are configured. -/
def standard : ParameterNames := ⟨"fields", "filter", "sort", "with", "limit", "offset"⟩

/-- The role that a name plays, the earliest of several. -/
def role? (names : ParameterNames) (name : String) : Option Role :=
  if name = names.fields then some .fields
  else if name = names.filter then some .filter
  else if name = names.sort then some .sort
  else if name = names.relations then some .relations
  else if name = names.limit then some .limit
  else if name = names.offset then some .offset
  else none

end ParameterNames

/-- The values of every role by relation path. -/
structure ParameterSet where
  /-- The fields that rows keep. -/
  fields : PathMap (List String)
  /-- The filters that rows pass. -/
  filters : PathMap Filters
  /-- The names of the orders of rows. -/
  sort : PathMap (List String)
  /-- The relations that rows come with. -/
  relations : List String
  /-- The greatest numbers of rows. -/
  limits : PathMap Int
  /-- The numbers of rows passed over. -/
  offsets : PathMap Int

namespace ParameterSet

/-- The set that asks for nothing. -/
def empty : ParameterSet := ⟨.empty, .empty, .empty, [], .empty, .empty⟩

/-- The set with the value of one role read anew. -/
def assign (set : ParameterSet) (value : List Char) : Role → ParameterSet
  | .fields => { set with fields := Parameter.names value }
  | .filter => { set with filters := Parameter.filters value }
  | .sort => { set with sort := Parameter.names value }
  | .relations => { set with relations := Parameter.relations value }
  | .limit => { set with limits := Parameter.integers value }
  | .offset => { set with offsets := Parameter.integers value }

/-- What pairs ask for under the given names. -/
def ofPairs (names : ParameterNames) (pairs : List (String × String)) : ParameterSet :=
  pairs.foldl (fun set pair =>
    match names.role? pair.1 with
    | some role => set.assign pair.2.toList role
    | none => set) empty

end ParameterSet

end ResourceQuery
