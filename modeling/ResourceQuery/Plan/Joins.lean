import ResourceQuery.Query.Basic
import ResourceQuery.Path

/-!
# Join columns

Rows of a restricted query can be joined with their included relations only when the parent column
of every relation is among the columns. `Query.withJoinColumns` adds those that are missing, at
every node, and `Query.joinColumns` lists what it adds with the path of the node.
-/
namespace ResourceQuery

/-- The parent columns of relations that a selection does not have, each once. -/
def Selection.missingColumns (selection : Selection) (includes : List (Relation × Query)) :
    List String :=
  ((includes.map fun included => included.1.parentColumn).filter fun column =>
    !selection.selects column).eraseDups

namespace Query

mutual

/-- The query with the join columns of every node. -/
def withJoinColumns : Query → Query
  | node selection includes =>
    node ((selection.missingColumns includes).foldl Selection.addColumn selection)
      (withAllJoinColumns includes)

/-- Included relations with the join columns of every node. -/
def withAllJoinColumns : List (Relation × Query) → List (Relation × Query)
  | [] => []
  | (relation, query) :: rest => (relation, query.withJoinColumns) :: withAllJoinColumns rest

end

mutual

/-- The join columns that are missing, with the path of the node where they are. -/
def joinColumns (path : Path) : Query → List (Path × String)
  | node selection includes =>
    (selection.missingColumns includes).map (fun column => (path, column)) ++
      allJoinColumns path includes

/-- The join columns that are missing in included relations. -/
def allJoinColumns (path : Path) : List (Relation × Query) → List (Path × String)
  | [] => []
  | (relation, query) :: rest =>
    query.joinColumns (path.child relation.name) ++ allJoinColumns path rest

end

end Query

end ResourceQuery
