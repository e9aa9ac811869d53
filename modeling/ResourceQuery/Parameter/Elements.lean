import ResourceQuery.Path
import ResourceQuery.SortedMap
import ResourceQuery.Text.Integer

/-!
# Element lists

The values of the parameters for fields, sorting, included relations, limits and offsets are
elements between commas. Nothing is refused: an element that is blank, or exactly `0`, carries no
value and is passed over, and every other element counts. Names and integers are qualified by the
path they apply to.
-/
namespace ResourceQuery

/-- Values by relation path. -/
abbrev PathMap (α : Type) := SortedMap Path α

namespace Parameter

/-- The character between elements. -/
def separator : Char := ','

/-- An element that carries no value: blank, or exactly zero. -/
def isVoid (element : List Char) : Bool := (Text.trim element).isEmpty || element == ['0']

/-- The elements of a value that carry one. -/
def elements (value : List Char) : List (List Char) :=
  (Text.pieces (· == separator) value).filter fun element => !isVoid element

/-- Names by path, each path's names in the order of the value. -/
def names (value : List Char) : PathMap (List String) :=
  (elements value).foldl (fun map element =>
    map.alter (Path.splitName element).1 fun present =>
      present.getD [] ++ [(Path.splitName element).2]) .empty

/-- Relations, each element a whole path. -/
def relations (value : List Char) : List String := (elements value).map String.ofList

/-- Integers by path, the last one of a path counting. -/
def integers (value : List Char) : PathMap Int :=
  (elements value).foldl (fun map element =>
    map.insert (Path.splitName element).1
      (Text.integerPrefix (Path.splitName element).2.toList)) .empty

end Parameter

end ResourceQuery
