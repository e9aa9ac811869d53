import ResourceQuery.Text.Split

/-!
# Relation paths

A path names a relation reached from the root by a chain of relations: `messages.recipient` is the
relation `recipient` of every row of `messages`. The root is the empty path and is written `_`.
A qualified name is a path and a name after its last point. A text that is not empty is the
written form of the path it is read as (`characters_ofCharacters`).
-/
namespace ResourceQuery

/-- A chain of relation names from the root. -/
structure Path where
  /-- The relation names, outermost first. -/
  segments : List String
deriving DecidableEq

namespace Path

/-- The path of the root entity. -/
def root : Path := ⟨[]⟩

/-- The character between the segments of a written path. -/
def separator : Char := '.'

/-- The written root. -/
def rootMark : List Char := ['_']

/-- The path is the root. -/
def isRoot (path : Path) : Bool := path.segments.isEmpty

/-- The path one relation further. -/
def child (path : Path) (name : String) : Path := ⟨path.segments ++ [name]⟩

/-- Paths are ordered segment by segment, a path before its extensions. -/
instance : Ord Path := ⟨fun left right => compare left.segments right.segments⟩

instance : Std.LawfulEqOrd Path where
  compare_self {path} := (Std.ReflOrd.compare_self : compare path.segments path.segments = .eq)
  eq_of_compare {left right} same := by
    cases left
    cases right
    exact congrArg Path.mk (Std.LawfulEqOrd.eq_of_compare same)

instance : Std.TransOrd Path where
  eq_swap {left right} := (Std.OrientedOrd.eq_swap :
    compare left.segments right.segments = (compare right.segments left.segments).swap)
  isLE_trans {left middle right} := (Std.TransOrd.isLE_trans :
    (compare left.segments middle.segments).isLE → (compare middle.segments right.segments).isLE →
      (compare left.segments right.segments).isLE)

/-- The path that characters write: nothing and the root mark are the root, everything else has
a segment between any two points. -/
def ofCharacters (characters : List Char) : Path :=
  if characters = [] ∨ characters = rootMark then root
  else ⟨(Text.pieces (· == separator) characters).map String.ofList⟩

/-- The path that a text writes. -/
def ofText (text : String) : Path := ofCharacters text.toList

/-- The written path. -/
def characters (path : Path) : List Char :=
  if path.isRoot then rootMark
  else [separator].intercalate (path.segments.map String.toList)

/-- The text of a path. -/
def text (path : Path) : String := String.ofList path.characters

/-- Writing the path that a text was read as gives the text again, the empty text apart. -/
theorem characters_ofCharacters {text : List Char} (present : text ≠ []) :
    (ofCharacters text).characters = text := by
  by_cases mark : text = rootMark
  · simp [ofCharacters, mark, characters, isRoot, root]
  · have joined := Text.intercalate_pieces separator text
    simp only [ofCharacters, present, mark, or_self, if_false, characters, isRoot]
    rw [if_neg (by simpa using Text.pieces_ne_nil _ text)]
    simpa [List.map_map, Function.comp_def] using joined

/-- A qualified name as its path and the name after the last point; without a point the name
belongs to the root. -/
def splitName (qualified : List Char) : Path × String :=
  match Text.splitLast? separator qualified with
  | some (before, name) => (ofCharacters before, String.ofList name)
  | none => (root, String.ofList qualified)

end Path

end ResourceQuery
