import ResourceQuery.Path
import ResourceQuery.Proofs.Text.Pieces

/-!
# Paths and their texts

A path is spelled by its text unless a segment has a point in it, or its only segment is empty or the root mark
(`Path.Spellable`). Reading and cutting a text give such paths only, and their texts are read back: as the path
alone, and with a name after one more point (`Path.texts_spell_paths`).
-/
namespace ResourceQuery.Path

/-! ### Paths that their texts spell -/

/-- A path whose text is no other's: no segment has a point, and it is none of the two paths of one segment that
are written as the root may be. -/
structure Spellable (path : Path) : Prop where
  /-- No segment has a point. -/
  noPoint : ∀ segment ∈ path.segments, separator ∉ segment.toList
  /-- It is not the empty segment alone. -/
  notEmpty : path ≠ ⟨[""]⟩
  /-- It is not the root mark alone. -/
  notMark : path ≠ ⟨["_"]⟩

/-- The root is spellable. -/
theorem spellable_root : root.Spellable := ⟨fun _ member => absurd member List.not_mem_nil, by decide, by decide⟩

/-- The written segments of a spellable path that is not the root are its pieces. -/
theorem Spellable.pieces_characters {path : Path} (spellable : path.Spellable) (below : path.segments ≠ []) :
    Text.pieces (· == separator) path.characters = path.segments.map String.toList := by
  have shape : path.characters = [separator].intercalate (path.segments.map String.toList) :=
    if_neg (by simpa [isRoot] using below)
  rw [shape]
  refine Text.pieces_intercalate (by simpa using below) fun text member => ?_
  obtain ⟨segment, listed, rfl⟩ := List.mem_map.1 member
  exact spellable.noPoint segment listed

/-- A spellable path is the one that its written form is read as. -/
theorem Spellable.ofCharacters_characters {path : Path} (spellable : path.Spellable) :
    ofCharacters path.characters = path := by
  obtain ⟨segments⟩ := path
  by_cases root : segments = []
  · subst root
    rfl
  · have pieces := spellable.pieces_characters root
    have texts : (segments.map String.toList).map String.ofList = segments := by simp
    -- A written form that reads as the root is that of one of the two excepted paths.
    have named : (⟨segments⟩ : Path).characters ≠ [] ∧ (⟨segments⟩ : Path).characters ≠ rootMark := by
      constructor <;> intro same <;> rw [same] at pieces
      · exact spellable.notEmpty (congrArg Path.mk (texts.symm.trans (congrArg _ pieces.symm)))
      · exact spellable.notMark (congrArg Path.mk (texts.symm.trans (congrArg _ pieces.symm)))
    rw [ofCharacters, if_neg (by simpa using named), pieces, texts]

/-- A path that was read is spellable. -/
theorem spellable_ofCharacters (text : List Char) : (ofCharacters text).Spellable := by
  unfold ofCharacters
  split
  · exact spellable_root
  · next named =>
    obtain ⟨notEmpty, notMark⟩ := not_or.1 named
    have single : ∀ segment : List Char, (Path.mk ((Text.pieces (· == separator) text).map String.ofList)) =
        ⟨[String.ofList segment]⟩ → text = segment := by
      intro segment same
      obtain ⟨piece, alone, whole⟩ := List.map_eq_singleton_iff.1 (Path.mk.inj same)
      rw [← Text.intercalate_pieces separator text, alone, String.ofList_injective whole]
      exact List.append_nil segment
    refine ⟨fun segment member point => ?_, fun same => notEmpty (single [] same),
      fun same => notMark (single ['_'] same)⟩
    obtain ⟨piece, listed, rfl⟩ := List.mem_map.1 member
    rw [String.toList_ofList] at point
    exact absurd (Text.of_mem_pieces listed separator point).2 (by decide)

/-- A text is read as the root if nothing or the root mark is written. -/
theorem ofCharacters_eq_root_iff {text : List Char} : ofCharacters text = root ↔ text = [] ∨ text = rootMark := by
  constructor
  · intro same
    refine Decidable.byContradiction fun named => ?_
    rw [ofCharacters, if_neg named] at same
    exact Text.pieces_ne_nil _ text (List.map_eq_nil_iff.1 (Path.mk.inj same))
  · exact fun unnamed => if_pos unnamed

/-! ### Qualified names -/

/-- A qualified name is cut at its last point. -/
theorem splitName_append (before : List Char) {name : List Char} (last : separator ∉ name) :
    splitName (before ++ separator :: name) = (ofCharacters before, String.ofList name) := by
  rw [splitName, Text.splitLast?_eq_some_iff.2 ⟨rfl, last⟩]

/-- The path of a qualified name is spellable. -/
theorem spellable_splitName (qualified : List Char) : (splitName qualified).1.Spellable := by
  unfold splitName
  split
  · exact spellable_ofCharacters _
  · exact spellable_root

/-- A name after a spellable path and a point is cut off again. -/
theorem Spellable.splitName_text {path : Path} (spellable : path.Spellable) {name : String}
    (last : separator ∉ name.toList) : splitName (path.text ++ "." ++ name).toList = (path, name) := by
  have written : (path.text ++ "." ++ name).toList = path.characters ++ separator :: name.toList := by
    rw [String.toList_append, String.toList_append, text, String.toList_ofList, List.append_assoc]
    rfl
  rw [written, splitName_append path.characters last, spellable.ofCharacters_characters, String.ofList_toList]

/-- A path is read from its text if it is spellable. -/
theorem Spellable.ofText_text {path : Path} (spellable : path.Spellable) : ofText path.text = path := by
  rw [ofText, text, String.toList_ofList, spellable.ofCharacters_characters]

/-- Path and text of a path agree. A spellable path is read from its text, and from its text with a point and a
name without points it is cut off together with the name. The spellable paths are those that are read from texts,
and those that are cut off from qualified names. A text that is not empty is the text of the path it is read as.
So texts tell apart all paths that are ever read, and only the empty text and the root mark are the root. -/
theorem texts_spell_paths :
    (∀ path : Path, path.Spellable → ofText path.text = path ∧
      ∀ name : String, separator ∉ name.toList → splitName (path.text ++ "." ++ name).toList = (path, name)) ∧
    (∀ path : Path, path.Spellable ↔ ∃ text : String, ofText text = path) ∧
    (∀ path : Path, path.Spellable ↔ ∃ qualified : String, (splitName qualified.toList).1 = path) ∧
    (∀ text : String, text ≠ "" → (ofText text).text = text) ∧
    (∀ left right : Path, left.Spellable → right.Spellable → left.text = right.text → left = right) ∧
    ∀ text : String, ofText text = root ↔ text = "" ∨ text = "_" := by
  refine ⟨fun path spellable => ⟨spellable.ofText_text, fun name last => spellable.splitName_text last⟩,
    fun path => ⟨fun spellable => ⟨path.text, spellable.ofText_text⟩, ?_⟩,
    fun path => ⟨fun spellable => ⟨path.text ++ "." ++ "", ?_⟩, ?_⟩, fun text present => ?_,
    fun left right spelled other same => ?_, fun text => ?_⟩
  · rintro ⟨text, rfl⟩
    exact spellable_ofCharacters text.toList
  · exact congrArg Prod.fst (spellable.splitName_text List.not_mem_nil)
  · rintro ⟨qualified, rfl⟩
    exact spellable_splitName qualified.toList
  · have written : text.toList ≠ [] := fun nothing => present (String.toList_eq_nil_iff.1 nothing)
    rw [Path.text, ofText, characters_ofCharacters written, String.ofList_toList]
  · calc left = ofText left.text := spelled.ofText_text.symm
      _ = ofText right.text := by rw [same]
      _ = right := other.ofText_text
  · have mark : text.toList = rootMark ↔ text = "_" := by
      rw [← String.toList_inj]
      rfl
    rw [ofText, ofCharacters_eq_root_iff, String.toList_eq_nil_iff, mark]

/-- A path with empty segments around one that looks like the root, and the path without the first of them. -/
theorem empty_segments_spelled :
    let path : Path := ⟨["", "_", ""]⟩
    let shorter : Path := ⟨["_", ""]⟩
    path.Spellable ∧ shorter.Spellable ∧ path.text = "._." ∧ ofText "._." = path ∧
    separator ∉ "id".toList ∧ splitName "._..id".toList = (path, "id") ∧
    "._." ≠ "" ∧ (ofText "._.").text = "._." ∧ path.text ≠ shorter.text := by
  intro path shorter
  have spellable : path.Spellable := ⟨by decide, by decide, by decide⟩
  have spellableToo : shorter.Spellable := ⟨by decide, by decide, by decide⟩
  have last : separator ∉ "id".toList := by decide
  have present : "._." ≠ "" := by decide
  have apart : path ≠ shorter := by decide
  obtain ⟨reads, -, -, writes, tells, -⟩ := texts_spell_paths
  obtain ⟨whole, qualified⟩ := reads path spellable
  exact ⟨spellable, spellableToo, rfl, whole, last, qualified "id" last, present, writes "._." present,
    fun same => apart (tells path shorter spellable spellableToo same)⟩

end ResourceQuery.Path
