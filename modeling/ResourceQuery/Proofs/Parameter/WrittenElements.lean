import Mathlib.Data.List.TakeWhile
import ResourceQuery.Proofs.Parameter.AskedValues
import ResourceQuery.Proofs.Parameter.CanonicalFilters

/-!
# Written elements are read back

Fields, orders, limits and offsets are written as elements between commas, each a path, a point and what
stands for the path; relations are written as they are. What is read from elements is a list of paths with
values (`find?_names`, `find?_integers`): a path has all its names in their order, and the last of its
integers. So written lists are read back, and a value that nobody wrote carefully has a written form that
is read as the value is (`elements_read_back`).
-/
namespace ResourceQuery

namespace Text

/-- Trimming leaves nothing exactly of a text of blanks. -/
theorem trim_eq_nil_iff {text : List Char} : trim text = [] ↔ ∀ character ∈ text, isBlank character = true := by
  rw [trim, trimEnd, List.reverse_eq_nil_iff, List.dropWhile_eq_nil_iff]
  simp only [List.mem_reverse]
  constructor
  · intro trimmed character member
    rw [← takeWhile_append_trimStart text] at member
    rcases List.mem_append.1 member with leading | member
    · exact List.all_eq_true.1 List.all_takeWhile character leading
    · exact trimmed character member
  · exact fun blank character member => blank character ((List.dropWhile_sublist _).mem member)

end Text

namespace Path

/-- A path that is read back from its written form: its segments have neither commas nor points, and it is
none of the two paths of one segment that are written as the root may be. -/
structure Legible (path : Path) : Prop where
  /-- No segment has a comma or a point. -/
  regular : ∀ segment ∈ path.segments, ',' ∉ segment.toList ∧ '.' ∉ segment.toList
  /-- It is not the empty segment alone. -/
  notEmpty : path ≠ ⟨[""]⟩
  /-- It is not the root mark alone. -/
  notMark : path ≠ ⟨["_"]⟩

/-- A legible path is spelled by its text. -/
theorem Legible.spellable {path : Path} (legible : path.Legible) : path.Spellable where
  noPoint segment member := (legible.regular segment member).2
  notEmpty := legible.notEmpty
  notMark := legible.notMark

/-- The root is legible. -/
theorem legible_root : root.Legible := ⟨fun _ member => absurd member List.not_mem_nil, by decide, by decide⟩

/-- A path that was read from a text without commas is legible. -/
theorem legible_ofCharacters {text : List Char} (noComma : ',' ∉ text) : (ofCharacters text).Legible := by
  have spellable := spellable_ofCharacters text
  refine ⟨fun segment member => ⟨fun comma => ?_, spellable.noPoint segment member⟩, spellable.notEmpty,
    spellable.notMark⟩
  unfold ofCharacters at member
  split at member
  · exact absurd member List.not_mem_nil
  · obtain ⟨piece, listed, rfl⟩ := List.mem_map.1 member
    rw [String.toList_ofList] at comma
    exact noComma (Text.of_mem_pieces listed ',' comma).1

end Path

namespace Parameter

/-! ### Written elements -/

/-- A name as an element of its path. -/
def qualified (path : Path) (name : List Char) : List Char := path.characters ++ Path.separator :: name

/-- Paths with what stands for them, written as elements between commas. -/
def written {α : Type} (form : α → List Char) (entries : List (Path × α)) : List Char :=
  joined (entries.map fun entry => qualified entry.1 (form entry.2))

/-- An element counts when it has a character that is no blank and is not a bare zero. -/
theorem isVoid_eq_false_iff {element : List Char} : isVoid element = false ↔
    (∃ character ∈ element, Text.isBlank character = false) ∧ element ≠ ['0'] := by
  rw [isVoid, Bool.or_eq_false_iff, List.isEmpty_eq_false_iff, ne_eq, Text.trim_eq_nil_iff, beq_eq_false_iff_ne]
  simp

/-- An element that names a path and what stands for it counts. -/
theorem isVoid_qualified (path : Path) (name : List Char) : isVoid (qualified path name) = false := by
  have point : '.' ∈ qualified path name := List.mem_append_right _ (.head name)
  refine isVoid_eq_false_iff.2 ⟨⟨'.', point, by decide⟩, fun zero => ?_⟩
  rw [zero] at point
  exact absurd point (by decide)

/-- The written form of a legible path has no comma. -/
theorem comma_not_mem_characters {path : Path} (legible : path.Legible) : ',' ∉ path.characters := by
  intro comma
  by_cases root : path.segments = []
  · rw [Path.characters, if_pos (by simpa [Path.isRoot] using root)] at comma
    exact absurd comma (by decide)
  · rw [← Text.intercalate_pieces Path.separator path.characters, legible.spellable.pieces_characters root] at comma
    rcases Text.of_mem_intercalate comma with point | ⟨text, listed, inside⟩
    · exact absurd point (by decide)
    · obtain ⟨segment, member, rfl⟩ := List.mem_map.1 listed
      exact (legible.regular segment member).1 inside

/-- A legible path and a name without points are read from their element. -/
theorem splitName_qualified {path : Path} (legible : path.Legible) {name : List Char} (noPoint : '.' ∉ name) :
    Path.splitName (qualified path name) = (path, String.ofList name) := by
  rw [qualified, Path.splitName_append _ noPoint, legible.spellable.ofCharacters_characters]

/-- Elements without commas that count are the elements of what they are joined to. -/
theorem elements_joined {texts : List (List Char)}
    (regular : ∀ text ∈ texts, ',' ∉ text ∧ isVoid text = false) : elements (joined texts) = texts := by
  by_cases none : texts = []
  · subst none
    rfl
  · rw [elements, joined]
    have own : Text.pieces (· == separator) ([','].intercalate texts) = texts :=
      Text.pieces_intercalate none fun text member => (regular text member).1
    rw [own]
    exact List.filter_eq_self.2 fun text member => by simp [(regular text member).2]

/-- Written entries are read one by one. -/
theorem elements_written {α : Type} {form : α → List Char} {entries : List (Path × α)}
    (regular : ∀ entry ∈ entries, entry.1.Legible ∧ ',' ∉ form entry.2) :
    elements (written form entries) = entries.map fun entry => qualified entry.1 (form entry.2) := by
  refine elements_joined fun text member => ?_
  obtain ⟨entry, listed, rfl⟩ := List.mem_map.1 member
  obtain ⟨legible, noComma⟩ := regular entry listed
  refine ⟨fun comma => ?_, isVoid_qualified entry.1 (form entry.2)⟩
  rcases List.mem_append.1 comma with inPath | inName
  · exact comma_not_mem_characters legible inPath
  · rcases List.mem_cons.1 inName with point | inName
    · exact absurd point (by decide)
    · exact noComma inName

/-- The path and the name of an element are legible, and the name has neither a comma nor a point. -/
theorem regular_splitName {value element : List Char} (member : element ∈ elements value) :
    (Path.splitName element).1.Legible ∧
      ',' ∉ (Path.splitName element).2.toList ∧ '.' ∉ (Path.splitName element).2.toList := by
  have noComma : ',' ∉ element := fun comma =>
    absurd (Text.of_mem_pieces (List.mem_filter.1 member).1 ',' comma).2 (by decide)
  unfold Path.splitName
  cases cut : Text.splitLast? Path.separator element with
  | none =>
    rw [String.toList_ofList]
    exact ⟨Path.legible_root, noComma, Text.splitLast?_eq_none_iff.1 cut⟩
  | some parts =>
    obtain ⟨before, name⟩ := parts
    obtain ⟨rfl, noPoint⟩ := Text.splitLast?_eq_some_iff.1 cut
    rw [String.toList_ofList]
    exact ⟨Path.legible_ofCharacters fun comma => noComma (List.mem_append_left _ comma),
      fun comma => noComma (List.mem_append_right _ (.tail _ comma)), noPoint⟩

/-! ### Names -/

/-- What stands for a path in a list of entries, in their order. -/
def ofPath {α : Type} (path : Path) (entries : List (Path × α)) : List α :=
  (entries.filter (·.1 = path)).map Prod.snd

/-- What stands for a path was listed with it. -/
theorem mem_ofPath {α : Type} {path : Path} {entries : List (Path × α)} {value : α} :
    value ∈ ofPath path entries ↔ (path, value) ∈ entries := by
  simp [ofPath]

/-- The names of a path, if it has any. -/
def named (names : List String) : Option (List String) := if names = [] then none else some names

/-- The names of a path are those of its elements, in their order; a path without elements is not there. -/
theorem find?_names (value : List Char) (path : Path) : (names value).find? path =
    named (ofPath path ((elements value).map Path.splitName)) := by
  have collected : ∀ (entries : List (Path × String)) (held : List String),
      entries.foldl (fun present entry => some (present.getD [] ++ [entry.2])) (some held) =
        some (held ++ entries.map Prod.snd) := by
    intro entries
    induction entries with
    | nil => exact fun held => by simp
    | cons entry rest ih => exact fun held => (ih (held ++ [entry.2])).trans (by simp)
  have altered := SortedMap.find?_foldl_alter Prod.fst
    (fun entry (present : Option (List String)) => present.getD [] ++ [entry.2])
    ((elements value).map Path.splitName) .empty path
  rw [List.foldl_map, SortedMap.find?_empty] at altered
  refine altered.trans ?_
  rw [ofPath, named]
  cases ((elements value).map Path.splitName).filter (·.1 = path) with
  | nil => rfl
  | cons entry rest => exact (collected rest [entry.2]).trans (if_neg (List.cons_ne_nil _ _)).symm

/-- Names written with their paths are read with them. -/
theorem splitNames_written {entries : List (Path × String)}
    (regular : ∀ entry ∈ entries, entry.1.Legible ∧ ',' ∉ entry.2.toList ∧ '.' ∉ entry.2.toList) :
    (elements (written String.toList entries)).map Path.splitName = entries := by
  rw [elements_written fun entry member => ⟨(regular entry member).1, (regular entry member).2.1⟩,
    List.map_map]
  refine (List.map_congr_left fun entry member => ?_).trans (List.map_id entries)
  obtain ⟨legible, -, noPoint⟩ := regular entry member
  rw [Function.comp, splitName_qualified legible noPoint, String.ofList_toList]
  rfl

/-- The entries of the names of several paths. -/
def nameEntries (lists : List (Path × List String)) : List (Path × String) :=
  lists.flatMap fun (path, names) => names.map fun name => (path, name)

/-- Where no path comes twice, the names of a path are those of its list. -/
theorem ofPath_nameEntries {lists : List (Path × List String)} (distinct : (lists.map Prod.fst).Nodup)
    (path : Path) : ofPath path (nameEntries lists) = (lists.lookup path).getD [] := by
  have tagged : ∀ entry : Path × List String, ∀ item ∈ entry.2.map fun name => (entry.1, name),
      item.1 = entry.1 := by
    intro entry item member
    obtain ⟨name, -, rfl⟩ := List.mem_map.1 member
    rfl
  have own : (nameEntries lists).filter (·.1 = path) = _ := Assoc.filter_flatMap tagged distinct path
  rw [ofPath, own]
  cases lists.lookup path with
  | none => rfl
  | some names => exact List.map_map.trans (List.map_id names)

/-! ### Integers -/

/-- An element as its path and the integer at its front. -/
def readInteger (element : List Char) : Path × Int :=
  ((Path.splitName element).1, Text.integerPrefix (Path.splitName element).2.toList)

/-- The integer of a path is that of its last element; a path without elements has none. -/
theorem find?_integers (value : List Char) (path : Path) : (integers value).find? path =
    (ofPath path ((elements value).map readInteger)).getLast? := by
  have last : ∀ (entries : List (Path × Int)) (held : Option Int),
      entries.foldl (fun _ entry => some entry.2) held = (entries.map Prod.snd).getLast?.or held := by
    intro entries
    induction entries with
    | nil => exact fun held => rfl
    | cons entry rest ih =>
      intro held
      rw [List.foldl_cons, ih, List.map_cons, List.getLast?_cons]
      cases (rest.map Prod.snd).getLast? <;> rfl
  have altered := SortedMap.find?_foldl_alter Prod.fst (fun entry (_ : Option Int) => entry.2)
    ((elements value).map readInteger) .empty path
  rw [List.foldl_map, SortedMap.find?_empty, last, Option.or_none] at altered
  exact altered

/-- An integer that is read from the front of a text is one of 64 bits. -/
theorem isInt64_integerPrefix (text : List Char) : Text.IsInt64 (Text.integerPrefix text) := by
  have kept : ∀ (digits : List Char) (negative : Bool) (value : Int), Text.IsInt64 value →
      Text.IsInt64 (digits.foldl (Text.appendDigit negative) value) := by
    intro digits negative
    induction digits with
    | nil => exact fun _ fits => fits
    | cons digit rest ih => exact fun _ _ => ih _ (Text.saturate_mem _)
  exact kept _ _ 0 (by decide)

/-- The integer of a path is read from an element. -/
theorem exists_of_find?_integers {value : List Char} {path : Path} {number : Int}
    (found : (integers value).find? path = some number) :
    ∃ element ∈ elements value, readInteger element = (path, number) := by
  rw [find?_integers] at found
  exact List.mem_map.1 (mem_ofPath.1 (List.mem_of_getLast? found))

/-- The integer of a path is one of 64 bits. -/
theorem isInt64_of_find?_integers {value : List Char} {path : Path} {number : Int}
    (found : (integers value).find? path = some number) : Text.IsInt64 number := by
  obtain ⟨element, -, same⟩ := exists_of_find?_integers found
  obtain ⟨-, rfl⟩ := Prod.mk.inj same
  exact isInt64_integerPrefix _

/-- A written integer has neither a comma nor a point. -/
theorem regular_decimal (value : Int) : ',' ∉ Text.decimal value ∧ '.' ∉ Text.decimal value := by
  have digits : ∀ other : Char, other.isDigit = false → other ≠ '-' → other ∉ Text.decimal value := by
    intro other none sign member
    have digit : other ∈ Nat.toDigits 10 value.natAbs := by
      unfold Text.decimal at member
      split at member
      · exact (List.mem_cons.1 member).resolve_left sign
      · exact member
    exact absurd (Text.isDigit_of_mem_toDigits digit) (by simp [none])
  exact ⟨digits ',' (by decide) (by decide), digits '.' (by decide) (by decide)⟩

/-- Integers written with their paths are read with them. -/
theorem readIntegers_written {entries : List (Path × Int)}
    (regular : ∀ entry ∈ entries, entry.1.Legible ∧ Text.IsInt64 entry.2) :
    (elements (written Text.decimal entries)).map readInteger = entries := by
  rw [elements_written fun entry member => ⟨(regular entry member).1, (regular_decimal entry.2).1⟩,
    List.map_map]
  refine (List.map_congr_left fun entry member => ?_).trans (List.map_id entries)
  obtain ⟨legible, fits⟩ := regular entry member
  rw [Function.comp, readInteger, splitName_qualified legible (regular_decimal entry.2).2,
    String.toList_ofList, Text.integerPrefix_decimal, Text.saturate_of_mem fits.1 fits.2]
  rfl

/-! ### Values -/

/-- Written relations are read as they are, if they have no comma and count as elements. -/
theorem relations_joined {tokens : List String} (regular : ∀ token ∈ tokens, ',' ∉ token.toList ∧
    (∃ character ∈ token.toList, Text.isBlank character = false) ∧ token ≠ "0") :
    relations (joined (tokens.map String.toList)) = tokens := by
  rw [relations, elements_joined]
  · simp
  · intro text member
    obtain ⟨token, listed, rfl⟩ := List.mem_map.1 member
    obtain ⟨noComma, present, notZero⟩ := regular token listed
    refine ⟨noComma, isVoid_eq_false_iff.2 ⟨present, fun zero => notZero ?_⟩⟩
    rw [← String.ofList_toList (s := token), zero]

/-- The names that a value is read as are read again when they are written path by path. -/
theorem names_rewritten {value : List Char} {lists : List (Path × List String)}
    (order : lists.Perm (names value).entries) :
    names (written String.toList (nameEntries lists)) = names value := by
  have distinct : (lists.map Prod.fst).Nodup :=
    (order.map Prod.fst).nodup_iff.2 (Assoc.nodup_keys (names value).increasing)
  have found (path : Path) : lists.lookup path = (names value).find? path :=
    Assoc.lookup_of_perm order distinct path
  -- A name that was read is the end of an element, so it is one that can be written.
  have regular : ∀ entry ∈ nameEntries lists,
      entry.1.Legible ∧ ',' ∉ entry.2.toList ∧ '.' ∉ entry.2.toList := by
    rintro ⟨path, name⟩ member
    have listed := mem_ofPath.2 member
    rw [ofPath_nameEntries distinct, found, find?_names, named] at listed
    have read : name ∈ ofPath path ((elements value).map Path.splitName) := by
      split at listed
      · exact absurd listed List.not_mem_nil
      · exact listed
    obtain ⟨element, inValue, same⟩ := List.mem_map.1 (mem_ofPath.1 read)
    have own := regular_splitName inValue
    rwa [same] at own
  refine SortedMap.ext_find? fun path => ?_
  rw [find?_names, splitNames_written regular, ofPath_nameEntries distinct, found, find?_names]
  generalize ofPath path ((elements value).map Path.splitName) = own
  cases own <;> rfl

/-- The integers that a value is read as are read again when they are written. -/
theorem integers_rewritten {value : List Char} {entries : List (Path × Int)}
    (order : entries.Perm (integers value).entries) :
    integers (written Text.decimal entries) = integers value := by
  have distinct : (entries.map Prod.fst).Nodup :=
    (order.map Prod.fst).nodup_iff.2 (Assoc.nodup_keys (integers value).increasing)
  have found (path : Path) : entries.lookup path = (integers value).find? path :=
    Assoc.lookup_of_perm order distinct path
  have regular : ∀ entry ∈ entries, entry.1.Legible ∧ Text.IsInt64 entry.2 := by
    rintro ⟨path, number⟩ member
    have listed := Assoc.lookup_of_nodup distinct member
    rw [found] at listed
    obtain ⟨element, inValue, same⟩ := exists_of_find?_integers listed
    have legible := (regular_splitName inValue).1
    rw [show (Path.splitName element).1 = path from congrArg Prod.fst same] at legible
    exact ⟨legible, isInt64_of_find?_integers listed⟩
  refine SortedMap.ext_find? fun path => ?_
  have own : ofPath path entries = (entries.lookup path).toList := by
    have tagged : ∀ entry : Path × Int, ∀ item ∈ [entry], item.1 = entry.1 := by
      rintro entry item member
      rw [List.mem_singleton.1 member]
    have spread := Assoc.filter_flatMap tagged distinct path
    rw [List.flatMap_singleton'] at spread
    rw [ofPath, spread]
    cases entries.lookup path <;> rfl
  rw [find?_integers, readIntegers_written regular, own, found]
  cases (integers value).find? path <;> rfl

/-- Lists of elements are read back. Names written with legible paths are the names of these paths, each
path having all of its names in their order; integers of 64 bits so written are those of their paths, the
last one counting; relations are read as they are written. And whatever a value looks like, the names or
integers that it is read as, written with their paths in any order of the paths, are read again. -/
theorem elements_read_back :
    (∀ entries : List (Path × String),
      (∀ entry ∈ entries, entry.1.Legible ∧ ',' ∉ entry.2.toList ∧ '.' ∉ entry.2.toList) →
      ∀ path, (names (written String.toList entries)).find? path =
        if ofPath path entries = [] then none else some (ofPath path entries)) ∧
    (∀ entries : List (Path × Int), (∀ entry ∈ entries, entry.1.Legible ∧ Text.IsInt64 entry.2) →
      ∀ path, (integers (written Text.decimal entries)).find? path = (ofPath path entries).getLast?) ∧
    (∀ tokens : List String, (∀ token ∈ tokens, ',' ∉ token.toList ∧
        (∃ character ∈ token.toList, Text.isBlank character = false) ∧ token ≠ "0") →
      relations (joined (tokens.map String.toList)) = tokens) ∧
    (∀ value (lists : List (Path × List String)), lists.Perm (names value).entries →
      names (written String.toList (nameEntries lists)) = names value) ∧
    (∀ value (entries : List (Path × Int)), entries.Perm (integers value).entries →
      integers (written Text.decimal entries) = integers value) := by
  refine ⟨fun entries regular path => ?named, fun entries regular path => ?numbered,
    fun _ regular => relations_joined regular, fun _ _ order => names_rewritten order,
    fun _ _ order => integers_rewritten order⟩
  case named => rw [find?_names, splitNames_written regular, named]
  case numbered => rw [find?_integers, readIntegers_written regular]

/-- Names of which one is a blank and one a zero, at the root and at a path that starts with an empty
segment; the root has one of them twice. -/
def oddNames : List (Path × String) := [(.root, " "), (⟨["", "a"]⟩, "0"), (.root, "b"), (.root, " ")]

/-- The extreme integers, a zero and a negative one. -/
def oddIntegers : List (Path × Int) :=
  [(⟨["a"]⟩, 0), (.root, Text.int64Max), (⟨["a"]⟩, -1), (.root, Text.int64Min)]

/-- A value with blank elements, zeros, two spellings of the root and numbers out of range. -/
def untidyElements : List Char := "b, ,0,_. 7,,a.99999999999999999999,.x,_.-5y,a.b.".toList

/-- The odd lists are read back, and so is what an untidy value is read as. -/
theorem odd_elements_read :
    written String.toList oddNames = "_. ,.a.0,_.b,_. ".toList ∧
    (names (written String.toList oddNames)).find? .root = some [" ", "b", " "] ∧
    (names (written String.toList oddNames)).find? ⟨["", "a"]⟩ = some ["0"] ∧
    (integers (written Text.decimal oddIntegers)).find? .root = some Text.int64Min ∧
    (integers (written Text.decimal oddIntegers)).find? ⟨["a"]⟩ = some (-1) ∧
    relations (joined (["00", " a "].map String.toList)) = ["00", " a "] ∧
    names (written String.toList (nameEntries (names untidyElements).entries)) = names untidyElements ∧
    integers (written Text.decimal (integers untidyElements).entries) = integers untidyElements := by
  obtain ⟨named, numbered, related, namedAgain, numberedAgain⟩ := elements_read_back
  have names := named oddNames fun entry member =>
    ⟨⟨by revert entry; decide, by revert entry; decide, by revert entry; decide⟩, by revert entry; decide⟩
  have integers := numbered oddIntegers fun entry member =>
    ⟨⟨by revert entry; decide, by revert entry; decide, by revert entry; decide⟩, by revert entry; decide⟩
  have plain : ∀ token ∈ ["00", " a "], ',' ∉ token.toList ∧
      (∃ character ∈ token.toList, Text.isBlank character = false) ∧ token ≠ "0" := by
    intro token member
    rcases List.mem_cons.1 member with rfl | member
    · exact ⟨by decide, ⟨'0', by decide, by decide⟩, by decide⟩
    · obtain rfl := List.mem_singleton.1 member
      exact ⟨by decide, ⟨'a', by decide, by decide⟩, by decide⟩
  exact ⟨by decide, names .root, names ⟨["", "a"]⟩, integers .root, integers ⟨["a"]⟩,
    related ["00", " a "] plain, namedAgain untidyElements _ (.refl _),
    numberedAgain untidyElements _ (.refl _)⟩

end Parameter

end ResourceQuery
