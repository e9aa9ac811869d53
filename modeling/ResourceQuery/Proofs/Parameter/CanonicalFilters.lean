import ResourceQuery.Proofs.Parameter.WrittenFilters
import ResourceQuery.Proofs.Path.Spelling

/-!
# The canonical text of filter sets

Whatever a filter value looks like, the sets that it is read as have a text of their own: every call with
its path spelled out, its arguments in brackets, and quotes around the arguments that need them. Reading
that text gives the sets again, in whatever order their paths are written (`filters_canonical`). This rests
on what a call that was read can hold: the name has no comma, colon or point, the path is that of its own
characters, and every argument has a written form (`Readable`, `readable_of_mem_expressions`).
-/
namespace ResourceQuery.Parameter

/-! ### Canonical texts -/

/-- An argument that cannot stand alone: it is empty or has a comma, a bracket or a quote. -/
def needsQuotes (argument : List Char) : Bool :=
  argument.isEmpty || argument.any fun character =>
    character == ',' || character == '[' || character == ']' || character == '"'

/-- An argument can stand alone when it has characters, none of them a comma, a bracket or a quote. -/
theorem needsQuotes_eq_false_iff {argument : List Char} : needsQuotes argument = false ↔
    argument ≠ [] ∧ ∀ character ∈ argument,
      character ≠ ',' ∧ character ≠ '[' ∧ character ≠ ']' ∧ character ≠ '"' := by
  simp [needsQuotes, and_assoc]

/-- The characters of an argument, between quotes if it needs them. -/
def argumentCharacters (argument : List Char) : List Char :=
  if needsQuotes argument then '"' :: argument ++ ['"'] else argument

/-- The qualified name of a call, with its path spelled out. -/
def FilterCall.qualified (call : FilterCall) : List Char :=
  call.path.characters ++ Path.separator :: call.name.toList

/-- The characters of a call. -/
def FilterCall.characters (call : FilterCall) : List Char :=
  if call.arguments.isEmpty then call.qualified
  else call.qualified ++ ':' :: '[' ::
    joined (call.arguments.map fun argument => argumentCharacters argument.toList) ++ [']']

/-- The calls that make up the filters of a path. -/
def callsAt (path : Path) (set : Filters) : List FilterCall :=
  set.entries.map fun (name, arguments) => ⟨path, name, arguments⟩

/-- The calls that make up filter sets. -/
def calls (sets : List (Path × Filters)) : List FilterCall :=
  sets.flatMap fun (path, set) => callsAt path set

/-- The text of filter sets in the given order of paths. -/
def canonical (sets : List (Path × Filters)) : List Char :=
  joined ((calls sets).map FilterCall.characters)

/-! ### What can be read -/

/-- A call whose characters are a written expression of that call. -/
def Readable (call : FilterCall) : Prop :=
  ∃ expression : WrittenExpression, expression.call = call ∧ expression.characters = call.characters

/-- Items that each have a written form are written one after the other. -/
theorem exists_written {α β γ : Type} {items : List α} {meaning : β → α} {text : β → γ} {form : α → γ}
    (each : ∀ item ∈ items, ∃ written, meaning written = item ∧ text written = form item) :
    ∃ written : List β, written.map meaning = items ∧ written.map text = items.map form := by
  induction items with
  | nil => exact ⟨[], rfl, rfl⟩
  | cons item rest ih =>
    obtain ⟨first, means, reads⟩ := each item (.head rest)
    obtain ⟨others, meanings, texts⟩ := ih fun other member => each other (.tail _ member)
    refine ⟨first :: others, ?_, ?_⟩
    · rw [List.map_cons, means, meanings]
    · rw [List.map_cons, List.map_cons, reads, texts]

/-- The inside of a quoted span is written in units. -/
theorem units_of_takeQuoted? {text inside after : List Char}
    (taken : takeQuoted? text = some (inside, after)) :
    ∃ units : List QuotedUnit, units.flatMap QuotedUnit.characters = inside := by
  fun_induction takeQuoted? text generalizing inside with
  | case1 => contradiction
  | case2 rest =>
    obtain ⟨rfl, -⟩ := Prod.mk.inj (Option.some.inj taken)
    exact ⟨[], rfl⟩
  | case3 => contradiction
  | case4 => contradiction
  | case5 escaped rest sameLine ih =>
    obtain ⟨⟨left, right⟩, found, same⟩ := Option.map_eq_some_iff.1 taken
    obtain ⟨rfl, rfl⟩ := Prod.mk.inj same
    obtain ⟨units, rfl⟩ := ih found
    exact ⟨.escaped escaped sameLine :: units, rfl⟩
  | case6 character rest noQuote notLast notEscape ih =>
    obtain ⟨⟨left, right⟩, found, same⟩ := Option.map_eq_some_iff.1 taken
    obtain ⟨rfl, rfl⟩ := Prod.mk.inj same
    obtain ⟨units, rfl⟩ := ih found
    exact ⟨.plain character ⟨noQuote, ne_backslash notLast notEscape⟩ :: units, rfl⟩

/-- Units between quotes have a written form in which quotes stand only where they are needed. -/
theorem written_of_units (units : List QuotedUnit) : ∃ written : WrittenArgument,
    written.text = units.flatMap QuotedUnit.characters ∧
      written.characters = argumentCharacters (units.flatMap QuotedUnit.characters) := by
  unfold argumentCharacters
  split
  · exact ⟨.quoted units, rfl, rfl⟩
  · next alone =>
    obtain ⟨present, regular⟩ := needsQuotes_eq_false_iff.1 (Bool.eq_false_iff.2 alone)
    obtain ⟨first, rest, shape⟩ := List.exists_cons_of_ne_nil present
    rw [shape] at regular ⊢
    exact ⟨.bare first rest regular, rfl, rfl⟩

/-- Arguments that were read have a written form. -/
theorem written_of_mem_arguments {text argument : List Char} (member : argument ∈ arguments text) :
    ∃ written : WrittenArgument, written.text = argument ∧
      written.characters = argumentCharacters argument := by
  fun_induction arguments text with
  | case1 => contradiction
  | case2 rest quoted after taken ih =>
    rcases List.mem_cons.1 member with rfl | member
    · obtain ⟨units, rfl⟩ := units_of_takeQuoted? taken
      exact written_of_units units
    · exact ih member
  | case3 rest _ ih => exact ih member
  | case4 character rest noQuote allowed ih =>
    rcases List.mem_cons.1 member with rfl | member
    · have regular : ∀ other ∈ character :: rest.takeWhile isArgumentCharacter,
          other ≠ ',' ∧ other ≠ '[' ∧ other ≠ ']' ∧ other ≠ '"' := by
        intro other present
        have within : isArgumentCharacter other = true := by
          rcases List.mem_cons.1 present with rfl | present
          · exact allowed
          · exact List.all_eq_true.1 List.all_takeWhile other present
        simp only [isArgumentCharacter, Bool.and_eq_true, bne_iff_ne] at within
        exact ⟨within.1.1.1, within.1.2, within.1.1.2, within.2⟩
      refine ⟨.bare character (rest.takeWhile isArgumentCharacter) regular, rfl, ?_⟩
      rw [argumentCharacters, needsQuotes_eq_false_iff.2 ⟨List.cons_ne_nil _ _, regular⟩]
      rfl
    · exact ih member
  | case5 character rest _ _ ih => exact ih member

/-- A qualified name with its path spelled out has no comma and no colon either, and is the same path and
name. -/
theorem splitName_spelled {name : List Char}
    (regular : ∀ character ∈ name, character ≠ ',' ∧ character ≠ ':') :
    let spelled := (Path.splitName name).1.characters ++ Path.separator :: (Path.splitName name).2.toList
    (∀ character ∈ spelled, character ≠ ',' ∧ character ≠ ':') ∧
      Path.splitName spelled = Path.splitName name := by
  cases cut : Text.splitLast? Path.separator name with
  | none =>
    -- The name belongs to the root, which is spelled out as its mark.
    have split : Path.splitName name = (.root, String.ofList name) := by rw [Path.splitName, cut]
    rw [split, String.toList_ofList]
    refine ⟨fun character member => ?_, Path.splitName_append Path.rootMark (Text.splitLast?_eq_none_iff.1 cut)⟩
    rcases List.mem_append.1 member with mark | member
    · obtain rfl := List.mem_singleton.1 mark
      decide
    · rcases List.mem_cons.1 member with rfl | member
      · decide
      · exact regular character member
  | some parts =>
    obtain ⟨before, last⟩ := parts
    obtain ⟨rfl, noSeparator⟩ := Text.splitLast?_eq_some_iff.1 cut
    rw [Path.splitName_append before noSeparator, String.toList_ofList]
    refine ⟨fun character member => ?_, ?_⟩
    · rcases List.mem_append.1 member with inPath | inName
      · by_cases present : before = []
        · subst present
          obtain rfl := List.mem_singleton.1 inPath
          decide
        · rw [Path.characters_ofCharacters present] at inPath
          exact regular character (List.mem_append_left _ inPath)
      · exact regular character (List.mem_append_right _ inName)
    · rw [Path.splitName_append _ noSeparator, (Path.spellable_ofCharacters before).ofCharacters_characters]

/-- A name without commas and colons, alone or with a colon and any text after it. -/
def BeginsWithName (expression : List Char) : Prop :=
  ∃ name after, expression = name ++ after ∧ (∀ character ∈ name, character ≠ ',' ∧ character ≠ ':') ∧
    (after = [] ∨ ∃ list, after = ':' :: list)

/-- A text without commas begins with a name. -/
theorem beginsWithName_of_noComma {text : List Char} (noComma : ',' ∉ text) : BeginsWithName text := by
  cases cut : Text.splitFirst? ':' text with
  | none =>
    have noColon := Text.splitFirst?_eq_none_iff.1 cut
    refine ⟨text, [], (List.append_nil text).symm, fun character member => ⟨?_, ?_⟩, .inl rfl⟩
    · rintro rfl
      exact noComma member
    · rintro rfl
      exact noColon member
  | some parts =>
    obtain ⟨name, list⟩ := parts
    obtain ⟨rfl, noColon⟩ := Text.splitFirst?_eq_some_iff.1 cut
    refine ⟨name, ':' :: list, rfl, fun character member => ⟨?_, ?_⟩, .inr ⟨list, rfl⟩⟩
    · rintro rfl
      exact noComma (List.mem_append_left _ member)
    · rintro rfl
      exact noColon member

/-- A bracketed expression begins with a name. -/
theorem beginsWithName_of_takeBracketed? {text expression rest : List Char}
    (taken : takeBracketed? text = some (expression, rest)) : BeginsWithName expression := by
  obtain ⟨name, body, -, whole, -, -, regular, -⟩ := takeBracketed?_cases taken
  exact ⟨name, _, whole, regular, .inr ⟨_, rfl⟩⟩

/-- An expression that was read begins with a name. -/
theorem beginsWithName_of_mem_expressions {value expression : List Char}
    (member : expression ∈ expressions value) : BeginsWithName expression := by
  obtain ⟨tile, inTiles, whole⟩ := List.mem_filterMap.1 member
  clear member
  fun_induction tiles value with
  | case1 => contradiction
  | case2 rest ih =>
    rcases List.mem_cons.1 inTiles with rfl | inTiles
    · contradiction
    · exact ih inTiles
  | case3 character rest _ text after taken ih =>
    rcases List.mem_cons.1 inTiles with rfl | inTiles
    · obtain rfl := Option.some.inj whole
      exact beginsWithName_of_takeBracketed? taken
    · exact ih inTiles
  | case4 character rest noComma refused ih =>
    rcases List.mem_cons.1 inTiles with rfl | inTiles
    · obtain rfl := Option.some.inj whole
      refine beginsWithName_of_noComma fun comma => ?_
      rcases List.mem_cons.1 comma with first | comma
      · exact noComma first.symm
      · exact absurd (List.all_eq_true.1 List.all_takeWhile ',' comma) (by decide)
    · exact ih inTiles

/-- A call of a name without commas and colons is readable if its arguments have written forms. -/
theorem readable_of_texts {name : List Char}
    (regular : ∀ character ∈ name, character ≠ ',' ∧ character ≠ ':') {texts : List (List Char)}
    (each : ∀ argument ∈ texts, ∃ written : WrittenArgument, written.text = argument ∧
      written.characters = argumentCharacters argument) :
    Readable ⟨(Path.splitName name).1, (Path.splitName name).2, texts.map String.ofList⟩ := by
  obtain ⟨written, rfl, characters⟩ := exists_written each
  obtain ⟨spelledRegular, same⟩ := splitName_spelled regular
  obtain ⟨first, rest, spelled⟩ := List.exists_cons_of_ne_nil (List.append_ne_nil_of_right_ne_nil
    (Path.splitName name).1.characters
    (List.cons_ne_nil Path.separator (Path.splitName name).2.toList))
  rw [spelled] at spelledRegular same
  have texts : (written.map WrittenArgument.text).map String.ofList =
      written.map fun argument => String.ofList argument.text := List.map_map
  have inside : ((written.map WrittenArgument.text).map String.ofList).map
      (fun argument => argumentCharacters argument.toList) = written.map WrittenArgument.characters := by
    rw [characters, List.map_map]
    exact List.map_congr_left fun argument _ => by rw [Function.comp, String.toList_ofList]
  refine ⟨⟨first, rest, spelledRegular, written⟩, ?_, ?_⟩
  · show FilterCall.mk (Path.splitName (first :: rest)).1 (Path.splitName (first :: rest)).2 _ = _
    rw [same, texts]
  · simp only [WrittenExpression.characters, WrittenExpression.qualified, FilterCall.characters,
      FilterCall.qualified, spelled, inside, List.isEmpty_map]

/-- A call that was read from an expression of a value is readable. -/
theorem readable_of_mem_expressions {value expression : List Char}
    (member : expression ∈ expressions value) : Readable (FilterCall.ofExpression expression) := by
  obtain ⟨name, after, rfl, regular, following⟩ := beginsWithName_of_mem_expressions member
  have noColon : ':' ∉ name := fun held => (regular ':' held).2 rfl
  rcases following with rfl | ⟨list, rfl⟩
  · rw [List.append_nil, FilterCall.ofExpression, Text.splitFirst?_eq_none_iff.2 noColon]
    exact readable_of_texts regular fun _ member => absurd member List.not_mem_nil
  · rw [FilterCall.ofExpression, Text.splitFirst?_eq_some_iff.2 ⟨rfl, noColon⟩]
    exact readable_of_texts regular fun _ member => written_of_mem_arguments member

/-- Readable calls are read back from their characters, in their order. -/
theorem filters_of_readable {calls : List FilterCall} (readable : ∀ call ∈ calls, Readable call) :
    filters (joined (calls.map FilterCall.characters)) = calls.foldl assignCall .empty := by
  obtain ⟨written, same, characters⟩ := exists_written readable
  have nothing : Ends [] := fun _ here => by contradiction
  have none : expressions [] = [] := by
    unfold expressions
    rw [tiles]
    rfl
  have read := expressions_joined written nothing
  rw [List.append_nil, none, List.append_nil] at read
  rw [filters, ← characters, read, List.map_map]
  conv => rhs; rw [← same]
  exact congrArg (List.foldl assignCall .empty)
    (List.map_congr_left fun expression _ => ofExpression_written expression)

/-! ### Sets that were read -/

/-- The filters that reading can give to a path: at least one, each name once, and every call readable. -/
structure ReadAt (path : Path) (set : Filters) : Prop where
  /-- There are filters. -/
  present : set.entries ≠ []
  /-- No name comes twice. -/
  distinct : (set.entries.map Prod.fst).Nodup
  /-- Every call is readable. -/
  readable : ∀ call ∈ callsAt path set, Readable call

/-- The filters of a path with one more readable call could have been read. -/
theorem ReadAt.insert {path : Path} {set : Filters} (distinct : (set.entries.map Prod.fst).Nodup)
    (readable : ∀ call ∈ callsAt path set, Readable call) {name : String} {arguments : List String}
    (new : Readable ⟨path, name, arguments⟩) : ReadAt path (set.insert name arguments) where
  present := by
    have named : name ∈ (set.insert name arguments).entries.map Prod.fst := by
      rw [Filters.insert, Filters.names_assign]
      split
      · next known => exact known
      · exact List.mem_append_right _ (.head [])
    exact fun none => by simp [none] at named
  distinct := by
    rw [Filters.insert, Filters.names_assign]
    split
    · exact distinct
    · next absent =>
      refine List.nodup_append.2 ⟨distinct, List.pairwise_singleton _ name, ?_⟩
      rintro held member _ fresh rfl
      exact absent (List.mem_singleton.1 fresh ▸ member)
  readable := by
    intro call member
    obtain ⟨entry, inSet, rfl⟩ := List.mem_map.1 member
    rcases Filters.mem_assign inSet with rfl | before
    · exact new
    · exact readable _ (List.mem_map_of_mem before)

/-- Assigning readable calls one after the other gives every path what could have been read. -/
theorem readAt_of_find? {calls : List FilterCall} {sets : PathMap Filters}
    (readable : ∀ call ∈ calls, Readable call)
    (held : ∀ path set, sets.find? path = some set → ReadAt path set) {path : Path} {set : Filters}
    (found : (calls.foldl assignCall sets).find? path = some set) : ReadAt path set := by
  induction calls generalizing sets with
  | nil => exact held path set found
  | cons call rest ih =>
    refine ih (fun other member => readable other (.tail _ member)) (fun other value after => ?_) found
    rw [assignCall, SortedMap.find?_alter] at after
    split at after
    · next here =>
      obtain rfl := Option.some.inj after
      subst here
      have new := readable call (.head rest)
      cases before : sets.find? call.path with
      | none =>
        have noNames : (Filters.empty.entries.map Prod.fst).Nodup := List.nodup_nil
        exact .insert noNames (fun _ member => absurd member List.not_mem_nil) new
      | some present =>
        have known := held call.path present before
        exact .insert known.distinct known.readable new
    · exact held other value after

/-- The filters of a path that was read from a value could have been read. -/
theorem readAt_filters {value : List Char} {path : Path} {set : Filters}
    (found : (filters value).find? path = some set) : ReadAt path set := by
  have nothing : ∀ path set, (SortedMap.empty : PathMap Filters).find? path = some set → ReadAt path set :=
    fun path _ before => nomatch (SortedMap.find?_empty path).symm.trans before
  refine readAt_of_find? (fun call member => ?_) nothing found
  obtain ⟨expression, inValue, rfl⟩ := List.mem_map.1 member
  exact readable_of_mem_expressions inValue

/-! ### Assigning the calls of sets -/

/-- The filters of a path with one more call. -/
def assignAt (present : Option Filters) (call : FilterCall) : Option Filters :=
  some ((present.getD .empty).insert call.name call.arguments)

/-- Assigning calls gives every path its own calls, in their order. -/
theorem find?_foldl_assignCall (calls : List FilterCall) (sets : PathMap Filters) (path : Path) :
    (calls.foldl assignCall sets).find? path =
      (calls.filter (·.path = path)).foldl assignAt (sets.find? path) :=
  SortedMap.find?_foldl_alter FilterCall.path
    (fun call (present : Option Filters) => (present.getD .empty).insert call.name call.arguments) calls
    sets path

/-- The name of a call with its arguments. -/
def FilterCall.assignment (call : FilterCall) : String × List String := (call.name, call.arguments)

/-- Calls make up the set that collects their assignments, and without calls there is no set. -/
theorem foldl_assignAt (calls : List FilterCall) : calls.foldl assignAt none =
    if calls = [] then none else some (.ofList (calls.map FilterCall.assignment)) := by
  have later : ∀ (calls : List FilterCall) (held : Filters), calls.foldl assignAt (some held) =
      some ((calls.map FilterCall.assignment).foldl (fun set entry => set.insert entry.1 entry.2) held) := by
    intro calls
    induction calls with
    | nil => exact fun _ => rfl
    | cons call rest ih => exact fun held => ih (held.insert call.name call.arguments)
  cases calls with
  | nil => rfl
  | cons call rest => exact later rest (Filters.empty.insert call.name call.arguments)

/-- The calls of filters that could have been read make up the same filters. -/
theorem ReadAt.foldl_assignAt {path : Path} {set : Filters} (read : ReadAt path set) :
    (callsAt path set).foldl assignAt none = some set := by
  have called : callsAt path set ≠ [] := fun none => read.present (List.map_eq_nil_iff.1 none)
  have assigned : (callsAt path set).map FilterCall.assignment = set.entries :=
    List.map_map.trans (List.map_id set.entries)
  rw [Parameter.foldl_assignAt, if_neg called, assigned, Filters.ofList_eq_of_nodup read.distinct]

/-- Without a set for a path there are no calls of the path. -/
theorem filter_calls_of_not_mem {sets : List (Path × Filters)} {path : Path}
    (absent : path ∉ sets.map Prod.fst) : (calls sets).filter (·.path = path) = [] := by
  refine List.filter_eq_nil_iff.2 fun call member => ?_
  obtain ⟨⟨own, set⟩, inSets, inSet⟩ := List.mem_flatMap.1 member
  obtain ⟨entry, -, rfl⟩ := List.mem_map.1 inSet
  have apart : own ≠ path := fun same => absent (same ▸ List.mem_map_of_mem inSets)
  simpa using apart

/-- Where no path comes twice, the calls of a path are those of its set. -/
theorem filter_calls_of_mem {sets : List (Path × Filters)} (distinct : (sets.map Prod.fst).Nodup)
    {path : Path} {set : Filters} (member : (path, set) ∈ sets) :
    (calls sets).filter (·.path = path) = callsAt path set := by
  have tagged : ∀ entry : Path × Filters, ∀ call ∈ callsAt entry.1 entry.2, call.path = entry.1 := by
    intro entry call inSet
    obtain ⟨named, -, rfl⟩ := List.mem_map.1 inSet
    rfl
  have own := Assoc.filter_flatMap tagged distinct path
  rw [Assoc.lookup_of_nodup distinct member] at own
  exact own

/-- Every filter value, well-formed or not, has a canonical text. Written with their paths spelled out, in
any order of the paths, and with quotes around the arguments that need them, the filter sets that the value
is read as are read back: the same paths, the same names in the same order, the same arguments. -/
theorem filters_canonical (value : List Char) {sets : List (Path × Filters)}
    (order : sets.Perm (filters value).entries) : filters (canonical sets) = filters value := by
  have keys : (sets.map Prod.fst).Nodup :=
    (order.map Prod.fst).nodup_iff.2 (Assoc.nodup_keys (filters value).increasing)
  have found : ∀ entry ∈ sets, (filters value).find? entry.1 = some entry.2 := fun entry member =>
    Assoc.lookup_of_mem (filters value).increasing (order.mem_iff.1 member)
  have readable : ∀ call ∈ calls sets, Readable call := by
    intro call member
    obtain ⟨entry, inSets, inSet⟩ := List.mem_flatMap.1 member
    exact (readAt_filters (found entry inSets)).readable call inSet
  rw [canonical, filters_of_readable readable]
  apply SortedMap.ext_find?
  intro path
  rw [find?_foldl_assignCall, SortedMap.find?_empty]
  cases here : (filters value).find? path with
  | none =>
    have absent : path ∉ sets.map Prod.fst := by
      intro member
      obtain ⟨entry, inSets, rfl⟩ := List.mem_map.1 member
      rw [found entry inSets] at here
      contradiction
    rw [filter_calls_of_not_mem absent]
    rfl
  | some set =>
    have member : (path, set) ∈ sets := order.mem_iff.2 (Assoc.mem_of_lookup here)
    rw [filter_calls_of_mem keys member, (readAt_filters here).foldl_assignAt]

/-- A value with an unclosed quote, an empty path, a name that is given twice, an escaped quote, and an
unclosed bracket. -/
def untidy : List Char := "t.in:\"a,.on,t.in:[\"b, \\\"\",c],t.to:[d".toList

/-- What the untidy value is read as, the filters of the root last. -/
def untidySets : List (Path × Filters) :=
  [(⟨["t"]⟩, ⟨[("in", ["b, \\\"", "c"]), ("to", ["d"])]⟩), (.root, ⟨[("on", [])]⟩)]

/-- The canonical text of an untidy value is read as the value is. -/
theorem untidy_canonical : untidySets.Perm (filters untidy).entries ∧
    canonical untidySets = "t.in:[\"b, \\\"\",c],t.to:[d],_.on".toList ∧
    filters (canonical untidySets) = filters untidy := by
  have order : untidySets.Perm (filters untidy).entries := by decide +kernel
  exact ⟨order, rfl, filters_canonical untidy order⟩

end ResourceQuery.Parameter
