import ResourceQuery.Proofs.Operation.ColumnOperations
import ResourceQuery.Proofs.Text.Pieces

/-!
# Names in every spelling

Names of the same words have the same key, however their words are parted (`camelKey_congr`). The key of an ASCII
name is its own key (`PlainKey.camelKey_eq`). So an operation is found under each of these
(`names_recognised`), in the tables of filters, of sorts and of inclusions.
-/
namespace ResourceQuery

/-! ### Words -/

/-- The words of a name: what stands between separators, where anything does. -/
def words (name : String) : List (List Char) := (name.toList.splitOnP isWordSeparator).filter (· ≠ [])

/-- Capitalised one after the other, the pieces of a name are its words. -/
theorem flatMap_capitalize_nameWords (name : String) :
    (nameWords name.toList).flatMap capitalize = (words name).flatMap capitalize := by
  rw [nameWords, Text.pieces_eq_splitOnP, words]
  induction name.toList.splitOnP isWordSeparator with
  | nil => rfl
  | cons piece rest ih =>
    cases piece with
    | nil => exact ih
    | cons first others =>
      rw [List.filter_cons_of_pos (by simp), List.flatMap_cons, List.flatMap_cons, ih]

/-- The key of a name is made of its words. -/
theorem camelKey_congr {name other : String} (same : words name = words other) : camelKey name = camelKey other := by
  rw [camelKey, camelKey, flatMap_capitalize_nameWords, flatMap_capitalize_nameWords, same]

/-! ### Keys of ASCII -/

/-- A character of ASCII that parts no words. -/
def IsPlain (character : Char) : Prop := character.toNat < 128 ∧ isWordSeparator character = false

instance (character : Char) : Decidable (IsPlain character) := inferInstanceAs (Decidable (_ ∧ _))

/-- What holds of the character of every ASCII code that is plain holds of every plain character. -/
theorem IsPlain.of_codes {character : Char} (plain : IsPlain character) (has : Char → Prop)
    (each : ∀ code < 128, IsPlain (Char.ofNat code) → has (Char.ofNat code)) : has character := by
  have here := each character.toNat plain.1
  rw [Char.ofNat_toNat] at here
  exact here plain

/-- A plain character is plain in upper case. -/
theorem IsPlain.toUpper {character : Char} (plain : IsPlain character) : IsPlain character.toUpper :=
  plain.of_codes (fun character => IsPlain character.toUpper) (by decide)

/-- A plain character is plain in lower case, and no upper-case letter. -/
theorem IsPlain.toLower {character : Char} (plain : IsPlain character) :
    IsPlain character.toLower ∧ character.toLower.isUpper = false :=
  plain.of_codes (fun character => IsPlain character.toLower ∧ character.toLower.isUpper = false) (by decide)

/-- A plain character that is no upper-case letter comes back from upper case. -/
theorem IsPlain.toLower_toUpper {character : Char} (plain : IsPlain character) (small : character.isUpper = false) :
    character.toUpper.toLower = character :=
  plain.of_codes (fun character => character.isUpper = false → character.toUpper.toLower = character)
    (by decide) small

/-- A key of ASCII: its characters are plain, and the first is no upper-case letter. -/
structure PlainKey (key : List Char) : Prop where
  /-- No character parts words. -/
  plain : ∀ character ∈ key, IsPlain character
  /-- The first is no upper-case letter. -/
  first : ∀ character ∈ key.head?, character.isUpper = false

/-- A word of plain characters has plain characters when it is capitalised. -/
theorem plain_capitalize {word : List Char} (plain : ∀ character ∈ word, IsPlain character) :
    ∀ character ∈ capitalize word, IsPlain character := by
  cases word with
  | nil => exact plain
  | cons first rest =>
    obtain ⟨begins, later⟩ := List.forall_mem_cons.1 plain
    rw [capitalize, Text.upper_of_ascii begins.1, List.singleton_append]
    exact List.forall_mem_cons.2 ⟨begins.toUpper, later⟩

/-- Plain characters make a key when the first is put in lower case. -/
theorem plainKey_uncapitalize {text : List Char} (plain : ∀ character ∈ text, IsPlain character) :
    PlainKey (uncapitalize text) := by
  cases text with
  | nil => exact ⟨plain, fun _ first => nomatch first⟩
  | cons first rest =>
    obtain ⟨begins, later⟩ := List.forall_mem_cons.1 plain
    obtain ⟨lowered, small⟩ := begins.toLower
    rw [uncapitalize, Text.lower_of_ascii begins.1, List.singleton_append]
    refine ⟨List.forall_mem_cons.2 ⟨lowered, later⟩, fun character head => ?_⟩
    obtain rfl := Option.some.inj head
    exact small

/-- The key of an ASCII name is a key of ASCII. -/
theorem plainKey_camelKey {name : String} (ascii : ∀ character ∈ name.toList, character.toNat < 128) :
    PlainKey (camelKey name).toList := by
  rw [camelKey, String.toList_ofList]
  refine plainKey_uncapitalize fun character member => ?_
  obtain ⟨word, listed, inside⟩ := List.mem_flatMap.1 member
  refine plain_capitalize (fun other here => ?_) character inside
  obtain ⟨inName, unseparated⟩ := Text.of_mem_pieces listed other here
  exact ⟨ascii other inName, unseparated⟩

/-- A key of ASCII is its own key. -/
theorem PlainKey.camelKey_eq {key : String} (own : PlainKey key.toList) : camelKey key = key := by
  have whole : nameWords key.toList = [key.toList] :=
    Text.pieces_of_not_any fun character member => (own.plain character member).2
  rw [camelKey, whole, List.flatMap_singleton]
  cases spelled : key.toList with
  | nil => exact (String.toList_eq_nil_iff.1 spelled).symm
  | cons first rest =>
    rw [spelled] at own
    have begins : IsPlain first := own.plain first (.head rest)
    have small : first.isUpper = false := own.first first rfl
    rw [capitalize, Text.upper_of_ascii begins.1, List.singleton_append, uncapitalize,
      Text.lower_of_ascii begins.toUpper.1, List.singleton_append, begins.toLower_toUpper small, ← spelled,
      String.ofList_toList]

/-! ### Tables -/

/-- An operation was registered in a table under a name, and none later under a name of the same key. -/
def Operations.Registers {α : Type} (table : Operations α) (name : String) (operation : α) : Prop :=
  ∃ entries, table = registerAll .empty entries ∧
    IsLast (fun entry => camelKey entry.1 = camelKey name) entries (name, operation)

/-- A registered operation is found under every name of its key. -/
theorem Operations.Registers.find? {α : Type} {table : Operations α} {name sent : String} {operation : α}
    (registers : table.Registers name operation) (same : camelKey sent = camelKey name) :
    SortedMap.find? table (camelKey sent) = some operation := by
  obtain ⟨entries, rfl, before, after, rfl, -, others⟩ := registers
  rw [same]
  exact find?_registerAll_append name operation others before .empty

/-- Names are recognised in every spelling. Names of the same words have the same key. The key of an ASCII name has
no separator and no upper-case letter in front, and is its own key. So an operation that was registered under an
ASCII name is found when any spelling of the name or its key is sent: as a filter, as a sort, and as a decision
about a relation. -/
theorem names_recognised :
    (∀ name other : String, words name = words other → camelKey name = camelKey other) ∧
    ∀ name : String, (∀ character ∈ name.toList, character.toNat < 128) →
      (∀ character ∈ (camelKey name).toList, isWordSeparator character = false) ∧
      (∀ character ∈ (camelKey name).toList.head?, character.isUpper = false) ∧
      camelKey (camelKey name) = camelKey name ∧
      ∀ sent : String, words sent = words name ∨ sent = camelKey name →
        ∀ (registry : Registry) (entity : String),
          (∀ (table : FilterTable) (operation : FilterOperation) (later : List FilterTable),
            table.Registers name operation →
              (registry.setFilters entity (table :: later)).filter? entity sent = some operation) ∧
          (∀ (table : SortTable) (operation : SortOperation) (later : List SortTable),
            table.Registers name operation →
              (registry.setSorts entity (table :: later)).sort? entity sent = some operation) ∧
          ∀ (table : InclusionTable) (decision : Bool) (later : List InclusionRule),
            table.Registers name decision →
              (registry.setInclusions entity (.table table :: later)).allows entity sent = decision := by
  refine ⟨fun name other same => camelKey_congr same, fun name ascii => ?_⟩
  have key : PlainKey (camelKey name).toList := plainKey_camelKey ascii
  refine ⟨fun character member => (key.plain character member).2, key.first, key.camelKey_eq,
    fun sent spelling registry entity => ?_⟩
  have same : camelKey sent = camelKey name := by
    rcases spelling with sameWords | rfl
    · exact camelKey_congr sameWords
    · exact key.camelKey_eq
  refine ⟨fun table operation later registers => ?_, fun table operation later registers => ?_,
    fun table decision later registers => ?_⟩
  · rw [Registry.filter?_setFilters, List.findSome?_cons, registers.find? same]
  · rw [Registry.sort?_setSorts, List.findSome?_cons, registers.find? same]
  · rw [Registry.allows_setInclusions, List.findSome?_cons, InclusionRule.decide?, registers.find? same,
      Option.getD_some]

/-- The recipients of messages may be included, though a decision about messages was registered after it. -/
def recipientDecisions : InclusionTable :=
  Operations.registerAll .empty [("messages.recipient", true), ("messages", false)]

/-- The filter by time of creation, as it is registered. -/
def createdBetween : FilterOperation := .binary fun first last => Query.filterBy (withinDays first last)

/-- The newest first, as it is registered. -/
def newestFirst : SortOperation := Query.orderBy [⟨createdAt, .descending⟩]

/-- The decision about recipients is found in every spelling, and so are a filter and a sort by time of creation
under their keys. -/
theorem recipients_recognised :
    let inclusions := Registry.empty.setInclusions "users" [.table recipientDecisions, .path "messages"]
    let filters := Registry.empty.setFilters "users" [creationFilters]
    let sorts := Registry.empty.setSorts "users" [creationSorts]
    (∀ character ∈ "messages.recipient".toList, character.toNat < 128) ∧
    (∀ character ∈ "created_between".toList, character.toNat < 128) ∧
    (∀ character ∈ "latest".toList, character.toNat < 128) ∧
    words "--messages recipient_" = words "messages.recipient" ∧
    recipientDecisions.Registers "messages.recipient" true ∧
    creationFilters.Registers "created_between" createdBetween ∧
    creationSorts.Registers "latest" newestFirst ∧
    camelKey "--messages recipient_" = camelKey "messages.recipient" ∧
    inclusions.allows "users" "--messages recipient_" = true ∧
    inclusions.allows "users" (camelKey "messages.recipient") = true ∧
    filters.filter? "users" (camelKey "created_between") = some createdBetween ∧
    sorts.sort? "users" (camelKey "latest") = some newestFirst := by
  intro inclusions filters sorts
  have ascii : ∀ character ∈ "messages.recipient".toList, character.toNat < 128 := by simp
  have asciiFilter : ∀ character ∈ "created_between".toList, character.toNat < 128 := by simp
  have asciiSort : ∀ character ∈ "latest".toList, character.toNat < 128 := by simp
  have sameWords : words "--messages recipient_" = words "messages.recipient" := by decide
  have decided : recipientDecisions.Registers "messages.recipient" true :=
    ⟨_, rfl, [], [("messages", false)], rfl, rfl, by decide⟩
  have filtered : creationFilters.Registers "created_between" createdBetween :=
    ⟨[("created_between", createdBetween)], rfl, [], [], rfl, rfl, fun _ member => nomatch member⟩
  have sorted : creationSorts.Registers "latest" newestFirst :=
    ⟨[("latest", newestFirst), ("oldest", Query.orderBy [⟨createdAt, .ascending⟩])], rfl, [],
      [("oldest", Query.orderBy [⟨createdAt, .ascending⟩])], rfl, rfl,
      List.forall_mem_singleton.2 (by decide)⟩
  obtain ⟨sameKey, recognised⟩ := names_recognised
  obtain ⟨-, -, -, decisions⟩ := recognised "messages.recipient" ascii
  obtain ⟨-, -, -, filtering⟩ := recognised "created_between" asciiFilter
  obtain ⟨-, -, -, sorting⟩ := recognised "latest" asciiSort
  refine ⟨ascii, asciiFilter, asciiSort, sameWords, decided, filtered, sorted, sameKey _ _ sameWords, ?_, ?_, ?_, ?_⟩
  · exact (decisions _ (.inl sameWords) .empty "users").2.2 recipientDecisions true _ decided
  · exact (decisions _ (.inr rfl) .empty "users").2.2 recipientDecisions true _ decided
  · exact (filtering _ (.inr rfl) .empty "users").1 creationFilters _ _ filtered
  · exact (sorting _ (.inr rfl) .empty "users").2.1 creationSorts _ _ sorted

end ResourceQuery
