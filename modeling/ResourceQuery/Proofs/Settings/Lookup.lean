import ResourceQuery.Fault
import ResourceQuery.Proofs.Parameter.LastValues
import ResourceQuery.Proofs.Text.Literals

/-!
# Settings of a look-up

A look-up is accepted exactly when each limit that it holds is, between blanks, the literal of an integer of 64
bits, and the greatest limit is at least one (`Settings.lookup_settles`). The settings are then those of the
look-up, option by option (`Settings.SettledBy`): names as they are, limits exactly, and the standard value
where an option is absent. Settings written as options are read back, and the way over a nested object, in which
the options are members, gives the same settings (`Settings.ofJson?_nested`).
-/
namespace ResourceQuery

/-- The option that names the parameter of a role. -/
def Role.option : Role → String
  | .fields => "rest.keys.fields"
  | .filter => "rest.keys.filter"
  | .sort => "rest.keys.sort"
  | .relations => "rest.keys.with"
  | .limit => "rest.keys.limit"
  | .offset => "rest.keys.offset"

namespace Settings

/-! ### Options -/

/-- A limit option reads as a value: that of the literal that it holds between blanks, or the standard value
where it is absent. -/
def LimitReads (standard : Int) (option : Option String) (value : Int) : Prop :=
  match option with
  | none => value = standard
  | some text => ∃ literal, Text.Between text.toList literal ∧ Text.WritesInteger literal value ∧ Text.IsInt64 value

/-- A limit option is accepted with the value that it reads as. -/
theorem limitOption_eq_ok_iff {lookup : String → Option String} {option : String} {standard value : Int} :
    limitOption lookup option standard = .ok value ↔ LimitReads standard (lookup option) value := by
  unfold limitOption LimitReads
  cases lookup option with
  | none => exact ⟨fun same => (Except.ok.inj same).symm, fun same => congrArg Except.ok same.symm⟩
  | some text =>
    simp only
    constructor
    · intro accepted
      split at accepted
      · next found read =>
        obtain rfl := Except.ok.inj accepted
        exact ⟨_, Text.between_trim text.toList, Text.integerLiteral?_eq_some_iff.1 read⟩
      · exact nomatch accepted
    · rintro ⟨literal, between, writes⟩
      rw [Text.trim_between between writes.1.solid, Text.integerLiteral?_eq_some_iff.2 writes]

/-- The parameter names of a look-up, standard where it holds none. -/
def namesOf (lookup : String → Option String) : ParameterNames :=
  let name (role : Role) : String := (lookup role.option).getD (ParameterNames.standard.nameOf role)
  ⟨name .fields, name .filter, name .sort, name .relations, name .limit, name .offset⟩

/-- The look-up holds the settings, option by option. -/
structure SettledBy (lookup : String → Option String) (settings : Settings) : Prop where
  /-- Every name is that of the look-up, or the standard one. -/
  name : ∀ role, settings.names.nameOf role = (lookup role.option).getD (ParameterNames.standard.nameOf role)
  /-- The usual limit is that of the look-up, or ten. -/
  usual : LimitReads 10 (lookup "rest.limit.default") settings.limits.usual
  /-- The greatest limit is that of the look-up, or a hundred. -/
  greatest : LimitReads 100 (lookup "rest.limit.maxValue") settings.limits.greatest
  /-- The greatest limit admits a row. -/
  admits : 1 ≤ settings.limits.greatest

/-- A limit that is no integer fails the look-up, the usual one first, and so does a greatest limit that admits
no row. -/
theorem ofLookup_eq (lookup : String → Option String) : ofLookup lookup =
    (limitOption lookup "rest.limit.default" 10).bind fun usual =>
      (limitOption lookup "rest.limit.maxValue" 100).bind fun greatest =>
        if greatest < 1 then .error (.greatestBelowOne greatest) else .ok ⟨namesOf lookup, ⟨usual, greatest⟩⟩ :=
  rfl

/-- Names that are those of the look-up are found by it. -/
theorem names_eq_namesOf {lookup : String → Option String} {names : ParameterNames}
    (own : ∀ role, names.nameOf role = (lookup role.option).getD (ParameterNames.standard.nameOf role)) :
    names = namesOf lookup := by
  obtain ⟨fields, filter, sort, relations, limit, offset⟩ := names
  simp only [namesOf, ← own]
  rfl

/-- A look-up is accepted with the settings that it holds. -/
theorem ofLookup_eq_ok_iff {lookup : String → Option String} {settings : Settings} :
    ofLookup lookup = .ok settings ↔ SettledBy lookup settings := by
  rw [ofLookup_eq]
  constructor
  · intro accepted
    cases first : limitOption lookup "rest.limit.default" 10 with
    | error error =>
      rw [first] at accepted
      exact nomatch accepted
    | ok usual =>
      cases second : limitOption lookup "rest.limit.maxValue" 100 with
      | error error =>
        rw [first, second] at accepted
        exact nomatch accepted
      | ok greatest =>
        rw [first, second] at accepted
        simp only [Except.bind] at accepted
        split at accepted
        · exact nomatch accepted
        · next admits =>
          obtain rfl := Except.ok.inj accepted
          exact ⟨fun role => by cases role <;> rfl, limitOption_eq_ok_iff.1 first, limitOption_eq_ok_iff.1 second,
            Int.not_lt.1 admits⟩
  · rintro ⟨own, usual, greatest, admits⟩
    rw [limitOption_eq_ok_iff.2 usual, limitOption_eq_ok_iff.2 greatest]
    simp only [Except.bind]
    rw [if_neg (Int.not_lt.2 admits), ← names_eq_namesOf own]

/-- Settings as options, the limits in decimal. -/
def options (settings : Settings) : List (String × String) :=
  Role.all.map (fun role => (role.option, settings.names.nameOf role)) ++
    [("rest.limit.default", String.ofList (Text.decimal settings.limits.usual)),
      ("rest.limit.maxValue", String.ofList (Text.decimal settings.limits.greatest))]

/-- The look-up of written settings. -/
def written (settings : Settings) (option : String) : Option String := settings.options.lookup option

/-- A written limit reads as the limit. -/
theorem limitReads_decimal (standard : Int) {value : Int} (fits : Text.IsInt64 value) :
    LimitReads standard (some (String.ofList (Text.decimal value))) value := by
  refine ⟨Text.decimal value, ⟨[], [], ?_, nofun, nofun⟩, Text.writesInteger_decimal value, fits⟩
  rw [String.toList_ofList, List.nil_append, List.append_nil]

/-- Written settings are held by their look-up. -/
theorem settledBy_written {settings : Settings} (usual : Text.IsInt64 settings.limits.usual)
    (greatest : Text.IsInt64 settings.limits.greatest) (admits : 1 ≤ settings.limits.greatest) :
    SettledBy settings.written settings where
  name role := by cases role <;> rfl
  usual := limitReads_decimal 10 usual
  greatest := limitReads_decimal 100 greatest
  admits := admits

/-! ### The way over a nested object -/

/-- The options that a look-up holds under a heading, as the members of an object. -/
def membersUnder (lookup : String → Option String) (heading : String) (change : String → String)
    (options : List String) : Json :=
  .ofMembers (options.filterMap fun option =>
    (lookup (heading ++ option)).map fun text => (option, .string (change text)))

/-- A text without the blanks around it. -/
def trimmed (text : String) : String := String.ofList (Text.trim text.toList)

/-- The options of a look-up as an object of two objects, the limits without the blanks around them. -/
def nested (lookup : String → Option String) : Json :=
  .ofMembers [("keys", membersUnder lookup "rest.keys." id ["fields", "filter", "sort", "with", "limit", "offset"]),
    ("limit", membersUnder lookup "rest.limit." trimmed ["default", "maxValue"])]

/-- Options put into a list of members one after the other are found there, each with its text. -/
theorem lookup_foldl_insert_options (lookup : String → Option String) (heading : String) (change : String → String)
    (options : List String) (held : List (String × Json)) (name : String) :
    ((options.filterMap fun option => (lookup (heading ++ option)).map fun text =>
      (option, Json.string (change text))).foldl (fun present entry => Assoc.insert entry.1 entry.2 present)
        held).lookup name =
      if name ∈ options then ((lookup (heading ++ name)).map fun text => Json.string (change text)).or
        (held.lookup name) else held.lookup name := by
  induction options generalizing held with
  | nil => rfl
  | cons option rest ih =>
    cases found : lookup (heading ++ option) with
    | none =>
      rw [List.filterMap_cons_none (by rw [found]; rfl), ih]
      by_cases here : name = option
      · subst here
        simp [found]
      · simp [here]
    | some text =>
      rw [List.filterMap_cons_some (by rw [found]; rfl), List.foldl_cons, ih, Assoc.lookup_insert]
      by_cases here : name = option
      · subst here
        simp [found]
      · simp [here]

/-- The fields of an object of options are the options. -/
theorem recordFields?_membersUnder (names : List String) (lookup : String → Option String) (heading : String)
    (change : String → String) (options : List String) :
    recordFields? names (membersUnder lookup heading change options) = some fun name =>
      if name ∈ options then (lookup (heading ++ name)).map fun text => Json.string (change text) else none := by
  refine congrArg some (funext fun name => ?_)
  have found := lookup_foldl_insert_options lookup heading change options [] name
  rw [List.lookup_nil, Option.or_none] at found
  exact found

/-- A name is read as the text of its option, or is standard without one. -/
theorem readField_readText (standard : String) (text? : Option String) :
    readField readText standard (text?.map Json.string) = some (text?.getD standard) := by
  cases text? <;> rfl

/-- A limit is read from the trimmed text of its option as it is accepted from the option itself. -/
theorem readField_readLimit (lookup : String → Option String) (option : String) (standard : Int) :
    readField readLimit standard ((lookup option).map fun text => Json.string (trimmed text)) =
      (limitOption lookup option standard).toOption := by
  unfold limitOption
  cases lookup option with
  | none => rfl
  | some text =>
    have read : readLimit (Json.string (trimmed text)) = Text.integerLiteral? (Text.trim text.toList) := by
      rw [readLimit, trimmed, String.toList_ofList]
    simp only [Option.map_some, readField, read]
    cases Text.integerLiteral? (Text.trim text.toList) <;> rfl

/-- The names of the nested object are those of the look-up. -/
theorem readNames_membersUnder (lookup : String → Option String) :
    readNames (membersUnder lookup "rest.keys." id ["fields", "filter", "sort", "with", "limit", "offset"]) =
      some (namesOf lookup) := by
  have field : ∀ name ∈ ["fields", "filter", "sort", "with", "limit", "offset"], ∀ standard,
      readField readText standard (if name ∈ ["fields", "filter", "sort", "with", "limit", "offset"] then
        (lookup ("rest.keys." ++ name)).map fun text => Json.string (id text) else none) =
      some ((lookup ("rest.keys." ++ name)).getD standard) := by
    intro name listed standard
    rw [if_pos listed]
    exact readField_readText standard _
  simp only [readNames, recordFields?_membersUnder, Option.bind_eq_bind, Option.bind_some]
  rw [field "fields" (by decide), field "filter" (by decide), field "sort" (by decide), field "with" (by decide),
    field "limit" (by decide), field "offset" (by decide)]
  rfl

/-- The limits of the nested object are those that are accepted from the look-up. -/
theorem readLimits_membersUnder (lookup : String → Option String) :
    readLimits (membersUnder lookup "rest.limit." trimmed ["default", "maxValue"]) =
      (limitOption lookup "rest.limit.default" 10).toOption.bind fun usual =>
        (limitOption lookup "rest.limit.maxValue" 100).toOption.bind fun greatest => some ⟨usual, greatest⟩ := by
  simp only [readLimits, recordFields?_membersUnder, Option.bind_eq_bind, Option.bind_some]
  rw [if_pos (by decide), if_pos (by decide), readField_readLimit, readField_readLimit]
  rfl

/-- The settings of the nested object are those of the look-up, but for the check of the greatest limit. -/
theorem ofJson?_nested (lookup : String → Option String) : ofJson? (nested lookup) =
    (limitOption lookup "rest.limit.default" 10).toOption.bind fun usual =>
      (limitOption lookup "rest.limit.maxValue" 100).toOption.bind fun greatest =>
        some ⟨namesOf lookup, ⟨usual, greatest⟩⟩ := by
  have fields : recordFields? ["keys", "limit"] (nested lookup) = some fun name =>
      if name = "limit" then some (membersUnder lookup "rest.limit." trimmed ["default", "maxValue"])
      else if name = "keys" then some (membersUnder lookup "rest.keys." id
        ["fields", "filter", "sort", "with", "limit", "offset"])
      else none := by
    refine congrArg some (funext fun name => ?_)
    rw [Assoc.ofList, List.foldl_cons, List.foldl_cons, List.foldl_nil, Assoc.lookup_insert, Assoc.lookup_insert]
    rfl
  have apart : "keys" ≠ "limit" := by decide
  simp only [ofJson?, fields, Option.bind_eq_bind, Option.bind_some, if_pos, if_neg apart, readField,
    readNames_membersUnder, readLimits_membersUnder, Option.bind_assoc]
  rfl

/-- The way over the nested object, whose greatest limit is checked at the end, accepts the same look-ups with
the same settings. -/
theorem toOption_ofLookup (lookup : String → Option String) : (ofLookup lookup).toOption =
    (ofJson? (nested lookup)).filter fun settings => 1 ≤ settings.limits.greatest := by
  rw [ofLookup_eq, ofJson?_nested]
  cases limitOption lookup "rest.limit.default" 10 with
  | error error => rfl
  | ok usual =>
    cases limitOption lookup "rest.limit.maxValue" 100 with
    | error error => rfl
    | ok greatest =>
      simp only [Except.bind, Except.toOption, Option.bind_some]
      by_cases admits : greatest < 1
      · rw [if_pos admits, Option.filter_some_neg (by simpa using admits)]
      · rw [if_neg admits, Option.filter_some_pos (by simpa using admits)]

/-! ### What is accepted -/

/-- The settings of a look-up, a refusal being a fault of the server. -/
def resolve (lookup : String → Option String) : Except Fault Settings :=
  (ofLookup lookup).mapError Fault.ofSettings

/-- A look-up resolves to the settings that it holds. -/
theorem resolve_eq_ok_iff {lookup : String → Option String} {settings : Settings} :
    resolve lookup = .ok settings ↔ SettledBy lookup settings := by
  rw [← ofLookup_eq_ok_iff, resolve]
  cases ofLookup lookup with
  | ok found =>
    constructor
    · intro same
      exact congrArg Except.ok (Except.ok.inj same)
    · intro same
      exact congrArg Except.ok (Except.ok.inj same)
  | error error => exact ⟨nofun, nofun⟩

/-- A look-up is accepted exactly when each limit that it holds is, between blanks, the literal of an integer of
64 bits, and the greatest limit, a hundred where it holds none, is at least one. The settings are then those
that it holds: every name as it is, every limit exactly, and the standard value for each option that is absent,
whatever the others are. Any settings whose greatest limit is at least one are read back from their eight
options, a refusal is an internal fault, and the nested object of the options, read and checked at the end,
gives the same. -/
theorem lookup_settles (lookup : String → Option String) :
    ((∃ settings, resolve lookup = .ok settings) ↔
      (∃ usual, LimitReads 10 (lookup "rest.limit.default") usual) ∧
        ∃ greatest, LimitReads 100 (lookup "rest.limit.maxValue") greatest ∧ 1 ≤ greatest) ∧
    (∀ settings, resolve lookup = .ok settings ↔ SettledBy lookup settings) ∧
    (∀ settings : Settings, Text.IsInt64 settings.limits.usual → Text.IsInt64 settings.limits.greatest →
      1 ≤ settings.limits.greatest → resolve settings.written = .ok settings) ∧
    (∀ fault, resolve lookup = .error fault →
      ∃ detail, fault = .internal "Invalid REST configuration" (some detail)) ∧
    (resolve lookup).toOption =
      (ofJson? (nested lookup)).filter fun settings => 1 ≤ settings.limits.greatest := by
  refine ⟨⟨?_, ?_⟩, fun settings => resolve_eq_ok_iff, ?_, ?_, ?_⟩
  · rintro ⟨settings, accepted⟩
    have settled := resolve_eq_ok_iff.1 accepted
    exact ⟨⟨_, settled.usual⟩, _, settled.greatest, settled.admits⟩
  · rintro ⟨⟨usual, first⟩, greatest, second, admits⟩
    have settled : SettledBy lookup ⟨namesOf lookup, ⟨usual, greatest⟩⟩ :=
      ⟨fun role => by cases role <;> rfl, first, second, admits⟩
    exact ⟨_, resolve_eq_ok_iff.2 settled⟩
  · intro settings usual greatest admits
    exact resolve_eq_ok_iff.2 (settledBy_written usual greatest admits)
  · intro fault refused
    rw [resolve] at refused
    cases found : ofLookup lookup with
    | ok settings =>
      rw [found] at refused
      exact nomatch refused
    | error error =>
      rw [found] at refused
      exact ⟨error.detail, (Except.error.inj refused).symm⟩
  · rw [← toOption_ofLookup, resolve]
    cases ofLookup lookup <;> rfl

/-- Blanks, a plus and zeros in front of a limit do not count, and a usual limit may be above the greatest. -/
example : ofLookup (fun option => if option = "rest.limit.maxValue" then some "\u2003+050\n"
    else if option = "rest.limit.default" then some "70" else none) =
      .ok { Settings.standard with limits := ⟨70, 50⟩ } := by
  rfl

end Settings

end ResourceQuery
