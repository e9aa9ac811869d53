import ResourceQuery.Json.Basic
import ResourceQuery.Parameter.Set

/-!
# Settings

How the query parameters are named and how many rows a page may hold. Settings come from a look-up
of dotted options, from an environment under the upper-case names of the same options, or from a
JSON value; an option that is absent keeps its standard value. A look-up fails exactly when a
limit is no integer or the greatest limit is below one.
-/
namespace ResourceQuery

/-- The limits of a page. -/
structure LimitSettings where
  /-- The limit where nobody asks for one. -/
  usual : Int
  /-- The greatest limit. -/
  greatest : Int
deriving DecidableEq

/-- Ten rows, and at most a hundred. -/
def LimitSettings.standard : LimitSettings := ⟨10, 100⟩

/-- The settings of a server. -/
structure Settings where
  /-- The names of the query parameters. -/
  names : ParameterNames
  /-- The limits of a page. -/
  limits : LimitSettings
deriving DecidableEq

/-- Why settings are refused. -/
inductive SettingsError where
  /-- A limit that is no integer. -/
  | unreadableLimit (option text : String)
  /-- A greatest limit that admits no row. -/
  | greatestBelowOne (value : Int)
deriving DecidableEq

/-- What is wrong, for the server's own log. No answer shows it. For a limit that is no integer the words are this
library's own: a reader of JSON values, by which limits may be read as well, has a wording of its own for that. -/
def SettingsError.detail : SettingsError → String
  | .unreadableLimit option text => "no integer in " ++ option ++ ": " ++ text
  | .greatestBelowOne value =>
    "rest.limit.maxValue must be at least 1, got " ++ String.ofList (Text.decimal value)

namespace Settings

/-- The settings where nothing is configured. -/
def standard : Settings := ⟨.standard, .standard⟩

/-- The integer of a limit option, blanks around it apart. -/
def limitOption (lookup : String → Option String) (option : String) (standard : Int) :
    Except SettingsError Int :=
  match lookup option with
  | none => .ok standard
  | some text =>
    match Text.integerLiteral? (Text.trim text.toList) with
    | some value => .ok value
    | none => .error (.unreadableLimit option text)

/-- The settings of a look-up of options. -/
def ofLookup (lookup : String → Option String) : Except SettingsError Settings := do
  let names := ParameterNames.standard
  let usual ← limitOption lookup "rest.limit.default" LimitSettings.standard.usual
  let greatest ← limitOption lookup "rest.limit.maxValue" LimitSettings.standard.greatest
  if greatest < 1 then throw (.greatestBelowOne greatest)
  return {
    names := {
      fields := (lookup "rest.keys.fields").getD names.fields
      filter := (lookup "rest.keys.filter").getD names.filter
      sort := (lookup "rest.keys.sort").getD names.sort
      relations := (lookup "rest.keys.with").getD names.relations
      limit := (lookup "rest.keys.limit").getD names.limit
      offset := (lookup "rest.keys.offset").getD names.offset }
    limits := { usual, greatest } }

/-- The environment name of an option. -/
def environmentName (option : String) : String :=
  String.ofList (option.toList.map fun character =>
    if character = '.' then '_' else character.toUpper)

/-- The settings of an environment. -/
def ofEnvironment (environment : String → Option String) : Except SettingsError Settings :=
  ofLookup fun option => environment (environmentName option)

/-- The fields of a record: the members of an object, or the items of an array in the order of the
field names, an array with more items than names being none. -/
def recordFields? (names : List String) : Json → Option (String → Option Json)
  | .object members => some fun name => members.lookup name
  | .array items =>
    if items.length ≤ names.length then some fun name => (names.zip items).lookup name else none
  | _ => none

/-- A field that keeps its standard value when it is absent. -/
def readField {α : Type} (read : Json → Option α) (standard : α) : Option Json → Option α
  | none => some standard
  | some json => read json

/-- A text. -/
def readText : Json → Option String
  | .string text => some text
  | _ => none

/-- An integer of 64 bits, as a number or as the text of a literal. -/
def readLimit : Json → Option Int
  | .string text => Text.integerLiteral? text.toList
  | json => json.int64?

/-- The parameter names of a JSON value. -/
def readNames (json : Json) : Option ParameterNames := do
  let names := ParameterNames.standard
  let field ← recordFields? ["fields", "filter", "sort", "with", "limit", "offset"] json
  return {
    fields := ← readField readText names.fields (field "fields")
    filter := ← readField readText names.filter (field "filter")
    sort := ← readField readText names.sort (field "sort")
    relations := ← readField readText names.relations (field "with")
    limit := ← readField readText names.limit (field "limit")
    offset := ← readField readText names.offset (field "offset") }

/-- The limits of a JSON value. -/
def readLimits (json : Json) : Option LimitSettings := do
  let field ← recordFields? ["default", "maxValue"] json
  return {
    usual := ← readField readLimit LimitSettings.standard.usual (field "default")
    greatest := ← readField readLimit LimitSettings.standard.greatest (field "maxValue") }

/-- The settings of a JSON value, the greatest limit unchecked. -/
def ofJson? (json : Json) : Option Settings := do
  let field ← recordFields? ["keys", "limit"] json
  return {
    names := ← readField readNames .standard (field "keys")
    limits := ← readField readLimits .standard (field "limit") }

end Settings

end ResourceQuery
