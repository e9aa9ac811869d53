import ResourceQuery.Text.Split
import ResourceQuery.Text.Hex
import ResourceQuery.Text.Utf8

/-!
# Request targets

A target is a path and a query. It may be written in absolute form, with a scheme and an authority
in front, which say nothing about what is asked for. Percent escapes stand for bytes and a bad
escape for itself. The query is a form: pairs between ampersands, each a name and a value around
the first equals sign, a plus standing for a space and ill-formed bytes for replacement characters.
-/
namespace ResourceQuery.Http

/-- The byte of two hexadecimal digits. -/
def escapedByte? (high low : Char) : Option UInt8 := do
  let high ← Text.hexDigit? high
  let low ← Text.hexDigit? low
  return UInt8.ofNat (high * 16 + low)

/-- The bytes of a text with percent escapes. -/
def percentDecode : List Char → List UInt8
  | [] => []
  | '%' :: high :: low :: rest =>
    match escapedByte? high low with
    | some byte => byte :: percentDecode rest
    | none => String.utf8EncodeChar '%' ++ percentDecode (high :: low :: rest)
  | character :: rest => String.utf8EncodeChar character ++ percentDecode rest

/-- A target. -/
structure Target where
  /-- The path as written. -/
  path : List Char
  /-- The query as written. -/
  query : List Char

namespace Target

/-- The character ends the path. -/
def endsPath (character : Char) : Bool := character == '?' || character == '#'

/-- The character ends the authority. -/
def endsAuthority (character : Char) : Bool := character == '/' || endsPath character

/-- The text from the path on: without scheme and authority where it has them. -/
def withoutOrigin (text : List Char) : List Char :=
  match text.dropWhile fun character => !(character == ':' || endsAuthority character) with
  | ':' :: '/' :: '/' :: rest => rest.dropWhile fun character => !endsAuthority character
  | _ => text

/-- The target of a text: the path ends at a question mark, and a fragment does not count. -/
def ofText (text : String) : Target :=
  let text := withoutOrigin text.toList
  { path := text.takeWhile fun character => !endsPath character
    query := match text.dropWhile fun character => !endsPath character with
      | '?' :: rest => rest.takeWhile (· != '#')
      | _ => [] }

/-- A text that starts with its path has no origin to leave off. -/
theorem withoutOrigin_slash (text : List Char) : withoutOrigin ('/' :: text) = '/' :: text := by
  simp [withoutOrigin, endsAuthority]

/-- A name or value of a form. -/
def formText (text : List Char) : String :=
  Text.utf8Lossy (percentDecode (text.map fun character =>
    if character = '+' then ' ' else character))

/-- The pair that a piece of a form writes. -/
def formPair (piece : List Char) : String × String :=
  match Text.splitFirst? '=' piece with
  | some (name, value) => (formText name, formText value)
  | none => (formText piece, "")

/-- The pairs of the query. -/
def pairs (target : Target) : List (String × String) :=
  ((Text.pieces (· == '&') target.query).filter fun piece => !piece.isEmpty).map formPair

end Target

/-- What a path asks for, its segments as written. -/
inductive Route where
  /-- The rows of a resource. -/
  | collection (resource : List Char)
  /-- One row of a resource. -/
  | item (resource id : List Char)
deriving DecidableEq

/-- The route of a path of one or two segments, the last of them not empty. -/
def Route.ofPath? (path : List Char) : Option Route :=
  match path with
  | '/' :: rest =>
    match Text.pieces (· == '/') rest with
    | [resource] => if resource.isEmpty then none else some (collection resource)
    | [resource, id] => if id.isEmpty then none else some (item resource id)
    | _ => none
  | _ => none

end ResourceQuery.Http
