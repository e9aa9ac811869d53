import ResourceQuery.Fault
import ResourceQuery.Http.ContentRange
import ResourceQuery.Service

/-!
# Responses

The status and headers of every kind of answer. Whatever has a JSON body says so in its content
type; a fault's body holds the message for the client and nothing else.
-/
namespace ResourceQuery.Http

/-- The body of a response. -/
inductive Body where
  /-- Plain text. -/
  | text (text : String)
  /-- A JSON value. -/
  | json (value : Json)

/-- A response. -/
structure Response where
  /-- The status code. -/
  status : Nat
  /-- The headers, by lower-case names. -/
  headers : List (String × String)
  /-- The body. -/
  body : Body

namespace Response

/-- A response without content. -/
def ofStatus (status : Nat) : Response := ⟨status, [], .text ""⟩

/-- A response with a JSON body. -/
def ofJson (status : Nat) (value : Json) : Response :=
  ⟨status, [("content-type", "application/json")], .json value⟩

/-- The response with a header, if there is one. -/
def withHeader (response : Response) (name : String) : Option String → Response
  | none => response
  | some value => { response with headers := response.headers ++ [(name, value)] }

/-- The response without its body. -/
def withoutBody (response : Response) : Response := { response with body := .text "" }

/-- One entity. -/
def item (value : Json) : Response := ofJson 200 value

/-- A page of a resource. -/
def collection (resource : String) (page : Page) : Response :=
  (ofJson 206 page.json).withHeader "content-range"
    (contentRange? page.offset page.count page.total resource)

/-- A created entity, and where it is if a header can hold that. -/
def created (value : Json) (location : Option String) : Response :=
  (ofJson 201 value).withHeader "location" (location.filter isHeaderValue)

/-- Work that is accepted and not done yet. -/
def accepted : Response := ofStatus 202

/-- Nothing to say. -/
def noContent : Response := ofStatus 204

/-- A deleted entity. -/
def deleted : Response := noContent

/-- An updated entity, given back or not. -/
def updated : Option Json → Response
  | some value => item value
  | none => ofStatus 200

/-- A fault. -/
def ofFault (fault : Fault) : Response :=
  ofJson fault.status (.object [("error", .string fault.message)])

/-- No such path. -/
def noRoute : Response := ofStatus 404

/-- A method that the path does not have. -/
def methodNotAllowed : Response := (ofStatus 405).withHeader "allow" (some "GET,HEAD")

/-- A segment of the path that is not well-formed UTF-8. -/
def undecodable (segment : String) : Response :=
  ⟨400, [("content-type", "text/plain; charset=utf-8")],
    .text ("Invalid URL: Invalid UTF-8 in \x60" ++ segment ++ "\x60")⟩

end Response

end ResourceQuery.Http
