import ResourceQuery.Database.Basic
import ResourceQuery.Settings
import ResourceQuery.Text.Blank

/-!
# Faults

What ends a request. Nothing that a client writes into its parameters is a fault; what is left is
an item that does not exist, a request that cannot be decoded, and failures of the database or of
the settings, whose causes never enter the message for the client.
-/
namespace ResourceQuery

/-- Why a request was not answered. -/
inductive Fault where
  /-- The resource, or the item of an identifier in it, does not exist. -/
  | notFound (resource : String) (id : Option String)
  /-- The request cannot be decoded. -/
  | badRequest (message : String)
  /-- A statement failed. -/
  | database (cause : DatabaseError)
  /-- Anything else that the server has to answer for, with what its own log says. -/
  | internal (message : String) (detail : Option String)
deriving DecidableEq

namespace Fault

/-- What the client is told. -/
def message : Fault → String
  | notFound resource (some id) => resource ++ " with ID '" ++ id ++ "' not found"
  | notFound resource none => resource ++ " not found"
  | badRequest message => message
  | database _ => "A database error occurred"
  | internal message _ => message

/-- The status of the answer. -/
def status : Fault → Nat
  | notFound _ _ => 404
  | badRequest _ => 400
  | database _ => 500
  | internal _ _ => 500

/-- The fault of a failed statement: a missing record is not found under the first word of its
message, every other failure stays one. -/
def ofDatabase : DatabaseError → Fault
  | .recordNotFound message =>
    notFound (((Text.firstWord? message.toList).map String.ofList).getD "Resource") none
  | cause => database cause

/-- The fault of refused settings. -/
def ofSettings (error : SettingsError) : Fault :=
  internal "Invalid REST configuration" (some error.detail)

end Fault

/-- A computation on a database state that may end with a fault. -/
abbrev Outcome (σ : Type) := ExceptT Fault (StateM σ)

/-- A session as an outcome, its failures being faults. -/
def Outcome.ofSession {σ α : Type} (session : Session σ α) : Outcome σ α :=
  ExceptT.adapt Fault.ofDatabase session

end ResourceQuery
