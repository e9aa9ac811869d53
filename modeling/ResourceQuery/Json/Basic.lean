import ResourceQuery.Assoc
import ResourceQuery.Text.Integer

/-!
# JSON values

Rows, bodies and settings are JSON values. The members of an object are listed in the order of
their names (`Json.ofMembers` puts them so), a later member of a name replacing the earlier, and
a number is either an integer or a binary64 value: the two are different values also where they
are numerically equal.
-/
namespace ResourceQuery

/-- A number as it was written: without or with a fraction or exponent. -/
inductive Number where
  /-- An integer. -/
  | integer (value : Int)
  /-- The encoding of a finite binary64 value. -/
  | float (bits : UInt64)
deriving DecidableEq

/-- A JSON value. -/
inductive Json where
  /-- The null value. -/
  | null
  /-- A truth value. -/
  | bool (value : Bool)
  /-- A number. -/
  | number (value : Number)
  /-- A text. -/
  | string (text : String)
  /-- Values in order. -/
  | array (items : List Json)
  /-- Values by name. -/
  | object (members : List (String × Json))

namespace Json

instance : Inhabited Json := ⟨null⟩

/-- An integer as a value. -/
def integer (value : Int) : Json := number (.integer value)

/-- A natural number as a value. -/
def natural (value : Nat) : Json := integer value

/-- A list of texts as a value. -/
def strings (texts : List String) : Json := array (texts.map string)

/-- The object of the given members, a later one of a name replacing the earlier. -/
def ofMembers (members : List (String × Json)) : Json := object (Assoc.ofList members)

/-- A value that may be absent, null standing for none. -/
def ofOption {α : Type} (encode : α → Json) : Option α → Json
  | none => null
  | some value => encode value

/-- The value is null. -/
def isNull : Json → Bool
  | null => true
  | _ => false

/-- The member of a name, if the value is an object that has it. -/
def member? (name : String) : Json → Option Json
  | object members => members.lookup name
  | _ => none

/-- The value with a member set; a value that is not an object stays as it is. -/
def setMember (json : Json) (name : String) (value : Json) : Json :=
  match json with
  | object members => object (Assoc.insert name value members)
  | other => other

/-- The integer of 64 bits that the value is. -/
def int64? : Json → Option Int
  | number (.integer value) =>
    if Text.int64Min ≤ value ∧ value ≤ Text.int64Max then some value else none
  | _ => none

/-- An integer that is read is in range. -/
theorem int64?_mem {json : Json} {value : Int} (read : json.int64? = some value) :
    Text.int64Min ≤ value ∧ value ≤ Text.int64Max := by
  unfold int64? at read
  split at read <;> grind

end Json

end ResourceQuery
