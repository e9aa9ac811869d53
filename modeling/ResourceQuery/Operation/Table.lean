import ResourceQuery.Operation.Key
import ResourceQuery.SortedMap
import ResourceQuery.Text.Quoted

/-!
# Operation tables

Operations by the keys of the names that they were registered under. Names with the same key name
the same operation, and a later registration replaces the earlier (`find?_register`).
-/
namespace ResourceQuery

/-- Operations by key. -/
abbrev Operations (α : Type) := SortedMap String α

namespace Operations

variable {α : Type}

/-- The table with an operation under the key of a name. -/
def register (table : Operations α) (name : String) (operation : α) : Operations α :=
  table.insert (camelKey name) operation

/-- A registered operation is found under the key of its name. -/
theorem find?_register (table : Operations α) (name key : String) (operation : α) :
    (table.register name operation).find? key =
      if key = camelKey name then some operation else table.find? key :=
  SortedMap.find?_insert table (camelKey name) key operation

/-- The keys of a table under a label. -/
def describe (label : String) (table : Operations α) : String :=
  label ++ " \x7b operations: [" ++ ", ".intercalate (table.keys.map Text.quoted) ++ "] \x7d"

end Operations

end ResourceQuery
