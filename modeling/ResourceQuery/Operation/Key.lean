import ResourceQuery.Text.Split
import ResourceQuery.Text.Case

/-!
# Operation keys

Operations are registered and found under a key that does not depend on how a name separates its
words: `last_name_asc`, `last-name-asc` and `last.name asc` all have the key `lastNameAsc`. Inside
a word every character keeps its case.
-/
namespace ResourceQuery

/-- A character between the words of a name. -/
def isWordSeparator (character : Char) : Bool :=
  character == '.' || character == '-' || character == '_' || character == ' '

/-- The words of a name, empty ones included. -/
def nameWords (name : List Char) : List (List Char) := Text.pieces isWordSeparator name

/-- A word with its first character in upper case. -/
def capitalize : List Char → List Char
  | [] => []
  | first :: rest => Text.upper first ++ rest

/-- A word with its first character in lower case. -/
def uncapitalize : List Char → List Char
  | [] => []
  | first :: rest => Text.lower first ++ rest

/-- The key of a name: its words capitalised and joined, the first character in lower case. -/
def camelKey (name : String) : String :=
  String.ofList (uncapitalize ((nameWords name.toList).flatMap capitalize))

end ResourceQuery
