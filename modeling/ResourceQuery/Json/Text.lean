import ResourceQuery.Json.Basic
import ResourceQuery.Decimal.Shortest

/-!
# Compact JSON text

The text of a value without blanks. Inside a string a quote, a backslash and the controls below
U+0020 are escaped and every other character is written as it is; an integer is written in
decimal and a binary64 value as its shortest decimal, which always shows a fraction or an exponent.
-/
namespace ResourceQuery.Json

/-- Binary64 values are positional from five zeros after the point to sixteen whole digits. -/
def layout : Decimal.Layout := ⟨-5, 15⟩

/-- The text of a number. -/
def numberText : Number → List Char
  | .integer value => Text.decimal value
  | .float bits => layout.text bits

/-- A character of a string, escaped where it has to be. -/
def escape (character : Char) : List Char :=
  match character with
  | '"' => ['\\', '"']
  | '\\' => ['\\', '\\']
  | '\n' => ['\\', 'n']
  | '\r' => ['\\', 'r']
  | '\t' => ['\\', 't']
  | '\x08' => ['\\', 'b']
  | '\x0c' => ['\\', 'f']
  | other =>
    if other.toNat < 0x20 then
      ['\\', 'u', '0', '0', Nat.digitChar (other.toNat / 16), Nat.digitChar (other.toNat % 16)]
    else [other]

/-- A text between quotes. -/
def quote (text : String) : List Char := '"' :: text.toList.flatMap escape ++ ['"']

mutual

/-- The characters of a value. -/
def characters : Json → List Char
  | null => ['n', 'u', 'l', 'l']
  | bool true => ['t', 'r', 'u', 'e']
  | bool false => ['f', 'a', 'l', 's', 'e']
  | number value => numberText value
  | string text => quote text
  | array items => '[' :: itemCharacters items ++ [']']
  | object members => '\x7b' :: memberCharacters members ++ ['\x7d']

/-- The characters of values between commas. -/
def itemCharacters : List Json → List Char
  | [] => []
  | [item] => item.characters
  | item :: next :: rest => item.characters ++ ',' :: itemCharacters (next :: rest)

/-- The characters of members between commas. -/
def memberCharacters : List (String × Json) → List Char
  | [] => []
  | [(name, value)] => quote name ++ ':' :: value.characters
  | (name, value) :: next :: rest =>
    quote name ++ ':' :: value.characters ++ ',' :: memberCharacters (next :: rest)

end

/-- The compact text of a value. -/
def text (json : Json) : String := String.ofList json.characters

end ResourceQuery.Json
