import ResourceQuery.Text.Quoted.Table

/-!
# Quoted texts for descriptions

A text between double quotes in which a reader sees every character: quotes and backslashes have a
backslash in front, the common controls their letters, and every other character without a shape
of its own its code in braces.
-/
namespace ResourceQuery.Text

/-- The character has a shape of its own. -/
def hasShape (character : Char) : Bool :=
  let code := character.toNat
  if code < 0x80 then 0x20 ≤ code && code ≤ 0x7E
  else !shapelessRanges.any fun range => range.1 ≤ code && code ≤ range.2

/-- A character inside quotes. -/
def quotedCharacter (character : Char) : List Char :=
  match character with
  | '"' => ['\\', '"']
  | '\\' => ['\\', '\\']
  | '\n' => ['\\', 'n']
  | '\r' => ['\\', 'r']
  | '\t' => ['\\', 't']
  | '\x00' => ['\\', '0']
  | other =>
    if hasShape other then [other]
    else '\\' :: 'u' :: '\x7b' :: Nat.toDigits 16 other.toNat ++ ['\x7d']

/-- A text between quotes. -/
def quoted (text : String) : String :=
  String.ofList ('"' :: text.toList.flatMap quotedCharacter ++ ['"'])

end ResourceQuery.Text
