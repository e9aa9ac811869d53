import ResourceQuery.Text.Case.Table

/-!
# Case of one character

The full case mappings of a single character, which may expand: the upper case of `ß` is `SS`.
Inside ASCII they are the mappings of the core library (`upper_of_ascii`, `lower_of_ascii`).
-/
namespace ResourceQuery.Text

/-- The case of a code by its table: an expansion, else a range, else itself. -/
def mapCase (expansions : List (Nat × List Nat)) (ranges : List CaseRange) (code : Nat) :
    List Nat :=
  match expansions.lookup code with
  | some expansion => expansion
  | none => [(ranges.findSome? (·.map? code)).getD code]

/-- The upper case of a character. -/
def upper (character : Char) : List Char :=
  if character.toNat < 128 then [character.toUpper]
  else (mapCase upperExpansions upperRanges character.toNat).map Char.ofNat

/-- The lower case of a character. -/
def lower (character : Char) : List Char :=
  if character.toNat < 128 then [character.toLower]
  else (mapCase lowerExpansions lowerRanges character.toNat).map Char.ofNat

/-- The upper case of an ASCII character is one character. -/
theorem upper_of_ascii {character : Char} (ascii : character.toNat < 128) :
    upper character = [character.toUpper] := if_pos ascii

/-- The lower case of an ASCII character is one character. -/
theorem lower_of_ascii {character : Char} (ascii : character.toNat < 128) :
    lower character = [character.toLower] := if_pos ascii

end ResourceQuery.Text
