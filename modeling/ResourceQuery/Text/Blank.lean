/-!
# Blank characters

A character is blank when it has the Unicode property White_Space. Trimming removes blanks from
the ends of a text and leaves the inside alone; every blank of ASCII is one of these
(`isBlank_of_isWhitespace`).
-/
namespace ResourceQuery.Text

/-- The Unicode property White_Space. -/
def isBlank (character : Char) : Bool :=
  let code := character.toNat
  (9 ≤ code && code ≤ 13) || code == 0x20 || code == 0x85 || code == 0xA0 || code == 0x1680
    || (0x2000 ≤ code && code ≤ 0x200A) || code == 0x2028 || code == 0x2029 || code == 0x202F
    || code == 0x205F || code == 0x3000

/-- The blanks of ASCII are blank. -/
theorem isBlank_of_isWhitespace {character : Char} (white : character.isWhitespace = true) :
    isBlank character = true := by
  simp only [Char.isWhitespace, Bool.or_eq_true, decide_eq_true_eq] at white
  rcases white with ((rfl | rfl) | rfl) | rfl <;> decide

/-- A text without its leading blanks. -/
def trimStart (text : List Char) : List Char := text.dropWhile isBlank

/-- A text without its trailing blanks. -/
def trimEnd (text : List Char) : List Char := (text.reverse.dropWhile isBlank).reverse

/-- A text without its leading and trailing blanks. -/
def trim (text : List Char) : List Char := trimEnd (trimStart text)

/-- Trimming at the start takes blanks off and nothing else. -/
theorem takeWhile_append_trimStart (text : List Char) :
    text.takeWhile isBlank ++ trimStart text = text := List.takeWhile_append_dropWhile

/-- The first run of characters that are not blank. -/
def firstWord? (text : List Char) : Option (List Char) :=
  match (trimStart text).takeWhile (fun character => !isBlank character) with
  | [] => none
  | word => some word

end ResourceQuery.Text
