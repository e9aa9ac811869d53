import ResourceQuery.Json.Basic
import ResourceQuery.Decimal.Double
import ResourceQuery.Text.Hex

/-!
# Reading JSON text

`Json.ofText?` reads one value that fills a whole text, blanks around it apart. An integer of 64
bits, signed or unsigned, stays an integer; a greater one, minus zero and every number with a
fraction or an exponent is the nearest binary64 value, and a number too great for one is refused.
Fuel bounds the recursion: of two nested calls one consumes a character, so twice the length and
two more suffice.
-/
namespace ResourceQuery.Json

/-- The text after the blanks between tokens. -/
def skipBlanks (text : List Char) : List Char :=
  text.dropWhile fun character =>
    character == ' ' || character == '\n' || character == '\t' || character == '\r'

/-- A code unit of four hexadecimal digits, and the text after it. -/
def readUnit? : List Char → Option (Nat × List Char)
  | a :: b :: c :: d :: rest => do
    let high ← Text.hexDigit? a
    let second ← Text.hexDigit? b
    let third ← Text.hexDigit? c
    let low ← Text.hexDigit? d
    some (((high * 16 + second) * 16 + third) * 16 + low, rest)
  | _ => none

/-- The character that an escape stands for, and the text after it; a pair of surrogates is one
character and a lone one is refused. -/
def readEscape? : List Char → Option (Char × List Char)
  | '"' :: rest => some ('"', rest)
  | '\\' :: rest => some ('\\', rest)
  | '/' :: rest => some ('/', rest)
  | 'b' :: rest => some ('\x08', rest)
  | 'f' :: rest => some ('\x0c', rest)
  | 'n' :: rest => some ('\n', rest)
  | 'r' :: rest => some ('\r', rest)
  | 't' :: rest => some ('\t', rest)
  | 'u' :: rest => do
    let (unit, rest) ← readUnit? rest
    if 0xD800 ≤ unit ∧ unit ≤ 0xDBFF then
      match rest with
      | '\\' :: 'u' :: rest =>
        let (low, rest) ← readUnit? rest
        if 0xDC00 ≤ low ∧ low ≤ 0xDFFF then
          some (Char.ofNat (0x10000 + (unit - 0xD800) * 0x400 + (low - 0xDC00)), rest)
        else none
      | _ => none
    else if 0xDC00 ≤ unit ∧ unit ≤ 0xDFFF then none
    else some (Char.ofNat unit, rest)
  | _ => none

/-- The characters of a string up to its closing quote, and the text after it. -/
def readString? : Nat → List Char → Option (List Char × List Char)
  | 0, _ => none
  | _ + 1, [] => none
  | _ + 1, '"' :: rest => some ([], rest)
  | fuel + 1, '\\' :: rest => do
    let (character, rest) ← readEscape? rest
    let (characters, rest) ← readString? fuel rest
    some (character :: characters, rest)
  | fuel + 1, character :: rest => do
    if character.toNat < 0x20 then none
    let (characters, rest) ← readString? fuel rest
    some (character :: characters, rest)

/-- The digits at the front of a text, at least one, and the text after them. -/
def readDigits? (text : List Char) : Option (List Char × List Char) :=
  match text.takeWhile Char.isDigit with
  | [] => none
  | digits => some (digits, text.dropWhile Char.isDigit)

/-- The number `digits * 10 ^ exponent`, nearest as a binary64 value. -/
def decimalNumber? (negative : Bool) (digits : List Char) (exponent : Int) : Option Number := do
  let value := Nat.ofDigitChars 10 digits 0
  let bits ←
    if value = 0 then some 0
    else if (400 : Int) < exponent + digits.length then none
    else if exponent + digits.length < (-400 : Int) then some 0
    else Decimal.nearest? (value * Nat.pow 10 exponent.toNat) (Nat.pow 10 (-exponent).toNat)
  some (.float (if negative then Decimal.negate bits else bits))

/-- An integer kept when it has 64 bits, otherwise the nearest binary64 value. -/
def wholeNumber? (negative : Bool) (digits : List Char) : Option Number :=
  let value := Nat.ofDigitChars 10 digits 0
  if negative then
    if 0 < value ∧ value ≤ Nat.pow 2 63 then some (.integer (-value))
    else decimalNumber? true digits 0
  else if value < Nat.pow 2 64 then some (.integer value)
  else decimalNumber? false digits 0

/-- The exponent part of a number, and the text after it. -/
def readExponent? : List Char → Option (Option Int × List Char)
  | mark :: rest => do
    if mark ≠ 'e' ∧ mark ≠ 'E' then return (none, mark :: rest)
    let (negative, rest) := Text.takeSign rest
    let (digits, rest) ← readDigits? rest
    let value : Int := Nat.ofDigitChars 10 digits 0
    some (some (if negative then -value else value), rest)
  | [] => some (none, [])

/-- A number at the front of a text. -/
def readNumber? (text : List Char) : Option (Number × List Char) := do
  let (negative, text) := match text with
    | '-' :: rest => (true, rest)
    | rest => (false, rest)
  let (whole, text) ← readDigits? text
  if whole.head? = some '0' ∧ whole ≠ ['0'] then none
  let (fraction, text) ← match text with
    | '.' :: rest => readDigits? rest
    | rest => some ([], rest)
  let (exponent, text) ← readExponent? text
  let number ← match fraction, exponent with
    | [], none => wholeNumber? negative whole
    | _, _ => decimalNumber? negative (whole ++ fraction) (exponent.getD 0 - fraction.length)
  some (number, text)

mutual

/-- A value at the front of a text, and the text after it. -/
def readValue? : Nat → List Char → Option (Json × List Char)
  | 0, _ => none
  | fuel + 1, text =>
    match skipBlanks text with
    | 'n' :: 'u' :: 'l' :: 'l' :: rest => some (null, rest)
    | 't' :: 'r' :: 'u' :: 'e' :: rest => some (bool true, rest)
    | 'f' :: 'a' :: 'l' :: 's' :: 'e' :: rest => some (bool false, rest)
    | '"' :: rest => do
      let (characters, rest) ← readString? fuel rest
      some (string (String.ofList characters), rest)
    | '[' :: rest =>
      match skipBlanks rest with
      | ']' :: rest => some (array [], rest)
      | rest => (readItems? fuel rest).map fun (items, rest) => (array items, rest)
    | '\x7b' :: rest =>
      match skipBlanks rest with
      | '\x7d' :: rest => some (object [], rest)
      | rest => (readMembers? fuel rest).map fun (members, rest) => (ofMembers members, rest)
    | rest => (readNumber? rest).map fun (value, rest) => (number value, rest)

/-- Values up to the bracket that closes their array, and the text after it. -/
def readItems? : Nat → List Char → Option (List Json × List Char)
  | 0, _ => none
  | fuel + 1, text => do
    let (item, rest) ← readValue? fuel text
    match skipBlanks rest with
    | ',' :: rest =>
      let (items, rest) ← readItems? fuel rest
      some (item :: items, rest)
    | ']' :: rest => some ([item], rest)
    | _ => none

/-- Members up to the brace that closes their object, and the text after it. -/
def readMembers? : Nat → List Char → Option (List (String × Json) × List Char)
  | 0, _ => none
  | fuel + 1, text =>
    match skipBlanks text with
    | '"' :: rest => do
      let (name, rest) ← readString? fuel rest
      match skipBlanks rest with
      | ':' :: rest =>
        let (value, rest) ← readValue? fuel rest
        match skipBlanks rest with
        | ',' :: rest =>
          let (members, rest) ← readMembers? fuel rest
          some ((String.ofList name, value) :: members, rest)
        | '\x7d' :: rest => some ([(String.ofList name, value)], rest)
        | _ => none
      | _ => none
    | _ => none

end

/-- The value that a whole text writes. -/
def ofText? (text : String) : Option Json := do
  let characters := text.toList
  let (value, rest) ← readValue? (2 * characters.length + 2) characters
  if (skipBlanks rest).isEmpty then some value else none

end ResourceQuery.Json
