import ResourceQuery.Text.Blank

/-!
# Decimal integers in texts

Two readings of an integer of 64 bits. `integerPrefix` never refuses: it takes the longest run of
digits after the blanks and one sign, and holds the value inside the range at every digit.
`integerLiteral?` accepts a text only when the whole of it is a literal in range. `decimal` writes
an integer.
-/
namespace ResourceQuery.Text

/-- The least integer of 64 bits. -/
def int64Min : Int := -9223372036854775808

/-- The greatest integer of 64 bits. -/
def int64Max : Int := 9223372036854775807

/-- An integer of 64 bits. -/
abbrev IsInt64 (value : Int) : Prop := int64Min ≤ value ∧ value ≤ int64Max

/-- The integer of 64 bits nearest to an integer. -/
def saturate (value : Int) : Int := max int64Min (min value int64Max)

/-- A saturated value is in range. -/
theorem saturate_mem (value : Int) : int64Min ≤ saturate value ∧ saturate value ≤ int64Max := by
  simp only [saturate, int64Min, int64Max]
  omega

/-- Saturation keeps a value in range. -/
theorem saturate_of_mem {value : Int} (low : int64Min ≤ value) (high : value ≤ int64Max) :
    saturate value = value := by
  simp only [saturate, int64Min, int64Max] at *
  omega

/-- The value of one decimal digit. -/
def digitValue (digit : Char) : Nat := digit.toNat - '0'.toNat

/-- One more digit on a saturated value; a negative value grows downwards. -/
def appendDigit (negative : Bool) (value : Int) (digit : Char) : Int :=
  let scaled := saturate (value * 10)
  saturate (if negative then scaled - digitValue digit else scaled + digitValue digit)

/-- The sign of a signed text, and the text after the sign. -/
def takeSign : List Char → Bool × List Char
  | '-' :: rest => (true, rest)
  | '+' :: rest => (false, rest)
  | rest => (false, rest)

/-- The integer at the front of a text after blanks and one sign, saturated digit by digit; zero
when no digit is there. -/
def integerPrefix (text : List Char) : Int :=
  let (negative, rest) := takeSign (trimStart text)
  (rest.takeWhile Char.isDigit).foldl (appendDigit negative) 0

/-- The integer that a literal writes, if the whole text is an optional sign and digits and the
value is in range. -/
def integerLiteral? (text : List Char) : Option Int :=
  let (negative, digits) := takeSign text
  if digits ≠ [] ∧ digits.all Char.isDigit then
    let magnitude : Int := Nat.ofDigitChars 10 digits 0
    let value := if negative then -magnitude else magnitude
    if int64Min ≤ value ∧ value ≤ int64Max then some value else none
  else none

/-- A literal that is read is in range. -/
theorem integerLiteral?_mem {text : List Char} {value : Int}
    (read : integerLiteral? text = some value) : int64Min ≤ value ∧ value ≤ int64Max := by
  simp only [integerLiteral?] at read
  split at read <;> try contradiction
  split at read <;> grind

/-- The decimal digits of an integer, with a sign in front of a negative one. -/
def decimal (value : Int) : List Char :=
  if value < 0 then '-' :: Nat.toDigits 10 value.natAbs else Nat.toDigits 10 value.natAbs

end ResourceQuery.Text
