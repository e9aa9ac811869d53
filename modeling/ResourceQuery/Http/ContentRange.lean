import ResourceQuery.Text.Integer

/-!
# Content ranges

A page of a collection says which of the rows it holds: the unit, the first and last position
and the number of all rows. A page without rows has no positions. A unit that no header can hold
gives no header.
-/
namespace ResourceQuery.Http

/-- The greatest position. -/
def greatestPosition : Nat := 18446744073709551615

/-- The last position of a page that is not empty, held at the greatest one. -/
def lastPosition (offset count : Nat) : Nat := min (offset + (count - 1)) greatestPosition

/-- The range of a page. -/
def contentRange (offset count total : Nat) (unit : String) : String :=
  let range :=
    if count = 0 then ['*']
    else Nat.toDigits 10 offset ++ '-' :: Nat.toDigits 10 (lastPosition offset count)
  unit ++ String.ofList (' ' :: range ++ '/' :: Nat.toDigits 10 total)

/-- A header can hold the text: no control character but the tab. -/
def isHeaderValue (text : String) : Bool :=
  text.toList.all fun character =>
    (0x20 ≤ character.toNat && character.toNat != 0x7F) || character == '\t'

/-- The range of a page, if a header can hold it. -/
def contentRange? (offset count total : Nat) (unit : String) : Option String :=
  let range := contentRange offset count total unit
  if isHeaderValue range then some range else none

end ResourceQuery.Http
