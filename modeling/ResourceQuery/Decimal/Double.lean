/-!
# Binary64 encodings

The value of a finite encoding as a natural number times a power of two, and the encoding nearest
to a quotient of natural numbers, a tie going to the even neighbour. All of it is exact arithmetic
on natural numbers.
-/
namespace ResourceQuery.Decimal

/-- The magnitude `significand * 2 ^ exponent` of a finite binary64 encoding. -/
structure Binary where
  /-- The integral significand. -/
  significand : Nat
  /-- The power of two. -/
  exponent : Int
  /-- The encoding below lies at half the distance of the encoding above. -/
  narrowBelow : Bool

/-- The sign bit of an encoding. -/
def isNegative (bits : UInt64) : Bool := decide (Nat.pow 2 63 ≤ bits.toNat)

/-- The magnitude of a finite encoding. -/
def magnitude (bits : UInt64) : Binary :=
  let fraction : Nat := bits.toNat % Nat.pow 2 52
  let field : Nat := bits.toNat / Nat.pow 2 52 % Nat.pow 2 11
  if field = 0 then ⟨fraction, -1074, false⟩
  else ⟨Nat.pow 2 52 + fraction, (field : Int) - 1075, fraction = 0 && field ≠ 1⟩

/-- The quotient rounded to the nearest natural number, a half to the even one. -/
def roundQuotient (numerator denominator : Nat) : Nat :=
  let quotient := numerator / denominator
  let twice := 2 * (numerator % denominator)
  if twice < denominator then quotient
  else if denominator < twice then quotient + 1
  else quotient + quotient % 2

/-- The power of two at or below a positive quotient. -/
def binaryExponent (numerator denominator : Nat) : Int :=
  if denominator ≤ numerator then Nat.log2 (numerator / denominator)
  else -(Nat.log2 ((denominator - 1) / numerator) + 1 : Int)

/-- The encoding of the nonnegative value nearest to a quotient, if it is finite. -/
def nearest? (numerator denominator : Nat) : Option UInt64 :=
  if numerator = 0 then some 0
  else
    let exponent := max (binaryExponent numerator denominator - 52) (-1074)
    let significand :=
      if 0 ≤ exponent then roundQuotient numerator (denominator * Nat.pow 2 exponent.toNat)
      else roundQuotient (numerator * Nat.pow 2 (-exponent).toNat) denominator
    let code := (exponent + 1074).toNat * Nat.pow 2 52 + significand
    if code < 0x7FF0000000000000 then some (UInt64.ofNat code) else none

/-- The encoding with its sign bit set. -/
def negate (bits : UInt64) : UInt64 := bits ||| 0x8000000000000000

end ResourceQuery.Decimal
