import ResourceQuery.Decimal.Double

/-!
# Shortest decimals of binary64 values

The shortest decimal of a positive finite value is the one with the fewest digits that lies in the
interval of reals rounding to the value, and of those the nearest to the value. The ends of the
interval belong to it exactly when the significand is even. Seventeen digits always suffice.
-/
namespace ResourceQuery.Decimal

/-- The decimal `digits * 10 ^ exponent`. -/
structure Scaled where
  /-- The digits as one natural number. -/
  digits : Nat
  /-- The power of ten. -/
  exponent : Int
deriving DecidableEq, Repr

/-- A value with the ends of the interval that rounds to it, over one denominator. -/
structure Rounding where
  /-- The lower end. -/
  low : Nat
  /-- The value. -/
  value : Nat
  /-- The upper end. -/
  high : Nat
  /-- The denominator of the three. -/
  denominator : Nat
  /-- The ends round to the value. -/
  closed : Bool

/-- The interval that rounds to a magnitude. -/
def Rounding.ofBinary (binary : Binary) : Rounding :=
  let exponent := binary.exponent - 2
  let scale := if 0 ≤ exponent then Nat.pow 2 exponent.toNat else 1
  ⟨(4 * binary.significand - if binary.narrowBelow then 1 else 2) * scale,
    4 * binary.significand * scale, (4 * binary.significand + 2) * scale,
    if 0 ≤ exponent then 1 else Nat.pow 2 (-exponent).toNat, binary.significand % 2 = 0⟩

/-- The decimal lies in the interval. -/
def Rounding.holds (rounding : Rounding) (decimal : Scaled) : Bool :=
  let up := Nat.pow 10 decimal.exponent.toNat
  let down := Nat.pow 10 (-decimal.exponent).toNat
  let scaled := decimal.digits * up * rounding.denominator
  if rounding.closed then rounding.low * down ≤ scaled && scaled ≤ rounding.high * down
  else rounding.low * down < scaled && scaled < rounding.high * down

/-- The power of ten at or below a positive quotient. -/
def decimalExponent (numerator denominator : Nat) : Int :=
  if denominator ≤ numerator then ((Nat.toDigits 10 (numerator / denominator)).length : Int) - 1
  else -((Nat.toDigits 10 ((denominator - 1) / numerator)).length : Int)

/-- The decimal of at most so many digits in the interval, nearest to the value. -/
def Rounding.onGrid? (rounding : Rounding) (count : Nat) : Option Scaled :=
  let exponent := decimalExponent rounding.value rounding.denominator - count + 1
  let numerator := rounding.value * Nat.pow 10 (-exponent).toNat
  let denominator := rounding.denominator * Nat.pow 10 exponent.toNat
  let below : Scaled := ⟨numerator / denominator, exponent⟩
  let above : Scaled := ⟨numerator / denominator + 1, exponent⟩
  match rounding.holds below, rounding.holds above with
  | true, true => some ⟨roundQuotient numerator denominator, exponent⟩
  | true, false => some below
  | false, true => some above
  | false, false => none

/-- The first grid that has a decimal in the interval gives the shortest. -/
def shortest? (bits : UInt64) : Option Scaled :=
  let binary := magnitude bits
  if binary.significand = 0 then none
  else (List.range 17).findSome? fun count => (Rounding.ofBinary binary).onGrid? (count + 1)

/-- Where a format leaves positional notation. -/
structure Layout where
  /-- The least exponent of the leading digit written positionally. -/
  least : Int
  /-- The greatest exponent of the leading digit written positionally. -/
  greatest : Int

/-- Digits without the zeros at their end, and how many those were. -/
def dropTrailingZeros (digits : List Char) : List Char × Nat :=
  let kept := (digits.reverse.dropWhile (· == '0')).reverse
  (kept, digits.length - kept.length)

/-- The text of a positive decimal: positional with a fraction of at least one digit, or one digit
before the point and an exponent with its sign. -/
def Layout.write (layout : Layout) (decimal : Scaled) : List Char :=
  let (digits, zeros) := dropTrailingZeros (Nat.toDigits 10 decimal.digits)
  let leading : Int := decimal.exponent + zeros + digits.length - 1
  if layout.least ≤ leading ∧ leading ≤ layout.greatest then
    if leading < 0 then
      '0' :: '.' :: List.replicate (-leading - 1).toNat '0' ++ digits
    else
      let whole := digits.take (leading.toNat + 1)
      let fraction := digits.drop (leading.toNat + 1)
      whole ++ List.replicate (leading.toNat + 1 - digits.length) '0' ++
        '.' :: (if fraction.isEmpty then ['0'] else fraction)
  else
    let mantissa := match digits with
      | [] => []
      | [digit] => [digit]
      | digit :: fraction => digit :: '.' :: fraction
    let sign := if leading < 0 then '-' else '+'
    mantissa ++ 'e' :: sign :: Nat.toDigits 10 leading.natAbs

/-- The text of a finite encoding, zero written with one digit after the point. -/
def Layout.text (layout : Layout) (bits : UInt64) : List Char :=
  let sign := if isNegative bits then ['-'] else []
  match shortest? bits with
  | some decimal => sign ++ layout.write decimal
  | none => sign ++ ['0', '.', '0']

end ResourceQuery.Decimal
