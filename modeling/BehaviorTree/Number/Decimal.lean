import BehaviorTree.Number.Binary64

/-!
# Decimal text of doubles

`Binary64.shortest` finds the fewest decimal digits that read back as the same double, and of
those the nearest to it. How the digits are laid out is left to a `DecimalStyle`, which the
module that writes the text supplies. `Binary64.fixed` writes a given number of places instead.
-/

namespace BehaviorTree

/-- Which of two equally near decimals is chosen. -/
inductive TieRule where
  | even
  | up
deriving DecidableEq

/-- The number `digits * 10 ^ exponent`. -/
structure Decimal where
  digits : Nat
  /-- The power of ten that the digits are scaled by. -/
  exponent : Int
deriving DecidableEq

namespace Binary64

/-- The point of the grid of multiples of `10 ^ exponent` that is nearest to a finite double, if
it lies among the reals that round to that double. The reals that round to an even significand
include the ends of their interval. Just above a power of two the interval is shorter below. -/
def onGrid? (tie : TieRule) (number : Binary64) (exponent : Int) : Option Decimal :=
  let power := number.exponent - 2
  let unit := Nat.pow 10 exponent.toNat <<< (-power).toNat
  let scale := Nat.pow 10 (-exponent).toNat <<< power.toNat
  let centre := 4 * number.significand * scale
  let below := if number.significand = 0x10000000000000 ∧ number.exponent ≠ -1074 then 1 else 2
  let lower := (4 * number.significand - below) * scale
  let upper := (4 * number.significand + 2) * scale
  let inside (point : Nat) : Bool :=
    if number.significand % 2 = 0 then lower ≤ point * unit && point * unit ≤ upper
    else lower < point * unit && point * unit < upper
  let left := centre / unit
  let right := left + 1
  let preferred := match tie with
    | .even => if left % 2 = 0 then left else right
    | .up => right
  let nearer :=
    if centre - left * unit < right * unit - centre then left
    else if right * unit - centre < centre - left * unit then right
    else preferred
  let farther := if nearer = left then right else left
  if inside nearer then some ⟨nearer, exponent⟩
  else if inside farther then some ⟨farther, exponent⟩
  else none

/-- The shortest decimal that reads back as a finite double other than zero. The first grid lies
above the double, and the seventeenth below it always holds a point. -/
def shortest (tie : TieRule) (number : Binary64) : Decimal :=
  let first := ((number.significand.log2 : Int) + 1 + number.exponent) * 30103 / 100000 + 2
  let grids := (List.range 24).map fun step : Nat => first - (step : Int)
  (grids.findSome? (number.onGrid? tie)).getD ⟨number.numerator / number.denominator, 0⟩

end Binary64

/-- How the digits of a double are laid out. -/
structure DecimalStyle where
  /-- The choice between two shortest decimals that are equally near. -/
  tie : TieRule
  positional : Int → Bool
  integralEnding : String

namespace DecimalStyle

/-- Digits with plain positions, the first one standing for `10 ^ leading`. -/
def placeDigits (style : DecimalStyle) (digits : List Char) (leading : Int) : String :=
  let whole := (leading + 1).toNat
  if leading < 0 then
    "0." ++ String.ofList (List.replicate (-leading - 1).toNat '0' ++ digits)
  else if digits.length ≤ whole then
    String.ofList (digits ++ List.replicate (whole - digits.length) '0') ++ style.integralEnding
  else
    String.ofList (digits.take whole ++ '.' :: digits.drop whole)

/-- Digits followed by a signed power of ten, one of them before the point. -/
def scaleDigits (digits : List Char) (leading : Int) : String :=
  let point := if digits.length ≤ 1 then [] else ['.']
  let sign := if leading < 0 then "e-" else "e+"
  String.ofList (digits.take 1 ++ point ++ digits.drop 1) ++ sign ++ toString leading.natAbs

def write (style : DecimalStyle) (number : Binary64) : String :=
  let sign := if number.isNegative then "-" else ""
  if number.magnitude = 0 then sign ++ "0" ++ style.integralEnding
  else
    let decimal := number.shortest style.tie
    let digits := (toString decimal.digits).toList
    let leading := decimal.exponent + digits.length - 1
    if style.positional leading then sign ++ style.placeDigits digits leading
    else sign ++ scaleDigits digits leading

end DecimalStyle

/-- A finite double with exactly `places` digits after the point, its exact value rounded to them
and a tie going to the even digit. The sign stays on a result that rounds to zero. -/
def Binary64.fixed (number : Binary64) (places : Nat) : String :=
  let rounded := roundHalfEven (number.numerator * Nat.pow 10 places) number.denominator
  let digits := (toString rounded).toList
  let padded := List.replicate (places + 1 - digits.length) '0' ++ digits
  let whole := padded.length - places
  let sign := if number.isNegative then "-" else ""
  let fraction := if places = 0 then [] else '.' :: padded.drop whole
  sign ++ String.ofList (padded.take whole ++ fraction)

end BehaviorTree
