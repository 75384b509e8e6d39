import BehaviorTree.Json.Basic
import BehaviorTree.Number.Reading

/-!
# Numbers of messages

The digits of a number are collected while they fit in 64 bits; digits that come later only move
the point. A number with a fraction, with an exponent, or too long to be collected becomes a
double: the collected digits are rounded to a double, which is then multiplied or divided by a
rounded power of ten. The result may differ from the nearest double in the last place.
-/

namespace BehaviorTree.Json

/-- The parts of a number as it is written, without its sign. -/
structure NumberText where
  whole : List Char
  fraction : Option (List Char)
  exponent : Option Int

/-- Collects digits while the number that they make fits in 64 bits. The digits from the first
one that does not fit are left over. -/
def collectDigits (collected : Nat) : List Char → Nat × List Char
  | [] => (collected, [])
  | digit :: rest =>
    let longer := 10 * collected + (digit.toNat - '0'.toNat)
    if longer < 0x10000000000000000 then collectDigits longer rest else (collected, digit :: rest)

def powerOfTen (exponent : Nat) : Binary64 :=
  Binary64.ofDecimal false 1 exponent

/-- A double that is not negative times a power of ten, unless that is infinite. Powers below the
range of doubles are divided out in steps. -/
def scaleByPowerOfTen (number : Binary64) (exponent : Int) : Option Binary64 :=
  if number.magnitude = 0 then some number
  else if 308 < exponent then none
  else if 0 ≤ exponent then
    let scaled := number.mulMagnitudes (powerOfTen exponent.toNat)
    if scaled.isFinite then some scaled else none
  else if -308 ≤ exponent then some (number.divMagnitudes (powerOfTen exponent.natAbs))
  else scaleByPowerOfTen (number.divMagnitudes (powerOfTen 308)) (exponent + 308)
termination_by exponent.natAbs
decreasing_by omega

def exponentLimit : Int := 0x7FFFFFFF

/-- The double of collected digits and a power of ten of which `written` stands in the text. -/
def realOfParts? (negative : Bool) (collected : Nat) (shift written : Int) : Option Binary64 :=
  let magnitude :=
    if exponentLimit < written then if collected = 0 then some (Binary64.zero false) else none
    else if written < -exponentLimit then some (Binary64.zero false)
    else scaleByPowerOfTen (Binary64.ofInt collected) (shift + written)
  magnitude.map fun number => if negative then number.negate else number

/-- The message of a number that is kept as a double. -/
def ofReal? (number : Option Binary64) : Option Json :=
  number.bind fun number =>
    if finite : number.isFinite = true then some (real ⟨number, finite⟩) else none

/-- The message of a written number. Zero with a minus sign is a double, and so is an integer
below the signed ones. -/
def NumberText.toJson? (text : NumberText) (negative : Bool) : Option Json :=
  let (collected, extra) := collectDigits 0 text.whole
  match text.fraction, text.exponent, extra with
  | none, none, [] =>
    let number : Int := if negative then -collected else collected
    if inRange : (-0x8000000000000000 ≤ number ∧ number < 0x10000000000000000) ∧
        ¬(negative = true ∧ collected = 0) then
      some (integer ⟨number, inRange.1⟩)
    else ofReal? (realOfParts? negative collected 0 0)
  | fraction, exponent, _ =>
    let digits := fraction.getD []
    let (collected, ignored) := collectDigits collected digits
    let shift := (extra.length : Int) - (digits.length - ignored.length : Nat)
    ofReal? (realOfParts? negative collected shift (exponent.getD 0))

/-- The digits at the front of a text, and the rest. -/
def splitDigits (text : List Char) : List Char × List Char :=
  (text.takeWhile Char.isDigit, text.dropWhile Char.isDigit)

/-- The exponent at the front of a text, if there is one. A mark without digits is no exponent
and makes the number malformed. -/
def readExponent? : List Char → Option (Option Int × List Char)
  | mark :: rest =>
    if mark = 'e' ∨ mark = 'E' then
      let (negative, rest) := match rest with
        | '-' :: rest => (true, rest)
        | '+' :: rest => (false, rest)
        | rest => (false, rest)
      let (digits, rest) := splitDigits rest
      (digitsValue? digits).map fun value =>
        (some (if negative then -(value : Int) else value), rest)
    else some (none, mark :: rest)
  | [] => some (none, [])

/-- The number at the front of a text. No further digit may follow a zero at its start. -/
def readNumber? (text : List Char) : Option (Json × List Char) :=
  let (negative, text) := match text with
    | '-' :: rest => (true, rest)
    | rest => (false, rest)
  let (whole, text) := splitDigits text
  if whole.isEmpty || (whole.head? == some '0' && 1 < whole.length) then none
  else
    let (fraction, text) := match text with
      | '.' :: rest => (some (rest.takeWhile Char.isDigit), rest.dropWhile Char.isDigit)
      | rest => (none, rest)
    if fraction == some [] then none
    else
      (readExponent? text).bind fun (exponent, text) =>
        (NumberText.toJson? ⟨whole, fraction, exponent⟩ negative).map fun number => (number, text)

end BehaviorTree.Json
