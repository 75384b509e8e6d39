import BehaviorTree.Number.Binary64

/-!
# Numbers in text

Integers are an optional sign and ASCII digits. Doubles are an optional sign and either digits
with an optional point and exponent, or a name for infinity or for what is not a number. Text of
any other form is no number at all. Digits of other bases than ten are read by `digitsValueIn?`.
-/

namespace BehaviorTree

def digitsValue? (digits : List Char) : Option Nat :=
  if digits.isEmpty || !digits.all Char.isDigit then none
  else some (digits.foldl (fun value digit => 10 * value + (digit.toNat - '0'.toNat)) 0)

def hexDigit? (digit : Char) : Option Nat :=
  if '0' ≤ digit ∧ digit ≤ '9' then some (digit.toNat - '0'.toNat)
  else if 'a' ≤ digit ∧ digit ≤ 'f' then some (digit.toNat - 'a'.toNat + 10)
  else if 'A' ≤ digit ∧ digit ≤ 'F' then some (digit.toNat - 'A'.toNat + 10)
  else none

/-- The value of a nonempty run of digits of a base, which is sixteen at most. -/
def digitsValueIn? (base : Nat) (digits : List Char) : Option Nat :=
  if digits.isEmpty then none
  else
    digits.foldlM
      (fun value digit => ((hexDigit? digit).filter (· < base)).map (base * value + ·)) 0

def integerOfText? (text : String) : Option Int :=
  match text.toList with
  | '-' :: digits => (digitsValue? digits).map fun value => -(value : Int)
  | '+' :: digits => (digitsValue? digits).map fun value => (value : Int)
  | digits => (digitsValue? digits).map fun value => (value : Int)

/-- A natural number below `bound` with an optional plus sign. -/
def naturalOfText? (bound : Nat) (text : String) : Option Nat :=
  let digits := match text.toList with
    | '+' :: digits => digits
    | digits => digits
  (digitsValue? digits).filter (· < bound)

/-- An integer that fits in 64 bits with a sign. -/
def int64OfText? (text : String) : Option Int64 :=
  (integerOfText? text).bind fun value =>
    if -0x8000000000000000 ≤ value ∧ value < 0x8000000000000000 then some (Int64.ofInt value)
    else none

namespace Binary64

/-- The exponent part of a double: nothing, or a mark, an optional sign and digits. -/
def exponentOfText? : List Char → Option Int
  | [] => some 0
  | mark :: rest =>
    if mark = 'e' ∨ mark = 'E' then integerOfText? (String.ofList rest) else none

/-- A double written with digits. At least one digit stands before or after the point. -/
def ofDigits? (negative : Bool) (text : List Char) : Option Binary64 :=
  let whole := text.takeWhile Char.isDigit
  let afterWhole := text.dropWhile Char.isDigit
  let fraction := match afterWhole with
    | '.' :: rest => rest.takeWhile Char.isDigit
    | _ => []
  let ending := match afterWhole with
    | '.' :: rest => rest.dropWhile Char.isDigit
    | _ => afterWhole
  match digitsValue? (whole ++ fraction), exponentOfText? ending with
  | some digits, some power => some (ofDecimal negative digits (power - fraction.length))
  | _, _ => none

/-- A double without its sign. Names are read in any case. -/
def ofUnsignedText? (negative : Bool) (text : List Char) : Option Binary64 :=
  match String.ofList (text.map Char.toLower) with
  | "inf" | "infinity" => some (infinity negative)
  | "nan" => some (if negative then notANumber.negate else notANumber)
  | _ => ofDigits? negative text

def ofText? (text : String) : Option Binary64 :=
  match text.toList with
  | '-' :: rest => ofUnsignedText? true rest
  | '+' :: rest => ofUnsignedText? false rest
  | rest => ofUnsignedText? false rest

end Binary64

end BehaviorTree
