import BehaviorTree.Number.Reading
import BehaviorTree.Value.Basic
import BehaviorTree.Yaml.Basic

/-!
# Documents as they are written

A written document keeps the characters of every scalar and whether they stood in quotes. Text in
quotes is always a text, while the characters of a plain scalar say what it stands for:
`YamlNode.resolve?` finds that out for a whole document. Readers that know which kind of scalar
they want can ask a single one.
-/

namespace BehaviorTree

/-- A document as it is written. -/
inductive YamlNode where
  /-- A scalar, which is plain if it stands without quotes. -/
  | scalar (text : String) (plain : Bool)
  | sequence (items : List YamlNode)
  | mapping (entries : List (YamlNode × YamlNode))
deriving Inhabited

/-- The base that a mark at the front of a number names, and what follows the mark. -/
def splitBase? : List Char → Option (Nat × List Char)
  | '0' :: 'x' :: digits => some (16, digits)
  | '0' :: 'o' :: digits => some (8, digits)
  | '0' :: 'b' :: digits => some (2, digits)
  | _ => none

/-- A number whose base is named by a mark. A sign stands in front of the mark. Where there is no
minus sign a plus sign may also stand behind it. -/
def integerOfMarkedText? : List Char → Option Int
  | '-' :: marked => do
    let (base, digits) ← splitBase? marked
    let value ← digitsValueIn? base digits
    return -(value : Int)
  | text => do
    let (base, digits) ← splitBase? (if text.head? = some '+' then text.drop 1 else text)
    let value ← digitsValueIn? base (if digits.head? = some '+' then digits.drop 1 else digits)
    return (value : Int)

namespace Yaml

/-- The integer as a document, if it fits in 64 bits with or without a sign. -/
def ofInteger? (number : Int) : Option Yaml :=
  if inRange : -0x8000000000000000 ≤ number ∧ number < 0x10000000000000000 then
    some (integer ⟨number, inRange⟩)
  else none

/-- Whether characters are digits that start with a zero, with an optional sign. Such a scalar is
no number but a text. -/
def isZeroPadded (text : List Char) : Bool :=
  let digits := match text with
    | '-' :: digits | '+' :: digits => digits
    | digits => digits
  match digits with
  | '0' :: rest => !rest.isEmpty && rest.all Char.isDigit
  | _ => false

/-- A number that is infinite or not a number, by the names that plain scalars have for them. Any
number of plus signs may stand in front of the name of the positive infinite number. -/
def nameOfReal? (text : String) : Option Binary64 :=
  if [".nan", ".NaN", ".NAN"].contains text then some .notANumber
  else if ["-.inf", "-.Inf", "-.INF"].contains text then some (.infinity true)
  else if [".inf", ".Inf", ".INF"].contains (String.ofList (text.toList.dropWhile (· = '+'))) then
    some (.infinity false)
  else none

/-- The number of a plain scalar that is written with a point or an exponent. -/
def realOfPlain? (text : String) : Option Binary64 :=
  (nameOfReal? text).or ((Binary64.ofText? text).filter Binary64.isFinite)

/-- What a plain scalar that is no integer stands for. -/
def ofPlainWord (text : String) : Yaml :=
  match text with
  | "~" | "null" => null
  | "true" => bool true
  | "false" => bool false
  | text =>
    if isZeroPadded text.toList then string text
    else ((realOfPlain? text).map real).getD (string text)

/-- What a plain scalar stands for. Integers that do not fit in 64 bits stand for nothing, unless
they do not fit in 128 bits either, in which case they are rounded. -/
def ofPlain? (text : String) : Option Yaml :=
  match (integerOfMarkedText? text.toList).bind ofInteger? with
  | some number => some number
  | none =>
    match integerOfText? text with
    | some number =>
      if isZeroPadded text.toList then some (string text)
      else if -0x80000000000000000000000000000000 ≤ number ∧
          number < 0x100000000000000000000000000000000 then ofInteger? number
      else some (ofPlainWord text)
    | none => some (ofPlainWord text)

end Yaml

namespace YamlNode

def empty : YamlNode := scalar "~" true

def asScalar? : YamlNode → Option String
  | scalar text _ => some text
  | _ => none

def isNull : YamlNode → Bool
  | scalar text plain => plain && (text == "~" || text == "null")
  | _ => false

def resolveScalar? (text : String) (plain : Bool) : Option Yaml :=
  if plain then Yaml.ofPlain? text else some (.string text)

mutual

/-- What a document stands for, if all of its scalars stand for something and at most `depth`
sequences and mappings are nested. -/
def resolve? (depth : Nat) : YamlNode → Option Yaml
  | scalar text plain => resolveScalar? text plain
  | sequence items =>
    if depth = 0 then none else (resolveItems? (depth - 1) items).map .sequence
  | mapping entries =>
    if depth = 0 then none else (resolveEntries? (depth - 1) entries).map .ofEntries

def resolveItems? (depth : Nat) : List YamlNode → Option (List Yaml)
  | [] => some []
  | item :: items => do
    let item ← resolve? depth item
    let items ← resolveItems? depth items
    return item :: items

def resolveEntries? (depth : Nat) : List (YamlNode × YamlNode) → Option (List (Yaml × Yaml))
  | [] => some []
  | (key, value) :: entries => do
    let key ← resolve? depth key
    let value ← resolve? depth value
    let entries ← resolveEntries? depth entries
    return (key, value) :: entries

end

end YamlNode

end BehaviorTree
