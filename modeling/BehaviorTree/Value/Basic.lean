import BehaviorTree.Json.Printer
import BehaviorTree.Number.Reading
import BehaviorTree.Text.CharacterClasses

/-!
# Values

Values are what variables hold and fields are configured with: scalars and structured messages.
They are converted between kinds only where a field demands it, and their text is what templates
and messages show.
-/

namespace BehaviorTree

inductive ValueKind where
  | bool
  | int
  | float
  | string
  | message
deriving DecidableEq, Inhabited

namespace ValueKind

def text : ValueKind → String
  | bool => "bool"
  | int => "int"
  | float => "float"
  | string => "string"
  | message => "message"

def ofText? : String → Option ValueKind
  | "bool" => some bool
  | "int" => some int
  | "float" => some float
  | "string" => some string
  | "message" => some message
  | _ => none

end ValueKind

/-- A value of a variable or a field. -/
inductive Value where
  | bool (value : Bool)
  | int (number : Int64)
  | float (number : Binary64)
  | string (text : String)
  | message (content : Json)
deriving Inhabited

def boolOfText? : String → Option Bool
  | "true" => some true
  | "false" => some false
  | _ => none

namespace Value

def kind : Value → ValueKind
  | bool _ => .bool
  | int _ => .int
  | float _ => .float
  | string _ => .string
  | message _ => .message

def asBool? : Value → Option Bool
  | bool value => some value
  | _ => none

def asInt? : Value → Option Int64
  | int number => some number
  | _ => none

/-- The value as a double, to which an integer is rounded. -/
def asNumber? : Value → Option Binary64
  | int number => some (Binary64.ofInt number.toInt)
  | float number => some number
  | _ => none

def asText? : Value → Option String
  | string text => some text
  | _ => none

/-- How doubles are written: always with plain positions, and without a point if integral. Of two
shortest texts the larger one is chosen. -/
def numberStyle : DecimalStyle where
  tie := .up
  positional _ := true
  integralEnding := ""

/-- The text of a double, which may be infinite or not a number. -/
def numberText (write : Binary64 → String) (number : Binary64) : String :=
  if number.isNaN then "NaN"
  else if number.isFinite then write number
  else if number.isNegative then "-inf"
  else "inf"

def text : Value → String
  | bool value => if value then "true" else "false"
  | int number => toString number.toInt
  | float number => numberText numberStyle.write number
  | string text => text
  | message content => content.print

/-- The value that a literal stands for: the first kind that reads it, or else its text. -/
def ofLiteral (literal : String) : Value :=
  match int64OfText? literal, Binary64.ofText? literal, boolOfText? literal with
  | some number, _, _ => int number
  | none, some number, _ => float number
  | none, none, some value => bool value
  | none, none, none => string literal

/-- A message as a value. Scalars become values of their own kind, and an integer above the
signed ones becomes a double. -/
def ofJson : Json → Value
  | .bool value => bool value
  | .integer number =>
    if number.1 < 0x8000000000000000 then int (Int64.ofInt number.1)
    else float (Binary64.ofInt number.1)
  | .real number => float number.1
  | .string text => string text
  | content => message content

/-- A value as a message. A double that is infinite or not a number becomes `null`. -/
def toJson : Value → Json
  | bool value => .bool value
  | int number => .ofInt64 number
  | float number => .ofBinary64 number
  | string text => .string text
  | message content => content

/-- The value as one of another kind. Integers become doubles, texts are read without the white
space around them, and everything becomes a message. -/
def coerce? (value : Value) (target : ValueKind) : Option Value :=
  match value, target with
  | bool value, .bool => some (bool value)
  | int number, .int => some (int number)
  | int number, .float => some (float (Binary64.ofInt number.toInt))
  | float number, .float => some (float number)
  | string text, .string => some (string text)
  | string text, .int => (int64OfText? (trimWhiteSpace text)).map int
  | string text, .float => (Binary64.ofText? (trimWhiteSpace text)).map float
  | string text, .bool => (boolOfText? (trimWhiteSpace text)).map bool
  | value, .message => some (message value.toJson)
  | _, _ => none

end Value

end BehaviorTree
