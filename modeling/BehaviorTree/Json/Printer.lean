import BehaviorTree.Json.Basic
import BehaviorTree.Number.Decimal
import BehaviorTree.Text.Quoted

/-!
# Text of messages

A message is written without spaces. Text is escaped only where it has to be: quotes, backslashes
and controls.
-/

namespace BehaviorTree.Json

/-- How doubles are written: with plain positions from `0.00001` up to sixteen digits, and with
an exponent outside of that. Of two shortest texts the one with the even digit is chosen. -/
def numberStyle : DecimalStyle where
  tie := .even
  positional leading := -5 ≤ leading && leading ≤ 15
  integralEnding := ".0"

def printCharacter (character : Char) : String :=
  match character with
  | '"' => "\\\""
  | '\\' => "\\\\"
  | '\x08' => "\\b"
  | '\t' => "\\t"
  | '\n' => "\\n"
  | '\x0c' => "\\f"
  | '\r' => "\\r"
  | _ =>
    if character.toNat < 0x10 then "\\u000" ++ hexadecimal character.toNat
    else if character.toNat < 0x20 then "\\u00" ++ hexadecimal character.toNat
    else character.toString

def printText (text : String) : String :=
  "\"" ++ String.join (text.toList.map printCharacter) ++ "\""

mutual

def print : Json → String
  | null => "null"
  | bool true => "true"
  | bool false => "false"
  | integer number => toString number.1
  | real number => numberStyle.write number.1
  | string text => printText text
  | array items => "[" ++ ",".intercalate (printItems items) ++ "]"
  | object members => "\x7b" ++ ",".intercalate (printMembers members) ++ "\x7d"

def printItems : List Json → List String
  | [] => []
  | item :: items => print item :: printItems items

def printMembers : List (String × Json) → List String
  | [] => []
  | (key, value) :: members => (printText key ++ ":" ++ print value) :: printMembers members

end

end BehaviorTree.Json
