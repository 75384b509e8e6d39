import BehaviorTree.Text.CharacterClasses

/-!
# Quoted text in messages

Messages put names and values between double quotes. Quotes, backslashes and the commonest
controls have escapes of two characters, and characters that would not show get their code point
in hexadecimal digits between braces.
-/

namespace BehaviorTree

def hexadecimal (number : Nat) : String :=
  String.ofList (Nat.toDigits 16 number)

def quotedCharacter (character : Char) : String :=
  match character with
  | '"' => "\\\""
  | '\\' => "\\\\"
  | '\n' => "\\n"
  | '\r' => "\\r"
  | '\t' => "\\t"
  | '\x00' => "\\0"
  | _ =>
    if isShownInQuotes character then character.toString
    else "\\u\x7b" ++ hexadecimal character.toNat ++ "\x7d"

def quoted (text : String) : String :=
  "\"" ++ String.join (text.toList.map quotedCharacter) ++ "\""

def quotedList (texts : List String) : String :=
  "[" ++ ", ".intercalate (texts.map quoted) ++ "]"

end BehaviorTree
