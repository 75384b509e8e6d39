import BehaviorTree.Json.Number

/-!
# Reading messages

`Json.ofText?` reads a whole text. Values may be nested in at most 127 arrays and objects, and
blanks may stand around every token. Each reader takes its value from the front of a list of
characters and returns what follows; `fuel` bounds the number of values, of which a text has fewer
than characters.
-/

namespace BehaviorTree.Json

def isBlank (character : Char) : Bool :=
  character == ' ' || character == '\t' || character == '\n' || character == '\r'

def hexQuad? (first second third fourth : Char) : Option Nat := do
  let first ← hexDigit? first
  let second ← hexDigit? second
  let third ← hexDigit? third
  let fourth ← hexDigit? fourth
  return ((first * 16 + second) * 16 + third) * 16 + fourth

def simpleEscape? : Char → Option Char
  | '"' => some '"'
  | '\\' => some '\\'
  | '/' => some '/'
  | 'b' => some '\x08'
  | 'f' => some '\x0c'
  | 'n' => some '\n'
  | 'r' => some '\r'
  | 't' => some '\t'
  | _ => none

/-- The rest of a text after its opening quote: the characters up to the closing one, and what
follows it. Two escaped surrogates make one character, and one alone makes none. -/
def readText? : List Char → Option (List Char × List Char)
  | [] => none
  | '"' :: rest => some ([], rest)
  | '\\' :: 'u' :: first :: second :: third :: fourth :: rest =>
    match hexQuad? first second third fourth with
    | none => none
    | some high =>
      if 0xD800 ≤ high ∧ high < 0xDC00 then
        match rest with
        | '\\' :: 'u' :: first :: second :: third :: fourth :: rest =>
          match hexQuad? first second third fourth with
          | none => none
          | some low =>
            if 0xDC00 ≤ low ∧ low < 0xE000 then
              let code := 0x10000 + (high - 0xD800) * 0x400 + (low - 0xDC00)
              (readText? rest).map fun (text, rest) => (Char.ofNat code :: text, rest)
            else none
        | _ => none
      else if 0xDC00 ≤ high ∧ high < 0xE000 then none
      else (readText? rest).map fun (text, rest) => (Char.ofNat high :: text, rest)
  | '\\' :: escape :: rest =>
    match simpleEscape? escape with
    | none => none
    | some character => (readText? rest).map fun (text, rest) => (character :: text, rest)
  | character :: rest =>
    if character = '\\' ∨ character.toNat < 0x20 then none
    else (readText? rest).map fun (text, rest) => (character :: text, rest)

/-- The rest of a text after a word at its front. -/
def dropWord? (word : String) (text : List Char) : Option (List Char) :=
  if word.toList.isPrefixOf text then some (text.drop word.length) else none

mutual

/-- The value at the front of a text, which may contain `depth` levels of arrays and objects. -/
def readValue? (depth : Nat) : (fuel : Nat) → List Char → Option (Json × List Char)
  | 0, _ => none
  | fuel + 1, text =>
    match text.dropWhile isBlank with
    | 'n' :: rest => (dropWord? "ull" rest).map fun rest => (null, rest)
    | 't' :: rest => (dropWord? "rue" rest).map fun rest => (bool true, rest)
    | 'f' :: rest => (dropWord? "alse" rest).map fun rest => (bool false, rest)
    | '"' :: rest => (readText? rest).map fun (text, rest) => (string (String.ofList text), rest)
    | '[' :: rest =>
      if depth = 0 then none
      else
        match rest.dropWhile isBlank with
        | ']' :: rest => some (array [], rest)
        | rest => (readItems? (depth - 1) fuel rest).map fun (items, rest) => (array items, rest)
    | '{' :: rest =>
      if depth = 0 then none
      else
        match rest.dropWhile isBlank with
        | '}' :: rest => some (object [], rest)
        | rest =>
          (readMembers? (depth - 1) fuel rest).map fun (members, rest) => (ofMembers members, rest)
    | rest => readNumber? rest

/-- The items of a sequence up to its closing bracket. -/
def readItems? (depth : Nat) : (fuel : Nat) → List Char → Option (List Json × List Char)
  | 0, _ => none
  | fuel + 1, text =>
    match readValue? depth fuel text with
    | none => none
    | some (item, rest) =>
      match rest.dropWhile isBlank with
      | ']' :: rest => some ([item], rest)
      | ',' :: rest => (readItems? depth fuel rest).map fun (items, rest) => (item :: items, rest)
      | _ => none

/-- The members of an object up to its closing brace. -/
def readMembers? (depth : Nat) :
    (fuel : Nat) → List Char → Option (List (String × Json) × List Char)
  | 0, _ => none
  | fuel + 1, text =>
    match text.dropWhile isBlank with
    | '"' :: rest =>
      match readText? rest with
      | none => none
      | some (key, rest) =>
        match rest.dropWhile isBlank with
        | ':' :: rest =>
          match readValue? depth fuel rest with
          | none => none
          | some (value, rest) =>
            match rest.dropWhile isBlank with
            | '}' :: rest => some ([(String.ofList key, value)], rest)
            | ',' :: rest =>
              (readMembers? depth fuel rest).map fun (members, rest) =>
                ((String.ofList key, value) :: members, rest)
            | _ => none
        | _ => none
    | _ => none

end

def ofText? (text : String) : Option Json :=
  match readValue? 127 (2 * text.length + 2) text.toList with
  | some (value, rest) => if rest.all isBlank then some value else none
  | none => none

end BehaviorTree.Json
