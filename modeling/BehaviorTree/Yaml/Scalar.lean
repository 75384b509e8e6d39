import BehaviorTree.Number.Reading
import BehaviorTree.Yaml.Character

/-!
# Scalars of documents

A plain scalar ends where the rest of the notation says, and a quoted one at its quote. Both may
run over several lines, which are folded: blanks around an end of a line vanish, one end of a line
becomes a space, and of several ones all but the first are kept. Each reader returns the
characters of a scalar and what follows it; behind a plain scalar that is what follows the blanks
too.
-/

namespace BehaviorTree.YamlScalar

/-- What a run of blanks and ends of lines becomes. -/
def foldBlanks (blanks : List PlacedCharacter) : List Char :=
  match (blanks.filter PlacedCharacter.isLineEnd).length with
  | 0 => blanks.map PlacedCharacter.character
  | 1 => [' ']
  | more + 2 => List.replicate (more + 1) '\n'

/-- Whether a colon at the front of a text separates a key from its value. -/
def startsColon (inFlow : Bool) (text : List PlacedCharacter) : Bool :=
  match text with
  | ⟨':', _, _⟩ :: rest => startsBlank rest || (inFlow && rest.head?.any (·.isFlowIndicator))
  | _ => false

/-- Whether no plain scalar goes on at the front of a text. -/
def endsPlain (inFlow : Bool) (text : List PlacedCharacter) : Bool :=
  startsBlank text || startsColon inFlow text ||
    (inFlow && text.head?.any (·.isFlowIndicator))

/-- The characters of a plain scalar up to a blank, and what follows them. -/
def splitWord (inFlow : Bool) : List PlacedCharacter → List Char × List PlacedCharacter
  | [] => ([], [])
  | first :: rest =>
    if endsPlain inFlow (first :: rest) then ([], first :: rest)
    else
      let (word, rest) := splitWord inFlow rest
      (first.character :: word, rest)

/-- Whether a tab stands at the start of a line in front of the least column. -/
def isIndentedByTab (least : Nat) (blanks : List PlacedCharacter) : Bool :=
  (blanks.dropWhile (!·.isLineEnd)).any fun placed =>
    placed.character == '\t' && placed.column < least

/-- Whether a plain scalar goes on after blanks. In a block it keeps to the right of what it
belongs to. -/
def continuesPlain (inFlow : Bool) (least : Nat) (text : List PlacedCharacter) : Bool :=
  !endsPlain inFlow text && !startsMarker text &&
    text.head?.all fun first => first.character != '#' && (inFlow || least ≤ first.column)

/-- The words of a plain scalar with what is between them, whether a line ends behind them, and
what follows the scalar and the blanks behind it. -/
def readWords? (inFlow : Bool) (least : Nat) :
    (fuel : Nat) → List PlacedCharacter → Option (List Char × Bool × List PlacedCharacter)
  | 0, _ => none
  | fuel + 1, text =>
    let (word, rest) := splitWord inFlow text
    let blanks := rest.takeWhile (·.isBlank)
    let rest := rest.dropWhile (·.isBlank)
    if isIndentedByTab least blanks then none
    else if continuesPlain inFlow least rest && !blanks.isEmpty then
      (readWords? inFlow least fuel rest).map fun (words, lineEnds, rest) =>
        (word ++ foldBlanks blanks ++ words, lineEnds, rest)
    else some (word, blanks.any (·.isLineEnd), rest)

/-- Whether a plain scalar may start at the front of a text. -/
def startsPlain (inFlow : Bool) (text : List PlacedCharacter) : Bool :=
  match text with
  | [] => false
  | first :: rest =>
    if startsMarker text || first.isFlowIndicator then false
    else if first.character == '-' || first.character == '?' then !startsBlank rest
    else if first.character == ':' then !startsColon inFlow text
    else if first.character == '|' || first.character == '>' then inFlow
    else !("#&*!\"'%@\x60".toList.contains first.character)

/-- The plain scalar at the front of a text, and whether a line ends behind it. Its lines keep to
the right of the least column. -/
def readPlain? (inFlow : Bool) (least : Nat) (text : List PlacedCharacter) :
    Option (String × Bool × List PlacedCharacter) :=
  if startsPlain inFlow text then
    (readWords? inFlow least (text.length + 1) text).map fun (words, lineEnds, rest) =>
      (String.ofList words, lineEnds, rest)
  else none

/-- A part of a quoted scalar. -/
inductive QuotedPart where
  /-- A character that stands for itself, or an escaped one. -/
  | kept (character : Char)
  /-- A blank or an end of a line, which may vanish. -/
  | blank (placed : PlacedCharacter)
  /-- An escaped end of a line. It vanishes together with the blanks around other ends. -/
  | joint

def QuotedPart.ofPlaced (placed : PlacedCharacter) : QuotedPart :=
  if placed.isBlank then blank placed else kept placed.character

/-- What the blanks just before a part of a quoted scalar become, given in reverse order. Behind a
joint of lines only their ends are kept. -/
def foldGap (afterJoint : Bool) (blanks : List PlacedCharacter) : List Char :=
  if afterJoint then (blanks.filter PlacedCharacter.isLineEnd).map fun _ => '\n'
  else foldBlanks blanks.reverse

/-- The characters of a quoted scalar, of which the blanks just before the parts are given in
reverse order. -/
def foldParts (afterJoint : Bool) (blanks : List PlacedCharacter) : List QuotedPart → List Char
  | .blank placed :: parts => foldParts afterJoint (placed :: blanks) parts
  | .joint :: parts => foldGap afterJoint blanks ++ foldParts true [] parts
  | .kept character :: parts => foldGap afterJoint blanks ++ character :: foldParts false [] parts
  | [] => foldGap afterJoint blanks

/-- The rest of a scalar in single quotes. Two quotes stand for one. -/
def readSingleQuoted? : List PlacedCharacter → Option (List QuotedPart × List PlacedCharacter)
  | [] => none
  | ⟨'\x27', _, _⟩ :: ⟨'\x27', _, _⟩ :: rest =>
    (readSingleQuoted? rest).map fun (parts, rest) => (.kept '\x27' :: parts, rest)
  | first :: rest =>
    if first.character = '\x27' then some ([], rest)
    else if startsMarker (first :: rest) then none
    else (readSingleQuoted? rest).map fun (parts, rest) => (.ofPlaced first :: parts, rest)

def simpleEscape? : Char → Option Char
  | '0' => some '\x00'
  | 'a' => some '\x07'
  | 'b' => some '\x08'
  | 't' | '\t' => some '\t'
  | 'n' => some '\n'
  | 'v' => some '\x0b'
  | 'f' => some '\x0c'
  | 'r' => some '\r'
  | 'e' => some '\x1b'
  | ' ' => some ' '
  | '"' => some '"'
  | '\x27' => some '\x27'
  | '\\' => some '\\'
  | 'N' => some '\u0085'
  | '_' => some '\u00a0'
  | 'L' => some '\u2028'
  | 'P' => some '\u2029'
  | _ => none

/-- How many digits follow an escape of a character by its number. -/
def escapeDigits? : Char → Option Nat
  | 'x' => some 2
  | 'u' => some 4
  | 'U' => some 8
  | _ => none

def characterOfNumber? (number : Nat) : Option Char :=
  if number.isValidChar then some (Char.ofNat number) else none

def numberedCharacter? (count : Nat) (text : List PlacedCharacter) : Option Char :=
  let digits := (text.take count).map PlacedCharacter.character
  if digits.length = count then (digitsValueIn? 16 digits).bind characterOfNumber? else none

def readDoubleQuoted? (text : List PlacedCharacter) :
    Option (List QuotedPart × List PlacedCharacter) :=
  match text with
  | [] => none
  | ⟨'\\', _, _⟩ :: [] => none
  | ⟨'\\', _, _⟩ :: escape :: rest =>
    if escape.isLineEnd then
      (readDoubleQuoted? rest).map fun (parts, rest) => (.joint :: parts, rest)
    else
      match simpleEscape? escape.character, escapeDigits? escape.character with
      | some character, _ =>
        (readDoubleQuoted? rest).map fun (parts, rest) => (.kept character :: parts, rest)
      | none, some count =>
        match numberedCharacter? count rest with
        | some character =>
          (readDoubleQuoted? (rest.drop count)).map fun (parts, rest) =>
            (.kept character :: parts, rest)
        | none => none
      | none, none => none
  | first :: rest =>
    if first.character = '"' then some ([], rest)
    else if startsMarker (first :: rest) then none
    else (readDoubleQuoted? rest).map fun (parts, rest) => (.ofPlaced first :: parts, rest)
termination_by text.length
decreasing_by all_goals simp only [List.length_cons, List.length_drop]; omega

/-- The text that the parts of a quoted scalar make. -/
def textOfParts (parts : List QuotedPart) : String :=
  String.ofList (foldParts false [] parts)

/-- The scalar in quotes at the front of a text. -/
def readQuoted? (text : List PlacedCharacter) : Option (String × List PlacedCharacter) :=
  match text with
  | ⟨'"', _, _⟩ :: rest =>
    (readDoubleQuoted? rest).map fun (parts, rest) => (textOfParts parts, rest)
  | ⟨'\x27', _, _⟩ :: rest =>
    (readSingleQuoted? rest).map fun (parts, rest) => (textOfParts parts, rest)
  | _ => none

end BehaviorTree.YamlScalar
