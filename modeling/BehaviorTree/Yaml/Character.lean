/-!
# Characters of documents

The places of characters decide what belongs together in a document: a key and its colon stand on
one line, and what belongs to an entry stands further to the right than the entry. A text is
therefore read as a list of characters that know their line and column.
-/

namespace BehaviorTree

/-- A character at its place in a text. -/
structure PlacedCharacter where
  character : Char
  line : Nat
  column : Nat

namespace PlacedCharacter

def isLineBlank (placed : PlacedCharacter) : Bool :=
  placed.character == ' ' || placed.character == '\t'

def isLineEnd (placed : PlacedCharacter) : Bool :=
  placed.character == '\n' || placed.character == '\r'

def isBlank (placed : PlacedCharacter) : Bool :=
  placed.isLineBlank || placed.isLineEnd

/-- Characters that separate the parts of a collection in brackets. -/
def isFlowIndicator (placed : PlacedCharacter) : Bool :=
  [',', '[', ']', '\x7b', '\x7d'].contains placed.character

end PlacedCharacter

/-- The characters of a text, from the given place on. -/
def placeCharacters (line column : Nat) : List Char → List PlacedCharacter
  | [] => []
  | '\n' :: rest => ⟨'\n', line, column⟩ :: placeCharacters (line + 1) 0 rest
  | character :: rest => ⟨character, line, column⟩ :: placeCharacters line (column + 1) rest

/-- Every pair of a carriage return and a line feed becomes one line feed. -/
def joinLineEnds : List Char → List Char
  | '\r' :: '\n' :: rest => '\n' :: joinLineEnds rest
  | character :: rest => character :: joinLineEnds rest
  | [] => []

/-- The characters of a document, which ends at a null character. -/
def documentCharacters (text : String) : List PlacedCharacter :=
  placeCharacters 0 0 (joinLineEnds (text.toList.takeWhile (· ≠ '\x00')))

/-- Whether a blank or nothing stands at the front of a text. -/
def startsBlank (text : List PlacedCharacter) : Bool :=
  text.head?.all PlacedCharacter.isBlank

/-- Whether a line that begins at the front of a text separates documents. -/
def startsMarker (text : List PlacedCharacter) : Bool :=
  let characters := (text.take 3).map PlacedCharacter.character
  text.head?.any (·.column = 0) && (characters == "---".toList || characters == "...".toList) &&
    startsBlank (text.drop 3)

/-- What follows blanks, ends of lines and comments, and whether a key may stand there. Behind the
end of a line in a block a key may stand. Where one may stand a tab is not skipped, because it
cannot indent; inside of brackets no place is like that. -/
def skipBlanks (inFlow mayBeKey : Bool) (text : List PlacedCharacter) :
    Bool × List PlacedCharacter :=
  match text with
  | [] => (mayBeKey, [])
  | first :: rest =>
    if first.character = '#' then
      skipBlanks inFlow mayBeKey (rest.dropWhile fun placed => !placed.isLineEnd)
    else if first.isLineEnd then skipBlanks inFlow (!inFlow) rest
    else if first.character = ' ' || (first.character = '\t' && !mayBeKey) then
      skipBlanks inFlow mayBeKey rest
    else (mayBeKey, first :: rest)
termination_by text.length
decreasing_by
  · have shorter :=
      (List.dropWhile_suffix (l := rest) fun placed : PlacedCharacter =>
        !placed.isLineEnd).length_le
    simp only [List.length_cons]
    omega
  all_goals simp

def dropBlanks (inFlow mayBeKey : Bool) (text : List PlacedCharacter) : List PlacedCharacter :=
  (skipBlanks inFlow mayBeKey text).2

end BehaviorTree
