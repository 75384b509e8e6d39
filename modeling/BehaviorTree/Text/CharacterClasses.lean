import BehaviorTree.Text.CharacterRanges

/-!
# Classes of characters

Each class answers for ASCII by itself and looks other characters up in the ranges. Characters of
an identifier are ASCII only, while the segments of a field path admit every alphanumeric
character.
-/

namespace BehaviorTree

def inRanges (ranges : List (Nat × Nat)) (character : Char) : Bool :=
  ranges.any fun range => range.1 ≤ character.toNat && character.toNat ≤ range.2

def isAlphanumeric (character : Char) : Bool :=
  if character.toNat < 0x80 then character.isAlphanum
  else inRanges CharacterRanges.alphanumeric character

def isWordCharacter (character : Char) : Bool :=
  isAlphanumeric character || character == '_'

def isWhiteSpace (character : Char) : Bool :=
  if character.toNat < 0x80 then character == ' ' || ('\t' ≤ character && character ≤ '\r')
  else inRanges CharacterRanges.whiteSpace character

/-- Whether quoted text shows a character as it is: it is printable and stands on its own. -/
def isShownInQuotes (character : Char) : Bool :=
  if character.toNat < 0x80 then ' ' ≤ character && character ≤ '~'
  else !inRanges CharacterRanges.graphemeExtending character &&
    !inRanges CharacterRanges.unprintable character

def startsIdentifier (character : Char) : Bool :=
  character.isAlpha || character == '_'

/-- Characters that may follow the first one of an identifier. -/
def continuesIdentifier (character : Char) : Bool :=
  character.isAlphanum || character == '_'

def trimWhiteSpace (text : String) : String :=
  let withoutFront := text.toList.dropWhile isWhiteSpace
  String.ofList (withoutFront.reverse.dropWhile isWhiteSpace).reverse

/-- The parts of a text between the separators. There is always one part more than separators. -/
def splitAt (separator : Char) (text : String) : List String :=
  let split := text.toList.foldr
    (fun character (parts : List Char × List String) =>
      if character = separator then ([], String.ofList parts.1 :: parts.2)
      else (character :: parts.1, parts.2))
    ([], [])
  String.ofList split.1 :: split.2

end BehaviorTree
