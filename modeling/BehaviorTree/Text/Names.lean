import BehaviorTree.Text.CharacterClasses

/-!
# Identifiers and field paths in text

An identifier is a letter or underscore followed by letters, digits and underscores, all of them
ASCII. A path is an identifier followed by any number of segments, each after a point. Readers
take the longest match and return what follows it.
-/

namespace BehaviorTree

/-- The identifier at the front of a text, and the rest. -/
def identifierOfText? : List Char → Option (List Char × List Char)
  | first :: rest =>
    if startsIdentifier first then
      some (first :: rest.takeWhile continuesIdentifier, rest.dropWhile continuesIdentifier)
    else none
  | [] => none

/-- The segments at the front of a text, with their points, and the rest. -/
def segmentsOfText (text : List Char) : List Char × List Char :=
  match text with
  | '.' :: rest =>
    if (rest.takeWhile isWordCharacter).isEmpty then ([], text)
    else
      let (segments, ending) := segmentsOfText (rest.dropWhile isWordCharacter)
      ('.' :: rest.takeWhile isWordCharacter ++ segments, ending)
  | _ => ([], text)
termination_by text.length
decreasing_by
  have := (List.dropWhile_suffix isWordCharacter (l := rest)).length_le
  simp only [List.length_cons]
  omega

/-- The path at the front of a text, and the rest. -/
def pathOfText? (text : List Char) : Option (List Char × List Char) :=
  (identifierOfText? text).map fun (identifier, rest) =>
    let (segments, ending) := segmentsOfText rest
    (identifier ++ segments, ending)

end BehaviorTree
