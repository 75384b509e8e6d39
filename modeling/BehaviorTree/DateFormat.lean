import BehaviorTree.Node.BindingError

/-!
# Formats of dates

A format of a date is text with conversions, each a percent sign and a letter. Between them may
stand a modifier: `-`, `_` or `0` choose how a number is padded, colons and points with digits
belong to the offset and to fractions of a second. Conversions that do not depend on the date are
written out here. The others are left to the wall clock.
-/

namespace BehaviorTree

/-- How the wall clock shows a part of the date, named by its conversion. -/
abbrev WallClock := String → String

inductive DatePiece where
  | literal (text : String)
  /-- A part of the date, named by its conversion without the percent sign. -/
  | part (conversion : String)

namespace DateFormat

/-- The letters of conversions to numbers, which can be padded. -/
def numeric : List Char :=
  ['d', 'e', 'f', 'g', 'G', 'H', 'I', 'j', 'k', 'l', 'm', 'M', 'S', 's', 'u', 'U', 'V', 'w', 'W',
    'q', 'y', 'Y', 'C']

def textual : List Char :=
  ['A', 'a', 'B', 'b', 'c', 'D', 'F', 'h', 'P', 'p', 'R', 'r', 'T', 'v', 'X', 'x', '+']

def padding : List Char := ['-', '_', '0']

/-- The ways in which a fraction of a second is written. -/
def fractions : List String := [".3f", ".6f", ".9f", "3f", "6f", "9f", ".f"]

/-- The offset of the clock, which runs in universal time. -/
def offset : String → Option String
  | "z" => some "+0000"
  | ":z" => some "+00:00"
  | "::z" => some "+00:00:00"
  | ":::z" => some "+00"
  | "Z" => some "UTC"
  | _ => none

/-- What stands for a letter after a percent sign alone. -/
def plain? (letter : Char) : Option DatePiece :=
  match letter with
  | '%' => some (.literal "%")
  | 'n' => some (.literal "\n")
  | 't' => some (.literal "\t")
  | _ =>
    match offset letter.toString with
    | some text => some (.literal text)
    | none =>
      if letter ∈ numeric ∨ letter ∈ textual then some (.part letter.toString) else none

/-- The longest conversion from a list at the front of a text, and the rest. -/
def oneOf? (conversions : List String) (text : List Char) : Option (String × List Char) :=
  (conversions.find? fun conversion => conversion.toList.isPrefixOf text).map
    fun conversion => (conversion, text.drop conversion.length)

def conversion? (text : List Char) : Option (DatePiece × List Char) :=
  match oneOf? fractions text, oneOf? [":::z", "::z", ":z"] text, text with
  | some (fraction, rest), _, _ => some (.part fraction, rest)
  | none, some (zone, rest), _ => (offset zone).map fun text => (.literal text, rest)
  | none, none, modifier :: letter :: rest =>
    if modifier ∈ padding then
      if letter ∈ numeric then some (.part (String.ofList [modifier, letter]), rest) else none
    else (plain? modifier).map (·, letter :: rest)
  | none, none, [letter] => (plain? letter).map (·, [])
  | none, none, [] => none

/-- The pieces of a format, of which each takes at least one of `fuel` characters. -/
def pieces? : (fuel : Nat) → List Char → Option (List DatePiece)
  | _, [] => some []
  | 0, _ => none
  | fuel + 1, '%' :: rest =>
    match conversion? rest with
    | none => none
    | some (piece, rest) => (pieces? fuel rest).map (piece :: ·)
  | fuel + 1, character :: rest =>
    (pieces? fuel rest).map (.literal character.toString :: ·)

def pieceText (wallClock : WallClock) : DatePiece → String
  | .literal text => text
  | .part conversion => wallClock conversion

/-- The date in a format, or in full without one. A format may be malformed. -/
def write (wallClock : WallClock) : Option String → Except BindingError String
  | none => .ok (wallClock "+")
  | some format =>
    match pieces? format.length format.toList with
    | some pieces => .ok (String.join (pieces.map (pieceText wallClock)))
    | none => .error (.invalidValue "format" format)

end DateFormat

end BehaviorTree
