import BehaviorTree.Blackboard.Error
import BehaviorTree.Text.Names

/-!
# Templates

A template is text with placeholders between braces. A placeholder holds the path of a variable
and may ask for a number of decimal places, as in `{charge:.1f}`. A doubled brace stands for
itself. A template is rendered as a whole or not at all.
-/

namespace BehaviorTree

inductive TemplatePiece where
  | literal (character : Char)
  /-- The value at a path, with a fixed number of places if one is asked for. -/
  | placeholder (path : String) (places : Option Nat)
deriving DecidableEq

namespace Template

/-- Whether a character is a blank inside of a placeholder. -/
def isInlineBlank (character : Char) : Bool :=
  character == ' ' || character == '\t'

/-- The number of places after the path of a placeholder, and the rest. -/
def readPlaces (text : List Char) : Option Nat × List Char :=
  match text with
  | ':' :: '.' :: rest =>
    match naturalOfText? 0x10000000000000000 (String.ofList (rest.takeWhile Char.isDigit)),
      rest.dropWhile Char.isDigit with
    | some places, 'f' :: rest => (some places, rest)
    | _, _ => (none, text)
  | _ => (none, text)

/-- The placeholder that follows an opening brace, and what follows its closing one. -/
def readPlaceholder? (text : List Char) : Option (TemplatePiece × List Char) :=
  match pathOfText? (text.dropWhile isInlineBlank) with
  | none => none
  | some (path, rest) =>
    let (places, rest) := readPlaces (rest.dropWhile isInlineBlank)
    match rest.dropWhile isInlineBlank with
    | '}' :: rest => some (.placeholder (String.ofList path) places, rest)
    | _ => none

/-- The pieces of a text of which each piece takes at least one of `fuel` characters. -/
def readPieces? : (fuel : Nat) → List Char → Option (List TemplatePiece)
  | _, [] => some []
  | 0, _ => none
  | fuel + 1, '{' :: '{' :: rest => (readPieces? fuel rest).map (.literal '{' :: ·)
  | fuel + 1, '}' :: '}' :: rest => (readPieces? fuel rest).map (.literal '}' :: ·)
  | _ + 1, '}' :: _ => none
  | fuel + 1, '{' :: rest =>
    match readPlaceholder? rest with
    | none => none
    | some (piece, rest) => (readPieces? fuel rest).map (piece :: ·)
  | fuel + 1, character :: rest => (readPieces? fuel rest).map (.literal character :: ·)

def ofText? (template : String) : Option (List TemplatePiece) :=
  readPieces? template.length template.toList

/-- The text of the value of a placeholder. Only numbers have a number of places. -/
def valueText (path : String) (places : Option Nat) (value : Value) :
    Except BlackboardError String :=
  match places, value.asNumber? with
  | none, _ => .ok value.text
  | some places, some number => .ok (Value.numberText (·.fixed places) number)
  | some _, none => .error (.typeMismatch path value.kind)

variable {m : Type → Type} [Monad m]

/-- The text of a piece, for which a placeholder looks its value up. -/
def renderPiece (lookup : String → ExceptT BlackboardError m Value) :
    TemplatePiece → ExceptT BlackboardError m String
  | .literal character => pure character.toString
  | .placeholder path places => do
    let value ← lookup path
    liftM (valueText path places value)

/-- The text of the pieces of a template, in which values are looked up from left to right. -/
def renderPieces (lookup : String → ExceptT BlackboardError m Value) :
    List TemplatePiece → ExceptT BlackboardError m String
  | [] => pure ""
  | piece :: pieces => do
    let front ← renderPiece lookup piece
    let back ← renderPieces lookup pieces
    return front ++ back

/-- The text of a template. Nothing is looked up if it is malformed. -/
def render (template : String) (lookup : String → ExceptT BlackboardError m Value) :
    ExceptT BlackboardError m String :=
  match ofText? template with
  | some pieces => renderPieces lookup pieces
  | none => throw (.malformedFormat template)

end Template

end BehaviorTree
