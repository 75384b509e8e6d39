import BehaviorTree.Source.Basic
import BehaviorTree.Source.Error
import BehaviorTree.Text.Names

/-!
# Sources in the tree notation

A mission is a list of definitions `tree name(parameters) = Node`, and a node is written
`Kind "label" (ports) { children }`, where everything after the kind may be left out. Children
stand on lines of their own, and comments run from `#` to the end of the line.

A reader takes the longest part of its form from the front of a text. Where that fails the caller
goes on without the part; only an output that is connected with something other than a variable
ends the whole reading. Repeated parts have a fuel, which bounds their number or their depth; as
every part has a character, the length of the text is always enough.
-/

namespace BehaviorTree

/-- What a reader makes of a text. -/
inductive Reply (α : Type) where
  /-- The text starts with a part, and the rest follows it. -/
  | success (value : α) (rest : List Char)
  | mismatch
  /-- An output is connected with something other than a variable, before the rest. -/
  | fatal (rest : List Char)

namespace Reply

def map {α β : Type} (change : α → β) : Reply α → Reply β
  | success value rest => success (change value) rest
  | mismatch => mismatch
  | fatal rest => fatal rest

/-- The reply of a reader for what follows a part. -/
def bind {α β : Type} (reply : Reply α) (next : α → List Char → Reply β) : Reply β :=
  match reply with
  | success value rest => next value rest
  | mismatch => mismatch
  | fatal rest => fatal rest

/-- The reply of a reader that never ends the reading. -/
def ofOption {α : Type} : Option (α × List Char) → Reply α
  | some (value, rest) => success value rest
  | none => mismatch

/-- The reply for a part that may be left out of a text. -/
def orElse {α : Type} (reply : Reply α) (text : List Char) (value : α) : Reply α :=
  match reply with
  | success value rest => success value rest
  | mismatch => success value text
  | fatal rest => fatal rest

end Reply

namespace MissionText

def isLineBlank (character : Char) : Bool :=
  character == ' ' || character == '\t'

def isLineEnd (character : Char) : Bool :=
  character == '\n' || character == '\r'

def isBlank (character : Char) : Bool :=
  isLineBlank character || isLineEnd character

def skipLineBlanks (text : List Char) : List Char := text.dropWhile isLineBlank

def skipBlanks (text : List Char) : List Char := text.dropWhile isBlank

def skipText? (expected : String) (text : List Char) : Option (List Char) :=
  if expected.toList.isPrefixOf text then some (text.drop expected.length) else none

/-- What follows a given text between blanks of a line. -/
def skipToken? (expected : String) (text : List Char) : Option (List Char) :=
  (skipText? expected (skipLineBlanks text)).map skipLineBlanks

/-- What follows a parenthesis that may stand on a line of its own. -/
def skipClosing? (text : List Char) : Option (List Char) :=
  (skipText? ")" (skipBlanks text)).map skipLineBlanks

/-- What follows a comment, which ends before the end of its line. -/
def skipComment? (text : List Char) : Option (List Char) :=
  (skipText? "#" (skipLineBlanks text)).map fun rest => rest.dropWhile fun c => !isLineEnd c

def skipOptionalComment (text : List Char) : List Char :=
  (skipComment? text).getD text

/-- What follows all ends of lines and the blanks around them. Blanks that no end of a line
follows stay. -/
def skipLineEnds (text : List Char) : List Char :=
  match skipLineBlanks text with
  | character :: _ => if isLineEnd character then skipBlanks text else text
  | [] => text

def readName? (text : List Char) : Option (String × List Char) :=
  (identifierOfText? (skipLineBlanks text)).map fun (name, rest) =>
    (String.ofList name, skipLineBlanks rest)

def collapseBackslashes : List Char → List Char
  | '\\' :: '\\' :: rest => '\\' :: collapseBackslashes rest
  | character :: rest => character :: collapseBackslashes rest
  | [] => []

/-- Every backslash before an `n` becomes, together with it, the end of a line. -/
def expandLineEnds : List Char → List Char
  | '\\' :: 'n' :: rest => '\n' :: expandLineEnds rest
  | character :: rest => character :: expandLineEnds rest
  | [] => []

/-- A text between quotes. Backslashes are collapsed before ends of lines are expanded. -/
def readQuoted? (text : List Char) : Option (String × List Char) :=
  match text with
  | '"' :: rest =>
    match rest.dropWhile (· ≠ '"') with
    | _ :: ending =>
      let content := rest.takeWhile (· ≠ '"')
      some (String.ofList (expandLineEnds (collapseBackslashes content)), ending)
    | [] => none
  | _ => none

/-- Whether no word goes on at the front of a text. -/
def atWordEnd (text : List Char) : Bool :=
  match text with
  | character :: _ => !isWordCharacter character
  | [] => true

/-- The digits of a number with an optional fraction, and the rest. A number starts with a
digit. -/
def splitNumber (text : List Char) : List Char × List Char :=
  let whole := text.takeWhile Char.isDigit
  let rest := text.dropWhile Char.isDigit
  match whole, rest with
  | _ :: _, '.' :: after =>
    if (after.takeWhile Char.isDigit).isEmpty then (whole, rest)
    else (whole ++ '.' :: after.takeWhile Char.isDigit, after.dropWhile Char.isDigit)
  | _, _ => (whole, rest)

/-- A number with an optional minus sign and an optional fraction. -/
def readNumber? (text : List Char) : Option (Value × List Char) :=
  let (sign, unsigned) := match text with
    | '-' :: rest => (['-'], rest)
    | rest => ([], rest)
  let (digits, rest) := splitNumber unsigned
  if digits.isEmpty || !atWordEnd rest then none
  else some (Value.ofLiteral (String.ofList (sign ++ digits)), rest)

def readBool? (text : List Char) : Option (Value × List Char) :=
  match skipText? "true" text, skipText? "false" text with
  | some rest, _ => if atWordEnd rest then some (.bool true, rest) else none
  | none, some rest => if atWordEnd rest then some (.bool false, rest) else none
  | none, none => none

def readLiteral? (text : List Char) : Option (Value × List Char) :=
  match readQuoted? text with
  | some (content, rest) => some (.string content, rest)
  | none => (readNumber? text).or (readBool? text)

/-- What a port is connected with: a literal, a parameter after `$`, or a variable. -/
def readOperand? (text : List Char) : Option (Operand × List Char) :=
  match readLiteral? text, text with
  | some (value, rest), _ => some (.constant value, rest)
  | none, '$' :: name =>
    (identifierOfText? name).map fun (name, rest) => (.parameter (String.ofList name), rest)
  | none, _ => (pathOfText? text).map fun (path, rest) => (.path (String.ofList path), rest)

def readDirection? (text : List Char) : Option (PortDirection × List Char) :=
  match skipToken? "<-" text, skipToken? "->" text with
  | some rest, _ => some (.input, rest)
  | none, some rest => some (.output, rest)
  | none, none => none

def readPort (text : List Char) : Reply PortSource :=
  (Reply.ofOption (readName? text)).bind fun name text =>
  (Reply.ofOption (readDirection? text)).bind fun direction text =>
  (Reply.ofOption (readOperand? text)).bind fun operand text =>
  let rest := skipLineBlanks text
  match direction, operand with
  | .output, .constant _ | .output, .parameter _ => .fatal rest
  | _, _ => .success ⟨direction, name, operand⟩ rest

/-- What follows the commas after a port, which may stand on lines of their own. -/
def skipCommas : (fuel : Nat) → List Char → List Char
  | 0, text => text
  | fuel + 1, text =>
    match skipText? "," (skipBlanks text) with
    | some rest => skipCommas fuel rest
    | none => text

def readPorts : (fuel : Nat) → List Char → Reply (List PortSource)
  | 0, text => .success [] text
  | fuel + 1, text =>
    match readPort (skipBlanks text) with
    | .success port rest => (readPorts fuel (skipCommas rest.length rest)).map (port :: ·)
    | .mismatch => .success [] text
    | .fatal rest => .fatal rest

def readPortList (text : List Char) : Reply (List PortSource) :=
  (Reply.ofOption ((skipToken? "(" text).map ((), ·))).bind fun _ text =>
  (readPorts text.length text).bind fun ports text =>
  Reply.ofOption ((skipClosing? text).map (ports, ·))

mutual

/-- A node whose children are nested less than `fuel` levels deep. -/
def readNode : (fuel : Nat) → List Char → Reply NodeSource
  | 0, _ => .mismatch
  | fuel + 1, text =>
    (Reply.ofOption (readName? text)).bind fun kind text =>
    let (label, text) := match readQuoted? (skipLineBlanks text) with
      | some (label, rest) => (some label, skipLineBlanks rest)
      | none => (none, text)
    ((readPortList text).orElse text []).bind fun ports text =>
    ((readChildList fuel text).orElse text []).bind fun children text =>
    .success (.node kind label ports children) (skipOptionalComment text)

def readChildList : (fuel : Nat) → List Char → Reply (List NodeSource)
  | 0, _ => .mismatch
  | fuel + 1, text =>
    (Reply.ofOption ((skipToken? "\x7b" text).map ((), ·))).bind fun _ text =>
    (readChildren fuel (skipLineEnds text)).bind fun children text =>
    Reply.ofOption ((skipToken? "\x7d" text).map (children, ·))

def readChildren : (fuel : Nat) → List Char → Reply (List NodeSource)
  | 0, text => .success [] text
  | fuel + 1, text =>
    match skipComment? text with
    | some rest => readChildren fuel (skipLineEnds rest)
    | none =>
      match readNode fuel (skipLineBlanks text) with
      | .success child rest => (readChildren fuel (skipLineEnds rest)).map (child :: ·)
      | .mismatch => .success [] text
      | .fatal rest => .fatal rest

end

def readParameterKind? (text : List Char) : Option (String × List Char) :=
  (skipToken? ":" text).bind fun text =>
    (identifierOfText? text).map fun (kind, rest) => (String.ofList kind, rest)

def readDefault? (text : List Char) : Option (Value × List Char) :=
  (skipToken? "=" text).bind readLiteral?

def readParameter? (text : List Char) : Option (ParameterSource × List Char) := do
  let (name, text) ← readName? (skipBlanks text)
  let (kind, text) ← readParameterKind? text
  match readDefault? text with
  | some (value, rest) => return (⟨name, kind, some value⟩, skipBlanks rest)
  | none => return (⟨name, kind, none⟩, skipBlanks text)

/-- Declared parameters, as many as there are. The commas between them may be left out. -/
def readParameters : (fuel : Nat) → List Char → List ParameterSource × List Char
  | 0, text => ([], text)
  | fuel + 1, text =>
    match readParameter? text with
    | some (parameter, rest) =>
      let (parameters, ending) := readParameters fuel ((skipText? "," rest).getD rest)
      (parameter :: parameters, ending)
    | none => ([], text)

def readParameterList? (text : List Char) : Option (List ParameterSource × List Char) := do
  let text ← skipToken? "(" text
  let (parameters, text) := readParameters text.length text
  let text ← skipClosing? text
  return (parameters, text)

def readTree (text : List Char) : Reply TreeSource :=
  (Reply.ofOption ((skipText? "tree" (skipBlanks text)).map ((), ·))).bind fun _ text =>
  (Reply.ofOption (readName? text)).bind fun name text =>
  let (parameters, text) := (readParameterList? text).getD ([], text)
  (Reply.ofOption ((skipText? "=" (skipLineBlanks text)).map ((), ·))).bind fun _ text =>
  (readNode (text.length + 1) (skipBlanks text)).map fun root => ⟨name, parameters, root⟩

/-- What follows a comment on a line of its own, with the end of that line. -/
def skipCommentLine? (text : List Char) : Option (List Char) :=
  (skipComment? (skipBlanks text)).bind (skipText? "\n")

def readTrees : (fuel : Nat) → List Char → Reply (List TreeSource)
  | 0, text => .success [] text
  | fuel + 1, text =>
    match skipCommentLine? text with
    | some rest => readTrees fuel rest
    | none =>
      match readTree text with
      | .success tree rest => (readTrees fuel rest).map (tree :: ·)
      | .mismatch => .success [] text
      | .fatal rest => .fatal rest

end MissionText

open MissionText

/-- The definitions at the front of a text, and what follows them. -/
def MissionSource.readText (text : List Char) : Reply MissionSource :=
  (readTrees text.length text).bind fun trees rest =>
    .success ⟨trees⟩ (skipBlanks (skipOptionalComment (skipBlanks rest)))

def MissionSource.ofText (text : String) : Except SourceError MissionSource :=
  match readText text.toList with
  | .success mission [] => .ok mission
  | .success _ rest => .error (.unexpectedInput (.ofRest text.toList rest))
  | .mismatch => .error (.unexpectedInput (.ofRest text.toList text.toList))
  | .fatal rest => .error (.outputWithoutVariable (.ofRest text.toList rest))

end BehaviorTree
