import BehaviorTree.Yaml.Node
import BehaviorTree.Yaml.Scalar

/-!
# Reading documents

`YamlNode.ofText?` reads a whole text. Collections are written in two ways. In a flow they stand
in brackets, and line ends are mere blanks. In a block every item or entry starts on a line of its
own, all of them in the same column, and what belongs to one of them stands further to the right;
only a scalar or a collection in brackets may also stand below it in the same column. A collection
in brackets may be part of a block, but not the other way round. What starts an item or entry of a
collection in brackets has to be a key if it stands in the column of the block around it. A colon
without a key in front of it belongs to the empty key. Anchors, tags, marked keys, block scalars
and several documents in one text are not read.

Each reader takes its part from the front of a text and returns what follows. `fuel` bounds how
often readers call each other; a part without characters of its own is never nested in another
such part, so that four calls for every character are enough.
-/

namespace BehaviorTree.YamlNode

open YamlScalar

def bracketLimit : Nat := 255

/-- What follows the colon behind a key. The colon stands on the line on which the key starts, at
most 1024 characters behind that place. In a flow it may touch a key in quotes, and then also
what follows it. -/
def dropColon? (inFlow : Bool) (key rest : List PlacedCharacter) :
    Option (List PlacedCharacter) :=
  let quotedKey := key.head?.any fun first => first.character == '"' || first.character == '\x27'
  let touches := inFlow && quotedKey && rest.head?.any (·.character == ':')
  match key, dropBlanks inFlow false rest with
  | start :: _, colon :: rest =>
    if colon.line = start.line && decide (colon.column ≤ start.column + 1024) &&
        (startsColon inFlow (colon :: rest) || touches) then some rest
    else none
  | _, _ => none

/-- Whether what starts an item or entry at the front of a text in a flow has to be a key, because
it stands just to the left of the least column, which is the column of the block around it. -/
def mustBeKey (least : Nat) (text : List PlacedCharacter) : Bool :=
  text.head?.any (·.column + 1 = least)

mutual

/-- The node at the front of a text in a flow, in which at most `room` more brackets are opened. -/
def readFlow? (least room : Nat) :
    (fuel : Nat) → List PlacedCharacter → Option (YamlNode × List PlacedCharacter)
  | 0, _ => none
  | fuel + 1, text =>
    match text with
    | ⟨'[', _, _⟩ :: rest =>
      if room = 0 then none
      else
        (readFlowItems? least (room - 1) fuel rest).map fun (items, rest) => (sequence items, rest)
    | ⟨'\x7b', _, _⟩ :: rest =>
      if room = 0 then none
      else
        (readFlowEntries? least (room - 1) fuel rest).map fun (entries, rest) =>
          (mapping entries, rest)
    | text =>
      match readQuoted? text with
      | some (content, rest) => some (scalar content false, rest)
      | none =>
        (readPlain? true least text).map fun (content, _, rest) => (scalar content true, rest)

/-- The value behind the colon of an entry in a flow, which may be missing. -/
def readFlowValue? (least room : Nat) :
    (fuel : Nat) → List PlacedCharacter → Option (YamlNode × List PlacedCharacter)
  | 0, _ => none
  | fuel + 1, text =>
    match dropBlanks true false text with
    | [] => none
    | first :: rest =>
      if [',', ']', '\x7d'].contains first.character then some (empty, first :: rest)
      else readFlow? least room fuel (first :: rest)

/-- The items of a sequence up to its closing bracket. A single entry without braces is an item
too, if its key is not empty. -/
def readFlowItems? (least room : Nat) :
    (fuel : Nat) → List PlacedCharacter → Option (List YamlNode × List PlacedCharacter)
  | 0, _ => none
  | fuel + 1, text =>
    match dropBlanks true false text with
    | ⟨']', _, _⟩ :: rest => some ([], rest)
    | text => do
      let (node, rest) ← readFlow? least room fuel text
      let (item, rest) ← match dropColon? true text rest with
        | some rest =>
          (readFlowValue? least room fuel rest).map fun (value, rest) =>
            (mapping [(node, value)], rest)
        | none => if mustBeKey least text then none else some (node, rest)
      match dropBlanks true false rest with
      | ⟨',', _, _⟩ :: rest =>
        (readFlowItems? least room fuel rest).map fun (items, rest) => (item :: items, rest)
      | ⟨']', _, _⟩ :: rest => some ([item], rest)
      | _ => none

/-- The entries of a mapping up to its closing brace. A key without a colon has no value. -/
def readFlowEntries? (least room : Nat) :
    (fuel : Nat) → List PlacedCharacter →
      Option (List (YamlNode × YamlNode) × List PlacedCharacter)
  | 0, _ => none
  | fuel + 1, text =>
    match dropBlanks true false text with
    | ⟨'\x7d', _, _⟩ :: rest => some ([], rest)
    | text => do
      let (entry, rest) ←
        if startsColon true text then
          (readFlowValue? least room fuel (text.drop 1)).map fun (value, rest) =>
            ((empty, value), rest)
        else do
          let (key, rest) ← readFlow? least room fuel text
          match dropColon? true text rest with
          | some rest =>
            (readFlowValue? least room fuel rest).map fun (value, rest) => ((key, value), rest)
          | none => if mustBeKey least text then none else some ((key, empty), rest)
      match dropBlanks true false rest with
      | ⟨',', _, _⟩ :: rest =>
        (readFlowEntries? least room fuel rest).map fun (entries, rest) => (entry :: entries, rest)
      | ⟨'\x7d', _, _⟩ :: rest => some ([entry], rest)
      | _ => none

end

/-- A scalar or a collection in brackets at the front of a text in a block, and whether a line is
known to end behind it. -/
def readInline? (least fuel : Nat) (text : List PlacedCharacter) :
    Option (YamlNode × Bool × List PlacedCharacter) :=
  match text with
  | ⟨'[', _, _⟩ :: _ | ⟨'\x7b', _, _⟩ :: _ =>
    (readFlow? least bracketLimit fuel text).map fun (node, rest) => (node, false, rest)
  | text =>
    match readQuoted? text with
    | some (content, rest) => some (scalar content false, false, rest)
    | none =>
      (readPlain? false least text).map fun (content, lineEnds, rest) =>
        (scalar content true, lineEnds, rest)

/-- A key, which may be empty, with its colon at the front of a text in a block. -/
def readKey? (least fuel : Nat) (text : List PlacedCharacter) :
    Option (YamlNode × List PlacedCharacter) :=
  if startsColon false text then some (empty, text.drop 1)
  else do
    let (key, _, rest) ← readInline? least fuel text
    let rest ← dropColon? false text rest
    return (key, rest)

/-- Whether an item of a sequence in a block starts at the front of a text. -/
def startsItem (text : List PlacedCharacter) : Bool :=
  match text with
  | ⟨'-', _, _⟩ :: rest => startsBlank rest
  | _ => false

mutual

/-- The node at the front of a text in a block, and what follows it and the blanks behind it.
Items and keys start only where a key may stand: at the start of a line, and behind what starts an
item or an entry with an empty key. Behind a scalar or a collection in brackets the line ends. -/
def readBlock? (least : Nat) (mayBeKey : Bool) :
    (fuel : Nat) → List PlacedCharacter → Option (YamlNode × List PlacedCharacter)
  | 0, _ => none
  | fuel + 1, text =>
    match text with
    | [] => none
    | first :: _ =>
      if startsItem text then
        if mayBeKey then
          (readItems? first.column fuel text).map fun (items, rest) => (sequence items, rest)
        else none
      else if mayBeKey && (readKey? least fuel text).isSome then
        (readEntries? first.column fuel text).map fun (entries, rest) => (mapping entries, rest)
      else do
        let (node, lineEnds, rest) ← readInline? least fuel text
        let (lineEnds, rest) := skipBlanks false lineEnds rest
        if lineEnds || rest.isEmpty then some (node, rest) else none
termination_by structural fuel => fuel

/-- The node of an item or an entry that stands in a column. In the same column stands the next
item or entry, or else a scalar or a collection in brackets that is the node. Only the items that
are the node of an entry may stand there as well. -/
def readBelow? (column : Nat) (ofItem mayBeKey : Bool) :
    (fuel : Nat) → List PlacedCharacter → Option (YamlNode × List PlacedCharacter)
  | 0, _ => none
  | fuel + 1, text =>
    match text with
    | [] => some (empty, [])
    | first :: _ =>
      if column < first.column then readBlock? (column + 1) mayBeKey fuel text
      else if first.column < column then some (empty, text)
      else if startsItem text then
        if ofItem then some (empty, text)
        else (readItems? column fuel text).map fun (items, rest) => (sequence items, rest)
      else if (readKey? (column + 1) fuel text).isSome then some (empty, text)
      else readBlock? (column + 1) mayBeKey fuel text
termination_by structural fuel => fuel

/-- The items of a sequence that stand in one column. -/
def readItems? (column : Nat) :
    (fuel : Nat) → List PlacedCharacter → Option (List YamlNode × List PlacedCharacter)
  | 0, _ => none
  | fuel + 1, text => do
    let (item, rest) ← readBelow? column true true fuel (dropBlanks false true (text.drop 1))
    if startsItem rest && rest.head?.any (·.column = column) then
      (readItems? column fuel rest).map fun (items, rest) => (item :: items, rest)
    else if rest.head?.all (·.column ≤ column) then some ([item], rest)
    else none
termination_by structural fuel => fuel

/-- The entries of a mapping that stand in one column. -/
def readEntries? (column : Nat) :
    (fuel : Nat) → List PlacedCharacter →
      Option (List (YamlNode × YamlNode) × List PlacedCharacter)
  | 0, _ => none
  | fuel + 1, text => do
    let (key, rest) ← readKey? (column + 1) fuel text
    let (mayBeKey, rest) := skipBlanks false (startsColon false text) rest
    let (value, rest) ← readBelow? column false mayBeKey fuel rest
    if rest.head?.any (·.column = column) then
      (readEntries? column fuel rest).map fun (entries, rest) => ((key, value) :: entries, rest)
    else if rest.head?.all (·.column < column) then some ([(key, value)], rest)
    else none
termination_by structural fuel => fuel

end

/-- The document that a whole text holds. A text without characters other than blanks and
comments holds none. -/
def ofText? (text : String) : Option YamlNode :=
  let characters := dropBlanks false true (documentCharacters text)
  match readBlock? 0 true (4 * characters.length + 4) characters with
  | some (node, []) => some node
  | _ => none

end BehaviorTree.YamlNode

namespace BehaviorTree.Yaml

/-- How many sequences and mappings may be nested in a document. -/
def depthLimit : Nat := 128

/-- The document that a whole text holds, if all of its scalars stand for something. -/
def ofText? (text : String) : Option Yaml :=
  (YamlNode.ofText? text).bind (YamlNode.resolve? depthLimit)

end BehaviorTree.Yaml
