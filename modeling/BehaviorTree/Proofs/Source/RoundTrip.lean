import BehaviorTree.Proofs.Source.Lists
import Mathlib.Data.List.DropRight

/-!
# Reading canonical texts back

Every part of a node is followed by something that its reader does not go on with: the next part
or the end of the line. Therefore each reader stops where its part ends, and a mission is read back
from its canonical text.
-/

namespace BehaviorTree

open MissionText

variable {text rest : List Char}

def AtLineEnd (text : List Char) : Prop :=
  ∀ c ∈ text.head?, c = '\n'

theorem AtLineEnd.skipLineBlanks (ended : AtLineEnd rest) : skipLineBlanks rest = rest :=
  skipLineBlanks_of_head fun c first => by rw [ended c first]; rfl

/-- After blanks, a text goes on with something other than a character. -/
def ContinuesWithout (character : Char) (text : List Char) : Prop :=
  ∀ c ∈ (skipLineBlanks text).head?, c ≠ character

theorem AtLineEnd.continuesWithout (ended : AtLineEnd rest) {character : Char}
    (other : character ≠ '\n') : ContinuesWithout character rest := by
  intro c first same
  rw [ended.skipLineBlanks] at first
  exact other (same ▸ ended c first)

theorem skipLineBlanks_skipLineBlanks (text : List Char) :
    skipLineBlanks (skipLineBlanks text) = skipLineBlanks text :=
  List.dropWhile_idempotent _ _

/-- A part that may be left out starts neither with a blank nor with the character. -/
theorem ContinuesWithout.afterBlank {character : Char} {part : List Char}
    (continues : ContinuesWithout character rest)
    (starts : ∀ c ∈ part.head?, isLineBlank c = false ∧ c ≠ character) :
    ContinuesWithout character (afterBlank part ++ rest) := by
  cases part with
  | nil => exact continues
  | cons first more =>
    have ⟨solid, other⟩ := starts first rfl
    intro c head
    change c ∈ (skipLineBlanks (first :: (more ++ rest))).head? at head
    rw [skipLineBlanks_of_head (by simpa using solid)] at head
    cases head
    exact other

theorem ContinuesWithout.block {character : Char} (continues : ContinuesWithout character rest)
    (other : character ≠ '\x7b') (lines : List Char) :
    ContinuesWithout character (writeBlock lines ++ rest) := by
  cases lines with
  | nil => exact continues
  | cons line more =>
    rintro c ⟨⟩ rfl
    exact other rfl

theorem atWordEnd_afterBlank (part : List Char) (ends : atWordEnd rest = true) :
    atWordEnd (afterBlank part ++ rest) = true := by
  cases part with
  | nil => exact ends
  | cons first more => exact (by decide : (!isWordCharacter ' ') = true)

theorem atWordEnd_writeBlock (lines : List Char) (ends : atWordEnd rest = true) :
    atWordEnd (writeBlock lines ++ rest) = true := by
  cases lines with
  | nil => exact ends
  | cons first more => exact (by decide : (!isWordCharacter ' ') = true)

theorem AtLineEnd.atWordEnd (ended : AtLineEnd rest) : atWordEnd rest = true := by
  cases rest with
  | nil => rfl
  | cons first more =>
    rw [ended first rfl]
    exact (by decide : (!isWordCharacter '\n') = true)

theorem bind_success {α β : Type} (value : α) (rest : List Char)
    (next : α → List Char → Reply β) : (Reply.success value rest).bind next = next value rest :=
  rfl

theorem Reply.bind_eq_success_iff {α β : Type} {reply : Reply α}
    {next : α → List Char → Reply β} {value : β} {rest : List Char} :
    reply.bind next = .success value rest ↔
      ∃ part after, reply = .success part after ∧ next part after = .success value rest := by
  constructor
  · intro read
    cases reply with
    | success part after => exact ⟨part, after, rfl, read⟩
    | mismatch => cases read
    | fatal rest => cases read
  · rintro ⟨part, after, rfl, read⟩
    exact read

theorem Reply.ofOption_eq_success_iff {α : Type} {read : Option (α × List Char)} {value : α}
    {rest : List Char} : Reply.ofOption read = .success value rest ↔ read = some (value, rest) := by
  cases read with
  | none => simp [Reply.ofOption]
  | some result => simp [Reply.ofOption, Prod.ext_iff]

/-- What a node starts with is read up to its ports. -/
theorem readNode_kind {kind : String} (named : IsIdentifier kind) {label : Option String}
    (plain : ∀ text, label = some text → IsPlainText text) (ends : atWordEnd rest = true)
    (continues : ContinuesWithout '"' rest) (fuel : Nat) :
    readNode (fuel + 1)
        (kind.toList ++ (afterBlank ((label.map writeQuoted).getD []) ++ rest)) =
      ((readPortList (skipLineBlanks rest)).orElse (skipLineBlanks rest) []).bind
        fun ports text => ((readChildList fuel text).orElse text []).bind
          fun children text =>
            .success (.node kind label ports children) (skipOptionalComment text) := by
  rw [readNode, named.readName? (atWordEnd_afterBlank _ ends)]
  simp only [Reply.ofOption, bind_success, skipLineBlanks_skipLineBlanks]
  cases label with
  | none =>
    have noLabel : readQuoted? (skipLineBlanks rest) = none := readQuoted?_eq_none continues
    simp only [Option.map_none, Option.getD_none, afterBlank, List.nil_append, noLabel]
  | some label =>
    have skipped : skipLineBlanks (afterBlank (((some label).map writeQuoted).getD []) ++ rest) =
        writeQuoted label ++ rest := rfl
    simp only [skipped, readQuoted?_append (plain label rfl) rest]

theorem readPortList_afterBlank {ports : List PortSource}
    (writable : ∀ port ∈ ports, port.IsWritable) (continues : ContinuesWithout '(' rest)
    {text : List Char}
    (written : text =
      skipLineBlanks (afterBlank (writeList (ports.map PortSource.write)) ++ rest)) :
    (readPortList text).orElse text [] = .success ports (skipLineBlanks rest) := by
  cases ports with
  | nil =>
    have none : readPortList (skipLineBlanks rest) = .mismatch := by
      rw [readPortList, skipToken?, skipLineBlanks_skipLineBlanks,
        skipText?_eq_none rfl continues]
      rfl
    have written : text = skipLineBlanks rest := written
    rw [written, none]
    rfl
  | cons port more =>
    have read := readPortList_write writable (List.cons_ne_nil _ _) rest
    have written : text = writeList ((port :: more).map PortSource.write) ++ rest := written
    rw [written, read]
    rfl

/-- Nodes on lines of their own, with the closing brace. -/
def writeBody (children : List NodeSource) (rest : List Char) : List Char :=
  writeLines children ++ '\n' :: '\x7d' :: rest

theorem atLineEnd_writeBody (children : List NodeSource) (rest : List Char) :
    AtLineEnd (writeBody children rest) := by
  cases children <;> rintro c ⟨⟩ <;> rfl

theorem writeBody_cons (child : NodeSource) (more : List NodeSource) (rest : List Char) :
    writeBody (child :: more) rest = '\n' :: (child.write ++ writeBody more rest) := by
  simp [writeBody, writeLines]

theorem writeBlock_append {children : List NodeSource} (some : children ≠ [])
    (rest : List Char) :
    writeBlock (writeLines children) ++ rest = ' ' :: '\x7b' :: writeBody children rest := by
  cases children with
  | nil => exact absurd rfl some
  | cons child more => simp [writeBody, writeLines, writeBlock]

theorem skipComment?_eq_none (continues : ContinuesWithout '#' text) :
    skipComment? text = none := by
  rw [skipComment?, skipText?_eq_none rfl continues, Option.map_none]

/-- A node is read back with as much fuel as its text has characters. -/
def IsReadBack (node : NodeSource) : Prop :=
  ∀ {fuel : Nat} {rest : List Char}, node.write.length ≤ fuel → AtLineEnd rest →
    readNode fuel (node.write ++ rest) = .success node rest

theorem readChildren_writeBody {children : List NodeSource}
    (starts : ∀ child ∈ children, StartsWithName child.write)
    (read : ∀ child ∈ children, IsReadBack child)
    {fuel : Nat} (enough : (writeLines children).length ≤ fuel) (rest : List Char) :
    readChildren fuel (skipLineEnds (writeBody children rest)) =
      .success children ('\x7d' :: rest) := by
  induction children generalizing fuel with
  | nil =>
    change readChildren fuel ('\x7d' :: rest) = _
    cases fuel with
    | zero => rfl
    | succ fuel => cases fuel <;> rfl
  | cons child more hypothesis =>
    rw [List.forall_mem_cons] at starts read
    rw [writeLines, List.cons_append, List.length_cons, List.length_append] at enough
    cases fuel with
    | zero => exact absurd enough (Nat.not_succ_le_zero _)
    | succ fuel =>
      have starting := starts.1.append (writeBody more rest)
      have nextLine : skipLineEnds (writeBody (child :: more) rest) =
          child.write ++ writeBody more rest := by
        rw [writeBody_cons]
        exact starting.skipBlanks
      have noComment : skipComment? (child.write ++ writeBody more rest) = none := by
        refine skipComment?_eq_none ?_
        rw [ContinuesWithout, starting.skipLineBlanks]
        exact starting.ne_head (by decide)
      have first : child.write.length ≤ fuel := by omega
      have others : (writeLines more).length ≤ fuel := by omega
      rw [nextLine, readChildren, noComment, starting.skipLineBlanks]
      simp only [read.1 first (atLineEnd_writeBody more rest), hypothesis starts.2 read.2 others,
        Reply.map]

theorem readChildList_writeBlock {children : List NodeSource}
    (starts : ∀ child ∈ children, StartsWithName child.write)
    (read : ∀ child ∈ children, IsReadBack child)
    {fuel : Nat} (enough : (writeBlock (writeLines children)).length ≤ fuel)
    (ended : AtLineEnd rest) {text : List Char}
    (written : text = skipLineBlanks (writeBlock (writeLines children) ++ rest)) :
    (readChildList fuel text).orElse text [] = .success children rest := by
  cases fuel with
  | zero =>
    cases children with
    | nil =>
      have written : text = skipLineBlanks rest := written
      rw [written, ended.skipLineBlanks]
      rfl
    | cons child more => exact absurd enough (Nat.not_succ_le_zero _)
  | succ fuel =>
    cases children with
    | nil =>
      have written : text = skipLineBlanks rest := written
      rw [written, ended.skipLineBlanks, readChildList, skipToken?,
        skipText?_eq_none rfl (ended.continuesWithout (by decide))]
      rfl
    | cons child more =>
      have block := writeBlock_append (List.cons_ne_nil child more)
      have opened : skipToken? "\x7b" text = some (writeBody (child :: more) rest) := by
        rw [written, block]
        change some (skipLineBlanks (writeBody (child :: more) rest)) = _
        rw [(atLineEnd_writeBody (child :: more) rest).skipLineBlanks]
      have closed : skipToken? "\x7d" ('\x7d' :: rest) = some rest := by
        change some (skipLineBlanks rest) = some rest
        rw [ended.skipLineBlanks]
      have enough : (writeLines (child :: more)).length ≤ fuel := by
        have whole := congrArg List.length (block [])
        simp only [List.append_nil, writeBody, List.length_cons, List.length_append] at whole
        omega
      rw [readChildList, opened]
      simp only [Reply.ofOption, bind_success, Option.map_some,
        readChildren_writeBody starts read enough rest, closed, Reply.orElse]

theorem skipOptionalComment_of_atLineEnd (ended : AtLineEnd rest) :
    skipOptionalComment rest = rest := by
  rw [skipOptionalComment, skipComment?_eq_none (ended.continuesWithout (by decide)),
    Option.getD_none]

theorem NodeSource.IsWritable.startsWithName {node : NodeSource} (writable : node.IsWritable) :
    StartsWithName node.write := by
  cases writable with
  | node named =>
    simp only [NodeSource.write, List.append_assoc]
    exact named.startsWithName.append _

theorem isReadBack_of_isWritable {node : NodeSource} (writable : node.IsWritable) :
    IsReadBack node := by
  -- A level of children takes two units of fuel, and has the characters of two braces.
  induction writable with
  | @node kind label ports children named labelled connected deeper hypothesis =>
    intro fuel rest enough ended
    cases fuel with
    | zero =>
      exact absurd (List.length_eq_zero_iff.1 (Nat.le_zero.1 enough))
        (NodeSource.IsWritable.node named labelled connected deeper).startsWithName.ne_nil
    | succ fuel =>
      have written : (NodeSource.node kind label ports children).write ++ rest =
          kind.toList ++ (afterBlank ((label.map writeQuoted).getD []) ++
            (afterBlank (writeList (ports.map PortSource.write)) ++
              (writeBlock (writeLines children) ++ rest))) := by
        simp [NodeSource.write]
      have enough : (writeBlock (writeLines children)).length ≤ fuel := by
        have some := List.length_pos_iff.2 named.startsWithName.ne_nil
        simp only [NodeSource.write, List.length_append] at enough
        omega
      have ends := atWordEnd_afterBlank (writeList (ports.map PortSource.write))
        (atWordEnd_writeBlock (writeLines children) ended.atWordEnd)
      have noQuote : ContinuesWithout '"' (afterBlank (writeList (ports.map PortSource.write)) ++
          (writeBlock (writeLines children) ++ rest)) := by
        refine ((ended.continuesWithout (by decide)).block (by decide) _).afterBlank ?_
        cases ports <;> rintro c ⟨⟩
        decide
      have noParenthesis : ContinuesWithout '(' (writeBlock (writeLines children) ++ rest) :=
        (ended.continuesWithout (by decide)).block (by decide) _
      rw [written, readNode_kind named labelled ends noQuote,
        readPortList_afterBlank connected noParenthesis rfl, bind_success,
        readChildList_writeBlock (fun child listed => (deeper child listed).startsWithName)
          hypothesis enough ended rfl, bind_success, skipOptionalComment_of_atLineEnd ended]

theorem readParameterList?_writeList {parameters : List ParameterSource}
    (writable : ∀ parameter ∈ parameters, parameter.IsWritable)
    (continues : ContinuesWithout '(' rest) {text : List Char}
    (written : text =
      skipLineBlanks (writeList (parameters.map ParameterSource.write) ++ rest)) :
    (readParameterList? text).getD ([], text) = (parameters, skipLineBlanks rest) := by
  cases parameters with
  | nil =>
    have none : readParameterList? (skipLineBlanks rest) = none := by
      rw [readParameterList?, skipToken?, skipLineBlanks_skipLineBlanks,
        skipText?_eq_none rfl continues]
      rfl
    have written : text = skipLineBlanks rest := written
    rw [written, none, Option.getD_none]
  | cons parameter more =>
    have read := readParameterList?_write writable (List.cons_ne_nil _ _) rest
    have written : text =
        writeList ((parameter :: more).map ParameterSource.write) ++ rest := written
    rw [written, read, Option.getD_some]

theorem readTree_write {tree : TreeSource} (writable : tree.IsWritable) (ended : AtLineEnd rest)
    (written : skipBlanks text = tree.write ++ rest) : readTree text = .success tree rest := by
  rcases tree with ⟨name, parameters, root⟩
  have parted : skipBlanks text = "tree".toList ++ ' ' :: (name.toList ++
      (writeList (parameters.map ParameterSource.write) ++
        ' ' :: '=' :: ' ' :: (root.write ++ rest))) := by
    simpa [TreeSource.write] using written
  have ends : atWordEnd (writeList (parameters.map ParameterSource.write) ++
      ' ' :: '=' :: ' ' :: (root.write ++ rest)) = true := by
    cases parameters with
    | nil => exact (by decide : (!isWordCharacter ' ') = true)
    | cons parameter more => exact (by decide : (!isWordCharacter '(') = true)
  have readName : readName? (' ' :: (name.toList ++
      (writeList (parameters.map ParameterSource.write) ++
        ' ' :: '=' :: ' ' :: (root.write ++ rest)))) = _ := writable.name.readName? ends
  have continues : ContinuesWithout '(' (' ' :: '=' :: ' ' :: (root.write ++ rest)) := by
    rintro c ⟨⟩
    decide
  have equals : skipText? "=" (skipLineBlanks (skipLineBlanks
      (' ' :: '=' :: ' ' :: (root.write ++ rest)))) = some (' ' :: (root.write ++ rest)) := rfl
  have solid : skipBlanks (' ' :: (root.write ++ rest)) = root.write ++ rest :=
    (writable.root.startsWithName.append rest).skipBlanks
  have enough : root.write.length ≤ (' ' :: (root.write ++ rest)).length + 1 := by
    simp only [List.length_cons, List.length_append]
    omega
  have read := isReadBack_of_isWritable writable.root enough ended
  rw [readTree, parted, skipText?_append]
  simp only [Option.map_some, Reply.ofOption, bind_success, readName,
    readParameterList?_writeList writable.parameters continues rfl, equals, solid, read, Reply.map]

/-- After a definition, the end of its line leads to the next one or to the end of the text. -/
theorem intercalate_trees (tree : TreeSource) (more : List TreeSource) {ending : List Char}
    (ended : AtLineEnd ending) :
    ∃ tail, List.intercalate ['\n'] ((tree :: more).map TreeSource.write) ++ ending =
        tree.write ++ tail ∧ AtLineEnd tail ∧
      skipBlanks tail =
        skipBlanks (List.intercalate ['\n'] (more.map TreeSource.write) ++ ending) := by
  cases more with
  | nil => exact ⟨ending, by simp, ended, rfl⟩
  | cons next others =>
    refine ⟨'\n' :: (List.intercalate ['\n'] ((next :: others).map TreeSource.write) ++ ending),
      ?_, ?_, rfl⟩
    · simp [List.intercalate_cons_cons]
    · rintro c ⟨⟩
      rfl

/-- The written definitions are read whatever blanks stand around them. -/
theorem readTrees_write {trees : List TreeSource} (writable : ∀ tree ∈ trees, tree.IsWritable)
    {fuel : Nat} (enough : trees.length ≤ fuel) {ending : List Char}
    (blank : skipBlanks ending = []) (ended : AtLineEnd ending)
    (written : skipBlanks text =
      skipBlanks (List.intercalate ['\n'] (trees.map TreeSource.write) ++ ending)) :
    ∃ left, readTrees fuel text = .success trees left ∧ skipBlanks left = [] := by
  induction trees generalizing fuel text with
  | nil =>
    have none : skipBlanks text = [] := written.trans blank
    refine ⟨text, ?_, none⟩
    cases fuel with
    | zero => rfl
    | succ fuel =>
      rw [readTrees, skipCommentLine?, readTree, none]
      rfl
  | cons tree more hypothesis =>
    rw [List.forall_mem_cons] at writable
    cases fuel with
    | zero => exact absurd enough (Nat.not_succ_le_zero _)
    | succ fuel =>
      rcases intercalate_trees tree more ended with ⟨tail, parted, followed, skipped⟩
      have starting : skipBlanks text = tree.write ++ tail := by
        rw [written, parted]
        rfl
      have noComment : skipCommentLine? text = none := by
        rw [skipCommentLine?, starting]
        rfl
      rcases hypothesis writable.2 (Nat.le_of_succ_le_succ enough) skipped
        with ⟨left, read, done⟩
      refine ⟨left, ?_, done⟩
      rw [readTrees, noComment]
      simp only [readTree_write writable.1 followed starting, read, Reply.map]

/-- The reader of missions comes to the end of a canonical text, whose last line may have an end. -/
theorem MissionSource.readText_write {mission : MissionSource} (writable : mission.IsWritable)
    {ending : String} (ends : ending = "" ∨ ending = "\n") :
    MissionSource.readText (mission.write ++ ending).toList = .success mission [] := by
  have blank : skipBlanks ending.toList = [] := by
    rcases ends with rfl | rfl <;> rfl
  have ended : AtLineEnd ending.toList := by
    rcases ends with rfl | rfl <;> rintro c ⟨⟩
    rfl
  have written : (mission.write ++ ending).toList =
      List.intercalate ['\n'] (mission.trees.map TreeSource.write) ++ ending.toList := by
    simp [MissionSource.write]
  have enough : mission.trees.length ≤ (mission.write ++ ending).toList.length := by
    have filled : ∀ line ∈ mission.trees.map TreeSource.write, line ≠ [] :=
      List.forall_mem_map.2 fun tree _ => List.cons_ne_nil _ _
    have counted := length_le_intercalate filled ['\n']
    rw [List.length_map] at counted
    rw [written, List.length_append]
    exact Nat.le_add_right_of_le counted
  rcases readTrees_write writable enough blank ended (congrArg skipBlanks written)
    with ⟨left, read, done⟩
  rw [MissionSource.readText, read, bind_success, done]
  rfl

/-- A mission is read back from its canonical text, whose last line may have an end. -/
theorem MissionSource.ofText_write {mission : MissionSource} (writable : mission.IsWritable)
    {ending : String} (ends : ending = "" ∨ ending = "\n") :
    MissionSource.ofText (mission.write ++ ending) = .ok mission := by
  rw [MissionSource.ofText, MissionSource.readText_write writable ends]

namespace Rounds

def check : NodeSource :=
  .node "Condition" (some "low") [⟨.input, "lhs", .path "battery.cells.0"⟩,
    ⟨.input, "operation", .constant (.string "<")⟩, ⟨.input, "rhs", .parameter "limit"⟩] []

def park : NodeSource :=
  .node "SetBlackboard" none [⟨.input, "value", .constant (.bool true)⟩,
    ⟨.output, "target", .path "parked"⟩] []

/-- A mission with every kind of part that can be written. -/
def mission : MissionSource where
  trees := [
    ⟨"round", [⟨"limit", "int", some (.int (-9223372036854775808))⟩, ⟨"title", "string", none⟩],
      .node "Sequence" (some "every round") [] [check, .node "Selector" none [] [park]]⟩,
    ⟨"main", [],
      .node "round" none [⟨.input, "title", .constant (.string "north wing")⟩] []⟩]

theorem check_isWritable : check.IsWritable := by
  have cells : IsVariablePath "battery.cells.0" :=
    ⟨"battery", [['c', 'e', 'l', 'l', 's'], ['0']], by decide, by decide, by decide, by decide, rfl⟩
  refine .node (by decide) (by rintro _ ⟨⟩; decide) ?_ nofun
  simp only [List.forall_mem_cons]
  exact ⟨⟨by decide, cells, nofun⟩, ⟨by decide, (by decide : IsPlainText "<"), nofun⟩,
    ⟨by decide, (by decide : IsIdentifier "limit"), nofun⟩, nofun⟩

theorem park_isWritable : park.IsWritable := by
  have parked : IsVariablePath "parked" :=
    ⟨"parked", [], by decide, by decide, by decide, by decide, rfl⟩
  refine .node (by decide) nofun ?_ nofun
  simp only [List.forall_mem_cons]
  exact ⟨⟨by decide, trivial, nofun⟩, ⟨by decide, parked, fun _ => ⟨_, rfl⟩⟩, nofun⟩

theorem mission_isWritable : mission.IsWritable := by
  have selector : (NodeSource.node "Selector" none [] [park]).IsWritable := by
    refine .node (by decide) nofun nofun ?_
    rw [List.forall_mem_singleton]
    exact park_isWritable
  have sequence : (NodeSource.node "Sequence" (some "every round") []
      [check, .node "Selector" none [] [park]]).IsWritable := by
    refine .node (by decide) (by rintro _ ⟨⟩; decide) nofun ?_
    rw [List.forall_mem_cons, List.forall_mem_singleton]
    exact ⟨check_isWritable, selector⟩
  have call : (NodeSource.node "round" none
      [⟨.input, "title", .constant (.string "north wing")⟩] []).IsWritable := by
    refine .node (by decide) nofun ?_ nofun
    rw [List.forall_mem_singleton]
    exact ⟨by decide, (by decide : IsPlainText "north wing"), nofun⟩
  simp only [MissionSource.IsWritable, mission, List.forall_mem_cons]
  refine ⟨⟨by decide, ?_, sequence⟩, ⟨by decide, nofun, call⟩, nofun⟩
  simp only [List.forall_mem_cons]
  exact ⟨⟨by decide, by decide, by rintro _ ⟨⟩; trivial⟩, ⟨by decide, by decide, nofun⟩, nofun⟩

theorem mission_is_read_back :
    mission.write = "tree round(limit: int = -9223372036854775808, title: string) = " ++
      "Sequence \"every round\" \x7b\n" ++
      "Condition \"low\" (lhs <- battery.cells.0, operation <- \"<\", rhs <- $limit)\n" ++
      "Selector \x7b\nSetBlackboard (value <- true, target -> parked)\n\x7d\n\x7d\n" ++
      "tree main = round (title <- \"north wing\")" ∧
    MissionSource.ofText (mission.write ++ "\n") = .ok mission :=
  ⟨by cbv, MissionSource.ofText_write mission_isWritable (Or.inr rfl)⟩

end Rounds

end BehaviorTree
