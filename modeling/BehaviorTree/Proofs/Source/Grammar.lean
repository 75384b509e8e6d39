import BehaviorTree.Proofs.Source.Spans

/-!
# The grammar of missions

What the readers accept, without the fuel they carry and without what they try in vain. The readers
take back a list or a block of children that is not complete. Then nothing can follow the node, so
in an accepted text a part is either complete or does not start at all.

Between children and between definitions, the grammar puts comments and blanks on a par.
-/

namespace BehaviorTree

open MissionText

variable {α : Type} {text after rest : List Char}

/-- The commas that may follow a port. -/
inductive CommasText : List Char → List Char → Prop where
  | nothing {text : List Char} (other : ∀ c ∈ (skipBlanks text).head?, c ≠ ',') :
    CommasText text text
  | comma {text after rest : List Char} (skipped : skipText? "," (skipBlanks text) = some after)
    (more : CommasText after rest) : CommasText text rest

/-- A port with the commas that follow it. -/
inductive PortText : List Char → PortSource → List Char → Prop where
  | port {text after rest : List Char} {port : PortSource}
    (read : readPort (skipBlanks text) = .success port after) (separated : CommasText after rest) :
    PortText text port rest

/-- The value of a parameter, which may be left out. -/
inductive DefaultText : List Char → Option Value → List Char → Prop where
  | absent {text : List Char} (without : ContinuesWithout '=' text) : DefaultText text none text
  | value {text rest : List Char} {value : Value}
    (read : readDefault? text = some (value, rest)) : DefaultText text (some value) rest

/-- The comma that may follow a parameter. -/
inductive CommaText : List Char → List Char → Prop where
  | absent {text : List Char} (other : ∀ c ∈ (skipBlanks text).head?, c ≠ ',') :
    CommaText text text
  | comma {text rest : List Char} (skipped : skipText? "," (skipBlanks text) = some rest) :
    CommaText text rest

/-- A parameter with the comma that may follow it. -/
inductive ParameterText : List Char → ParameterSource → List Char → Prop where
  | parameter {text behindName behindKind behindDefault rest : List Char} {name kind : String}
    {default : Option Value} (named : readName? (skipBlanks text) = some (name, behindName))
    (typed : readParameterKind? behindName = some (kind, behindKind))
    (defaulted : DefaultText behindKind default behindDefault)
    (separated : CommaText behindDefault rest) :
    ParameterText text ⟨name, kind, default⟩ rest

/-- Parts up to a closing parenthesis. -/
inductive PartsText (part : List Char → α → List Char → Prop) :
    List Char → List α → List Char → Prop where
  | close {text rest : List Char} (closed : skipClosing? text = some rest) :
    PartsText part text [] rest
  | part {text after rest : List Char} {value : α} {values : List α}
    (first : part text value after) (more : PartsText part after values rest) :
    PartsText part text (value :: values) rest

/-- A list of parts in parentheses, which may be left out. -/
inductive ListText (part : List Char → α → List Char → Prop) :
    List Char → List α → List Char → Prop where
  | absent {text : List Char} (without : ContinuesWithout '(' text) : ListText part text [] text
  | list {text inner rest : List Char} {values : List α}
    (opened : skipToken? "(" text = some inner) (filled : PartsText part inner values rest) :
    ListText part text values rest

/-- The label of a node, which may be left out. -/
inductive LabelText : List Char → Option String → List Char → Prop where
  | absent {text : List Char} (without : ContinuesWithout '"' text) : LabelText text none text
  | label {text after : List Char} {label : String}
    (read : readQuoted? (skipLineBlanks text) = some (label, after)) :
    LabelText text (some label) (skipLineBlanks after)

mutual

/-- A node without the comment that may follow it on its line. -/
inductive NodeText : List Char → NodeSource → List Char → Prop where
  | node {text behindKind behindLabel behindPorts rest : List Char} {kind : String}
    {label : Option String} {ports : List PortSource} {children : List NodeSource}
    (named : readName? text = some (kind, behindKind))
    (labelled : LabelText behindKind label behindLabel)
    (connected : ListText PortText behindLabel ports behindPorts)
    (nested : BlockText behindPorts children rest) :
    NodeText text (.node kind label ports children) rest

/-- The children of a node in braces, which may be left out. -/
inductive BlockText : List Char → List NodeSource → List Char → Prop where
  | absent {text : List Char} (without : ContinuesWithout '\x7b' text) : BlockText text [] text
  | block {text inner rest : List Char} {children : List NodeSource}
    (opened : skipToken? "\x7b" text = some inner)
    (filled : ChildrenText (skipBlanks inner) children rest) : BlockText text children rest

/-- Children and comments up to a closing brace. -/
inductive ChildrenText : List Char → List NodeSource → List Char → Prop where
  | close {text rest : List Char} (closed : skipToken? "\x7d" text = some rest) :
    ChildrenText text [] rest
  | comment {text after rest : List Char} {children : List NodeSource}
    (skipped : skipComment? text = some after)
    (more : ChildrenText (skipBlanks after) children rest) : ChildrenText text children rest
  | child {text after rest : List Char} {child : NodeSource} {children : List NodeSource}
    (first : NodeText text child after)
    (more : ChildrenText (skipBlanks after) children rest) :
    ChildrenText text (child :: children) rest

end

/-- A definition without the comment that may follow it on its line. -/
inductive TreeText : List Char → TreeSource → List Char → Prop where
  | tree {text behindWord behindName behindParameters behindEquals rest : List Char}
    {name : String} {parameters : List ParameterSource} {root : NodeSource}
    (word : skipText? "tree" text = some behindWord)
    (named : readName? behindWord = some (name, behindName))
    (declared : ListText ParameterText behindName parameters behindParameters)
    (equals : skipText? "=" (skipLineBlanks behindParameters) = some behindEquals)
    (rooted : NodeText (skipBlanks behindEquals) root rest) :
    TreeText text ⟨name, parameters, root⟩ rest

/-- Definitions and comments up to the end of a text. Only the last comment may end without a line
feed. -/
inductive TreesText : List Char → List TreeSource → Prop where
  | nothing : TreesText [] []
  | lastComment {text after : List Char} (skipped : skipComment? text = some after)
    (blank : skipBlanks after = []) : TreesText text []
  | comment {text after : List Char} {trees : List TreeSource}
    (skipped : skipComment? text = some ('\n' :: after))
    (more : TreesText (skipBlanks after) trees) : TreesText text trees
  | tree {text after : List Char} {tree : TreeSource} {trees : List TreeSource}
    (first : TreeText text tree after)
    (more : TreesText (skipBlanks (skipOptionalComment after)) trees) :
    TreesText text (tree :: trees)

theorem head_of_skipToken? {expected : String} {first : Char} {others : List Char}
    (spelled : expected.toList = first :: others) (skipped : skipToken? expected text = some rest) :
    (skipLineBlanks text).head? = some first := by
  rcases Option.map_eq_some_iff.1 skipped with ⟨after, skipped, -⟩
  rw [eq_append_of_skipText? skipped, spelled]
  rfl

theorem head_of_skipComment? (skipped : skipComment? text = some rest) :
    (skipLineBlanks text).head? = some '#' := by
  rcases Option.map_eq_some_iff.1 skipped with ⟨after, skipped, -⟩
  rw [eq_append_of_skipText? skipped]
  rfl

theorem startsWithName_of_readName? {name : String} (read : readName? text = some (name, rest)) :
    StartsWithName (skipLineBlanks text) := by
  rcases Option.map_eq_some_iff.1 read with ⟨⟨word, ending⟩, read, -⟩
  unfold identifierOfText? at read
  split at read
  · rename_i first more same
    split at read
    · rename_i starts
      exact ⟨first, more, same, starts⟩
    · cases read
  · cases read

theorem continuesWithout_of_head {first character : Char}
    (head : (skipLineBlanks text).head? = some first) (other : first ≠ character) :
    ContinuesWithout character text := by
  intro c start
  rw [head] at start
  cases start
  exact other

theorem skipToken?_eq_none {expected : String} {first : Char} {others : List Char}
    (spelled : expected.toList = first :: others) (without : ContinuesWithout first text) :
    skipToken? expected text = none := by
  rw [skipToken?, skipText?_eq_none spelled without]
  rfl

theorem skipBlanks_of_solid {first : Char} (head : (skipLineBlanks text).head? = some first)
    (solid : isBlank first = false) : skipBlanks text = skipLineBlanks text := by
  rw [← skipBlanks_skipLineBlanks]
  apply skipBlanks_of_head
  intro c start
  rw [head] at start
  cases start
  exact solid

/-- No part of a node starts at the front of a text. -/
structure IsBehindNode (text : List Char) : Prop where
  quote : ContinuesWithout '"' text
  parenthesis : ContinuesWithout '(' text
  brace : ContinuesWithout '\x7b' text

theorem IsBehindNode.of_head {first : Char} (head : (skipLineBlanks text).head? = some first)
    (other : first ∉ ['"', '(', '\x7b']) : IsBehindNode text := by
  simp only [List.mem_cons, List.not_mem_nil, or_false, not_or] at other
  exact ⟨continuesWithout_of_head head other.1, continuesWithout_of_head head other.2.1,
    continuesWithout_of_head head other.2.2⟩

/-- What nodes are followed by is no part of a node, whatever blanks stand before it. -/
theorem IsBehindNode.of_skipBlanks
    (starts : ∀ c ∈ (skipLineBlanks (skipBlanks text)).head?, c ∉ ['"', '(', '\x7b']) :
    IsBehindNode text := by
  cases head : (skipLineBlanks text).head? with
  | none =>
    have absent : ∀ c, c ∉ (skipLineBlanks text).head? := by simp [head]
    exact ⟨fun c first => absurd first (absent c), fun c first => absurd first (absent c),
      fun c first => absurd first (absent c)⟩
  | some first =>
    apply IsBehindNode.of_head head
    intro listed
    have solid : isBlank first = false := by
      simp only [List.mem_cons, List.not_mem_nil, or_false] at listed
      rcases listed with rfl | rfl | rfl <;> rfl
    have same : skipLineBlanks (skipBlanks text) = skipLineBlanks text := by
      rw [skipBlanks_of_solid head solid, skipLineBlanks_skipLineBlanks]
    rw [same] at starts
    exact starts first head listed

theorem not_mem_of_startsIdentifier {first : Char} (starts : startsIdentifier first = true) :
    first ∉ ['"', '(', '\x7b'] := by
  intro listed
  simp only [List.mem_cons, List.not_mem_nil, or_false] at listed
  rcases listed with rfl | rfl | rfl <;> cases starts

theorem NodeText.startsWithName {node : NodeSource} (nodeText : NodeText text node rest) :
    StartsWithName (skipLineBlanks text) := by
  cases nodeText with
  | node named => exact startsWithName_of_readName? named

theorem ChildrenText.isBehindNode {children : List NodeSource}
    (childrenText : ChildrenText (skipBlanks text) children rest) : IsBehindNode text := by
  apply IsBehindNode.of_skipBlanks
  intro c head
  cases childrenText with
  | close closed =>
    rw [head_of_skipToken? rfl closed] at head
    cases head
    decide
  | comment skipped =>
    rw [head_of_skipComment? skipped] at head
    cases head
    decide
  | child first =>
    rcases first.startsWithName with ⟨first, more, same, starts⟩
    rw [same] at head
    cases head
    exact not_mem_of_startsIdentifier starts

theorem TreesText.isBehindNode {trees : List TreeSource}
    (treesText : TreesText (skipBlanks text) trees) : IsBehindNode text := by
  apply IsBehindNode.of_skipBlanks
  intro c head
  generalize skipBlanks text = front at treesText head
  cases treesText with
  | nothing => cases head
  | lastComment skipped =>
    rw [head_of_skipComment? skipped] at head
    cases head
    decide
  | comment skipped =>
    rw [head_of_skipComment? skipped] at head
    cases head
    decide
  | tree first =>
    cases first with
    | tree word =>
      rw [eq_append_of_skipText? word] at head
      cases head
      decide

theorem IsBehindNode.of_skipOptionalComment
    (behind : IsBehindNode (skipOptionalComment text)) : IsBehindNode text := by
  unfold skipOptionalComment at behind
  cases skipped : skipComment? text with
  | none =>
    rw [skipped] at behind
    exact behind
  | some after => exact .of_head (head_of_skipComment? skipped) (by decide)

theorem Reply.orElse_eq_success {reply : Reply α} {value other : α}
    (read : reply.orElse text other = .success value rest) :
    reply = .success value rest ∨ reply = .mismatch ∧ value = other ∧ rest = text := by
  cases reply with
  | success value rest => exact .inl read
  | mismatch =>
    cases read
    exact .inr ⟨rfl, rfl, rfl⟩
  | fatal rest => cases read

theorem Reply.map_eq_success_iff {β : Type} {reply : Reply α} {change : α → β} {value : β} :
    reply.map change = .success value rest ↔
      ∃ part, reply = .success part rest ∧ change part = value := by
  cases reply <;> simp [Reply.map, and_comm, eq_comm]

theorem commasText_skipCommas {fuel : Nat} (enough : text.length ≤ fuel) :
    CommasText text (skipCommas fuel text) := by
  induction fuel generalizing text with
  | zero =>
    rw [List.length_eq_zero_iff.1 (Nat.le_zero.1 enough)]
    exact .nothing nofun
  | succ fuel ih =>
    rw [skipCommas]
    cases skipped : skipText? "," (skipBlanks text) with
    | none =>
      refine .nothing ?_
      rintro c head rfl
      rcases List.head?_eq_some_iff.1 head with ⟨more, same⟩
      rw [same] at skipped
      cases skipped.symm.trans (skipText?_append "," more)
    | some after =>
      have shorter : after.length < text.length := by
        have skippedBlanks := (List.dropWhile_suffix isBlank (l := text)).length_le
        have spelled := congrArg List.length (eq_append_of_skipText? skipped)
        unfold skipBlanks at spelled
        simp only [List.length_append, String.length_toList] at spelled
        have comma : ",".length = 1 := rfl
        omega
      exact .comma skipped (ih (by omega))

theorem partsText_of_readPorts {fuel : Nat} {ports : List PortSource}
    (read : readPorts fuel text = .success ports after)
    (closed : skipClosing? after = some rest) : PartsText PortText text ports rest := by
  induction fuel generalizing text ports with
  | zero =>
    cases read
    exact .close closed
  | succ fuel ih =>
    rw [readPorts] at read
    split at read
    · rename_i port others readFirst
      rcases Reply.map_eq_success_iff.1 read with ⟨more, readMore, rfl⟩
      exact .part (.port readFirst (commasText_skipCommas (Nat.le_refl _))) (ih readMore)
    · cases read
      exact .close closed
    · cases read

/-- No default starts behind a parameter of a list. -/
theorem PartsText.continuesWithout {parameters : List ParameterSource}
    (partsText : PartsText ParameterText text parameters rest) :
    ∀ c ∈ (skipBlanks text).head?, c ≠ '=' := by
  cases partsText with
  | close closed =>
    rcases Option.map_eq_some_iff.1 closed with ⟨after, found, -⟩
    rw [eq_append_of_skipText? found]
    rintro c ⟨⟩
    decide
  | part first =>
    cases first with
    | parameter named =>
      have starts := startsWithName_of_readName? named
      rintro c head rfl
      have solid : skipLineBlanks (skipBlanks text) = skipBlanks text := by
        apply skipLineBlanks_of_head
        intro c first
        rw [head] at first
        cases first
        rfl
      rw [solid] at starts
      exact starts.ne_head (by decide) '=' head rfl

/-- Blanks in front of the parts make no difference. -/
theorem PartsText.of_skipBlanks {parameters : List ParameterSource}
    (partsText : PartsText ParameterText (skipBlanks text) parameters rest) :
    PartsText ParameterText text parameters rest := by
  cases partsText with
  | close closed =>
    rw [skipClosing?, skipBlanks_skipBlanks] at closed
    exact .close closed
  | part first more =>
    cases first with
    | parameter named typed defaulted separated =>
      rw [skipBlanks_skipBlanks] at named
      exact .part (.parameter named typed defaulted separated) more

/-- The comma behind a parameter is skipped or there is none. -/
theorem exists_commaText {parameters : List ParameterSource}
    (partsText : PartsText ParameterText
      ((skipText? "," (skipBlanks text)).getD (skipBlanks text)) parameters rest) :
    ∃ after, CommaText text after ∧ PartsText ParameterText after parameters rest := by
  cases skipped : skipText? "," (skipBlanks text) with
  | some after =>
    rw [skipped] at partsText
    exact ⟨after, .comma skipped, partsText⟩
  | none =>
    rw [skipped] at partsText
    refine ⟨text, .absent ?_, partsText.of_skipBlanks⟩
    rintro c head rfl
    rcases List.head?_eq_some_iff.1 head with ⟨more, same⟩
    rw [same] at skipped
    cases skipped.symm.trans (skipText?_append "," more)

theorem partsText_of_readParameters {fuel : Nat} {parameters : List ParameterSource}
    (read : readParameters fuel text = (parameters, after))
    (closed : skipClosing? after = some rest) :
    PartsText ParameterText text parameters rest := by
  induction fuel generalizing text parameters with
  | zero =>
    cases read
    exact .close closed
  | succ fuel ih =>
    rw [readParameters] at read
    split at read
    · rename_i parameter others readFirst
      cases readMore : readParameters fuel ((skipText? "," others).getD others) with
      | mk more ending =>
        rw [readMore] at read
        cases read
        rcases readParameter?_eq_some_iff.1 readFirst with
          ⟨name, behindName, named, kind, behindKind, typed, defaulted⟩
        rcases defaulted with ⟨value, behindDefault, defaulted, rfl, rfl⟩ | ⟨-, rfl, rfl⟩
        · rcases exists_commaText (ih readMore) with ⟨after, separated, more⟩
          exact .part (.parameter named typed (.value defaulted) separated) more
        · rcases exists_commaText (ih readMore) with ⟨after, separated, more⟩
          refine .part (.parameter named typed (.absent ?_) separated) more
          rintro c head rfl
          have same := skipBlanks_of_solid head (by decide)
          rw [← same] at head
          cases separated with
          | absent => exact more.continuesWithout '=' head rfl
          | comma skipped =>
            rw [eq_append_of_skipText? skipped] at head
            cases head
    · cases read
      exact .close closed

theorem listText_of_readPortList {ports : List PortSource}
    (read : readPortList text = .success ports rest) : ListText PortText text ports rest := by
  unfold readPortList at read
  simp only [Reply.bind_eq_success_iff, Reply.ofOption_eq_success_iff] at read
  rcases read with ⟨⟨⟩, inner, opened, ports, ending, readPorts, closed⟩
  rcases Option.map_eq_some_iff.1 opened with ⟨_, opened, same⟩
  cases same
  rcases Option.map_eq_some_iff.1 closed with ⟨_, closed, same⟩
  cases same
  exact .list opened (partsText_of_readPorts readPorts closed)

theorem listText_of_readParameterList? {parameters : List ParameterSource}
    (read : readParameterList? text = some (parameters, rest)) :
    ListText ParameterText text parameters rest := by
  simp only [readParameterList?, Option.bind_eq_bind, Option.bind_eq_some_iff,
    Option.pure_def, Option.some.injEq, Prod.mk.injEq] at read
  rcases read with ⟨inner, opened, ending, closed, rfl, rfl⟩
  exact .list opened (partsText_of_readParameters rfl closed)

theorem skipLineBlanks_skipLineEnds (text : List Char) :
    skipLineBlanks (skipLineEnds text) = skipBlanks text := by
  unfold skipLineEnds
  split
  · rename_i first more same
    split
    · exact skipLineBlanks_skipBlanks text
    · rename_i within
      have head : (skipLineBlanks text).head? = some first := by
        rw [same]
        rfl
      have blank : isBlank first = false := by
        simp [isBlank, head_dropWhile text first head, within]
      exact (skipBlanks_of_solid head blank).symm
  · rename_i nothing
    rw [← skipBlanks_skipLineBlanks, nothing]
    rfl

theorem skipToken?_skipLineBlanks (expected : String) (text : List Char) :
    skipToken? expected (skipLineBlanks text) = skipToken? expected text := by
  rw [skipToken?, skipLineBlanks_skipLineBlanks]
  rfl

theorem skipComment?_skipLineBlanks (text : List Char) :
    skipComment? (skipLineBlanks text) = skipComment? text := by
  rw [skipComment?, skipLineBlanks_skipLineBlanks]
  rfl

theorem skipComment?_skipBlanks (skipped : skipComment? text = some after) :
    skipComment? (skipBlanks text) = some after := by
  rw [skipBlanks_of_solid (head_of_skipComment? skipped) (by decide), skipComment?_skipLineBlanks]
  exact skipped

/-- A comment behind a child is a comment between children. -/
theorem ChildrenText.of_skipOptionalComment {children : List NodeSource}
    (childrenText : ChildrenText (skipBlanks (skipOptionalComment text)) children rest) :
    ChildrenText (skipBlanks text) children rest := by
  unfold skipOptionalComment at childrenText
  cases skipped : skipComment? text with
  | none =>
    rw [skipped] at childrenText
    exact childrenText
  | some after =>
    rw [skipped] at childrenText
    exact .comment (skipComment?_skipBlanks skipped) childrenText

/-- What a node starts with, up to its ports. -/
theorem labelText_of_split {label : Option String} {behindKind behindLabel : List Char}
    (split : (match readQuoted? (skipLineBlanks behindKind) with
      | some (label, rest) => (some label, skipLineBlanks rest)
      | none => (none, behindKind)) = (label, behindLabel))
    (without : ContinuesWithout '"' behindLabel) : LabelText behindKind label behindLabel := by
  split at split
  · rename_i read
    cases split
    exact .label read
  · cases split
    exact .absent without

/-- A node is read as the grammar says if no part of it is left behind. -/
theorem nodeText_of_parts {kind : String} {label : Option String} {ports : List PortSource}
    {children : List NodeSource} {behindKind behindLabel behindPorts ending : List Char}
    (named : readName? text = some (kind, behindKind))
    (labelled : (match readQuoted? (skipLineBlanks behindKind) with
      | some (label, rest) => (some label, skipLineBlanks rest)
      | none => (none, behindKind)) = (label, behindLabel))
    (connected : readPortList behindLabel = .success ports behindPorts ∨
      ports = [] ∧ behindPorts = behindLabel)
    (nested : BlockText behindPorts children ending ∨ children = [] ∧ ending = behindPorts)
    (behind : IsBehindNode ending) : NodeText text (.node kind label ports children) ending := by
  have behindPorts' : BlockText behindPorts children ending ∧
      ContinuesWithout '"' behindPorts ∧ ContinuesWithout '(' behindPorts := by
    rcases nested with nested | ⟨rfl, rfl⟩
    · refine ⟨nested, ?_⟩
      cases nested with
      | absent => exact ⟨behind.quote, behind.parenthesis⟩
      | block opened =>
        have head := head_of_skipToken? rfl opened
        exact ⟨continuesWithout_of_head head (by decide), continuesWithout_of_head head (by decide)⟩
    · exact ⟨.absent behind.brace, behind.quote, behind.parenthesis⟩
  rcases behindPorts' with ⟨nested, noQuote, noParenthesis⟩
  rcases connected with read | ⟨rfl, rfl⟩
  · have connected := listText_of_readPortList read
    refine .node named (labelText_of_split labelled ?_) connected nested
    cases connected with
    | absent => exact noQuote
    | list opened => exact continuesWithout_of_head (head_of_skipToken? rfl opened) (by decide)
  · exact .node named (labelText_of_split labelled noQuote) (.absent noParenthesis) nested

/-- The readers of nodes keep to the grammar where no part is left behind. -/
theorem nodes_read (fuel : Nat) :
    (∀ text node rest, readNode fuel text = .success node rest → IsBehindNode rest →
      ∃ ending, NodeText text node ending ∧ skipOptionalComment ending = rest) ∧
    (∀ text children rest, readChildList fuel text = .success children rest →
      BlockText text children rest) ∧
    ∀ text children after rest, readChildren fuel text = .success children after →
      skipToken? "\x7d" after = some rest →
      ChildrenText (skipLineBlanks text) children rest := by
  induction fuel with
  | zero =>
    refine ⟨?_, ?_, ?_⟩
    · intro text node rest read
      cases read
    · intro text children rest read
      cases read
    · intro text children after rest read closed
      cases read
      exact .close ((skipToken?_skipLineBlanks _ _).trans closed)
  | succ fuel ih =>
    rcases ih with ⟨nodeRead, blockRead, childrenRead⟩
    refine ⟨?_, ?_, ?_⟩
    · intro text node rest read behind
      simp only [readNode, Reply.bind_eq_success_iff, Reply.ofOption_eq_success_iff] at read
      rcases read with ⟨kind, behindKind, named, ports, behindPorts, connected, children, ending,
        nested, made⟩
      cases made
      have connected := (Reply.orElse_eq_success connected).imp_right And.right
      have nested := (Reply.orElse_eq_success nested).imp (blockRead _ _ _) And.right
      exact ⟨ending,
        nodeText_of_parts named rfl connected nested behind.of_skipOptionalComment, rfl⟩
    · intro text children rest read
      simp only [readChildList, Reply.bind_eq_success_iff, Reply.ofOption_eq_success_iff] at read
      rcases read with ⟨⟨⟩, inner, opened, children, ending, readInner, closed⟩
      rcases Option.map_eq_some_iff.1 opened with ⟨_, opened, same⟩
      cases same
      rcases Option.map_eq_some_iff.1 closed with ⟨_, closed, same⟩
      cases same
      have filled := childrenRead _ _ _ _ readInner closed
      rw [skipLineBlanks_skipLineEnds] at filled
      exact .block opened filled
    · intro text children after rest read closed
      rw [readChildren] at read
      split at read
      · rename_i behind skipped
        have more := childrenRead _ _ _ _ read closed
        rw [skipLineBlanks_skipLineEnds] at more
        exact .comment ((skipComment?_skipLineBlanks _).trans skipped) more
      · split at read
        · rename_i child behind readFirst
          rcases Reply.map_eq_success_iff.1 read with ⟨others, readMore, rfl⟩
          have more := childrenRead _ _ _ _ readMore closed
          rw [skipLineBlanks_skipLineEnds] at more
          rcases nodeRead _ _ _ readFirst more.isBehindNode with ⟨ending, first, rfl⟩
          exact .child first more.of_skipOptionalComment
        · cases read
          exact .close ((skipToken?_skipLineBlanks _ _).trans closed)
        · cases read

theorem treeText_of_readTree {tree : TreeSource} (read : readTree text = .success tree rest)
    (behind : IsBehindNode rest) :
    ∃ ending, TreeText (skipBlanks text) tree ending ∧ skipOptionalComment ending = rest := by
  simp only [readTree, Reply.bind_eq_success_iff, Reply.ofOption_eq_success_iff,
    Reply.map_eq_success_iff] at read
  rcases read with ⟨⟨⟩, behindWord, word, name, behindName, named, ⟨⟩, behindEquals, equals, root,
    rooted, rfl⟩
  rcases Option.map_eq_some_iff.1 word with ⟨_, word, same⟩
  cases same
  rcases Option.map_eq_some_iff.1 equals with ⟨_, equals, same⟩
  cases same
  rcases (nodes_read _).1 _ _ _ rooted behind with ⟨ending, rootText, rfl⟩
  refine ⟨ending, .tree word named ?_ equals rootText, rfl⟩
  cases declared : readParameterList? behindName with
  | some result => exact listText_of_readParameterList? declared
  | none =>
    rw [declared] at equals
    rw [Option.getD_none] at equals
    have head : (skipLineBlanks behindName).head? = some '=' := by
      rw [eq_append_of_skipText? equals]
      rfl
    exact .absent (continuesWithout_of_head head (by decide))

/-- Where the definitions end there is at most a comment. -/
theorem treesText_of_finish
    (finished : skipBlanks (skipOptionalComment (skipBlanks text)) = []) :
    TreesText (skipBlanks text) [] := by
  unfold skipOptionalComment at finished
  cases skipped : skipComment? (skipBlanks text) with
  | some after =>
    rw [skipped] at finished
    exact .lastComment skipped finished
  | none =>
    rw [skipped] at finished
    have nothing : skipBlanks text = [] := by
      rw [← finished]
      exact (skipBlanks_skipBlanks text).symm
    rw [nothing]
    exact .nothing

theorem treesText_of_readTrees {fuel : Nat} {trees : List TreeSource}
    (read : readTrees fuel text = .success trees rest)
    (finished : skipBlanks (skipOptionalComment (skipBlanks rest)) = []) :
    TreesText (skipBlanks text) trees := by
  induction fuel generalizing text trees with
  | zero =>
    cases read
    exact treesText_of_finish finished
  | succ fuel ih =>
    rw [readTrees] at read
    split at read
    · rename_i after skipped
      rcases Option.bind_eq_some_iff.1 skipped with ⟨behind, skipped, lineFeed⟩
      rw [eq_append_of_skipText? lineFeed] at skipped
      exact .comment skipped (ih read)
    · split at read
      · rename_i tree after readFirst
        rcases Reply.map_eq_success_iff.1 read with ⟨others, readMore, rfl⟩
        have more := ih readMore
        rcases treeText_of_readTree readFirst more.isBehindNode with ⟨ending, first, rfl⟩
        exact .tree first more
      · cases read
        exact treesText_of_finish finished
      · cases read

end BehaviorTree
