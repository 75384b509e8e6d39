import BehaviorTree.Proofs.Source.Grammar

/-!
# What is accepted

The readers follow every derivation of the grammar, because the fuel that they start with is the
length of the text and every part takes a character. So a text is accepted exactly if the grammar
derives it, with the mission that it derives.
-/

namespace BehaviorTree

open MissionText

variable {α : Type} {text after rest : List Char}

theorem length_skipBlanks_le (text : List Char) : (skipBlanks text).length ≤ text.length :=
  (List.dropWhile_suffix isBlank).length_le

theorem length_skipLineBlanks_le (text : List Char) : (skipLineBlanks text).length ≤ text.length :=
  (List.dropWhile_suffix isLineBlank).length_le

theorem length_of_skipText? {expected : String} (skipped : skipText? expected text = some rest) :
    text.length = expected.length + rest.length := by
  rw [eq_append_of_skipText? skipped, List.length_append, String.length_toList]

theorem length_of_skipToken? {expected : String} (skipped : skipToken? expected text = some rest) :
    expected.length + rest.length ≤ text.length := by
  rcases Option.map_eq_some_iff.1 skipped with ⟨after, found, rfl⟩
  have := length_of_skipText? found
  have := length_skipLineBlanks_le text
  have := length_skipLineBlanks_le after
  omega

theorem length_of_skipClosing? (skipped : skipClosing? text = some rest) :
    rest.length < text.length := by
  rcases Option.map_eq_some_iff.1 skipped with ⟨after, found, rfl⟩
  have := length_of_skipText? found
  have := length_skipBlanks_le text
  have := length_skipLineBlanks_le after
  have parenthesis : ")".length = 1 := rfl
  omega

theorem length_of_skipComment? (skipped : skipComment? text = some rest) :
    rest.length < text.length := by
  rcases Option.map_eq_some_iff.1 skipped with ⟨after, found, rfl⟩
  have := length_of_skipText? found
  have := length_skipLineBlanks_le text
  have := (List.dropWhile_suffix (fun c => !isLineEnd c) (l := after)).length_le
  have hash : "#".length = 1 := rfl
  omega

theorem length_skipOptionalComment_le (text : List Char) :
    (skipOptionalComment text).length ≤ text.length := by
  unfold skipOptionalComment
  cases skipped : skipComment? text with
  | none => exact Nat.le_refl _
  | some after => exact Nat.le_of_lt (length_of_skipComment? skipped)

theorem length_of_readName? {name : String} (read : readName? text = some (name, rest)) :
    rest.length < text.length := by
  rcases Option.map_eq_some_iff.1 read with ⟨⟨word, ending⟩, found, same⟩
  cases same
  have := isWordReader_identifierOfText?.length_lt found
  have := length_skipLineBlanks_le text
  have := length_skipLineBlanks_le ending
  omega

theorem length_of_readQuoted? {content : String} (read : readQuoted? text = some (content, rest)) :
    rest.length < text.length := by
  rcases readQuoted?_eq_some_iff.1 read with ⟨inner, rfl, -⟩
  simp only [List.length_cons, List.length_append]
  omega

theorem length_of_readLiteral? {value : Value} (read : readLiteral? text = some (value, rest)) :
    rest.length < text.length := by
  rcases readLiteral?_eq_some_iff.1 read with ⟨content, quoted, -⟩ | bare
  · exact length_of_readQuoted? quoted
  · exact isWordReader_readBareLiteral?.length_lt bare

theorem length_of_readOperand? {operand : Operand}
    (read : readOperand? text = some (operand, rest)) : rest.length < text.length := by
  rcases readOperand?_eq_some_iff.1 read with ⟨content, quoted, -⟩ | bare
  · exact length_of_readQuoted? quoted
  · exact isWordReader_readBareOperand?.length_lt bare

theorem length_of_readPort {port : PortSource} (read : readPort text = .success port rest) :
    rest.length < text.length := by
  rcases readPort_eq_success_iff.1 read with ⟨name, behindName, named, direction, behindArrow,
    directed, operand, ⟨ending, connected, rfl⟩, -⟩
  have := length_of_readName? named
  have := length_of_readOperand? connected
  have := length_skipLineBlanks_le ending
  rcases readDirection?_eq_some_iff.1 directed with ⟨-, skipped, -⟩ | ⟨-, skipped, -⟩ <;>
  · have := length_of_skipToken? skipped
    omega

theorem length_of_readParameterKind? {kind : String}
    (read : readParameterKind? text = some (kind, rest)) : rest.length < text.length := by
  rcases Option.bind_eq_some_iff.1 read with ⟨after, colon, found⟩
  rcases Option.map_eq_some_iff.1 found with ⟨⟨word, ending⟩, word, same⟩
  cases same
  have := isWordReader_identifierOfText?.length_lt word
  have := length_of_skipToken? colon
  omega

theorem DefaultText.length_le {default : Option Value}
    (defaultText : DefaultText text default rest) : rest.length ≤ text.length := by
  cases defaultText with
  | absent => exact Nat.le_refl _
  | value read =>
    rcases Option.bind_eq_some_iff.1 read with ⟨after, equals, found⟩
    have := length_of_readLiteral? found
    have := length_of_skipToken? equals
    omega

theorem CommaText.length_le (commaText : CommaText text rest) : rest.length ≤ text.length := by
  cases commaText with
  | absent => exact Nat.le_refl _
  | comma skipped =>
    have := length_of_skipText? skipped
    have := length_skipBlanks_le text
    omega

theorem CommasText.length_le (commasText : CommasText text rest) : rest.length ≤ text.length := by
  induction commasText with
  | nothing => exact Nat.le_refl _
  | @comma text _ _ skipped _ ih =>
    have := length_of_skipText? skipped
    have := length_skipBlanks_le text
    omega

theorem PortText.length_lt {port : PortSource} (portText : PortText text port rest) :
    rest.length < text.length := by
  cases portText with
  | port read separated =>
    have := length_of_readPort read
    have := length_skipBlanks_le text
    have := separated.length_le
    omega

theorem ParameterText.length_lt {parameter : ParameterSource}
    (parameterText : ParameterText text parameter rest) : rest.length < text.length := by
  cases parameterText with
  | parameter named typed defaulted separated =>
    have := length_of_readName? named
    have := length_skipBlanks_le text
    have := length_of_readParameterKind? typed
    have := defaulted.length_le
    have := separated.length_le
    omega

theorem PartsText.length_lt {part : List Char → α → List Char → Prop} {values : List α}
    (partsText : PartsText part text values rest)
    (shorter : ∀ {text value rest}, part text value rest → rest.length < text.length) :
    rest.length < text.length := by
  induction partsText with
  | close closed => exact length_of_skipClosing? closed
  | part first _ ih => exact Nat.lt_trans ih (shorter first)

theorem ListText.length_le {part : List Char → α → List Char → Prop} {values : List α}
    (listText : ListText part text values rest)
    (shorter : ∀ {text value rest}, part text value rest → rest.length < text.length) :
    rest.length ≤ text.length := by
  cases listText with
  | absent => exact Nat.le_refl _
  | list opened filled =>
    have := length_of_skipToken? opened
    have := filled.length_lt shorter
    omega

theorem LabelText.length_le {label : Option String} (labelText : LabelText text label rest) :
    rest.length ≤ text.length := by
  cases labelText with
  | absent => exact Nat.le_refl _
  | label read =>
    have := length_of_readQuoted? read
    have := length_skipLineBlanks_le text
    exact Nat.le_trans (length_skipLineBlanks_le _) (by omega)

/-- What a node starts with takes a character. -/
theorem length_lt_of_named {kind : String} {label : Option String} {ports : List PortSource}
    {behindKind behindLabel : List Char} (named : readName? text = some (kind, behindKind))
    (labelled : LabelText behindKind label behindLabel)
    (connected : ListText PortText behindLabel ports rest) : rest.length < text.length := by
  have := length_of_readName? named
  have := labelled.length_le
  have := connected.length_le PortText.length_lt
  omega

mutual

theorem NodeText.length_lt {text rest : List Char} {node : NodeSource} :
    NodeText text node rest → rest.length < text.length
  | .node named labelled connected nested =>
    Nat.lt_of_le_of_lt nested.length_le (length_lt_of_named named labelled connected)

theorem BlockText.length_le {text rest : List Char} {children : List NodeSource} :
    BlockText text children rest → rest.length ≤ text.length
  | .absent _ => Nat.le_refl _
  | .block opened filled => by
    have := length_of_skipToken? opened
    have := Nat.lt_of_lt_of_le filled.length_lt (length_skipBlanks_le _)
    omega

theorem ChildrenText.length_lt {text rest : List Char} {children : List NodeSource} :
    ChildrenText text children rest → rest.length < text.length
  | .close closed => by
    have := length_of_skipToken? closed
    have brace : "\x7d".length = 1 := rfl
    omega
  | .comment skipped more => by
    have := length_of_skipComment? skipped
    have := Nat.lt_of_lt_of_le more.length_lt (length_skipBlanks_le _)
    omega
  | .child first more => by
    have := first.length_lt
    have := Nat.lt_of_lt_of_le more.length_lt (length_skipBlanks_le _)
    omega

end

theorem CommasText.skipCommas_eq (commasText : CommasText text rest) {fuel : Nat}
    (enough : text.length ≤ fuel) : skipCommas fuel text = rest := by
  induction commasText generalizing fuel with
  | nothing other => exact skipCommas_of_ne other
  | @comma text _ _ skipped _ ih =>
    have := length_of_skipText? skipped
    have := length_skipBlanks_le text
    have comma : ",".length = 1 := rfl
    cases fuel with
    | zero => omega
    | succ fuel =>
      rw [skipCommas, skipped]
      exact ih (by omega)

theorem head_of_skipClosing? (closed : skipClosing? text = some rest) :
    (skipBlanks text).head? = some ')' := by
  rcases Option.map_eq_some_iff.1 closed with ⟨after, found, -⟩
  rw [eq_append_of_skipText? found]
  rfl

theorem readName?_eq_none {first : Char} (head : text.head? = some first)
    (solid : isLineBlank first = false) (other : startsIdentifier first = false) :
    readName? text = none := by
  rcases List.head?_eq_some_iff.1 head with ⟨more, rfl⟩
  simp [readName?, skipLineBlanks, solid, identifierOfText?, other]

theorem PartsText.readPorts {ports : List PortSource}
    (partsText : PartsText PortText text ports rest) {fuel : Nat} (enough : text.length ≤ fuel) :
    ∃ ending, readPorts fuel text = .success ports ending ∧ skipClosing? ending = some rest := by
  induction partsText generalizing fuel with
  | @close text _ closed =>
    refine ⟨text, ?_, closed⟩
    cases fuel with
    | zero => rfl
    | succ fuel =>
      have none := readName?_eq_none (head_of_skipClosing? closed) (by decide) (by decide)
      rw [MissionText.readPorts, readPort, none]
      rfl
  | @part text _ _ _ _ first _ ih =>
    have shorter := first.length_lt
    cases fuel with
    | zero => omega
    | succ fuel =>
      cases first with
      | port read separated =>
        rcases ih (show _ ≤ fuel by omega) with ⟨ending, more, closed⟩
        refine ⟨ending, ?_, closed⟩
        rw [MissionText.readPorts, read]
        simp only [separated.skipCommas_eq (Nat.le_refl _), more, Reply.map]

/-- The comma behind a parameter is skipped with the blanks in front of it. -/
theorem CommaText.skipBlanks_getD (commaText : CommaText text rest) :
    skipBlanks ((skipText? "," (skipBlanks text)).getD (skipBlanks text)) = skipBlanks rest := by
  cases commaText with
  | absent other =>
    rw [skipText?_eq_none rfl other]
    exact skipBlanks_skipBlanks text
  | comma skipped => rw [skipped, Option.getD_some]

theorem ParameterText.readParameter? {parameter : ParameterSource}
    (parameterText : ParameterText text parameter rest) :
    ∃ after, readParameter? text = some (parameter, after) ∧
      skipBlanks ((skipText? "," after).getD after) = skipBlanks rest := by
  cases parameterText with
  | parameter named typed defaulted separated =>
    refine ⟨skipBlanks _, readParameter?_eq_some_iff.2 ⟨_, _, named, _, _, typed, ?_⟩,
      separated.skipBlanks_getD⟩
    cases defaulted with
    | absent without =>
      refine .inr ⟨?_, rfl, rfl⟩
      rw [readDefault?, skipToken?_eq_none rfl without]
      rfl
    | value read => exact .inl ⟨_, _, read, rfl, rfl⟩

theorem skipClosing?_congr {front : List Char} (same : skipBlanks front = skipBlanks text) :
    skipClosing? front = skipClosing? text := by
  rw [skipClosing?, same]
  rfl

theorem readParameter?_congr {front : List Char} (same : skipBlanks front = skipBlanks text) :
    readParameter? front = readParameter? text := by
  rw [readParameter?, same]
  rfl

theorem PartsText.readParameters {parameters : List ParameterSource}
    (partsText : PartsText ParameterText text parameters rest) {front : List Char} {fuel : Nat}
    (same : skipBlanks front = skipBlanks text) (enough : text.length ≤ fuel) :
    ∃ ending, readParameters fuel front = (parameters, ending) ∧
      skipClosing? ending = some rest := by
  induction partsText generalizing front fuel with
  | @close text _ closed =>
    refine ⟨front, ?_, (skipClosing?_congr same).trans closed⟩
    cases fuel with
    | zero => rfl
    | succ fuel =>
      have none := readName?_eq_none (head_of_skipClosing? closed) (by decide) (by decide)
      rw [MissionText.readParameters, MissionText.readParameter?, same, none]
      rfl
  | @part text _ _ _ _ first _ ih =>
    have shorter := first.length_lt
    cases fuel with
    | zero => omega
    | succ fuel =>
      rcases first.readParameter? with ⟨after, read, separated⟩
      rcases ih separated (show _ ≤ fuel by omega) with ⟨ending, more, closed⟩
      refine ⟨ending, ?_, closed⟩
      rw [MissionText.readParameters, readParameter?_congr same, read]
      simp only [more]

theorem ListText.readPortList {ports : List PortSource}
    (listText : ListText PortText text ports rest) :
    (readPortList text).orElse text [] = .success ports rest := by
  cases listText with
  | absent without =>
    rw [MissionText.readPortList, skipToken?_eq_none rfl without]
    rfl
  | list opened filled =>
    rcases filled.readPorts (Nat.le_refl _) with ⟨ending, read, closed⟩
    rw [MissionText.readPortList, opened]
    simp only [Option.map_some, Reply.ofOption, Reply.bind, read, closed, Reply.orElse]

theorem ListText.readParameterList? {parameters : List ParameterSource}
    (listText : ListText ParameterText text parameters rest) :
    (readParameterList? text).getD ([], text) = (parameters, rest) := by
  cases listText with
  | absent without =>
    rw [MissionText.readParameterList?, skipToken?_eq_none rfl without]
    rfl
  | list opened filled =>
    rcases filled.readParameters rfl (Nat.le_refl _) with ⟨ending, read, closed⟩
    simp only [MissionText.readParameterList?, opened, read, closed, Option.bind_eq_bind,
      Option.bind_some, Option.pure_def, Option.getD_some]

theorem readName?_skipLineBlanks (text : List Char) :
    readName? (skipLineBlanks text) = readName? text := by
  rw [readName?, skipLineBlanks_skipLineBlanks]
  rfl

/-- A closing brace is no child and no comment. -/
theorem readChildren_of_close (closed : skipToken? "\x7d" text = some rest) (fuel : Nat) :
    readChildren fuel text = .success [] text := by
  cases fuel with
  | zero => rfl
  | succ fuel =>
    have head := head_of_skipToken? rfl closed
    have noName := readName?_eq_none head (by decide) (by decide)
    rw [readChildren, skipComment?_eq_none (continuesWithout_of_head head (by decide))]
    cases fuel with
    | zero => rfl
    | succ fuel =>
      simp only [readNode, noName]
      rfl

theorem readNode_skipLineBlanks (fuel : Nat) (text : List Char) :
    readNode fuel (skipLineBlanks text) = readNode fuel text := by
  cases fuel with
  | zero => rfl
  | succ fuel => rw [readNode, readNode, readName?_skipLineBlanks]

/-- Ends of lines are skipped with the blanks around them. -/
theorem skipLineEnds_front (text : List Char) :
    skipLineBlanks (skipLineEnds text) = skipLineBlanks (skipBlanks text) := by
  rw [skipLineBlanks_skipLineEnds, skipLineBlanks_skipBlanks]

theorem readChildren_comment (skipped : skipComment? text = some after) (fuel : Nat) :
    readChildren (fuel + 1) text = readChildren fuel (skipLineEnds after) := by
  rw [readChildren, skipped]

/-- Children are read however the blanks and the comment behind a child were skipped. -/
theorem readChildren_behindChild {children : List NodeSource} {fuel : Nat}
    (read : ∀ {front fuel'}, skipLineBlanks front = skipBlanks after → fuel ≤ fuel' →
      ∃ ending, readChildren fuel' front = .success children ending ∧
        skipToken? "\x7d" ending = some rest) :
    ∃ ending, readChildren fuel (skipLineEnds (skipOptionalComment after)) =
      .success children ending ∧ skipToken? "\x7d" ending = some rest := by
  unfold skipOptionalComment
  cases skipped : skipComment? after with
  | none => exact read (skipLineBlanks_skipLineEnds after) (Nat.le_refl _)
  | some behind =>
    have front := skipBlanks_of_solid (head_of_skipComment? skipped) (by decide)
    rcases read front.symm (Nat.le_succ fuel) with ⟨ending, more, closed⟩
    rw [readChildren_comment skipped] at more
    exact ⟨ending, more, closed⟩

mutual

theorem NodeText.readNode {text rest : List Char} {node : NodeSource} :
    NodeText text node rest → ∀ {fuel : Nat}, text.length ≤ fuel + rest.length →
      readNode fuel text = .success node (skipOptionalComment rest)
  | .node named labelled connected nested, fuel, enough => by
    have shorter := length_lt_of_named named labelled connected
    have := nested.length_le
    cases fuel with
    | zero => omega
    | succ fuel =>
      have readPorts := connected.readPortList
      have readChildren := nested.readChildList (show _ ≤ fuel + rest.length by omega)
      rw [MissionText.readNode, named]
      cases labelled with
      | absent without =>
        simp only [Reply.ofOption, bind_success, readQuoted?_eq_none without, readPorts,
          readChildren]
      | label read => simp only [Reply.ofOption, bind_success, read, readPorts, readChildren]

theorem BlockText.readChildList {text rest : List Char} {children : List NodeSource} :
    BlockText text children rest → ∀ {fuel : Nat}, text.length ≤ fuel + rest.length →
      (readChildList fuel text).orElse text [] = .success children rest
  | .absent without, fuel, _ => by
    cases fuel with
    | zero => rfl
    | succ fuel =>
      rw [MissionText.readChildList, skipToken?_eq_none rfl without]
      rfl
  | @BlockText.block _ inner _ _ opened filled, fuel, enough => by
    have := length_of_skipToken? opened
    have brace : "\x7b".length = 1 := rfl
    have := filled.length_lt
    have := length_skipBlanks_le inner
    cases fuel with
    | zero => omega
    | succ fuel =>
      have enough : (skipBlanks inner).length ≤ fuel + rest.length := by omega
      rcases filled.readChildren (skipLineEnds_front _) enough with ⟨ending, read, closed⟩
      rw [MissionText.readChildList, opened]
      simp only [Option.map_some, Reply.ofOption, bind_success, read, closed, Reply.orElse]

theorem ChildrenText.readChildren {text rest : List Char} {children : List NodeSource} :
    ChildrenText text children rest → ∀ {front : List Char} {fuel : Nat},
      skipLineBlanks front = skipLineBlanks text → text.length ≤ fuel + rest.length →
      ∃ ending, readChildren fuel front = .success children ending ∧
        skipToken? "\x7d" ending = some rest
  | .close closed, front, fuel, same, _ => by
    rw [← skipToken?_skipLineBlanks, ← same, skipToken?_skipLineBlanks] at closed
    exact ⟨front, readChildren_of_close closed fuel, closed⟩
  | @ChildrenText.comment _ after _ _ skipped more, front, fuel, same, enough => by
    have := length_of_skipComment? skipped
    have := more.length_lt
    have := length_skipBlanks_le after
    rw [← skipComment?_skipLineBlanks, ← same, skipComment?_skipLineBlanks] at skipped
    cases fuel with
    | zero => omega
    | succ fuel =>
      have enough : (skipBlanks after).length ≤ fuel + rest.length := by omega
      rcases more.readChildren (skipLineEnds_front _) enough with ⟨ending, read, closed⟩
      exact ⟨ending, (readChildren_comment skipped fuel).trans read, closed⟩
  | @ChildrenText.child _ after _ _ _ first more, front, fuel, same, enough => by
    have := first.length_lt
    have := more.length_lt
    have := length_skipBlanks_le after
    cases fuel with
    | zero => omega
    | succ fuel =>
      have noComment : skipComment? front = none := by
        apply skipComment?_eq_none
        rw [ContinuesWithout, same]
        exact first.startsWithName.ne_head (by decide)
      have readFirst := first.readNode (show _ ≤ fuel + after.length by omega)
      have enough : (skipBlanks after).length ≤ fuel + rest.length := by omega
      have readMore := readChildren_behindChild fun following longer =>
        more.readChildren (following.trans (skipLineBlanks_skipBlanks _).symm)
          (Nat.le_trans enough (Nat.add_le_add_right longer _))
      rcases readMore with ⟨ending, read, closed⟩
      refine ⟨ending, ?_, closed⟩
      rw [MissionText.readChildren, noComment, same, readNode_skipLineBlanks, readFirst]
      simp only [read, Reply.map]

end

theorem TreeText.length_lt {text rest : List Char} {tree : TreeSource} :
    TreeText text tree rest → rest.length < text.length
  | .tree word named declared equals rooted => by
    have := length_of_skipText? word
    have := length_of_readName? named
    have := declared.length_le ParameterText.length_lt
    have := Nat.le_trans (Nat.le_of_eq (length_of_skipText? equals).symm)
      (length_skipLineBlanks_le _)
    have := Nat.lt_of_lt_of_le rooted.length_lt (length_skipBlanks_le _)
    omega

theorem TreeText.continuesWithout {text rest : List Char} {tree : TreeSource} :
    TreeText text tree rest → ContinuesWithout '#' text
  | .tree word _ _ _ _ => by
    rw [eq_append_of_skipText? word]
    rintro c ⟨⟩
    decide

theorem TreeText.readTree {text rest : List Char} {tree : TreeSource} :
    TreeText (skipBlanks text) tree rest →
      readTree text = .success tree (skipOptionalComment rest)
  | .tree word named declared equals rooted => by
    have readRoot := rooted.readNode (Nat.le_trans (length_skipBlanks_le _)
      (Nat.le_trans (Nat.le_succ _) (Nat.le_add_right _ rest.length)))
    rw [MissionText.readTree, word]
    simp only [Option.map_some, Reply.ofOption, bind_success, named, declared.readParameterList?,
      equals, readRoot, Reply.map]

theorem readTree_eq_mismatch (other : ∀ c ∈ (skipBlanks text).head?, c ≠ 't') :
    readTree text = .mismatch := by
  rw [readTree, skipText?_eq_none rfl other]
  rfl

theorem readTrees_blank (blank : skipBlanks text = []) (fuel : Nat) :
    readTrees fuel text = .success [] text := by
  cases fuel with
  | zero => rfl
  | succ fuel =>
    have noTree : readTree text = .mismatch := readTree_eq_mismatch (by simp [blank])
    have noComment : skipCommentLine? text = none := by
      rw [skipCommentLine?, blank]
      rfl
    rw [readTrees, noComment, noTree]

theorem readTrees_lastComment (skipped : skipComment? (skipBlanks text) = some after)
    (blank : skipBlanks after = []) (fuel : Nat) :
    ∃ ending, readTrees fuel text = .success [] ending ∧
      skipBlanks (skipOptionalComment (skipBlanks ending)) = [] := by
  have finished : skipBlanks (skipOptionalComment (skipBlanks text)) = [] := by
    rw [skipOptionalComment, skipped]
    exact blank
  cases fuel with
  | zero => exact ⟨text, rfl, finished⟩
  | succ fuel =>
    have line : skipCommentLine? text = skipText? "\n" after := by
      rw [skipCommentLine?, skipped]
      rfl
    cases lineFeed : skipText? "\n" after with
    | some behind =>
      rw [eq_append_of_skipText? lineFeed] at blank
      have blank : skipBlanks behind = [] := blank
      refine ⟨behind, ?_, by rw [blank]; rfl⟩
      rw [readTrees, line, lineFeed]
      exact readTrees_blank blank fuel
    | none =>
      have head := head_of_skipComment? skipped
      rw [skipLineBlanks_skipBlanks] at head
      have noTree : readTree text = .mismatch := readTree_eq_mismatch (by simp [head])
      refine ⟨text, ?_, finished⟩
      rw [readTrees, line, lineFeed, noTree]

theorem TreesText.readTrees {front : List Char} {trees : List TreeSource}
    (treesText : TreesText front trees) {fuel : Nat} (same : skipBlanks text = front)
    (enough : front.length ≤ fuel) :
    ∃ ending, readTrees fuel text = .success trees ending ∧
      skipBlanks (skipOptionalComment (skipBlanks ending)) = [] := by
  induction treesText generalizing text fuel with
  | nothing => exact ⟨text, readTrees_blank same fuel, by rw [same]; rfl⟩
  | lastComment skipped blank => exact readTrees_lastComment (same ▸ skipped) blank fuel
  | @comment front after trees skipped more ih =>
    have shorter := length_of_skipComment? skipped
    have skippedBlanks := length_skipBlanks_le after
    rw [List.length_cons] at shorter
    have line : skipCommentLine? text = some after := by
      rw [skipCommentLine?, same, skipped]
      exact skipText?_append "\n" after
    cases fuel with
    | zero => omega
    | succ fuel =>
      rcases ih rfl (show _ ≤ fuel by omega) with ⟨ending, read, finished⟩
      refine ⟨ending, ?_, finished⟩
      rw [MissionText.readTrees, line]
      exact read
  | @tree front after tree trees first more ih =>
    have shorter := first.length_lt
    have skippedBlanks := length_skipBlanks_le (skipOptionalComment after)
    have skippedComment := length_skipOptionalComment_le after
    subst same
    have line : skipCommentLine? text = none := by
      rw [skipCommentLine?, skipComment?_eq_none first.continuesWithout]
      rfl
    cases fuel with
    | zero => omega
    | succ fuel =>
      rcases ih rfl (show _ ≤ fuel by omega) with ⟨ending, read, finished⟩
      refine ⟨ending, ?_, finished⟩
      rw [MissionText.readTrees, line, first.readTree]
      simp only [read, Reply.map]

/-- A text is accepted exactly if the grammar derives it. -/
theorem ofText_eq_ok_iff {text : String} {mission : MissionSource} :
    MissionSource.ofText text = .ok mission ↔
      TreesText (skipBlanks text.toList) mission.trees := by
  have enough := length_skipBlanks_le text.toList
  constructor
  · intro accepted
    unfold MissionSource.ofText at accepted
    split at accepted
    · rename_i read
      cases accepted
      rcases Reply.bind_eq_success_iff.1 read with ⟨trees, ending, readTrees, made⟩
      simp only [Reply.success.injEq] at made
      rcases made with ⟨rfl, finished⟩
      exact treesText_of_readTrees readTrees finished
    · cases accepted
    · cases accepted
    · cases accepted
  · intro treesText
    rcases treesText.readTrees rfl enough with ⟨ending, read, finished⟩
    rw [MissionSource.ofText, MissionSource.readText, read]
    simp only [bind_success, finished]

theorem exists_error_of_refused {text : String}
    (refused : ∀ trees, ¬TreesText (skipBlanks text.toList) trees) :
    ∃ error, MissionSource.ofText text = .error error := by
  cases result : MissionSource.ofText text with
  | error error => exact ⟨error, rfl⟩
  | ok mission => exact absurd (ofText_eq_ok_iff.1 result) (refused _)

end BehaviorTree
