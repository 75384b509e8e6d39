import BehaviorTree.Proofs.Source.Words

/-!
# Reading lists in parentheses

Ports and parameters are written with a comma and a blank between them. Their readers go on with a
list for as long as a part can be read, so that the closing parenthesis ends it.
-/

namespace BehaviorTree

open MissionText

variable {text rest : List Char}

/-- What stands in parentheses, with the closing one. -/
def writeParts (parts : List (List Char)) (rest : List Char) : List Char :=
  List.intercalate [',', ' '] parts ++ ')' :: rest

theorem skipCommas_of_ne {fuel : Nat} (other : ∀ c ∈ (skipBlanks text).head?, c ≠ ',') :
    skipCommas fuel text = text := by
  cases fuel with
  | zero => rfl
  | succ fuel => rw [skipCommas, skipText?_eq_none rfl other]

theorem startsWithName_writeParts {part : List Char} (starts : StartsWithName part)
    (more : List (List Char)) (rest : List Char) :
    StartsWithName (writeParts (part :: more) rest) := by
  cases more with
  | nil => simpa [writeParts] using starts.append (')' :: rest)
  | cons next others =>
    rw [writeParts, List.intercalate_cons_cons, List.append_assoc, List.append_assoc]
    exact starts.append _

/-- After a part, what separates it from the others can be skipped. -/
theorem writeParts_cons (part : List Char) {more : List (List Char)}
    (starts : ∀ next ∈ more, StartsWithName next) (rest : List Char) :
    ∃ tail, writeParts (part :: more) rest = part ++ tail ∧ AtSeparator tail ∧
      skipBlanks (skipCommas tail.length tail) = writeParts more rest ∧
      skipBlanks ((skipText? "," tail).getD tail) = writeParts more rest := by
  cases more with
  | nil =>
    refine ⟨')' :: rest, by simp [writeParts], ⟨rest, Or.inr rfl⟩, ?_, rfl⟩
    have closing : skipBlanks (')' :: rest) = ')' :: rest := rfl
    rw [skipCommas_of_ne (by simp [closing])]
    rfl
  | cons next others =>
    have ⟨first, _⟩ := List.forall_mem_cons.1 starts
    have starting := startsWithName_writeParts first others rest
    have skipped : skipBlanks (' ' :: writeParts (next :: others) rest) =
        writeParts (next :: others) rest := starting.skipBlanks
    refine ⟨',' :: ' ' :: writeParts (next :: others) rest, ?_, ⟨_, Or.inl rfl⟩, ?_, skipped⟩
    · simp [writeParts, List.intercalate_cons_cons]
    · have noComma : ∀ c ∈ (skipBlanks (' ' :: writeParts (next :: others) rest)).head?,
          c ≠ ',' := by
        rw [skipped]
        exact starting.ne_head (by decide)
      change skipBlanks (skipCommas _ (' ' :: writeParts (next :: others) rest)) = _
      rw [skipCommas_of_ne noComma, skipped]

/-- No list has more parts than characters. -/
theorem length_le_intercalate {parts : List (List Char)} (filled : ∀ part ∈ parts, part ≠ [])
    (separator : List Char) : parts.length ≤ (List.intercalate separator parts).length := by
  induction parts with
  | nil => exact Nat.zero_le _
  | cons part more hypothesis =>
    rw [List.forall_mem_cons] at filled
    have first := List.length_pos_iff.2 filled.1
    have counted := hypothesis filled.2
    cases more with
    | nil =>
      rw [List.intercalate_singleton]
      exact first
    | cons next others =>
      simp only [List.intercalate_cons_cons, List.length_cons, List.length_append] at counted ⊢
      omega

theorem length_le_writeParts {parts : List (List Char)}
    (starts : ∀ part ∈ parts, StartsWithName part) (rest : List Char) :
    parts.length ≤ (writeParts parts rest).length := by
  have counted := length_le_intercalate (fun part listed => (starts part listed).ne_nil) [',', ' ']
  rw [writeParts, List.length_append]
  exact Nat.le_add_right_of_le counted

theorem readDirection?_write (direction : PortDirection) (text : List Char) :
    readDirection? (skipLineBlanks (direction.write ++ text)) =
      some (direction, skipLineBlanks text) := by
  cases direction <;> rfl

theorem readPort_write {port : PortSource} (writable : port.IsWritable)
    (separated : AtSeparator rest) : readPort (port.write ++ rest) = .success port rest := by
  rcases port with ⟨direction, name, operand⟩
  have ends : atWordEnd (direction.write ++ (operand.write ++ rest)) = true := by
    cases direction <;> exact (by decide : (!isWordCharacter ' ') = true)
  have readName := writable.name.readName? ends
  have readOperand := readOperand?_write writable.operand separated
  have written : (PortSource.mk direction name operand).write ++ rest =
      name.toList ++ (direction.write ++ (operand.write ++ rest)) := by
    simp [PortSource.write]
  simp only [written, readPort, readName, Reply.ofOption, Reply.bind, readDirection?_write,
    skipLineBlanks_of_readOperand? readOperand, readOperand, separated.skipLineBlanks]
  cases direction with
  | input => rfl
  | output =>
    rcases writable.output rfl with ⟨place, leads⟩
    cases leads
    rfl

theorem PortSource.IsWritable.startsWithName {port : PortSource} (writable : port.IsWritable) :
    StartsWithName port.write := by
  rw [PortSource.write, List.append_assoc]
  exact writable.name.startsWithName.append _

/-- The written ports are read whatever blanks stand before them. -/
theorem readPorts_write {ports : List PortSource} (writable : ∀ port ∈ ports, port.IsWritable)
    {fuel : Nat} (enough : ports.length ≤ fuel)
    (written : skipBlanks text = writeParts (ports.map PortSource.write) rest) :
    ∃ ending, readPorts fuel text = .success ports ending ∧ skipBlanks ending = ')' :: rest := by
  induction ports generalizing fuel text with
  | nil =>
    refine ⟨text, ?_, written⟩
    cases fuel with
    | zero => rfl
    | succ fuel =>
      have none : readPort (skipBlanks text) = .mismatch := by
        rw [written]
        rfl
      rw [readPorts, none]
  | cons port more hypothesis =>
    rw [List.forall_mem_cons] at writable
    cases fuel with
    | zero => exact absurd enough (Nat.not_succ_le_zero _)
    | succ fuel =>
      have starts : ∀ part ∈ more.map PortSource.write, StartsWithName part :=
        List.forall_mem_map.2 fun next listed => (writable.2 next listed).startsWithName
      rcases writeParts_cons port.write starts rest with ⟨tail, parted, separated, skipped, -⟩
      rcases hypothesis writable.2 (Nat.le_of_succ_le_succ enough) skipped
        with ⟨ending, done, closed⟩
      refine ⟨ending, ?_, closed⟩
      rw [readPorts, written, List.map_cons, parted, readPort_write writable.1 separated]
      simp only [done, Reply.map]

theorem skipToken?_writeList {parts : List (List Char)} (some : parts ≠ [])
    (starts : ∀ part ∈ parts, StartsWithName part) (rest : List Char) :
    skipToken? "(" (writeList parts ++ rest) = Option.some (writeParts parts rest) := by
  cases parts with
  | nil => exact absurd rfl some
  | cons part more =>
    have starting := startsWithName_writeParts (starts part List.mem_cons_self) more rest
    have opened : writeList (part :: more) ++ rest = '(' :: writeParts (part :: more) rest := by
      simp [writeList, writeParts]
    rw [opened]
    change Option.some (skipLineBlanks (writeParts (part :: more) rest)) = _
    rw [starting.skipLineBlanks]

theorem skipClosing?_of_skipBlanks (closed : skipBlanks text = ')' :: rest) :
    skipClosing? text = some (skipLineBlanks rest) := by
  rw [skipClosing?, closed]
  rfl

theorem skipBlanks_writeParts {parts : List (List Char)}
    (starts : ∀ part ∈ parts, StartsWithName part) (rest : List Char) :
    skipBlanks (writeParts parts rest) = writeParts parts rest := by
  cases parts with
  | nil => rfl
  | cons part more =>
    exact (startsWithName_writeParts (starts part List.mem_cons_self) more rest).skipBlanks

theorem readPortList_write {ports : List PortSource} (writable : ∀ port ∈ ports, port.IsWritable)
    (some : ports ≠ []) (rest : List Char) :
    readPortList (writeList (ports.map PortSource.write) ++ rest) =
      .success ports (skipLineBlanks rest) := by
  have starts : ∀ part ∈ ports.map PortSource.write, StartsWithName part :=
    List.forall_mem_map.2 fun port listed => (writable port listed).startsWithName
  have opened := skipToken?_writeList (by simpa using some) starts rest
  have enough := length_le_writeParts starts rest
  rw [List.length_map] at enough
  rcases readPorts_write writable enough (skipBlanks_writeParts starts rest)
    with ⟨ending, read, closed⟩
  simp only [readPortList, opened, Reply.ofOption, Reply.bind, Option.map_some, read,
    skipClosing?_of_skipBlanks closed]

theorem ParameterSource.IsWritable.startsWithName {parameter : ParameterSource}
    (writable : parameter.IsWritable) : StartsWithName parameter.write := by
  simp only [ParameterSource.write, List.append_assoc]
  exact writable.name.startsWithName.append _

theorem readParameterKind?_append {kind : String} (named : IsIdentifier kind)
    (ends : atWordEnd rest = true) :
    readParameterKind? (':' :: ' ' :: (kind.toList ++ rest)) = some (kind, rest) := by
  change (some (skipLineBlanks (kind.toList ++ rest))).bind _ = _
  rw [(named.startsWithName.append rest).skipLineBlanks, Option.bind_some,
    named.identifierOfText? ends]
  simp

theorem readDefault?_write {default : Option Value}
    (writable : ∀ value, default = some value → value.IsWritable)
    (separated : AtSeparator rest) :
    readDefault? (writeDefault default ++ rest) = default.map fun value => (value, rest) := by
  cases default with
  | none =>
    have noEquals : skipToken? "=" rest = none := by
      rcases separated with ⟨more, rfl | rfl⟩ <;> rfl
    exact congrArg (Option.bind · readLiteral?) noEquals
  | some value =>
    have read := readLiteral?_write (writable value rfl) separated
    change (some (skipLineBlanks (value.write ++ rest))).bind readLiteral? = _
    rw [skipLineBlanks_of_readLiteral? read, Option.bind_some, read, Option.map_some]

theorem readParameter?_write {parameter : ParameterSource} (writable : parameter.IsWritable)
    (separated : AtSeparator rest) (written : skipBlanks text = parameter.write ++ rest) :
    readParameter? text = some (parameter, rest) := by
  rcases parameter with ⟨name, kind, default⟩
  have ends : atWordEnd (writeDefault default ++ rest) = true := by
    cases default with
    | none => exact separated.atWordEnd
    | some value => exact (by decide : (!isWordCharacter ' ') = true)
  have parted : skipBlanks text =
      name.toList ++ ':' :: ' ' :: (kind.toList ++ (writeDefault default ++ rest)) := by
    simpa [ParameterSource.write] using written
  have nameEnds : atWordEnd (':' :: ' ' :: (kind.toList ++ (writeDefault default ++ rest))) =
      true := (by decide : (!isWordCharacter ':') = true)
  have readName := writable.name.readName? nameEnds
  have readKind := readParameterKind?_append writable.kind ends
  have readDefault := readDefault?_write writable.default separated
  have stays : ∀ more, skipLineBlanks (':' :: more) = ':' :: more := fun _ => rfl
  simp only [readParameter?, parted, readName, stays, readKind, readDefault, Option.bind_eq_bind,
    Option.bind_some]
  cases default with
  | none =>
    have ended : skipBlanks (writeDefault none ++ rest) = rest := separated.skipBlanks
    simp only [Option.map_none, ended]
    rfl
  | some value =>
    simp only [Option.map_some, separated.skipBlanks]
    rfl

/-- The written parameters are read whatever blanks stand before them. -/
theorem readParameters_write {parameters : List ParameterSource}
    (writable : ∀ parameter ∈ parameters, parameter.IsWritable) {fuel : Nat}
    (enough : parameters.length ≤ fuel)
    (written : skipBlanks text = writeParts (parameters.map ParameterSource.write) rest) :
    ∃ ending, readParameters fuel text = (parameters, ending) ∧
      skipBlanks ending = ')' :: rest := by
  induction parameters generalizing fuel text with
  | nil =>
    refine ⟨text, ?_, written⟩
    cases fuel with
    | zero => rfl
    | succ fuel =>
      have none : readParameter? text = none := by
        rw [readParameter?, written]
        rfl
      rw [readParameters, none]
  | cons parameter more hypothesis =>
    rw [List.forall_mem_cons] at writable
    cases fuel with
    | zero => exact absurd enough (Nat.not_succ_le_zero _)
    | succ fuel =>
      have starts : ∀ part ∈ more.map ParameterSource.write, StartsWithName part :=
        List.forall_mem_map.2 fun next listed => (writable.2 next listed).startsWithName
      rcases writeParts_cons parameter.write starts rest with ⟨tail, parted, separated, -, skipped⟩
      rcases hypothesis writable.2 (Nat.le_of_succ_le_succ enough) skipped
        with ⟨ending, done, closed⟩
      rw [List.map_cons, parted] at written
      refine ⟨ending, ?_, closed⟩
      rw [readParameters, readParameter?_write writable.1 separated written]
      simp only [done]

theorem readParameterList?_write {parameters : List ParameterSource}
    (writable : ∀ parameter ∈ parameters, parameter.IsWritable) (some : parameters ≠ [])
    (rest : List Char) :
    readParameterList? (writeList (parameters.map ParameterSource.write) ++ rest) =
      Option.some (parameters, skipLineBlanks rest) := by
  have starts : ∀ part ∈ parameters.map ParameterSource.write, StartsWithName part :=
    List.forall_mem_map.2 fun parameter listed => (writable parameter listed).startsWithName
  have opened := skipToken?_writeList (by simpa using some) starts rest
  have enough := length_le_writeParts starts rest
  rw [List.length_map] at enough
  rcases readParameters_write writable enough (skipBlanks_writeParts starts rest)
    with ⟨ending, read, closed⟩
  simp only [readParameterList?, opened, read, skipClosing?_of_skipBlanks closed,
    Option.bind_eq_bind, Option.bind_some, Option.pure_def]

end BehaviorTree
