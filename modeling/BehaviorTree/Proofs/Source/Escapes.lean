import BehaviorTree.Proofs.Source.RoundTrip
import Mathlib

/-!
# Reading escaped texts back

A text can be written between quotes with each backslash doubled and each end of a line as a
backslash and an `n`. The reader first collapses all doubled backslashes and then expands every
backslash before an `n`, so it cannot tell an escaped end of a line from a backslash that stood
before an `n` in the text. All other texts are read back as they are.
-/

namespace BehaviorTree

open MissionText

def escapeCharacter : Char → List Char
  | '\\' => ['\\', '\\']
  | '\n' => ['\\', 'n']
  | character => [character]

/-- A text between quotes, with its backslashes and ends of lines escaped. -/
def writeEscaped (text : String) : List Char :=
  '"' :: text.toList.flatMap escapeCharacter ++ ['"']

/-- What an escaped text is read as. -/
def readBack (text : String) : String := String.ofList (expandLineEnds text.toList)

/-- The ends of lines escaped, and nothing else. -/
def spellLineEnds (text : List Char) : List Char :=
  text.flatMap fun character => if character = '\n' then ['\\', 'n'] else [character]

variable {text : List Char} {character : Char}

theorem escapeCharacter_of_ne (noBackslash : character ≠ '\\') (noLineEnd : character ≠ '\n') :
    escapeCharacter character = [character] := by
  unfold escapeCharacter
  split
  · exact absurd rfl noBackslash
  · exact absurd rfl noLineEnd
  · rfl

theorem collapseBackslashes_cons (other : character ≠ '\\') (rest : List Char) :
    collapseBackslashes (character :: rest) = character :: collapseBackslashes rest := by
  rw [collapseBackslashes]
  rintro _ rfl
  exact absurd rfl other

theorem expandLineEnds_cons (other : character = '\\' → ∀ c ∈ text.head?, c ≠ 'n') :
    expandLineEnds (character :: text) = character :: expandLineEnds text := by
  rw [expandLineEnds]
  rintro rest rfl rfl
  exact absurd rfl (other rfl 'n' rfl)

/-- The first step of the reader undoes the doubling of backslashes. -/
theorem collapseBackslashes_escaped (text : List Char) :
    collapseBackslashes (text.flatMap escapeCharacter) = spellLineEnds text := by
  induction text with
  | nil => rfl
  | cons first rest ih =>
    rw [spellLineEnds, List.flatMap_cons, List.flatMap_cons, ← spellLineEnds, ← ih]
    by_cases backslash : first = '\\'
    · subst backslash
      rfl
    · by_cases lineEnd : first = '\n'
      · subst lineEnd
        rfl
      · rw [escapeCharacter_of_ne backslash lineEnd, if_neg lineEnd, List.singleton_append,
          collapseBackslashes_cons backslash, List.singleton_append]

theorem spellLineEnds_cons (first : Char) (rest : List Char) :
    spellLineEnds (first :: rest) =
      (if first = '\n' then ['\\', 'n'] else [first]) ++ spellLineEnds rest :=
  List.flatMap_cons

theorem head?_spellLineEnds_ne (other : ∀ c ∈ text.head?, c ≠ 'n') :
    ∀ c ∈ (spellLineEnds text).head?, c ≠ 'n' := by
  cases text with
  | nil => nofun
  | cons first rest =>
    rw [spellLineEnds_cons]
    split
    · rintro c ⟨⟩
      decide
    · rintro c ⟨⟩
      exact other first rfl

/-- Its second step does not see whether the end of a line was escaped. -/
theorem expandLineEnds_spelled (text : List Char) :
    expandLineEnds (spellLineEnds text) = expandLineEnds text := by
  fun_induction expandLineEnds text with
  | case1 rest ih =>
    rw [spellLineEnds_cons, spellLineEnds_cons, if_neg (by decide), if_neg (by decide)]
    exact congrArg ('\n' :: ·) ih
  | case2 first rest other ih =>
    rw [spellLineEnds_cons]
    split
    · rename_i lineEnd
      rw [lineEnd]
      exact congrArg ('\n' :: ·) ih
    · have noPair : first = '\\' → ∀ c ∈ rest.head?, c ≠ 'n' := by
        rintro backslash c next rfl
        rcases List.head?_eq_some_iff.1 next with ⟨more, followed⟩
        exact other more backslash followed
      rw [List.singleton_append,
        expandLineEnds_cons fun backslash => head?_spellLineEnds_ne (noPair backslash), ih]
  | case3 => rfl

/-- A text stays as it is unless there is a backslash before an `n` in it. -/
theorem expandLineEnds_eq_self_iff (text : List Char) :
    expandLineEnds text = text ↔ ¬ ['\\', 'n'] <:+: text := by
  fun_induction expandLineEnds text with
  | case1 rest ih =>
    have inside : ['\\', 'n'] <:+: '\\' :: 'n' :: rest := ⟨[], rest, rfl⟩
    simp [inside]
  | case2 first rest other ih =>
    rw [List.cons_inj_right, ih, List.infix_cons_iff, not_or, iff_and_self]
    rintro - ⟨more, starts⟩
    cases starts
    exact other more rfl rfl
  | case3 => simp

theorem readBack_eq_self_iff (text : String) :
    readBack text = text ↔ ¬ ['\\', 'n'] <:+: text.toList := by
  rw [← expandLineEnds_eq_self_iff, readBack, ← String.toList_inj, String.toList_ofList]

theorem ne_quote_of_mem_escaped (unquoted : '"' ∉ text) :
    ∀ c ∈ text.flatMap escapeCharacter, c ≠ '"' := by
  simp only [List.mem_flatMap]
  rintro c ⟨first, listed, among⟩ rfl
  unfold escapeCharacter at among
  split at among
  · simp at among
  · simp at among
  · exact unquoted (List.mem_singleton.1 among ▸ listed)

theorem readQuoted?_writeEscaped {text : String} (unquoted : '"' ∉ text.toList)
    (rest : List Char) :
    readQuoted? (writeEscaped text ++ rest) = some (readBack text, rest) := by
  have inside : ∀ c ∈ text.toList.flatMap escapeCharacter, decide (c ≠ '"') = true :=
    fun c listed => decide_eq_true (ne_quote_of_mem_escaped unquoted c listed)
  have written : writeEscaped text ++ rest =
      '"' :: (text.toList.flatMap escapeCharacter ++ '"' :: rest) := by simp [writeEscaped]
  rw [written, readQuoted?, List.takeWhile_append_of_pos inside,
    List.dropWhile_append_of_pos inside]
  simp [collapseBackslashes_escaped, expandLineEnds_spelled, readBack]

/-- What follows the label of a node is read up to the end of the node. -/
theorem readNode_escapedLabel {kind text : String} (named : IsIdentifier kind)
    (unquoted : '"' ∉ text.toList) (fuel : Nat) (rest : List Char) :
    readNode (fuel + 1) (kind.toList ++ ' ' :: (writeEscaped text ++ rest)) =
      ((readPortList (skipLineBlanks rest)).orElse (skipLineBlanks rest) []).bind
        fun ports after => ((readChildList fuel after).orElse after []).bind
          fun children after =>
            .success (.node kind (some (readBack text)) ports children)
              (skipOptionalComment after) := by
  have ends : atWordEnd (' ' :: (writeEscaped text ++ rest)) = true :=
    (by decide : (!isWordCharacter ' ') = true)
  have starts : skipLineBlanks (skipLineBlanks (' ' :: (writeEscaped text ++ rest))) =
      writeEscaped text ++ rest := rfl
  rw [readNode, named.readName? ends]
  simp only [Reply.ofOption, bind_success, starts, readQuoted?_writeEscaped unquoted]

/-- A text without quotes that is escaped and written between quotes is read, as a literal and as
the label of a node, with every backslash before an `n` taken for the end of a line. So it is read
back as it was unless a backslash stands before an `n` in it. -/
theorem escaped_text_is_read_unless_before_n {text : String} (unquoted : '"' ∉ text.toList) :
    (∀ rest, readLiteral? (writeEscaped text ++ rest) = some (.string (readBack text), rest)) ∧
      (∀ kind fuel rest, IsIdentifier kind →
        (AtLineEnd rest → readNode (fuel + 1) (kind.toList ++ ' ' :: (writeEscaped text ++ rest)) =
          .success (.node kind (some (readBack text)) [] []) rest) ∧
        ∀ node ending, readNode (fuel + 1) (kind.toList ++ ' ' :: (writeEscaped text ++ rest)) =
          .success node ending → node.label = some (readBack text)) ∧
      (readBack text = text ↔ ¬ ['\\', 'n'] <:+: text.toList) := by
  refine ⟨fun rest => ?_, fun kind fuel rest named => ⟨fun ended => ?_, fun node ending read => ?_⟩,
    readBack_eq_self_iff text⟩
  · rw [readLiteral?, readQuoted?_writeEscaped unquoted]
  · have noPorts : (readPortList rest).orElse rest [] = .success [] rest := by
      rw [readPortList, skipToken?, skipText?_eq_none rfl (ended.continuesWithout (by decide))]
      rfl
    have noChildren : (readChildList fuel rest).orElse rest [] = .success [] rest := by
      cases fuel with
      | zero => rfl
      | succ fuel =>
        rw [readChildList, skipToken?, skipText?_eq_none rfl (ended.continuesWithout (by decide))]
        rfl
    rw [readNode_escapedLabel named unquoted, ended.skipLineBlanks, noPorts, bind_success,
      noChildren, bind_success, skipOptionalComment_of_atLineEnd ended]
  · rw [readNode_escapedLabel named unquoted] at read
    rcases Reply.bind_eq_success_iff.1 read with ⟨ports, after, -, read⟩
    rcases Reply.bind_eq_success_iff.1 read with ⟨children, after, -, read⟩
    cases read
    rfl

/-- A literal and a label that hold a line feed between backslashes are read back. -/
theorem backslashes_are_read_back :
    '"' ∉ "\\\n\\\\".toList ∧ IsIdentifier "Sleep" ∧ AtLineEnd [] ∧
      readLiteral? (writeEscaped "\\\n\\\\") = some (.string "\\\n\\\\", []) ∧
      readNode 1 ("Sleep".toList ++ ' ' :: (writeEscaped "\\\n\\\\" ++ [])) =
        .success (.node "Sleep" (some "\\\n\\\\") [] []) [] := by
  have unquoted : '"' ∉ "\\\n\\\\".toList := by decide
  have named : IsIdentifier "Sleep" := by decide
  have read := escaped_text_is_read_unless_before_n unquoted
  have same : readBack "\\\n\\\\" = "\\\n\\\\" := read.2.2.2 (by decide)
  have readLiteral := read.1 []
  have readLabel := (read.2.1 "Sleep" 0 [] named).1 nofun
  rw [same] at readLabel
  rw [List.append_nil, same] at readLiteral
  exact ⟨unquoted, named, nofun, readLiteral, readLabel⟩

/-- The label and the literal that consist of a backslash and an `n` are read as ends of lines. -/
theorem backslash_before_n_is_lost : '"' ∉ "\\n".toList ∧
    String.ofList (writeEscaped "\\n") = "\"\\\\n\"" ∧
    MissionSource.ofText "tree main = Sleep \"\\\\n\" (seconds <- \"\\\\n\")" =
      .ok ⟨[⟨"main", [], .node "Sleep" (some "\n")
        [⟨.input, "seconds", .constant (.string "\n")⟩] []⟩]⟩ ∧
    "\n" ≠ "\\n" :=
  ⟨by decide, by cbv, by cbv, by decide⟩

end BehaviorTree
