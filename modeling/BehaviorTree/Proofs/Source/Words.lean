import BehaviorTree.Proofs.Source.Canonical
import Mathlib.Tactic.Common

/-!
# Reading words and values

A reader of a word takes as much as it can, so a word is read back if what follows it goes on with
no further character of a word. A value of a port or a default is followed by a separator of the
list it stands in.
-/

namespace BehaviorTree

namespace MissionText

variable {text rest word : List Char} {name : String} {character : Char}

theorem skipText?_append (expected : String) (rest : List Char) :
    skipText? expected (expected.toList ++ rest) = some rest := by
  simp only [skipText?, List.isPrefixOf_iff_prefix.2 (List.prefix_append _ _), if_true]
  rw [List.drop_left' String.length_toList]

theorem eq_append_of_skipText? {expected : String} (skipped : skipText? expected text = some rest) :
    text = expected.toList ++ rest := by
  unfold skipText? at skipped
  split at skipped
  · rename_i starts
    rcases List.isPrefixOf_iff_prefix.1 starts with ⟨more, rfl⟩
    rw [List.drop_left' String.length_toList, Option.some.injEq] at skipped
    rw [skipped]
  · cases skipped

/-- A text that starts with another character does not start with what is expected. -/
theorem skipText?_eq_none {expected : String} {first : Char} {more : List Char}
    (starts : expected.toList = first :: more) (other : ∀ c ∈ text.head?, c ≠ first) :
    skipText? expected text = none := by
  cases skipped : skipText? expected text with
  | none => rfl
  | some rest =>
    rw [eq_append_of_skipText? skipped, starts] at other
    exact absurd rfl (other first rfl)

theorem skipLineBlanks_of_head (solid : ∀ c ∈ text.head?, isLineBlank c = false) :
    skipLineBlanks text = text := by
  cases text with
  | nil => rfl
  | cons c rest => simp [skipLineBlanks, solid c rfl]

theorem skipBlanks_of_head (solid : ∀ c ∈ text.head?, isBlank c = false) :
    skipBlanks text = text := by
  cases text with
  | nil => rfl
  | cons c rest => simp [skipBlanks, solid c rfl]

theorem isLineBlank_eq_false (solid : isBlank character = false) :
    isLineBlank character = false := by
  simp only [isBlank, Bool.or_eq_false_iff] at solid
  exact solid.1

theorem isDigit_iff : character.isDigit = true ↔ 48 ≤ character.toNat ∧ character.toNat ≤ 57 := by
  have ranges : character.isDigit =
      (decide (48 ≤ character.val) && decide (character.val ≤ 57)) := rfl
  simp [ranges, UInt32.le_iff_toNat_le]

theorem isAlpha_iff : character.isAlpha = true ↔
    65 ≤ character.toNat ∧ character.toNat ≤ 90 ∨
      97 ≤ character.toNat ∧ character.toNat ≤ 122 := by
  have ranges : character.isAlpha =
      (decide (65 ≤ character.val ∧ character.val ≤ 90) ||
        decide (97 ≤ character.val) && decide (character.val ≤ 122)) := rfl
  simp [ranges, UInt32.le_iff_toNat_le]

theorem toNat_lt_of_isAlphanum (plain : character.isAlphanum = true) :
    character.toNat < 0x80 := by
  rcases Bool.or_eq_true_iff.1 plain with letter | digit
  · rw [isAlpha_iff] at letter
    omega
  · rw [isDigit_iff] at digit
    omega

theorem isWordCharacter_of_isAlphanum (plain : character.isAlphanum = true) :
    isWordCharacter character = true := by
  simp [isWordCharacter, isAlphanumeric, toNat_lt_of_isAlphanum plain, plain]

theorem isWordCharacter_of_continues (continues : continuesIdentifier character = true) :
    isWordCharacter character = true := by
  rcases Bool.or_eq_true_iff.1 continues with plain | underscore
  · exact isWordCharacter_of_isAlphanum plain
  · simp [isWordCharacter, underscore]

theorem continues_of_starts (starts : startsIdentifier character = true) :
    continuesIdentifier character = true := by
  unfold startsIdentifier at starts
  unfold continuesIdentifier Char.isAlphanum
  rcases Bool.or_eq_true_iff.1 starts with letter | underscore
  · simp [letter]
  · simp [underscore]

theorem isDigit_eq_false_of_starts (starts : startsIdentifier character = true) :
    character.isDigit = false := by
  rw [Bool.eq_false_iff, ne_eq, isDigit_iff]
  rcases Bool.or_eq_true_iff.1 starts with letter | underscore
  · rw [isAlpha_iff] at letter
    omega
  · rw [beq_iff_eq.1 underscore]
    decide

theorem isBlank_eq_false_of_word (word : isWordCharacter character = true) :
    isBlank character = false := by
  cases blank : isBlank character with
  | false => rfl
  | true =>
    simp only [isBlank, isLineBlank, isLineEnd, Bool.or_eq_true, beq_iff_eq] at blank
    rcases blank with (rfl | rfl) | rfl | rfl <;> revert word <;> decide

/-- A word ends where a character follows that is no part of words. -/
theorem takeWhile_of_atWordEnd {within : Char → Bool}
    (isWord : ∀ c, within c = true → isWordCharacter c = true)
    (inside : ∀ c ∈ word, within c = true) (ends : atWordEnd rest = true) :
    (word ++ rest).takeWhile within = word ∧ (word ++ rest).dropWhile within = rest := by
  rw [List.takeWhile_append_of_pos inside, List.dropWhile_append_of_pos inside]
  cases rest with
  | nil => simp
  | cons c more =>
    have outside : within c = false := by
      cases part : within c with
      | false => rfl
      | true => simp [atWordEnd, isWord c part] at ends
    simp [outside]

end MissionText

open MissionText

variable {text rest : List Char} {name : String}

theorem IsIdentifier.isWord (named : IsIdentifier name) :
    ∀ c ∈ name.toList, isWordCharacter c = true := by
  rcases named with ⟨first, more, spelled, starts, continues⟩
  rw [spelled, List.forall_mem_cons]
  exact ⟨isWordCharacter_of_continues (continues_of_starts starts),
    fun c listed => isWordCharacter_of_continues (continues c listed)⟩

/-- A text starts with the first character of an identifier. -/
def StartsWithName (text : List Char) : Prop :=
  ∃ first more, text = first :: more ∧ startsIdentifier first = true

theorem IsIdentifier.startsWithName (named : IsIdentifier name) : StartsWithName name.toList := by
  rcases named with ⟨first, more, spelled, starts, -⟩
  exact ⟨first, more, spelled, starts⟩

namespace StartsWithName

theorem ne_nil (starts : StartsWithName text) : text ≠ [] := by
  rcases starts with ⟨first, more, rfl, -⟩
  exact List.cons_ne_nil _ _

theorem append (starts : StartsWithName text) (more : List Char) :
    StartsWithName (text ++ more) := by
  rcases starts with ⟨first, others, rfl, starts⟩
  exact ⟨first, others ++ more, rfl, starts⟩

theorem ne_head (starts : StartsWithName text) {character : Char}
    (other : startsIdentifier character = false) : ∀ c ∈ text.head?, c ≠ character := by
  rcases starts with ⟨first, more, rfl, starts⟩
  rintro c ⟨⟩ rfl
  simp [starts] at other

theorem isBlank_head (starts : StartsWithName text) : ∀ c ∈ text.head?, isBlank c = false := by
  rcases starts with ⟨first, more, rfl, starts⟩
  rintro c ⟨⟩
  exact isBlank_eq_false_of_word (isWordCharacter_of_continues (continues_of_starts starts))

theorem skipBlanks (starts : StartsWithName text) : skipBlanks text = text :=
  skipBlanks_of_head starts.isBlank_head

theorem skipLineBlanks (starts : StartsWithName text) : skipLineBlanks text = text :=
  skipLineBlanks_of_head fun c first => isLineBlank_eq_false (starts.isBlank_head c first)

end StartsWithName

theorem IsIdentifier.identifierOfText? (named : IsIdentifier name)
    (ends : atWordEnd rest = true) :
    identifierOfText? (name.toList ++ rest) = some (name.toList, rest) := by
  rcases named with ⟨first, more, spelled, starts, continues⟩
  have taken := takeWhile_of_atWordEnd (fun _ => isWordCharacter_of_continues) continues ends
  rw [spelled, List.cons_append, BehaviorTree.identifierOfText?, if_pos starts, taken.1, taken.2]

theorem IsIdentifier.readName? (named : IsIdentifier name) (ends : atWordEnd rest = true) :
    readName? (name.toList ++ rest) = some (name, MissionText.skipLineBlanks rest) := by
  simp [MissionText.readName?, (named.startsWithName.append rest).skipLineBlanks,
    named.identifierOfText? ends]

theorem digitsValue?_toDigits (number : Nat) :
    digitsValue? (Nat.toDigits 10 number) = some number := by
  have digits : (Nat.toDigits 10 number).all Char.isDigit = true := by
    rw [List.all_eq_true]
    exact fun c listed => Nat.isDigit_of_mem_toDigits (by decide) (by decide) listed
  have some : (Nat.toDigits 10 number).isEmpty = false := by
    simp [List.isEmpty_eq_false_iff, Nat.toDigits_ne_nil]
  have value := @Nat.ofDigitChars_toDigits 10 number (by decide) (by decide)
  rw [Nat.ofDigitChars_eq_foldl] at value
  simp only [digitsValue?, digits, some]
  simpa using value

/-- An integer is written as its digits, after a minus sign if it is negative. -/
theorem toList_toString (number : Int) :
    (number < 0 ∧ (toString number).toList = '-' :: Nat.toDigits 10 number.natAbs) ∨
      (0 ≤ number ∧ (toString number).toList = Nat.toDigits 10 number.natAbs) := by
  have shown : (toString number).toList = number.repr.toList := rfl
  rw [shown, Int.repr_eq_if]
  by_cases negative : number < 0
  · have same : (-number).toNat = number.natAbs := by omega
    rw [if_neg (by omega), String.toList_append, Nat.toList_repr, same]
    exact Or.inl ⟨negative, rfl⟩
  · have same : number.toNat = number.natAbs := by omega
    rw [if_pos (by omega), Nat.toList_repr, same]
    exact Or.inr ⟨by omega, rfl⟩

theorem isDigit_of_mem_toDigits {number : Nat} {character : Char}
    (listed : character ∈ Nat.toDigits 10 number) : character.isDigit = true :=
  Nat.isDigit_of_mem_toDigits (by decide) (by decide) listed

/-- What starts with digits starts with one of them. -/
theorem head_toDigits (number : Nat) (rest : List Char) :
    ∀ c ∈ (Nat.toDigits 10 number ++ rest).head?, c.isDigit = true := by
  cases digits : Nat.toDigits 10 number with
  | nil => exact absurd digits Nat.toDigits_ne_nil
  | cons first more =>
    have listed : first ∈ Nat.toDigits 10 number := digits ▸ List.mem_cons_self
    simpa using isDigit_of_mem_toDigits listed

theorem integerOfText?_toString (number : Int) :
    integerOfText? (toString number) = some number := by
  unfold integerOfText?
  rcases toList_toString number with ⟨negative, spelled⟩ | ⟨positive, spelled⟩
  · simp only [spelled, digitsValue?_toDigits]
    change some (-(number.natAbs : Int)) = some number
    rw [Option.some.injEq]
    omega
  · have first := head_toDigits number.natAbs []
    rw [List.append_nil, ← spelled] at first
    split
    · rename_i _ minus
      rw [minus] at first
      exact absurd (first '-' rfl) (by decide)
    · rename_i _ plus
      rw [plus] at first
      exact absurd (first '+' rfl) (by decide)
    · rw [spelled, digitsValue?_toDigits]
      change some (number.natAbs : Int) = some number
      rw [Option.some.injEq]
      omega

theorem int64OfText?_toString (number : Int64) :
    int64OfText? (toString number.toInt) = some number := by
  have atLeast := number.le_toInt
  have atMost := number.toInt_lt
  simp only [int64OfText?, integerOfText?_toString, Option.bind_some]
  rw [if_pos ⟨atLeast, atMost⟩, Int64.ofInt_toInt]

theorem ofLiteral_toString (number : Int64) :
    Value.ofLiteral (toString number.toInt) = .int number := by
  simp only [Value.ofLiteral, int64OfText?_toString]

theorem ofList_toList_toString (number : Int) :
    String.ofList (toString number).toList = toString number :=
  String.ofList_toList

/-- A separator of a list follows, or its end. -/
def AtSeparator (text : List Char) : Prop :=
  ∃ more, text = ',' :: more ∨ text = ')' :: more

theorem AtSeparator.atWordEnd (separated : AtSeparator rest) : atWordEnd rest = true := by
  rcases separated with ⟨more, rfl | rfl⟩
  · exact (by decide : (!isWordCharacter ',') = true)
  · exact (by decide : (!isWordCharacter ')') = true)

theorem AtSeparator.skipLineBlanks (separated : AtSeparator rest) :
    skipLineBlanks rest = rest := by
  rcases separated with ⟨more, rfl | rfl⟩ <;> rfl

theorem AtSeparator.skipBlanks (separated : AtSeparator rest) : skipBlanks rest = rest := by
  rcases separated with ⟨more, rfl | rfl⟩ <;> rfl

theorem AtSeparator.ne_point (separated : AtSeparator rest) (more : List Char) :
    rest ≠ '.' :: more := by
  rintro rfl
  rcases separated with ⟨more, same | same⟩ <;> cases same

theorem splitNumber_append {digits : List Char} (number : ∀ c ∈ digits, c.isDigit = true)
    (separated : AtSeparator rest) : splitNumber (digits ++ rest) = (digits, rest) := by
  have isWord : ∀ c : Char, c.isDigit = true → isWordCharacter c = true :=
    fun c digit => isWordCharacter_of_isAlphanum (by simp [Char.isAlphanum, digit])
  have taken := takeWhile_of_atWordEnd isWord number separated.atWordEnd
  unfold splitNumber
  simp only [taken.1, taken.2]
  split
  · rename_i after
    exact absurd rfl (separated.ne_point after)
  · rfl

/-- The digits of a number follow its minus sign. -/
theorem readNumber?_toString (number : Int64) (separated : AtSeparator rest) :
    readNumber? ((toString number.toInt).toList ++ rest) = some (.int number, rest) := by
  have digits : ∀ c ∈ Nat.toDigits 10 number.toInt.natAbs, c.isDigit = true :=
    fun c => isDigit_of_mem_toDigits
  have split := splitNumber_append digits separated
  have some : (Nat.toDigits 10 number.toInt.natAbs).isEmpty = false := by
    simp [List.isEmpty_eq_false_iff, Nat.toDigits_ne_nil]
  have value := ofLiteral_toString number
  rw [← ofList_toList_toString] at value
  unfold readNumber?
  rcases toList_toString number.toInt with ⟨-, spelled⟩ | ⟨-, spelled⟩
  · rw [spelled] at value ⊢
    simp only [List.cons_append, split, some, separated.atWordEnd]
    rw [← value]
    rfl
  · rw [spelled] at value ⊢
    have unsigned : ∀ after, Nat.toDigits 10 number.toInt.natAbs ++ rest ≠ '-' :: after := by
      intro after same
      exact absurd (head_toDigits _ rest '-' (by rw [same]; rfl)) (by decide)
    simp only [split, some, separated.atWordEnd]
    rw [← value]
    rfl

theorem readNumber?_eq_none (other : ∀ c ∈ text.head?, c.isDigit = false ∧ c ≠ '-') :
    readNumber? text = none := by
  cases text with
  | nil => rfl
  | cons first more =>
    have ⟨noDigit, noSign⟩ := other first rfl
    unfold readNumber? splitNumber
    simp [noDigit, noSign]

theorem collapseBackslashes_eq_self (plain : ∀ c ∈ text, c ≠ '\\') :
    collapseBackslashes text = text := by
  fun_induction collapseBackslashes text with
  | case1 rest => exact absurd rfl (plain '\\' List.mem_cons_self)
  | case2 first rest _ hypothesis =>
    rw [hypothesis fun c listed => plain c (List.mem_cons_of_mem _ listed)]
  | case3 => rfl

theorem expandLineEnds_eq_self (plain : ∀ c ∈ text, c ≠ '\\') : expandLineEnds text = text := by
  fun_induction expandLineEnds text with
  | case1 rest => exact absurd rfl (plain '\\' List.mem_cons_self)
  | case2 first rest _ hypothesis =>
    rw [hypothesis fun c listed => plain c (List.mem_cons_of_mem _ listed)]
  | case3 => rfl

theorem readQuoted?_append {content : String} (plain : IsPlainText content) (rest : List Char) :
    readQuoted? (writeQuoted content ++ rest) = some (content, rest) := by
  have inside : ∀ c ∈ content.toList, decide (c ≠ '"') = true :=
    fun c listed => decide_eq_true (plain c listed).1
  have taken : (content.toList ++ ('"' :: rest)).takeWhile (· ≠ '"') = content.toList := by
    rw [List.takeWhile_append_of_pos inside]
    simp
  have left : (content.toList ++ ('"' :: rest)).dropWhile (· ≠ '"') = '"' :: rest := by
    rw [List.dropWhile_append_of_pos inside]
    simp
  have written : writeQuoted content ++ rest = '"' :: (content.toList ++ '"' :: rest) := by
    simp [writeQuoted]
  have noBackslash : ∀ c ∈ content.toList, c ≠ '\\' := fun c listed => (plain c listed).2
  rw [written, readQuoted?]
  simp only [left, taken]
  rw [collapseBackslashes_eq_self noBackslash, expandLineEnds_eq_self noBackslash,
    String.ofList_toList]

theorem readQuoted?_eq_none (other : ∀ c ∈ text.head?, c ≠ '"') : readQuoted? text = none := by
  unfold readQuoted?
  split
  · exact absurd rfl (other '"' rfl)
  · rfl

theorem readBool?_write (value : Bool) (separated : AtSeparator rest) :
    readBool? ((Value.bool value).write ++ rest) = some (.bool value, rest) := by
  cases value with
  | true =>
    have skipped : skipText? "true" ((Value.bool true).write ++ rest) = some rest :=
      skipText?_append "true" rest
    simp [readBool?, skipped, separated.atWordEnd]
  | false =>
    have skipped : skipText? "false" ((Value.bool false).write ++ rest) = some rest :=
      skipText?_append "false" rest
    have otherwise : skipText? "true" ((Value.bool false).write ++ rest) = none := rfl
    simp [readBool?, skipped, otherwise, separated.atWordEnd]

/-- A word that starts with another word goes on after it. -/
theorem atWordEnd_of_skipText? {expected : String} (named : IsIdentifier name)
    (other : name ≠ expected) (isWord : expected.toList.all isWordCharacter = true)
    (ends : atWordEnd rest = true) {ending : List Char}
    (skipped : skipText? expected (name.toList ++ rest) = some ending) :
    atWordEnd ending = false := by
  cases stops : atWordEnd ending with
  | false => rfl
  | true =>
    have whole := (takeWhile_of_atWordEnd (fun _ => id) named.isWord ends).1
    rw [eq_append_of_skipText? skipped,
      (takeWhile_of_atWordEnd (fun _ => id) (List.all_eq_true.1 isWord) stops).1] at whole
    exact absurd (String.toList_inj.1 whole.symm) other

theorem readBool?_eq_none (named : IsIdentifier name) (notTrue : name ≠ "true")
    (notFalse : name ≠ "false") (ends : atWordEnd rest = true) :
    readBool? (name.toList ++ rest) = none := by
  unfold readBool?
  split
  · rename_i skipped
    simp [atWordEnd_of_skipText? named notTrue (by decide) ends skipped]
  · rename_i skipped
    simp [atWordEnd_of_skipText? named notFalse (by decide) ends skipped]
  · rfl

theorem readQuoted?_toString (number : Int) (rest : List Char) :
    readQuoted? ((toString number).toList ++ rest) = none := by
  refine readQuoted?_eq_none fun c first => ?_
  rcases toList_toString number with ⟨-, spelled⟩ | ⟨-, spelled⟩
  · simp only [spelled, List.cons_append, List.head?_cons, Option.mem_some_iff] at first
    subst first
    decide
  · rw [spelled] at first
    rintro rfl
    exact absurd (head_toDigits _ rest '"' first) (by decide)

theorem readLiteral?_write {value : Value} (writable : value.IsWritable)
    (separated : AtSeparator rest) : readLiteral? (value.write ++ rest) = some (value, rest) := by
  cases value with
  | bool value =>
    have noQuote : readQuoted? ((Value.bool value).write ++ rest) = none := by
      cases value <;> rfl
    have noNumber : readNumber? ((Value.bool value).write ++ rest) = none := by
      cases value <;> rfl
    simp [readLiteral?, noQuote, noNumber, readBool?_write value separated]
  | int number =>
    have noQuote : readQuoted? ((Value.int number).write ++ rest) = none :=
      readQuoted?_toString number.toInt rest
    have read : readNumber? ((Value.int number).write ++ rest) = some (.int number, rest) :=
      readNumber?_toString number separated
    simp [readLiteral?, noQuote, read]
  | string content =>
    have read : readQuoted? ((Value.string content).write ++ rest) = some (content, rest) :=
      readQuoted?_append writable rest
    simp [readLiteral?, read]
  | float number | message content => exact writable.elim

theorem atWordEnd_segments (segments : List (List Char)) (separated : AtSeparator rest) :
    atWordEnd (segments.flatMap ('.' :: ·) ++ rest) = true := by
  cases segments with
  | nil => exact separated.atWordEnd
  | cons segment more => exact (by decide : (!isWordCharacter '.') = true)

theorem segmentsOfText_append {segments : List (List Char)}
    (words : ∀ segment ∈ segments, segment ≠ [] ∧ segment.all isWordCharacter = true)
    (separated : AtSeparator rest) :
    segmentsOfText (segments.flatMap ('.' :: ·) ++ rest) = (segments.flatMap ('.' :: ·), rest) := by
  induction segments with
  | nil =>
    rw [segmentsOfText.eq_def]
    rcases separated with ⟨more, rfl | rfl⟩ <;> rfl
  | cons segment more hypothesis =>
    rw [List.forall_mem_cons] at words
    have ⟨⟨filled, isWord⟩, others⟩ := words
    have taken := takeWhile_of_atWordEnd (fun _ => id) (List.all_eq_true.1 isWord)
      (atWordEnd_segments more separated)
    have notEmpty : segment.isEmpty = false := List.isEmpty_eq_false_iff.2 filled
    rw [List.flatMap_cons, List.cons_append, List.cons_append, List.append_assoc, segmentsOfText]
    simp only [taken.1, taken.2, notEmpty, hypothesis others]
    rfl

theorem pathOfText?_append {path : String} (writable : IsVariablePath path)
    (separated : AtSeparator rest) :
    pathOfText? (path.toList ++ rest) = some (path.toList, rest) := by
  rcases writable with ⟨name, segments, named, -, -, words, spelled⟩
  rw [spelled, List.append_assoc]
  simp only [pathOfText?, named.identifierOfText? (atWordEnd_segments segments separated),
    Option.map_some, segmentsOfText_append words separated]

/-- Something other than a literal starts neither with a quote nor with a number or its sign. -/
theorem readLiteral?_eq_none (first : ∀ c ∈ text.head?, c ≠ '"' ∧ c.isDigit = false ∧ c ≠ '-')
    (noBool : readBool? text = none) : readLiteral? text = none := by
  have noQuote := readQuoted?_eq_none fun c head => (first c head).1
  have noNumber := readNumber?_eq_none fun c head => (first c head).2
  simp [readLiteral?, noQuote, noNumber, noBool]

theorem IsVariablePath.startsWithName {path : String} (writable : IsVariablePath path) :
    StartsWithName path.toList := by
  rcases writable with ⟨name, segments, named, -, -, -, spelled⟩
  rw [spelled]
  exact named.startsWithName.append _

theorem readLiteral?_of_path {path : String} (writable : IsVariablePath path)
    (separated : AtSeparator rest) : readLiteral? (path.toList ++ rest) = none := by
  have starts := writable.startsWithName.append rest
  rcases writable with ⟨name, segments, named, notTrue, notFalse, -, spelled⟩
  refine readLiteral?_eq_none (fun c first => ?_) ?_
  · refine ⟨starts.ne_head (by decide) c first, ?_, starts.ne_head (by decide) c first⟩
    rcases starts with ⟨start, more, same, isStart⟩
    rw [same] at first
    cases first
    exact isDigit_eq_false_of_starts isStart
  · rw [spelled, List.append_assoc]
    exact readBool?_eq_none named notTrue notFalse (atWordEnd_segments segments separated)

theorem readOperand?_write {operand : Operand} (writable : operand.IsWritable)
    (separated : AtSeparator rest) :
    readOperand? (operand.write ++ rest) = some (operand, rest) := by
  cases operand with
  | constant value =>
    have read : readLiteral? ((Operand.constant value).write ++ rest) = some (value, rest) :=
      readLiteral?_write writable separated
    simp [readOperand?, read]
  | parameter name =>
    have noLiteral : readLiteral? ('$' :: (name.toList ++ rest)) = none :=
      readLiteral?_eq_none (by simp) rfl
    have read := IsIdentifier.identifierOfText? writable separated.atWordEnd
    change readOperand? ('$' :: (name.toList ++ rest)) = _
    simp [readOperand?, noLiteral, read]
  | path place =>
    have noLiteral := readLiteral?_of_path writable separated
    have noParameter : ∀ after, place.toList ++ rest ≠ '$' :: after :=
      fun after same => (writable.startsWithName.append rest).ne_head (by decide) '$'
        (by rw [same]; rfl) rfl
    have read := pathOfText?_append writable separated
    change readOperand? (place.toList ++ rest) = _
    simp [readOperand?, noLiteral, read]

theorem readLiteral?_of_blank {blank : Char} (blanks : isLineBlank blank = true) :
    readLiteral? (blank :: rest) = none := by
  simp only [isLineBlank, Bool.or_eq_true, beq_iff_eq] at blanks
  rcases blanks with rfl | rfl <;> exact readLiteral?_eq_none (by simp) rfl

/-- No value starts with a blank. -/
theorem skipLineBlanks_of_readLiteral? {result : Value × List Char}
    (read : readLiteral? text = some result) : skipLineBlanks text = text := by
  refine skipLineBlanks_of_head fun c first => Bool.eq_false_iff.2 fun blank => ?_
  rcases List.head?_eq_some_iff.1 first with ⟨more, rfl⟩
  rw [readLiteral?_of_blank blank] at read
  cases read

theorem skipLineBlanks_of_readOperand? {result : Operand × List Char}
    (read : readOperand? text = some result) : skipLineBlanks text = text := by
  refine skipLineBlanks_of_head fun c first => Bool.eq_false_iff.2 fun blank => ?_
  rcases List.head?_eq_some_iff.1 first with ⟨more, rfl⟩
  simp only [readOperand?, readLiteral?_of_blank blank] at read
  simp only [isLineBlank, Bool.or_eq_true, beq_iff_eq] at blank
  rcases blank with rfl | rfl <;> cases read

end BehaviorTree
