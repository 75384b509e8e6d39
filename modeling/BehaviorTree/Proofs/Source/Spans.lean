import BehaviorTree.Proofs.Source.RoundTrip

/-!
# What readers take from texts

A reader of a word or of a bare value takes a run of plain characters and looks at nothing behind
the character at which it stops. So what stands behind a blank or the start of a comment makes no
difference to it. A text in quotes is taken up to its second quote, whatever stands between the
quotes.
-/

namespace BehaviorTree

namespace MissionText

variable {α β : Type} {text rest word : List Char} {character : Char}

theorem isLineEnd_eq_false (solid : isBlank character = false) : isLineEnd character = false := by
  simp only [isBlank, Bool.or_eq_false_iff] at solid
  exact solid.2

theorem isLineBlank_of_lineEnd (ends : isLineEnd character = true) :
    isLineBlank character = false := by
  simp only [isLineEnd, Bool.or_eq_true, beq_iff_eq] at ends
  rcases ends with rfl | rfl <;> rfl

theorem isLineEnd_of_lineBlank (blank : isLineBlank character = true) :
    isLineEnd character = false := by
  simp only [isLineBlank, Bool.or_eq_true, beq_iff_eq] at blank
  rcases blank with rfl | rfl <;> rfl

/-- Characters of a kind are skipped up to one that is not of the kind. -/
theorem head_dropWhile {within : Char → Bool} (text : List Char) :
    ∀ c ∈ (text.dropWhile within).head?, within c = false := by
  intro c head
  have stopped := List.head?_dropWhile_not within text
  rw [Option.mem_def.1 head] at stopped
  exact stopped

theorem skipLineBlanks_cons_of_blank (blank : isLineBlank character = true) (text : List Char) :
    skipLineBlanks (character :: text) = skipLineBlanks text :=
  List.dropWhile_cons_of_pos blank

theorem skipLineBlanks_cons_of_solid (solid : isLineBlank character = false) (text : List Char) :
    skipLineBlanks (character :: text) = character :: text :=
  List.dropWhile_cons_of_neg (by simp [solid])

theorem skipBlanks_cons_of_blank (blank : isBlank character = true) (text : List Char) :
    skipBlanks (character :: text) = skipBlanks text :=
  List.dropWhile_cons_of_pos blank

theorem skipBlanks_cons_of_solid (solid : isBlank character = false) (text : List Char) :
    skipBlanks (character :: text) = character :: text :=
  List.dropWhile_cons_of_neg (by simp [solid])

theorem skipBlanks_cons_lineEnd (ends : isLineEnd character = true) (text : List Char) :
    skipBlanks (character :: text) = skipBlanks text :=
  skipBlanks_cons_of_blank (by simp [isBlank, ends]) text

theorem skipBlanks_eq_nil_iff : skipBlanks text = [] ↔ ∀ c ∈ text, isBlank c = true :=
  List.dropWhile_eq_nil_iff

theorem skipBlanks_skipBlanks (text : List Char) :
    skipBlanks (skipBlanks text) = skipBlanks text :=
  List.dropWhile_idempotent _ _

theorem skipLineBlanks_skipBlanks (text : List Char) :
    skipLineBlanks (skipBlanks text) = skipBlanks text :=
  skipLineBlanks_of_head fun c head => isLineBlank_eq_false (head_dropWhile text c head)

theorem skipBlanks_skipLineBlanks (text : List Char) :
    skipBlanks (skipLineBlanks text) = skipBlanks text := by
  induction text with
  | nil => rfl
  | cons first more ih =>
    cases blank : isLineBlank first with
    | false => rw [skipLineBlanks_cons_of_solid blank]
    | true =>
      rw [skipLineBlanks_cons_of_blank blank, ih,
        skipBlanks_cons_of_blank (by simp [isBlank, blank])]

/-- Neither a blank nor a character that changes what the characters behind it belong to. -/
def IsPlain (character : Char) : Prop :=
  isBlank character = false ∧ character ∉ ['"', '#', '(', ')', '=', '\x7b', '\x7d']

instance (character : Char) : Decidable (IsPlain character) :=
  inferInstanceAs (Decidable (_ ∧ _))

/-- One or more plain characters. -/
def IsPlainWord (word : String) : Prop :=
  word.toList ≠ [] ∧ (word.toList.all fun character => IsPlain character) = true

instance (word : String) : Decidable (IsPlainWord word) :=
  inferInstanceAs (Decidable (_ ∧ _))

theorem IsPlainWord.plain {word : String} (isWord : IsPlainWord word) :
    ∀ c ∈ word.toList, IsPlain c := by
  simpa using isWord.2

/-- No word goes on at the front of a text, as there is a blank, a comment or nothing. -/
def Breaks (text : List Char) : Prop :=
  ∀ c ∈ text.head?, isBlank c = true ∨ c = '#'

theorem isPlain_of_word (word : isWordCharacter character = true) : IsPlain character := by
  constructor
  · exact isBlank_eq_false_of_word word
  · intro listed
    simp only [List.mem_cons, List.not_mem_nil, or_false] at listed
    rcases listed with rfl | rfl | rfl | rfl | rfl | rfl | rfl <;> revert word <;> decide

theorem IsPlain.isLineEnd (plain : IsPlain character) : isLineEnd character = false :=
  isLineEnd_eq_false plain.1

theorem isWordCharacter_of_isDigit (digit : character.isDigit = true) :
    isWordCharacter character = true :=
  isWordCharacter_of_isAlphanum (by simp [Char.isAlphanum, digit])

namespace Breaks

theorem ne_head (breaks : Breaks text) (plain : IsPlain character) (more : List Char) :
    text ≠ character :: more := by
  rintro rfl
  rcases breaks character rfl with blank | hash
  · rw [plain.1] at blank
    cases blank
  · exact plain.2 (by simp [hash])

/-- What takes plain characters takes none behind a break. -/
theorem outside (breaks : Breaks text) {within : Char → Bool}
    (plain : ∀ c, within c = true → IsPlain c) : ∀ c ∈ text.head?, within c = false := by
  intro c first
  cases part : within c with
  | false => rfl
  | true =>
    rcases List.head?_eq_some_iff.1 first with ⟨more, rfl⟩
    exact absurd rfl (breaks.ne_head (plain c part) more)

theorem takeWhile_append (breaks : Breaks rest) {within : Char → Bool}
    (plain : ∀ c, within c = true → IsPlain c) (text : List Char) :
    (text ++ rest).takeWhile within = text.takeWhile within ∧
      (text ++ rest).dropWhile within = text.dropWhile within ++ rest := by
  induction text with
  | nil =>
    cases rest with
    | nil => exact ⟨rfl, rfl⟩
    | cons c more => simp [breaks.outside plain c rfl]
  | cons c more ih =>
    rw [List.cons_append]
    cases part : within c with
    | false => simp [part]
    | true => simp [part, ih]

end Breaks

/-- A part that stands behind a character. -/
def readBehind? (character : Char) (read : List Char → Option (α × List Char)) :
    List Char → Option (α × List Char)
  | first :: rest => if first = character then read rest else none
  | [] => none

/-- A reader takes plain characters and does not look behind them. -/
structure IsWordReader (read : List Char → Option (α × List Char)) : Prop where
  takes : ∀ {text value rest}, read text = some (value, rest) →
    ∃ word, text = word ++ rest ∧ word ≠ [] ∧ ∀ c ∈ word, IsPlain c
  stops : ∀ text {rest}, Breaks rest →
    read (text ++ rest) = (read text).map fun (value, ending) => (value, ending ++ rest)

namespace IsWordReader

variable {read other : List Char → Option (α × List Char)}

theorem map (reads : IsWordReader read) (change : α → β) :
    IsWordReader fun text => (read text).map fun (value, rest) => (change value, rest) where
  takes := by
    intro text value rest changed
    rcases Option.map_eq_some_iff.1 changed with ⟨⟨_, _⟩, done, same⟩
    cases same
    exact reads.takes done
  stops := by
    intro text rest breaks
    simp only [reads.stops text breaks, Option.map_map]
    rfl

theorem or (reads : IsWordReader read) (others : IsWordReader other) :
    IsWordReader fun text => (read text).or (other text) where
  takes := by
    intro text value rest done
    rcases Option.or_eq_some_iff.1 done with first | ⟨-, second⟩
    · exact reads.takes first
    · exact others.takes second
  stops := by
    intro text rest breaks
    simp only [reads.stops text breaks, others.stops text breaks]
    cases read text <;> rfl

/-- A plain character may stand before a word. -/
theorem behind (reads : IsWordReader read) (plain : IsPlain character) :
    IsWordReader (readBehind? character read) where
  takes := by
    intro text value rest done
    cases text with
    | nil => cases done
    | cons first more =>
      simp only [readBehind?, Option.ite_none_right_eq_some] at done
      rcases done with ⟨rfl, done⟩
      rcases reads.takes done with ⟨word, rfl, -, within⟩
      exact ⟨first :: word, rfl, List.cons_ne_nil _ _, List.forall_mem_cons.2 ⟨plain, within⟩⟩
  stops := by
    intro text rest breaks
    cases text with
    | nil =>
      cases rest with
      | nil => rfl
      | cons first more =>
        have other : first ≠ character := by
          rintro rfl
          exact breaks.ne_head plain more rfl
        simp [readBehind?, other]
    | cons first more =>
      by_cases same : first = character
      · simp [readBehind?, same, reads.stops more breaks]
      · simp [readBehind?, same]

/-- A reader of words does not start at a quote. -/
theorem ne_quote (reads : IsWordReader read) {value : α} (done : read text = some (value, rest)) :
    ∀ c ∈ text.head?, c ≠ '"' := by
  rintro c first rfl
  rcases reads.takes done with ⟨word, rfl, some, plain⟩
  cases word with
  | nil => exact some rfl
  | cons c more =>
    cases first
    exact (plain '"' List.mem_cons_self).2 (by simp)

theorem length_lt (reads : IsWordReader read) {value : α} (done : read text = some (value, rest)) :
    rest.length < text.length := by
  rcases reads.takes done with ⟨word, rfl, some, -⟩
  have := List.length_pos_iff.2 some
  simp only [List.length_append]
  omega

end IsWordReader

theorem isWordReader_identifierOfText? : IsWordReader identifierOfText? where
  takes := by
    intro text value rest done
    cases text with
    | nil => cases done
    | cons first more =>
      simp only [identifierOfText?, Option.ite_none_right_eq_some, Option.some.injEq,
        Prod.mk.injEq] at done
      rcases done with ⟨starts, rfl, rfl⟩
      refine ⟨first :: more.takeWhile continuesIdentifier, ?_, List.cons_ne_nil _ _, ?_⟩
      · rw [List.cons_append, List.takeWhile_append_dropWhile]
      · refine List.forall_mem_cons.2 ⟨?_, fun c taken => ?_⟩
        · exact isPlain_of_word (isWordCharacter_of_continues (continues_of_starts starts))
        · exact isPlain_of_word (isWordCharacter_of_continues (List.mem_takeWhile_imp taken))
  stops := by
    intro text rest breaks
    have plain : ∀ c, continuesIdentifier c = true → IsPlain c :=
      fun c continues => isPlain_of_word (isWordCharacter_of_continues continues)
    cases text with
    | nil =>
      cases rest with
      | nil => rfl
      | cons first more =>
        have starts := breaks.outside (fun c starts => plain c (continues_of_starts starts))
        simp [identifierOfText?, starts first rfl]
    | cons first more =>
      have taken := breaks.takeWhile_append plain more
      simp only [List.cons_append, identifierOfText?, taken]
      split <;> rfl

/-- A part of a word that may be missing: it is taken and stopped at like a word. -/
theorem segmentsOfText_takes (text : List Char) :
    (segmentsOfText text).1 ++ (segmentsOfText text).2 = text ∧
      ∀ c ∈ (segmentsOfText text).1, IsPlain c := by
  fun_induction segmentsOfText text with
  | case1 rest none => exact ⟨rfl, nofun⟩
  | case2 rest some segments ending more ih =>
    rw [more] at ih
    constructor
    · simp only [List.cons_append, List.append_assoc, ih.1, List.takeWhile_append_dropWhile]
    · refine List.forall_mem_cons.2 ⟨by decide, ?_⟩
      intro c taken
      rcases List.mem_append.1 taken with first | later
      · exact isPlain_of_word (List.mem_takeWhile_imp first)
      · exact ih.2 c later
  | case3 text other => exact ⟨rfl, nofun⟩

theorem segmentsOfText_stops (text : List Char) (breaks : Breaks rest) :
    segmentsOfText (text ++ rest) =
      ((segmentsOfText text).1, (segmentsOfText text).2 ++ rest) := by
  have plain : ∀ c, isWordCharacter c = true → IsPlain c := fun _ => isPlain_of_word
  fun_induction segmentsOfText text with
  | case1 more none =>
    rw [List.cons_append, segmentsOfText]
    simp only [breaks.takeWhile_append plain more, none, if_true]
  | case2 more some segments ending done ih =>
    rw [done] at ih
    rw [List.cons_append, segmentsOfText]
    simp only [breaks.takeWhile_append plain more, some, ih]
    rfl
  | case3 text other =>
    rw [segmentsOfText.eq_def]
    split
    · rename_i more same
      cases text with
      | nil =>
        exact absurd same (breaks.ne_head (by decide) more)
      | cons first others =>
        cases same
        exact absurd rfl (other others)
    · rfl

theorem isWordReader_pathOfText? : IsWordReader pathOfText? where
  takes := by
    intro text value rest done
    rcases Option.map_eq_some_iff.1 done with ⟨⟨name, others⟩, named, same⟩
    cases same
    rcases isWordReader_identifierOfText?.takes named with ⟨word, rfl, some, plain⟩
    have ⟨taken, within⟩ := segmentsOfText_takes others
    refine ⟨word ++ (segmentsOfText others).1, ?_, by simp [some], ?_⟩
    · rw [List.append_assoc, taken]
    · intro c listed
      rcases List.mem_append.1 listed with first | later
      · exact plain c first
      · exact within c later
  stops := by
    intro text rest breaks
    simp only [pathOfText?, isWordReader_identifierOfText?.stops text breaks, Option.map_map]
    cases identifierOfText? text with
    | none => rfl
    | some named => simp [segmentsOfText_stops named.2 breaks]

theorem splitNumber_takes (text : List Char) :
    (splitNumber text).1 ++ (splitNumber text).2 = text ∧
      ∀ c ∈ (splitNumber text).1, IsPlain c := by
  have digits : ∀ text : List Char, ∀ c ∈ text.takeWhile Char.isDigit, IsPlain c :=
    fun text c taken => isPlain_of_word (isWordCharacter_of_isDigit (List.mem_takeWhile_imp taken))
  have whole := digits text
  have split := List.takeWhile_append_dropWhile (p := Char.isDigit) (l := text)
  unfold splitNumber
  generalize text.takeWhile Char.isDigit = taken at whole split ⊢
  generalize text.dropWhile Char.isDigit = after at split ⊢
  subst split
  dsimp only
  split
  · rename_i first more fraction
    split
    · exact ⟨rfl, whole⟩
    · constructor
      · simp [List.takeWhile_append_dropWhile]
      · intro c listed
        rcases List.mem_append.1 listed with before | later
        · exact whole c before
        · rcases List.mem_cons.1 later with rfl | later
          · decide
          · exact digits fraction c later
  · exact ⟨rfl, whole⟩

theorem splitNumber_stops (text : List Char) (breaks : Breaks rest) :
    splitNumber (text ++ rest) = ((splitNumber text).1, (splitNumber text).2 ++ rest) := by
  have plain : ∀ c, Char.isDigit c = true → IsPlain c :=
    fun c digit => isPlain_of_word (isWordCharacter_of_isDigit digit)
  unfold splitNumber
  simp only [breaks.takeWhile_append plain text]
  generalize text.takeWhile Char.isDigit = taken
  generalize text.dropWhile Char.isDigit = after
  cases taken with
  | nil => rfl
  | cons first more =>
    cases after with
    | nil =>
      dsimp only
      split
      · rename_i _ _ fraction _ same
        exact absurd same (breaks.ne_head (by decide) fraction)
      · rfl
    | cons next fraction =>
      by_cases point : next = '.'
      · subst point
        simp only [List.cons_append, breaks.takeWhile_append plain fraction]
        split <;> rfl
      · simp [point]

/-- The digits of a number and whether a word ends behind them. -/
def readDigits? (change : List Char → Value) (text : List Char) : Option (Value × List Char) :=
  let (digits, rest) := splitNumber text
  if digits.isEmpty || !atWordEnd rest then none else some (change digits, rest)

theorem Breaks.atWordEnd (breaks : Breaks rest) : atWordEnd rest = true := by
  cases rest with
  | nil => rfl
  | cons first more =>
    have outside := breaks.outside (fun c word => isPlain_of_word word) first rfl
    simp [MissionText.atWordEnd, outside]

theorem atWordEnd_append (text : List Char) (breaks : Breaks rest) :
    atWordEnd (text ++ rest) = atWordEnd text := by
  cases text with
  | nil => exact breaks.atWordEnd
  | cons first more => rfl

theorem isWordReader_readDigits? (change : List Char → Value) :
    IsWordReader (readDigits? change) where
  takes := by
    intro text value rest done
    have taken := splitNumber_takes text
    simp only [readDigits?, Option.ite_none_left_eq_some, Option.some.injEq, Prod.mk.injEq,
      Bool.or_eq_true, List.isEmpty_iff, not_or] at done
    rcases done with ⟨⟨some, -⟩, -, rfl⟩
    exact ⟨(splitNumber text).1, taken.1.symm, some, taken.2⟩
  stops := by
    intro text rest breaks
    simp only [readDigits?, splitNumber_stops text breaks, atWordEnd_append _ breaks]
    split <;> rfl

theorem readNumber?_eq : readNumber? = fun text =>
    (readBehind? '-' (readDigits? fun digits => .ofLiteral (.ofList ('-' :: digits))) text).or
      (readDigits? (fun digits => .ofLiteral (.ofList digits)) text) := by
  funext text
  cases text with
  | nil => rfl
  | cons first more =>
    by_cases minus : first = '-'
    · subst minus
      have noDigits :
          readDigits? (fun digits => .ofLiteral (.ofList digits)) ('-' :: more) = none :=
        rfl
      rw [noDigits, Option.or_none]
      rfl
    · simp [readNumber?, readBehind?, readDigits?, minus]

theorem isWordReader_readNumber? : IsWordReader readNumber? := by
  rw [readNumber?_eq]
  exact ((isWordReader_readDigits? _).behind (by decide)).or (isWordReader_readDigits? _)

theorem skipText?_eq_some_iff {expected : String} :
    skipText? expected text = some rest ↔ text = expected.toList ++ rest :=
  ⟨eq_append_of_skipText?, fun same => same ▸ skipText?_append expected rest⟩

theorem skipText?_stops {expected : String} (plain : ∀ c ∈ expected.toList, IsPlain c)
    (text : List Char) (breaks : Breaks rest) :
    skipText? expected (text ++ rest) = (skipText? expected text).map (· ++ rest) := by
  cases skipped : skipText? expected text with
  | some ending =>
    rw [skipText?_eq_some_iff] at skipped
    rw [Option.map_some, skipText?_eq_some_iff, skipped, List.append_assoc]
  | none =>
    rw [Option.map_none, Option.eq_none_iff_forall_ne_some]
    intro ending longer
    rw [skipText?_eq_some_iff, List.append_eq_append_iff] at longer
    rcases longer with ⟨missing, spelled, others⟩ | ⟨ending, same, -⟩
    · cases missing with
      | nil =>
        rw [List.append_nil] at spelled
        rw [← spelled, ← List.append_nil expected.toList, skipText?_append] at skipped
        cases skipped
      | cons first more =>
        have listed : first ∈ expected.toList := by simp [spelled]
        exact breaks.ne_head (plain first listed) _ others
    · rw [same, skipText?_append] at skipped
      cases skipped

/-- A word that is given, as long as no longer word stands there. -/
def readWord? (expected : String) (value : α) (text : List Char) : Option (α × List Char) :=
  (skipText? expected text).bind fun rest => if atWordEnd rest then some (value, rest) else none

theorem isWordReader_readWord? {expected : String} (isWord : IsPlainWord expected) (value : α) :
    IsWordReader (readWord? expected value) where
  takes := by
    intro text value rest done
    rcases Option.bind_eq_some_iff.1 done with ⟨ending, skipped, ends⟩
    simp only [Option.ite_none_right_eq_some, Option.some.injEq, Prod.mk.injEq] at ends
    rcases ends with ⟨-, -, rfl⟩
    exact ⟨expected.toList, eq_append_of_skipText? skipped, isWord.1, isWord.plain⟩
  stops := by
    intro text rest breaks
    simp only [readWord?, skipText?_stops isWord.plain text breaks]
    cases skipText? expected text with
    | none => rfl
    | some ending =>
      simp only [Option.map_some, Option.bind_some, atWordEnd_append ending breaks]
      split <;> rfl

theorem readBool?_eq : readBool? = fun text =>
    (readWord? "true" (Value.bool true) text).or (readWord? "false" (Value.bool false) text) := by
  funext text
  unfold readBool? readWord?
  cases yes : skipText? "true" text with
  | none => cases skipText? "false" text <;> rfl
  | some rest =>
    have other : skipText? "false" text = none := by
      rw [eq_append_of_skipText? yes]
      rfl
    rw [other, Option.bind_some, Option.bind_none, Option.or_none]

/-- A literal without quotes. -/
def readBareLiteral? (text : List Char) : Option (Value × List Char) :=
  (readNumber? text).or (readBool? text)

theorem isWordReader_readBareLiteral? : IsWordReader readBareLiteral? := by
  refine isWordReader_readNumber?.or ?_
  rw [readBool?_eq]
  exact (isWordReader_readWord? (by decide) _).or (isWordReader_readWord? (by decide) _)

/-- What a port can be connected with other than a text in quotes. -/
def readBareOperand? (text : List Char) : Option (Operand × List Char) :=
  ((readBareLiteral? text).map fun (value, rest) => (.constant value, rest)).or
    ((readBehind? '$' (fun name => (identifierOfText? name).map fun (name, rest) =>
        (.parameter (String.ofList name), rest)) text).or
      ((pathOfText? text).map fun (path, rest) => (.path (String.ofList path), rest)))

theorem isWordReader_readBareOperand? : IsWordReader readBareOperand? := by
  have constant := isWordReader_readBareLiteral?.map Operand.constant
  have parameter := isWordReader_identifierOfText?.map fun name =>
    Operand.parameter (String.ofList name)
  have path := isWordReader_pathOfText?.map fun path => Operand.path (String.ofList path)
  exact constant.or ((parameter.behind (by decide : IsPlain '$')).or path)

theorem readLiteral?_eq (text : List Char) :
    readLiteral? text = ((readQuoted? text).map fun (content, rest) => (.string content, rest)).or
      (readBareLiteral? text) := by
  unfold readLiteral? readBareLiteral?
  cases readQuoted? text <;> rfl

theorem readOperand?_eq (text : List Char) :
    readOperand? text =
      ((readQuoted? text).map fun (content, rest) => (.constant (.string content), rest)).or
        (readBareOperand? text) := by
  unfold readOperand? readBareOperand?
  rw [readLiteral?_eq]
  cases readQuoted? text with
  | some read => rfl
  | none =>
    simp only [Option.map_none, Option.none_or]
    cases readBareLiteral? text with
    | some read => rfl
    | none =>
      cases text with
      | nil => rfl
      | cons first more =>
        by_cases dollar : first = '$'
        · subst dollar
          have noPath : pathOfText? ('$' :: more) = none := rfl
          simp [readBehind?, noPath]
        · simp [readBehind?, dollar]

theorem readQuoted?_eq_some_iff {content : String} :
    readQuoted? text = some (content, rest) ↔ ∃ inner, text = '"' :: (inner ++ '"' :: rest) ∧
      '"' ∉ inner ∧ content = String.ofList (expandLineEnds (collapseBackslashes inner)) := by
  constructor
  · intro read
    unfold readQuoted? at read
    split at read
    · rename_i more
      have split := List.takeWhile_append_dropWhile (p := fun c => decide (c ≠ '"')) (l := more)
      cases ended : more.dropWhile (fun c => decide (c ≠ '"')) with
      | nil =>
        rw [ended] at read
        cases read
      | cons last ending =>
        have quote := List.head?_dropWhile_not (fun c => decide (c ≠ '"')) more
        rw [ended] at read quote split
        cases read
        refine ⟨more.takeWhile fun c => decide (c ≠ '"'), ?_, fun taken => ?_, rfl⟩
        · simp only [List.head?_cons, decide_not, Bool.not_eq_false', decide_eq_true_eq] at quote
          exact congrArg ('"' :: ·) (quote ▸ split.symm)
        · simpa using List.mem_takeWhile_imp taken
    · cases read
  · rintro ⟨inner, rfl, unquoted, rfl⟩
    have inside : ∀ c ∈ inner, decide (c ≠ '"') = true :=
      fun c listed => decide_eq_true fun same => unquoted (same ▸ listed)
    simp only [readQuoted?]
    rw [List.takeWhile_append_of_pos inside, List.dropWhile_append_of_pos inside]
    simp

theorem readLiteral?_eq_some_iff {value : Value} :
    readLiteral? text = some (value, rest) ↔
      (∃ content, readQuoted? text = some (content, rest) ∧ .string content = value) ∨
        readBareLiteral? text = some (value, rest) := by
  rw [readLiteral?_eq]
  constructor
  · intro read
    rcases Option.or_eq_some_iff.1 read with quoted | ⟨-, bare⟩
    · rcases Option.map_eq_some_iff.1 quoted with ⟨⟨content, ending⟩, quoted, same⟩
      cases same
      exact .inl ⟨content, quoted, rfl⟩
    · exact .inr bare
  · rintro (⟨content, quoted, rfl⟩ | bare)
    · rw [quoted]
      rfl
    · rw [readQuoted?_eq_none (isWordReader_readBareLiteral?.ne_quote bare), bare]
      rfl

theorem readOperand?_eq_some_iff {operand : Operand} :
    readOperand? text = some (operand, rest) ↔
      (∃ content, readQuoted? text = some (content, rest) ∧
        .constant (.string content) = operand) ∨
        readBareOperand? text = some (operand, rest) := by
  rw [readOperand?_eq]
  constructor
  · intro read
    rcases Option.or_eq_some_iff.1 read with quoted | ⟨-, bare⟩
    · rcases Option.map_eq_some_iff.1 quoted with ⟨⟨content, ending⟩, quoted, same⟩
      cases same
      exact .inl ⟨content, quoted, rfl⟩
    · exact .inr bare
  · rintro (⟨content, quoted, rfl⟩ | bare)
    · rw [quoted]
      rfl
    · rw [readQuoted?_eq_none (isWordReader_readBareOperand?.ne_quote bare), bare]
      rfl

theorem readDirection?_eq_some_iff {direction : PortDirection} :
    readDirection? text = some (direction, rest) ↔
      (∃ _ : Unit, skipToken? "<-" text = some rest ∧ .input = direction) ∨
        ∃ _ : Unit, skipToken? "->" text = some rest ∧ .output = direction := by
  unfold readDirection?
  constructor
  · intro read
    split at read
    · rename_i skipped
      cases read
      exact .inl ⟨(), skipped, rfl⟩
    · rename_i skipped
      cases read
      exact .inr ⟨(), skipped, rfl⟩
    · cases read
  · rintro (⟨-, skipped, rfl⟩ | ⟨-, skipped, rfl⟩)
    · rw [skipped]
    · have other : skipToken? "<-" text = none := by
        rcases Option.map_eq_some_iff.1 skipped with ⟨ending, arrow, -⟩
        unfold skipToken?
        rw [eq_append_of_skipText? arrow]
        rfl
      rw [other, skipped]

/-- A port is an output only if it is connected with a variable. -/
def Connects (direction : PortDirection) (operand : Operand) : Prop :=
  direction = .output → ∃ place, operand = .path place

theorem readPort_eq_success_iff {port : PortSource} :
    readPort text = .success port rest ↔
      ∃ name behindName, readName? text = some (name, behindName) ∧
        ∃ direction behindArrow, readDirection? behindName = some (direction, behindArrow) ∧
          ∃ operand, (∃ ending, readOperand? behindArrow = some (operand, ending) ∧
            skipLineBlanks ending = rest) ∧
            Connects direction operand ∧ ⟨direction, name, operand⟩ = port := by
  simp only [readPort, Reply.bind_eq_success_iff, Reply.ofOption_eq_success_iff]
  refine exists_congr fun name => exists_congr fun behindName => and_congr_right fun _ =>
    exists_congr fun direction => exists_congr fun behindArrow => and_congr_right fun _ =>
    exists_congr fun operand => ?_
  constructor
  · rintro ⟨ending, read, made⟩
    cases direction with
    | input =>
      cases made
      refine ⟨⟨ending, read, rfl⟩, fun output => ?_, rfl⟩
      cases output
    | output =>
      cases operand with
      | path place =>
        cases made
        exact ⟨⟨ending, read, rfl⟩, fun _ => ⟨place, rfl⟩, rfl⟩
      | constant value => cases made
      | parameter name => cases made
  · rintro ⟨⟨ending, read, rfl⟩, connects, rfl⟩
    refine ⟨ending, read, ?_⟩
    cases direction with
    | input => rfl
    | output =>
      rcases connects rfl with ⟨place, rfl⟩
      rfl

theorem readParameter?_eq_some_iff {parameter : ParameterSource} :
    readParameter? text = some (parameter, rest) ↔
      ∃ name behindName, readName? (skipBlanks text) = some (name, behindName) ∧
        ∃ kind behindKind, readParameterKind? behindName = some (kind, behindKind) ∧
          ((∃ value ending, readDefault? behindKind = some (value, ending) ∧
              ⟨name, kind, some value⟩ = parameter ∧ skipBlanks ending = rest) ∨
            readDefault? behindKind = none ∧ ⟨name, kind, none⟩ = parameter ∧
              skipBlanks behindKind = rest) := by
  simp only [readParameter?, Option.bind_eq_bind, Option.bind_eq_some_iff, Prod.exists]
  refine exists_congr fun name => exists_congr fun behindName => and_congr_right fun _ =>
    exists_congr fun kind => exists_congr fun behindKind => and_congr_right fun _ => ?_
  rcases readDefault? behindKind with _ | ⟨value, ending⟩ <;> simp [and_assoc]

end MissionText

end BehaviorTree
