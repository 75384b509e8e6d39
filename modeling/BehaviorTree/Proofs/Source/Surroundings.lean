import BehaviorTree.Proofs.Source.Spans

/-!
# Where a character stands

The characters in front of a place in a mission text tell what a character there belongs to: the
code, a text in quotes or a comment, in a list or not, and how deep among the children of nodes.
From this follows where a comment can stand. A comment is read behind a node, between children and
between definitions, but not in a list and not between the `=` of a definition and its node. A
comment outside of the definitions that has its line for itself is read up to the line feed behind
it; if it ends with a carriage return instead, it is the last one and nothing but blanks may follow.
-/

namespace BehaviorTree

open MissionText

/-- What a character of a text is part of. -/
inductive Region where
  | code
  | quote
  | comment
deriving DecidableEq

/-- What the characters in front of a place tell about it. -/
structure Surroundings where
  region : Region
  /-- Between the parentheses of a list of ports or parameters. -/
  inList : Bool
  /-- Behind the `=` of a definition and in front of its node. -/
  afterEquals : Bool
  /-- How many blocks of children are open. -/
  depth : Nat
  /-- There is no code on the line so far. -/
  blankLine : Bool
  /-- A comment on a line of its own outside of the definitions ended without a line feed. -/
  shut : Bool
deriving DecidableEq

namespace Surroundings

/-- Where a text starts. -/
def start : Surroundings := ⟨.code, false, false, 0, true, false⟩

/-- Among the definitions, on a line without code. -/
def apart (place : Surroundings) : Bool := place.depth == 0 && place.blankLine

/-- In the code and in front of the last comment. -/
structure InCode (place : Surroundings) : Prop where
  code : place.region = .code
  opened : place.shut = false

/-- Behind code on a line. -/
def onLine (place : Surroundings) : Surroundings :=
  { place with afterEquals := false, blankLine := false }

/-- In a text in quotes on a line. -/
def quoted (place : Surroundings) : Surroundings :=
  { place.onLine with region := .quote }

/-- Behind one more character. -/
def step (place : Surroundings) (character : Char) : Surroundings :=
  match place.region with
  | .quote => if character = '"' then { place with region := .code } else place
  | .comment =>
    if isLineEnd character then
      { place with
        region := .code
        blankLine := true
        shut := place.shut || place.apart && character == '\r' }
    else place
  | .code =>
    if isLineBlank character then place
    else if isLineEnd character then { place with blankLine := true }
    else if character = '#' then { place with region := .comment }
    else
      { place with
        region := if character = '"' then .quote else .code
        inList := if character = '(' then true else if character = ')' then false else place.inList
        afterEquals := character = '=' && !place.inList
        depth :=
          if character = '\x7b' then place.depth + 1
          else if character = '\x7d' then place.depth - 1
          else place.depth
        blankLine := false }

/-- Behind a text. -/
def along (place : Surroundings) (text : List Char) : Surroundings :=
  text.foldl step place

/-- Whether a character may stand at a place: no comment starts in a list or behind the `=` of a
definition, and nothing but blanks follows the last comment. -/
def Allows (place : Surroundings) (character : Char) : Prop :=
  (place.shut = true → isBlank character = true) ∧
    (place.region = .code → character = '#' → place.inList = false ∧ place.afterEquals = false)

end Surroundings

/-- Every character of a text may stand where it does. -/
def Fits : Surroundings → List Char → Prop
  | _, [] => True
  | place, character :: text => place.Allows character ∧ Fits (place.step character) text

/-- A comment on the rest of a line, with the blanks in front of it. -/
def IsRemark (text : List Char) : Prop :=
  ∃ blanks note, text = blanks ++ '#' :: note ∧ (∀ c ∈ blanks, isLineBlank c = true) ∧
    ∀ c ∈ note, isLineEnd c = false

namespace Surroundings

/-- Whether a comment may be put before the end of a line which the rest of a text follows. -/
def AdmitsRemark (place : Surroundings) (lineEnd : Char) (rest : List Char) : Prop :=
  place.region = .comment ∨
    place.region = .code ∧ place.inList = false ∧ place.afterEquals = false ∧
      (place.apart = true →
        place.shut = false ∧ (lineEnd = '\n' ∨ ∀ c ∈ rest, isBlank c = true))

/-- Whether a carriage return may be put before a line feed which the rest of a text follows. -/
def AdmitsReturn (place : Surroundings) (rest : List Char) : Prop :=
  place.region ≠ .quote ∧
    (place.region = .comment → place.apart = true → ∀ c ∈ rest, isBlank c = true)

instance (place : Surroundings) (lineEnd : Char) (rest : List Char) :
    Decidable (place.AdmitsRemark lineEnd rest) :=
  inferInstanceAs (Decidable (_ ∨ _))

instance (place : Surroundings) (rest : List Char) : Decidable (place.AdmitsReturn rest) :=
  inferInstanceAs (Decidable (_ ∧ _))

end Surroundings

/-- A text with comments before ends of lines and carriage returns before line feeds, which are put
only where they are admitted. -/
inductive Revises : Surroundings → List Char → List Char → Prop where
  | nil (place : Surroundings) : Revises place [] []
  | keep {place : Surroundings} (character : Char) {text revised : List Char}
    (more : Revises (place.step character) text revised) :
    Revises place (character :: text) (character :: revised)
  | remark {place : Surroundings} {lineEnd : Char} {remark text revised : List Char}
    (isRemark : IsRemark remark) (ends : isLineEnd lineEnd = true)
    (admitted : place.AdmitsRemark lineEnd revised)
    (more : Revises (place.step lineEnd) text revised) :
    Revises place (lineEnd :: text) (remark ++ lineEnd :: revised)
  | return {place : Surroundings} {text revised : List Char}
    (admitted : place.AdmitsReturn revised) (more : Revises (place.step '\n') text revised) :
    Revises place ('\n' :: text) ('\r' :: '\n' :: revised)

variable {place next : Surroundings} {character : Char} {text revised rest word : List Char}

namespace Surroundings

theorem along_cons : place.along (character :: text) = (place.step character).along text := rfl

theorem along_append (place : Surroundings) (text rest : List Char) :
    place.along (text ++ rest) = (place.along text).along rest :=
  List.foldl_append

theorem step_lineBlank (code : place.region = .code) (blank : isLineBlank character = true) :
    place.step character = place := by
  simp only [step, code, blank, if_true]

theorem step_lineEnd (code : place.region = .code) (ends : isLineEnd character = true) :
    place.step character = { place with blankLine := true } := by
  simp [step, code, isLineBlank_of_lineEnd ends, ends]

theorem step_hash (code : place.region = .code) :
    place.step '#' = { place with region := .comment } := by
  unfold step
  rw [code]
  rfl

/-- What a character other than blanks and the start of a comment leads to. -/
theorem step_solid (code : place.region = .code) (solid : isBlank character = false)
    (other : character ≠ '#') :
    place.step character =
      { place.onLine with
        region := if character = '"' then .quote else .code
        inList := if character = '(' then true else if character = ')' then false else place.inList
        afterEquals := character = '=' && !place.inList
        depth :=
          if character = '\x7b' then place.depth + 1
          else if character = '\x7d' then place.depth - 1
          else place.depth } := by
  simp only [isBlank, Bool.or_eq_false_iff] at solid
  simp [step, onLine, code, solid, other]

theorem step_plain (code : place.region = .code) (plain : IsPlain character) :
    place.step character = place.onLine := by
  rcases plain with ⟨solid, others⟩
  simp only [List.mem_cons, List.not_mem_nil, or_false, not_or] at others
  rw [step_solid code solid others.2.1]
  simp [onLine, code, others]

/-- A carriage return behind a comment on a line of its own ends the last comment. -/
theorem shut_step (comment : place.region = .comment) (apart : place.apart = true) :
    (place.step '\r').shut = true := by
  simp [step, comment, isLineEnd, apart]

theorem step_openQuote (code : place.region = .code) : place.step '"' = place.quoted := by
  rw [step_solid code (by decide) (by decide)]
  rfl

theorem step_closeQuote (code : place.region = .code) : place.quoted.step '"' = place.onLine := by
  rcases place with ⟨region, inList, afterEquals, depth, blankLine, shut⟩
  cases code
  rfl

theorem InCode.onLine (inCode : place.InCode) : place.onLine.InCode :=
  ⟨inCode.code, inCode.opened⟩

theorem along_plain (code : place.region = .code) (some : word ≠ [])
    (plain : ∀ c ∈ word, IsPlain c) : place.along word = place.onLine := by
  induction word generalizing place with
  | nil => exact absurd rfl some
  | cons first more ih =>
    rw [List.forall_mem_cons] at plain
    rw [along_cons, step_plain code plain.1]
    cases more with
    | nil => rfl
    | cons second others =>
      rw [ih (by exact code) (List.cons_ne_nil _ _) plain.2]
      rfl

theorem along_lineBlanks (code : place.region = .code)
    (blanks : ∀ c ∈ word, isLineBlank c = true) : place.along word = place := by
  induction word with
  | nil => rfl
  | cons first more ih =>
    rw [List.forall_mem_cons] at blanks
    rw [along_cons, step_lineBlank code blanks.1, ih blanks.2]

/-- Blanks end lines and change nothing else. -/
theorem exists_along_blanks (code : place.region = .code)
    (blanks : ∀ c ∈ word, isBlank c = true) :
    ∃ blankLine, place.along word = { place with blankLine } := by
  induction word generalizing place with
  | nil => exact ⟨place.blankLine, rfl⟩
  | cons first more ih =>
    rw [List.forall_mem_cons] at blanks
    rw [along_cons]
    rcases Bool.or_eq_true_iff.1 blanks.1 with blank | ends
    · rw [step_lineBlank code blank]
      exact ih code blanks.2
    · rw [step_lineEnd code ends]
      exact @ih { place with blankLine := true } code blanks.2

theorem step_quote (quote : place.region = .quote) (other : character ≠ '"') :
    place.step character = place := by
  simp only [step, quote]
  rw [if_neg other]

/-- A text in quotes goes on up to the next quote. -/
theorem along_quote (quote : place.region = .quote) (unquoted : '"' ∉ word) :
    place.along word = place := by
  induction word with
  | nil => rfl
  | cons first more ih =>
    rw [List.mem_cons, not_or] at unquoted
    rw [along_cons, step_quote quote (Ne.symm unquoted.1), ih unquoted.2]

/-- A comment goes on up to the end of its line. -/
theorem along_comment (comment : place.region = .comment)
    (within : ∀ c ∈ word, isLineEnd c = false) : place.along word = place := by
  induction word with
  | nil => rfl
  | cons first more ih =>
    rw [List.forall_mem_cons] at within
    have stays : place.step first = place := by
      simp [step, comment, within.1]
    rw [along_cons, stays, ih within.2]

end Surroundings

theorem fits_append (place : Surroundings) (text rest : List Char) :
    Fits place (text ++ rest) ↔ Fits place text ∧ Fits (place.along text) rest := by
  induction text generalizing place with
  | nil => exact (and_iff_right trivial).symm
  | cons first more ih =>
    rw [List.cons_append, Fits, Fits, ih, and_assoc]
    rfl

/-- Anything but the start of a comment may stand before the last comment. -/
theorem Surroundings.allows_of_ne (opened : place.shut = false) (other : character ≠ '#') :
    place.Allows character := by
  constructor
  · intro shut
    rw [opened] at shut
    cases shut
  · intro _ same
    exact absurd same other

theorem ne_hash_of_isBlank (blank : isBlank character = true) : character ≠ '#' := by
  rintro rfl
  cases blank

theorem ne_hash_of_lineEnd (ends : isLineEnd character = true) : character ≠ '#' := by
  rintro rfl
  cases ends

theorem MissionText.IsPlain.ne_hash (plain : IsPlain character) : character ≠ '#' := by
  rintro rfl
  exact plain.2 (by simp)

theorem fits_plain (inCode : place.InCode) (plain : ∀ c ∈ word, IsPlain c) :
    Fits place word := by
  induction word generalizing place with
  | nil => trivial
  | cons first more ih =>
    rw [List.forall_mem_cons] at plain
    refine ⟨Surroundings.allows_of_ne inCode.opened plain.1.ne_hash, ?_⟩
    rw [Surroundings.step_plain inCode.code plain.1]
    exact ih inCode.onLine plain.2

theorem fits_blanks (code : place.region = .code) (blanks : ∀ c ∈ text, isBlank c = true) :
    Fits place text := by
  induction text generalizing place with
  | nil => trivial
  | cons first more ih =>
    rw [List.forall_mem_cons] at blanks
    refine ⟨⟨fun _ => blanks.1, fun _ same => absurd same (ne_hash_of_isBlank blanks.1)⟩, ?_⟩
    apply ih _ blanks.2
    rcases Bool.or_eq_true_iff.1 blanks.1 with blank | ends
    · rw [Surroundings.step_lineBlank code blank, code]
    · rw [Surroundings.step_lineEnd code ends, code]

theorem fits_of_skipLineBlanks (code : place.region = .code)
    (fits : Fits place (skipLineBlanks text)) : Fits place text := by
  have blanks : ∀ c ∈ text.takeWhile isLineBlank, isLineBlank c = true :=
    fun c => List.mem_takeWhile_imp
  rw [← List.takeWhile_append_dropWhile (p := isLineBlank) (l := text), fits_append,
    Surroundings.along_lineBlanks code blanks]
  constructor
  · exact fits_blanks code fun c listed => by simp [isBlank, blanks c listed]
  · exact fits

theorem fits_of_skipBlanks (code : place.region = .code)
    (fits : Fits (place.along (text.takeWhile isBlank)) (skipBlanks text)) : Fits place text := by
  rw [← List.takeWhile_append_dropWhile (p := isBlank) (l := text), fits_append]
  constructor
  · exact fits_blanks code fun c => List.mem_takeWhile_imp
  · exact fits

/-- Behind the last comment there are only blanks. -/
theorem blank_of_fits (fits : Fits place text) (code : place.region = .code)
    (shut : place.shut = true) : ∀ c ∈ text, isBlank c = true := by
  induction text generalizing place with
  | nil => nofun
  | cons first more ih =>
    have blank := fits.1.1 shut
    refine List.forall_mem_cons.2 ⟨blank, ?_⟩
    rcases Bool.or_eq_true_iff.1 blank with lineBlank | ends
    · apply ih fits.2
      · rw [Surroundings.step_lineBlank code lineBlank, code]
      · rw [Surroundings.step_lineBlank code lineBlank, shut]
    · apply ih fits.2
      · rw [Surroundings.step_lineEnd code ends, code]
      · rw [Surroundings.step_lineEnd code ends, shut]

/-- Outside of comments' starts, what belongs to one region may stand before the last comment. -/
theorem fits_of_stays (opened : place.shut = false) (other : place.region ≠ .code)
    (stays : ∀ c ∈ word, place.step c = place) : Fits place word := by
  induction word with
  | nil => trivial
  | cons first more ih =>
    rw [List.forall_mem_cons] at stays
    refine ⟨⟨fun shut => ?_, fun code => absurd code other⟩, ?_⟩
    · rw [opened] at shut
      cases shut
    · rw [stays.1]
      exact ih stays.2

namespace Revises

protected theorem refl (place : Surroundings) (text : List Char) : Revises place text text := by
  induction text generalizing place with
  | nil => exact .nil place
  | cons first more ih => exact .keep first (ih _)

/-- What stands in front of a revised text may stand in front of both. -/
theorem append (revises : Revises (place.along word) text revised) :
    Revises place (word ++ text) (word ++ revised) := by
  induction word generalizing place with
  | nil => exact revises
  | cons first more ih => exact .keep first (ih revises)

theorem exists_cons (revises : Revises place (character :: rest) revised)
    (within : isLineEnd character = false) :
    ∃ ending, revised = character :: ending ∧ Revises (place.step character) rest ending := by
  cases revises with
  | keep _ others => exact ⟨_, rfl, others⟩
  | remark _ ends =>
    rw [within] at ends
    cases ends
  | «return» => cases within

/-- A line is kept up to its end. -/
theorem exists_append (revises : Revises place (word ++ rest) revised)
    (within : ∀ c ∈ word, isLineEnd c = false) :
    ∃ ending, revised = word ++ ending ∧ Revises (place.along word) rest ending := by
  induction word generalizing place revised with
  | nil => exact ⟨revised, rfl, revises⟩
  | cons first more ih =>
    rw [List.forall_mem_cons] at within
    rcases revises.exists_cons within.1 with ⟨others, rfl, line⟩
    rcases ih line within.2 with ⟨ending, rfl, behind⟩
    exact ⟨ending, rfl, behind⟩

/-- Texts in quotes are kept. -/
theorem exists_append_of_quote (revises : Revises place (word ++ rest) revised)
    (quote : place.region = .quote) (unquoted : '"' ∉ word) :
    ∃ ending, revised = word ++ ending ∧ Revises place rest ending := by
  induction word generalizing revised with
  | nil => exact ⟨revised, rfl, revises⟩
  | cons first more ih =>
    rw [List.mem_cons, not_or] at unquoted
    have stays := Surroundings.step_quote quote (Ne.symm unquoted.1)
    rw [List.cons_append] at revises
    cases revises with
    | keep _ others =>
      rw [stays] at others
      rcases ih others unquoted.2 with ⟨ending, rfl, revises⟩
      exact ⟨ending, rfl, revises⟩
    | remark _ _ admitted =>
      rcases admitted with comment | ⟨code, -⟩
      · rw [quote] at comment
        cases comment
      · rw [quote] at code
        cases code
    | «return» admitted => exact absurd quote admitted.1

theorem of_nil (revises : Revises place [] revised) : revised = [] := by
  cases revises
  rfl

/-- A solid character that is no start of a comment is only put at the front if it was there. -/
theorem head (revises : Revises place text revised) :
    ∀ c ∈ revised.head?, c ∈ text.head? ∨ isBlank c = true ∨ c = '#' := by
  cases revises with
  | nil => nofun
  | keep first => exact fun c same => .inl same
  | remark isRemark =>
    rcases isRemark with ⟨blanks, note, rfl, blank, -⟩
    intro c first
    cases blanks with
    | nil =>
      cases first
      exact .inr (.inr rfl)
    | cons start others =>
      cases first
      have blank := blank c List.mem_cons_self
      exact .inr (.inl (by simp [isBlank, blank]))
  | «return» =>
    rintro c ⟨⟩
    exact .inr (.inl rfl)

/-- The lines are kept up to a break. -/
theorem exists_breaks (revises : Revises place text revised) :
    ∃ line rest ending, text = line ++ rest ∧ revised = line ++ ending ∧
      Breaks rest ∧ Breaks ending := by
  have split := List.takeWhile_append_dropWhile (p := fun c => !isLineEnd c) (l := text)
  have within : ∀ c ∈ text.takeWhile fun c => !isLineEnd c, isLineEnd c = false :=
    fun c taken => by simpa using List.mem_takeWhile_imp taken
  have breaks : Breaks (text.dropWhile fun c => !isLineEnd c) := by
    intro c first
    have ends := head_dropWhile text c first
    rw [Bool.not_eq_false'] at ends
    exact .inl (by simp [isBlank, ends])
  rw [← split] at revises
  rcases revises.exists_append within with ⟨ending, rfl, others⟩
  refine ⟨_, _, ending, split.symm, rfl, breaks, fun c first => ?_⟩
  rcases others.head c first with same | breaking
  · exact breaks c same
  · exact breaking

theorem skipLineBlanks (revises : Revises place text revised) (code : place.region = .code) :
    Revises place (MissionText.skipLineBlanks text) (MissionText.skipLineBlanks revised) := by
  induction text generalizing revised with
  | nil =>
    rw [revises.of_nil]
    exact .nil place
  | cons first more ih =>
    cases blank : isLineBlank first with
    | true =>
      cases revises with
      | keep _ others =>
        rw [Surroundings.step_lineBlank code blank] at others
        rw [skipLineBlanks_cons_of_blank blank, skipLineBlanks_cons_of_blank blank]
        exact ih others
      | remark _ ends =>
        rw [isLineBlank_of_lineEnd ends] at blank
        cases blank
      | «return» => cases blank
    | false =>
      rw [skipLineBlanks_cons_of_solid blank]
      cases revises with
      | keep _ others =>
        rw [skipLineBlanks_cons_of_solid blank]
        exact .keep first others
      | remark isRemark ends admitted others =>
        rcases isRemark with ⟨blanks, note, rfl, blank, within⟩
        simp only [MissionText.skipLineBlanks, List.append_assoc, List.cons_append]
        rw [List.dropWhile_append_of_pos blank]
        exact .remark ⟨[], note, rfl, List.forall_mem_nil _, within⟩ ends admitted others
      | «return» admitted others => exact .return admitted others

/-- In a list and behind the `=` of a definition, blanks stay blanks. -/
theorem skipBlanks (revises : Revises place text revised) (code : place.region = .code)
    (settled : place.inList = true ∨ place.afterEquals = true) :
    Revises (place.along (text.takeWhile isBlank)) (MissionText.skipBlanks text)
      (MissionText.skipBlanks revised) := by
  induction text generalizing place revised with
  | nil =>
    rw [revises.of_nil]
    exact .nil place
  | cons first more ih =>
    cases blank : isBlank first with
    | true =>
      have stays : (place.step first).region = .code ∧
          ((place.step first).inList = true ∨ (place.step first).afterEquals = true) := by
        rcases Bool.or_eq_true_iff.1 blank with lineBlank | ends
        · rw [Surroundings.step_lineBlank code lineBlank]
          exact ⟨code, settled⟩
        · rw [Surroundings.step_lineEnd code ends]
          exact ⟨code, settled⟩
      rw [skipBlanks_cons_of_blank blank, List.takeWhile_cons_of_pos blank, Surroundings.along_cons]
      cases revises with
      | keep _ others =>
        rw [skipBlanks_cons_of_blank blank]
        exact ih others stays.1 stays.2
      | remark _ _ admitted =>
        rcases admitted with comment | ⟨-, noList, noEquals, -⟩
        · rw [code] at comment
          cases comment
        · rw [noList, noEquals] at settled
          simp at settled
      | «return» _ others =>
        rw [skipBlanks_cons_lineEnd rfl, skipBlanks_cons_lineEnd rfl]
        exact ih others stays.1 stays.2
    | false =>
      rw [skipBlanks_cons_of_solid blank, List.takeWhile_cons_of_neg (by simp [blank])]
      cases revises with
      | keep _ others =>
        rw [skipBlanks_cons_of_solid blank]
        exact .keep first others
      | remark _ ends => simp [isBlank, ends] at blank
      | «return» => cases blank

theorem continuesWithout (revises : Revises place text revised) (code : place.region = .code)
    (solid : isBlank character = false) (other : character ≠ '#')
    (without : ContinuesWithout character text) : ContinuesWithout character revised := by
  rintro c first rfl
  rcases (revises.skipLineBlanks code).head c first with same | blank | hash
  · exact without c same rfl
  · rw [solid] at blank
    cases blank
  · exact other hash

end Revises

end BehaviorTree
