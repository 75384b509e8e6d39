import BehaviorTree.Proofs.Source.Surroundings

/-!
# Following readers through revised texts

A part of a text leads from some surroundings to others. It is tracked if the whole text fits when
the rest behind the part does, and if the part is read from every revised text alike, with a
revision of the rest behind it.
-/

namespace BehaviorTree

open MissionText

/-- What a part with a value leads from and to. -/
structure Tracks {α : Type} (part : List Char → α → List Char → Prop)
    (place next : Surroundings) : Prop where
  fits : ∀ {text value rest}, part text value rest → Fits next rest → Fits place text
  revises : ∀ {text value rest revised}, part text value rest → Revises place text revised →
    ∃ ending, part revised value ending ∧ Revises next rest ending

/-- What a reader takes from a text. -/
def Reads {α : Type} (read : List Char → Option (α × List Char)) (text : List Char) (value : α)
    (rest : List Char) : Prop :=
  read text = some (value, rest)

/-- What a reader that may end the reading takes from a text. -/
def Replies {α : Type} (read : List Char → Reply α) (text : List Char) (value : α)
    (rest : List Char) : Prop :=
  read text = .success value rest

/-- What is skipped at the front of a text. -/
def Skips (skip : List Char → Option (List Char)) (text : List Char) (_ : Unit)
    (rest : List Char) : Prop :=
  skip text = some rest

variable {α β : Type} {place middle next : Surroundings} {text revised rest : List Char}

namespace Tracks

variable {part same : List Char → α → List Char → Prop}
  {other : α → List Char → β → List Char → Prop}

theorem congr (tracks : Tracks part place next)
    (equal : ∀ text value rest, same text value rest ↔ part text value rest) :
    Tracks same place next := by
  have parts : same = part := by
    funext text value rest
    exact propext (equal text value rest)
  rw [parts]
  exact tracks

theorem bind (first : Tracks part place middle)
    (second : ∀ value, Tracks (other value) middle next) :
    Tracks (fun text result rest =>
      ∃ value between, part text value between ∧ other value between result rest) place next where
  fits := by
    rintro text result rest ⟨value, between, start, more⟩ fits
    exact first.fits start ((second value).fits more fits)
  revises := by
    rintro text result rest revised ⟨value, between, start, more⟩ revises
    rcases first.revises start revises with ⟨between', start', revises⟩
    rcases (second value).revises more revises with ⟨ending, more', revises⟩
    exact ⟨ending, ⟨value, between', start', more'⟩, revises⟩

theorem map (tracks : Tracks part place next) (makes : α → β → Prop) :
    Tracks (fun text result rest => ∃ value, part text value rest ∧ makes value result)
      place next where
  fits := by
    rintro text result rest ⟨value, taken, -⟩ fits
    exact tracks.fits taken fits
  revises := by
    rintro text result rest revised ⟨value, taken, made⟩ revises
    rcases tracks.revises taken revises with ⟨ending, taken, revises⟩
    exact ⟨ending, ⟨value, taken, made⟩, revises⟩

theorem or (tracks : Tracks part place next) (others : Tracks same place next) :
    Tracks (fun text value rest => part text value rest ∨ same text value rest) place next where
  fits := by
    rintro text value rest (taken | taken) fits
    · exact tracks.fits taken fits
    · exact others.fits taken fits
  revises := by
    rintro text value rest revised (taken | taken) revises
    · rcases tracks.revises taken revises with ⟨ending, taken, revises⟩
      exact ⟨ending, .inl taken, revises⟩
    · rcases others.revises taken revises with ⟨ending, taken, revises⟩
      exact ⟨ending, .inr taken, revises⟩

/-- Blanks in front of a part make no difference. -/
theorem behindLineBlanks (tracks : Tracks part place next) (code : place.region = .code) :
    Tracks (fun text value rest => part (skipLineBlanks text) value rest) place next where
  fits := by
    intro text value rest taken fits
    exact fits_of_skipLineBlanks code (tracks.fits taken fits)
  revises := by
    intro text value rest revised taken revises
    exact tracks.revises taken (revises.skipLineBlanks code)

/-- Blanks behind a part make no difference. -/
theorem beforeLineBlanks (tracks : Tracks part place next) (code : next.region = .code) :
    Tracks (fun text value rest => ∃ ending, part text value ending ∧ skipLineBlanks ending = rest)
      place next where
  fits := by
    rintro text value rest ⟨ending, taken, rfl⟩ fits
    exact tracks.fits taken (fits_of_skipLineBlanks code fits)
  revises := by
    rintro text value rest revised ⟨ending, taken, rfl⟩ revises
    rcases tracks.revises taken revises with ⟨ending', taken, revises⟩
    exact ⟨_, ⟨ending', taken, rfl⟩, revises.skipLineBlanks code⟩

/-- In a list and behind the `=` of a definition, so do the ends of lines. -/
theorem behindBlanks (code : place.region = .code)
    (settled : place.inList = true ∨ place.afterEquals = true)
    (tracks : ∀ blankLine, Tracks part { place with blankLine } next) :
    Tracks (fun text value rest => part (skipBlanks text) value rest) place next where
  fits := by
    intro text value rest taken fits
    apply fits_of_skipBlanks code
    rcases Surroundings.exists_along_blanks code (fun c => List.mem_takeWhile_imp) with
      ⟨blankLine, along⟩
    rw [along]
    exact (tracks blankLine).fits taken fits
  revises := by
    intro text value rest revised taken revises
    have skipped := revises.skipBlanks code settled
    rcases Surroundings.exists_along_blanks code (fun c => List.mem_takeWhile_imp) with
      ⟨blankLine, along⟩
    rw [along] at skipped
    exact (tracks blankLine).revises taken skipped

end Tracks

theorem MissionText.IsWordReader.tracks {read : List Char → Option (α × List Char)}
    (reads : IsWordReader read) (inCode : place.InCode) :
    Tracks (Reads read) place place.onLine where
  fits := by
    intro text value rest done fits
    rcases reads.takes done with ⟨word, rfl, some, plain⟩
    rw [fits_append, Surroundings.along_plain inCode.code some plain]
    exact ⟨fits_plain inCode plain, fits⟩
  revises := by
    intro text value rest revised done revises
    rcases revises.exists_breaks with ⟨line, behind, behind', rfl, rfl, breaks, breaks'⟩
    unfold Reads at done
    rw [reads.stops line breaks] at done
    rcases Option.map_eq_some_iff.1 done with ⟨⟨_, ending⟩, within, same⟩
    cases same
    rcases reads.takes within with ⟨word, rfl, some, plain⟩
    rw [List.append_assoc] at revises
    rcases revises.exists_append (fun c listed => (plain c listed).isLineEnd) with
      ⟨others, same, more⟩
    rw [List.append_assoc, List.append_cancel_left_eq] at same
    rw [Surroundings.along_plain inCode.code some plain, ← same] at more
    refine ⟨ending ++ behind', ?_, more⟩
    unfold Reads
    rw [reads.stops _ breaks', within]
    rfl

theorem tracks_readQuoted? (inCode : place.InCode) :
    Tracks (Reads readQuoted?) place place.onLine where
  fits := by
    intro text content rest read fits
    rcases readQuoted?_eq_some_iff.1 read with ⟨inner, rfl, unquoted, -⟩
    have quote : place.quoted.region = .quote := rfl
    refine ⟨Surroundings.allows_of_ne inCode.opened (by decide), ?_⟩
    rw [Surroundings.step_openQuote inCode.code, fits_append,
      Surroundings.along_quote quote unquoted]
    refine ⟨fits_of_stays inCode.opened nofun fun c listed => ?_, ?_, ?_⟩
    · exact Surroundings.step_quote quote fun same => unquoted (same ▸ listed)
    · exact Surroundings.allows_of_ne inCode.opened (by decide)
    · rw [Surroundings.step_closeQuote inCode.code]
      exact fits
  revises := by
    intro text content rest revised read revises
    rcases readQuoted?_eq_some_iff.1 read with ⟨inner, rfl, unquoted, spelled⟩
    rcases revises.exists_cons (by decide) with ⟨others, rfl, within⟩
    rw [Surroundings.step_openQuote inCode.code] at within
    rcases within.exists_append_of_quote rfl unquoted with ⟨others, rfl, last⟩
    rcases last.exists_cons (by decide) with ⟨ending, rfl, behind⟩
    rw [Surroundings.step_closeQuote inCode.code] at behind
    exact ⟨ending, readQuoted?_eq_some_iff.2 ⟨inner, rfl, unquoted, spelled⟩, behind⟩

/-- A given text that the characters behind it do not change. -/
theorem tracks_skipText? {expected : String} (fitting : Fits place expected.toList)
    (within : ∀ c ∈ expected.toList, isLineEnd c = false)
    (leads : place.along expected.toList = next) :
    Tracks (Skips (skipText? expected)) place next where
  fits := by
    intro text _ rest skipped fits
    rw [eq_append_of_skipText? skipped, fits_append, leads]
    exact ⟨fitting, fits⟩
  revises := by
    intro text _ rest revised skipped revises
    rw [eq_append_of_skipText? skipped] at revises
    rcases revises.exists_append within with ⟨ending, rfl, more⟩
    rw [leads] at more
    exact ⟨ending, skipText?_append expected ending, more⟩

theorem tracks_word (inCode : place.InCode) {expected : String} (isWord : IsPlainWord expected) :
    Tracks (Skips (skipText? expected)) place place.onLine :=
  tracks_skipText? (fits_plain inCode isWord.plain)
    (fun c listed => (isWord.plain c listed).isLineEnd)
    (Surroundings.along_plain inCode.code isWord.1 isWord.plain)

theorem tracks_bracket (inCode : place.InCode) (bracket : Char) {expected : String}
    (spelled : expected.toList = [bracket]) (solid : isBlank bracket = false)
    (other : bracket ≠ '#') (leads : place.step bracket = next) :
    Tracks (Skips (skipText? expected)) place next := by
  apply tracks_skipText?
  · rw [spelled]
    exact ⟨Surroundings.allows_of_ne inCode.opened other, trivial⟩
  · intro c listed
    rw [spelled, List.mem_singleton] at listed
    rw [listed, isLineEnd_eq_false solid]
  · rw [spelled, ← leads]
    rfl

/-- Blanks of the line on both sides of what is skipped make no difference. -/
theorem Tracks.betweenBlanks {expected : String}
    (tracks : Tracks (Skips (skipText? expected)) place next) (code : place.region = .code)
    (code' : next.region = .code) : Tracks (Skips (skipToken? expected)) place next := by
  refine ((tracks.behindLineBlanks code).beforeLineBlanks code').congr ?_
  intro text _ rest
  exact Option.map_eq_some_iff

theorem tracks_readName? (inCode : place.InCode) :
    Tracks (Reads readName?) place place.onLine := by
  have word := (isWordReader_identifierOfText?.map String.ofList).tracks inCode
  refine ((word.behindLineBlanks inCode.code).beforeLineBlanks inCode.onLine.code).congr ?_
  intro text name rest
  unfold Reads readName?
  rw [Option.map_eq_some_iff]
  constructor
  · rintro ⟨⟨word, ending⟩, taken, same⟩
    cases same
    exact ⟨ending, Option.map_eq_some_iff.2 ⟨_, taken, rfl⟩, rfl⟩
  · rintro ⟨ending, taken, rfl⟩
    rcases Option.map_eq_some_iff.1 taken with ⟨⟨word, others⟩, taken, same⟩
    cases same
    exact ⟨(word, ending), taken, rfl⟩

theorem tracks_readLiteral? (inCode : place.InCode) :
    Tracks (Reads readLiteral?) place place.onLine := by
  have quoted := (tracks_readQuoted? inCode).map fun content value => Value.string content = value
  have bare := isWordReader_readBareLiteral?.tracks inCode
  exact (quoted.or bare).congr fun _ _ _ => readLiteral?_eq_some_iff

theorem tracks_readOperand? (inCode : place.InCode) :
    Tracks (Reads readOperand?) place place.onLine := by
  have quoted := (tracks_readQuoted? inCode).map fun content operand =>
    Operand.constant (.string content) = operand
  have bare := isWordReader_readBareOperand?.tracks inCode
  exact (quoted.or bare).congr fun _ _ _ => readOperand?_eq_some_iff

theorem tracks_readDirection? (inCode : place.InCode) :
    Tracks (Reads readDirection?) place place.onLine := by
  have left : Tracks (Skips (skipToken? "<-")) place place.onLine :=
    (tracks_word inCode (by decide)).betweenBlanks inCode.code inCode.onLine.code
  have right : Tracks (Skips (skipToken? "->")) place place.onLine :=
    (tracks_word inCode (by decide)).betweenBlanks inCode.code inCode.onLine.code
  have input := left.map fun _ direction => PortDirection.input = direction
  have output := right.map fun _ direction => PortDirection.output = direction
  exact (input.or output).congr fun _ _ _ => readDirection?_eq_some_iff

theorem tracks_readPort (inCode : place.InCode) :
    Tracks (Replies readPort) place place.onLine := by
  have name := tracks_readName? inCode
  have direction := tracks_readDirection? inCode.onLine
  have operand := (tracks_readOperand? inCode.onLine).beforeLineBlanks inCode.onLine.code
  refine (name.bind fun name => direction.bind fun direction => operand.map
    fun operand port => Connects direction operand ∧ ⟨direction, name, operand⟩ = port).congr ?_
  intro text port rest
  exact readPort_eq_success_iff

end BehaviorTree
