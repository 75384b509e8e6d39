import BehaviorTree.Proofs.Source.Acceptance
import BehaviorTree.Proofs.Source.Tracking

/-!
# Revised missions

The grammar derives a revised text with the mission that it derives the text with. In a list and
behind the `=` of a definition, a revision only adds carriage returns to the blanks. Elsewhere it
also adds comments, which the grammar takes where it takes ends of lines. Along the way it turns out
that an accepted text fits: it has no comment where the grammar has no place for one.
-/

namespace BehaviorTree

open MissionText

namespace Surroundings

/-- Among the parts of a list. -/
def listing (depth : Nat) (blankLine : Bool) : Surroundings :=
  ⟨.code, true, false, depth, blankLine, false⟩

/-- Among nodes or definitions. -/
def outside (depth : Nat) (blankLine : Bool) : Surroundings :=
  ⟨.code, false, false, depth, blankLine, false⟩

/-- Behind the `=` of a definition. -/
def awaiting (blankLine : Bool) : Surroundings :=
  ⟨.code, false, true, 0, blankLine, false⟩

theorem inCode_listing (depth : Nat) (blankLine : Bool) : (listing depth blankLine).InCode :=
  ⟨rfl, rfl⟩

theorem inCode_outside (depth : Nat) (blankLine : Bool) : (outside depth blankLine).InCode :=
  ⟨rfl, rfl⟩

theorem inCode_awaiting (blankLine : Bool) : (awaiting blankLine).InCode :=
  ⟨rfl, rfl⟩

end Surroundings

open Surroundings

variable {α : Type} {place : Surroundings} {depth : Nat} {blankLine : Bool}
  {text revised after rest : List Char}

theorem tracks_comma (depth : Nat) (blankLine : Bool) :
    Tracks (fun text skipped rest => Skips (skipText? ",") (skipBlanks text) skipped rest)
      (listing depth blankLine) (listing depth false) :=
  .behindBlanks rfl (.inl rfl) fun blankLine =>
    tracks_word (inCode_listing depth blankLine) (by decide)

/-- In a list, what stands behind blanks stands behind them in a revision. -/
theorem ne_head_of_revises (revises : Revises (listing depth blankLine) text revised)
    {character : Char} (solid : isBlank character = false) (other : character ≠ '#')
    (without : ∀ c ∈ (skipBlanks text).head?, c ≠ character) :
    ∀ c ∈ (skipBlanks revised).head?, c ≠ character := by
  rintro c first rfl
  rcases (revises.skipBlanks rfl (.inl rfl)).head c first with same | blank | hash
  · exact without c same rfl
  · rw [solid] at blank
    cases blank
  · exact other hash

theorem tracks_commasText (depth : Nat) :
    Tracks (fun text (_ : Unit) rest => CommasText text rest) (listing depth false)
      (listing depth false) where
  fits := by
    intro text _ rest commasText fits
    induction commasText with
    | nothing => exact fits
    | comma skipped _ ih =>
      have skips : Skips (skipText? ",") (skipBlanks _) () _ := skipped
      exact (tracks_comma depth false).fits skips (ih fits)
  revises := by
    intro text _ rest revised commasText revises
    induction commasText generalizing revised with
    | nothing other =>
      exact ⟨revised, .nothing (ne_head_of_revises revises (by decide) (by decide) other), revises⟩
    | comma skipped _ ih =>
      have skips : Skips (skipText? ",") (skipBlanks _) () _ := skipped
      rcases (tracks_comma depth false).revises skips revises with ⟨behind, skipped, behind'⟩
      rcases ih behind' with ⟨ending, more, revises⟩
      exact ⟨ending, .comma skipped more, revises⟩

theorem tracks_portText (depth : Nat) (blankLine : Bool) :
    Tracks PortText (listing depth blankLine) (listing depth false) := by
  have port : Tracks (fun text port rest => Replies readPort (skipBlanks text) port rest)
      (listing depth blankLine) (listing depth false) :=
    .behindBlanks rfl (.inl rfl) fun blankLine => tracks_readPort (inCode_listing depth blankLine)
  have separated := fun port : PortSource =>
    (tracks_commasText depth).map fun _ result => port = result
  refine (port.bind separated).congr ?_
  intro text result rest
  constructor
  · rintro ⟨read, commas⟩
    exact ⟨_, _, read, (), commas, rfl⟩
  · rintro ⟨port, after, read, -, commas, rfl⟩
    exact .port read commas

theorem tracks_skipColon (depth : Nat) :
    Tracks (Skips (skipToken? ":")) (listing depth false) (listing depth false) :=
  (tracks_word (inCode_listing depth false) (by decide)).betweenBlanks rfl rfl

theorem tracks_readParameterKind? (depth : Nat) :
    Tracks (Reads readParameterKind?) (listing depth false) (listing depth false) := by
  have word := (isWordReader_identifierOfText?.map String.ofList).tracks
    (inCode_listing depth false)
  refine ((tracks_skipColon depth).bind fun _ => word).congr ?_
  intro text kind rest
  exact Option.bind_eq_some_iff.trans ⟨fun ⟨after, colon, read⟩ => ⟨(), after, colon, read⟩,
    fun ⟨_, after, colon, read⟩ => ⟨after, colon, read⟩⟩

theorem tracks_readDefault? (depth : Nat) :
    Tracks (Reads readDefault?) (listing depth false) (listing depth false) := by
  have equals : Tracks (Skips (skipToken? "=")) (listing depth false) (listing depth false) :=
    (tracks_bracket (inCode_listing depth false) '=' rfl (by decide) (by decide) rfl).betweenBlanks
      rfl rfl
  refine (equals.bind fun _ => tracks_readLiteral? (inCode_listing depth false)).congr ?_
  intro text value rest
  exact Option.bind_eq_some_iff.trans ⟨fun ⟨after, found, read⟩ => ⟨(), after, found, read⟩,
    fun ⟨_, after, found, read⟩ => ⟨after, found, read⟩⟩

theorem tracks_defaultText (depth : Nat) :
    Tracks DefaultText (listing depth false) (listing depth false) where
  fits := by
    intro text default rest defaultText fits
    cases defaultText with
    | absent => exact fits
    | value read => exact (tracks_readDefault? depth).fits read fits
  revises := by
    intro text default rest revised defaultText revises
    cases defaultText with
    | absent without =>
      have code := (inCode_listing depth false).code
      have without := revises.continuesWithout code (by decide) (by decide) without
      exact ⟨revised, .absent without, revises⟩
    | value read =>
      rcases (tracks_readDefault? depth).revises read revises with ⟨ending, read, revises⟩
      exact ⟨ending, .value read, revises⟩

theorem tracks_commaText (depth : Nat) :
    Tracks (fun text (_ : Unit) rest => CommaText text rest) (listing depth false)
      (listing depth false) where
  fits := by
    intro text _ rest commaText fits
    cases commaText with
    | absent => exact fits
    | comma skipped =>
      have skips : Skips (skipText? ",") (skipBlanks _) () _ := skipped
      exact (tracks_comma depth false).fits skips fits
  revises := by
    intro text _ rest revised commaText revises
    cases commaText with
    | absent other =>
      exact ⟨revised, .absent (ne_head_of_revises revises (by decide) (by decide) other), revises⟩
    | comma skipped =>
      have skips : Skips (skipText? ",") (skipBlanks _) () _ := skipped
      rcases (tracks_comma depth false).revises skips revises with ⟨ending, skipped, revises⟩
      exact ⟨ending, .comma skipped, revises⟩

theorem tracks_parameterText (depth : Nat) (blankLine : Bool) :
    Tracks ParameterText (listing depth blankLine) (listing depth false) := by
  have named : Tracks (fun text name rest => Reads readName? (skipBlanks text) name rest)
      (listing depth blankLine) (listing depth false) :=
    .behindBlanks rfl (.inl rfl) fun blankLine => tracks_readName? (inCode_listing depth blankLine)
  have separated := fun (name kind : String) (default : Option Value) =>
    (tracks_commaText depth).map fun _ result => ParameterSource.mk name kind default = result
  refine (named.bind fun name => (tracks_readParameterKind? depth).bind fun kind =>
    (tracks_defaultText depth).bind fun default => separated name kind default).congr ?_
  intro text result rest
  constructor
  · rintro ⟨named, typed, defaulted, comma⟩
    exact ⟨_, _, named, _, _, typed, _, _, defaulted, (), comma, rfl⟩
  · rintro ⟨name, _, named, kind, _, typed, default, _, defaulted, -, comma, rfl⟩
    exact .parameter named typed defaulted comma

theorem tracks_skipClosing? (depth : Nat) (blankLine : Bool) :
    Tracks (Skips skipClosing?) (listing depth blankLine) (outside depth false) := by
  have closing : Tracks
      (fun text skipped rest => Skips (skipText? ")") (skipBlanks text) skipped rest)
      (listing depth blankLine) (outside depth false) :=
    .behindBlanks rfl (.inl rfl) fun blankLine =>
      tracks_bracket (inCode_listing depth blankLine) ')' rfl (by decide) (by decide) rfl
  refine (closing.beforeLineBlanks rfl).congr ?_
  intro text _ rest
  exact Option.map_eq_some_iff

theorem tracks_partsText {part : List Char → α → List Char → Prop}
    (parts : ∀ blankLine, Tracks part (listing depth blankLine) (listing depth false))
    (blankLine : Bool) :
    Tracks (PartsText part) (listing depth blankLine) (outside depth false) where
  fits := by
    intro text values rest partsText fits
    induction partsText generalizing blankLine with
    | close closed =>
      have closing : Skips skipClosing? _ () _ := closed
      exact (tracks_skipClosing? depth blankLine).fits closing fits
    | part first _ ih => exact (parts blankLine).fits first (ih false fits)
  revises := by
    intro text values rest revised partsText revises
    induction partsText generalizing blankLine revised with
    | close closed =>
      have closing : Skips skipClosing? _ () _ := closed
      rcases (tracks_skipClosing? depth blankLine).revises closing revises with
        ⟨ending, closed, revises⟩
      exact ⟨ending, .close closed, revises⟩
    | part first _ ih =>
      rcases (parts blankLine).revises first revises with ⟨behind, first, behind'⟩
      rcases ih false behind' with ⟨ending, more, revises⟩
      exact ⟨ending, .part first more, revises⟩

theorem tracks_listText {part : List Char → α → List Char → Prop}
    (parts : ∀ blankLine, Tracks part (listing depth blankLine) (listing depth false)) :
    Tracks (ListText part) (outside depth false) (outside depth false) := by
  have opening : Tracks (Skips (skipToken? "(")) (outside depth false) (listing depth false) :=
    (tracks_bracket (inCode_outside depth false) '(' rfl (by decide) (by decide) rfl).betweenBlanks
      rfl rfl
  constructor
  · intro text values rest listText fits
    cases listText with
    | absent => exact fits
    | list opened filled =>
      have opened : Skips (skipToken? "(") _ () _ := opened
      exact opening.fits opened ((tracks_partsText parts false).fits filled fits)
  · intro text values rest revised listText revises
    cases listText with
    | absent without =>
      have code := (inCode_outside depth false).code
      have without := revises.continuesWithout code (by decide) (by decide) without
      exact ⟨revised, .absent without, revises⟩
    | list opened filled =>
      have opened : Skips (skipToken? "(") _ () _ := opened
      rcases opening.revises opened revises with ⟨inner, opened, inner'⟩
      rcases (tracks_partsText parts false).revises filled inner' with ⟨ending, filled, revises⟩
      exact ⟨ending, .list opened filled, revises⟩

namespace IsRemark

variable {remark more blanks : List Char}

theorem within (isRemark : IsRemark remark) : ∀ c ∈ remark, isLineEnd c = false := by
  rcases isRemark with ⟨blanks, note, rfl, blank, within⟩
  intro c listed
  rcases List.mem_append.1 listed with first | later
  · exact isLineEnd_of_lineBlank (blank c first)
  · rcases List.mem_cons.1 later with rfl | later
    · rfl
    · exact within c later

theorem append (isRemark : IsRemark remark) (within : ∀ c ∈ more, isLineEnd c = false) :
    IsRemark (remark ++ more) := by
  rcases isRemark with ⟨blanks, note, rfl, blank, within'⟩
  refine ⟨blanks, note ++ more, by simp, blank, fun c listed => ?_⟩
  rcases List.mem_append.1 listed with first | later
  · exact within' c first
  · exact within c later

theorem skipComment? (isRemark : IsRemark remark)
    (ended : ∀ c ∈ rest.head?, isLineEnd c = true) :
    skipComment? (remark ++ rest) = some rest := by
  rcases isRemark with ⟨blanks, note, rfl, blank, within⟩
  have front : skipLineBlanks (blanks ++ '#' :: note ++ rest) = '#' :: (note ++ rest) := by
    rw [List.append_assoc, skipLineBlanks, List.dropWhile_append_of_pos blank]
    rfl
  have note' : (note ++ rest).dropWhile (fun c => !isLineEnd c) = rest := by
    rw [List.dropWhile_append_of_pos fun c listed => by simp [within c listed]]
    cases rest with
    | nil => rfl
    | cons first more => simp [ended first rfl]
  rw [MissionText.skipComment?, front]
  exact congrArg some note'

theorem skipComment?_lineEnd (isRemark : IsRemark remark) {lineEnd : Char}
    (ends : isLineEnd lineEnd = true) (rest : List Char) :
    MissionText.skipComment? (remark ++ lineEnd :: rest) = some (lineEnd :: rest) := by
  apply isRemark.skipComment?
  rintro c ⟨⟩
  exact ends

theorem along (isRemark : IsRemark remark) (code : place.region = .code) :
    place.along remark = { place with region := .comment } := by
  rcases isRemark with ⟨blanks, note, rfl, blank, within⟩
  rw [along_append, along_lineBlanks code blank, along_cons, step_hash code]
  exact along_comment rfl within

theorem fits (isRemark : IsRemark remark) (inCode : place.InCode)
    (noList : place.inList = false) (noEquals : place.afterEquals = false) :
    Fits place remark := by
  rcases isRemark with ⟨blanks, note, rfl, blank, within⟩
  rw [fits_append, along_lineBlanks inCode.code blank]
  refine ⟨fits_blanks inCode.code fun c listed => by simp [isBlank, blank c listed], ⟨?_, ?_⟩, ?_⟩
  · intro shut
    rw [inCode.opened] at shut
    cases shut
  · exact fun _ _ => ⟨noList, noEquals⟩
  · rw [step_hash inCode.code]
    refine fits_of_stays inCode.opened (fun code => ?_) fun c listed => ?_
    · cases code
    · simp [step, within c listed]

end IsRemark

theorem skipComment?_eq_some_iff :
    skipComment? text = some rest ↔ ∃ remark, IsRemark remark ∧ text = remark ++ rest ∧
      ∀ c ∈ rest.head?, isLineEnd c = true := by
  constructor
  · intro skipped
    rcases Option.map_eq_some_iff.1 skipped with ⟨after, found, rfl⟩
    refine ⟨text.takeWhile isLineBlank ++ '#' :: after.takeWhile fun c => !isLineEnd c,
      ⟨_, _, rfl, fun c => List.mem_takeWhile_imp, fun c taken => ?_⟩, ?_, fun c first => ?_⟩
    · simpa using List.mem_takeWhile_imp taken
    · have behindBlanks := eq_append_of_skipText? found
      rw [List.append_assoc, List.cons_append, List.takeWhile_append_dropWhile]
      exact (List.takeWhile_append_dropWhile.symm).trans
        (congrArg (text.takeWhile isLineBlank ++ ·) behindBlanks)
    · simpa using head_dropWhile after c first
  · rintro ⟨remark, isRemark, rfl, ended⟩
    exact isRemark.skipComment? ended

/-- What follows a comment, and what follows it in a revision: a comment does not end elsewhere. -/
inductive RevisesEnd (place : Surroundings) : List Char → List Char → Prop where
  | nothing : RevisesEnd place [] []
  | lineEnd {lineEnd : Char} {text revised : List Char} (ends : isLineEnd lineEnd = true)
    (more : Revises (place.step lineEnd) text revised) :
    RevisesEnd place (lineEnd :: text) (lineEnd :: revised)
  | return {text revised : List Char} (admitted : place.AdmitsReturn revised)
    (more : Revises (place.step '\n') text revised) :
    RevisesEnd place ('\n' :: text) ('\r' :: '\n' :: revised)

/-- A comment of a revision has all of the comment in it. -/
theorem Revises.skipComment? (revises : Revises place text revised) (code : place.region = .code)
    (skipped : skipComment? text = some after) :
    ∃ ending, MissionText.skipComment? revised = some ending ∧
      RevisesEnd { place with region := .comment } after ending := by
  rcases skipComment?_eq_some_iff.1 skipped with ⟨remark, isRemark, rfl, ended⟩
  rcases revises.exists_append isRemark.within with ⟨ending, rfl, behind⟩
  rw [isRemark.along code] at behind
  cases behind with
  | nil => exact ⟨[], isRemark.skipComment? nofun, .nothing⟩
  | keep first more =>
    exact ⟨_, isRemark.skipComment? ended, .lineEnd (ended first rfl) more⟩
  | @remark _ lineEnd more _ _ isMore ends _ others =>
    refine ⟨_, ?_, .lineEnd ends others⟩
    rw [← List.append_assoc]
    exact (isRemark.append isMore.within).skipComment?_lineEnd ends _
  | «return» admitted more =>
    exact ⟨_, isRemark.skipComment?_lineEnd (by decide) _, .return admitted more⟩

/-- A comment fits between nodes and definitions if what follows the end of its line fits. -/
theorem fits_of_skipComment? (inCode : place.InCode) (noList : place.inList = false)
    (noEquals : place.afterEquals = false) (skipped : skipComment? text = some after)
    (behind : ∀ lineEnd more, after = lineEnd :: more → isLineEnd lineEnd = true →
      Fits (({ place with region := .comment } : Surroundings).step lineEnd) more) :
    Fits place text := by
  rcases skipComment?_eq_some_iff.1 skipped with ⟨remark, isRemark, rfl, ended⟩
  rw [fits_append, isRemark.along inCode.code]
  refine ⟨isRemark.fits inCode noList noEquals, ?_⟩
  cases after with
  | nil => trivial
  | cons lineEnd more =>
    have ends := ended lineEnd rfl
    exact ⟨allows_of_ne inCode.opened (ne_hash_of_lineEnd ends), behind lineEnd more rfl ends⟩

theorem tracks_labelText (depth : Nat) :
    Tracks LabelText (outside depth false) (outside depth false) := by
  have inCode := inCode_outside depth false
  have quoted := ((tracks_readQuoted? inCode).behindLineBlanks inCode.code).beforeLineBlanks
    inCode.code
  constructor
  · intro text label rest labelText fits
    cases labelText with
    | absent => exact fits
    | label read => exact quoted.fits ⟨_, read, rfl⟩ fits
  · intro text label rest revised labelText revises
    cases labelText with
    | absent without =>
      have without := revises.continuesWithout inCode.code (by decide) (by decide) without
      exact ⟨revised, .absent without, revises⟩
    | label read =>
      rcases quoted.revises ⟨_, read, rfl⟩ revises with ⟨ending, ⟨after, read, rfl⟩, revises⟩
      exact ⟨_, .label read, revises⟩

theorem tracks_openBrace (depth : Nat) :
    Tracks (Skips (skipToken? "\x7b")) (outside depth false) (outside (depth + 1) false) :=
  (tracks_bracket (inCode_outside depth false) '\x7b' rfl (by decide) (by decide) rfl).betweenBlanks
    rfl rfl

theorem tracks_closeBrace (depth : Nat) (blankLine : Bool) :
    Tracks (Skips (skipToken? "\x7d")) (outside (depth + 1) blankLine) (outside depth false) :=
  (tracks_bracket (inCode_outside (depth + 1) blankLine) '\x7d' rfl (by decide) (by decide)
    rfl).betweenBlanks rfl rfl

/-- What one derivation leads to, in the text and in every revision of it. -/
structure Leads (part : List Char → List Char → Prop) (place next : Surroundings)
    (text rest : List Char) : Prop where
  fits : Fits next rest → Fits place text
  revises : ∀ {revised}, Revises place text revised →
    ∃ ending, part revised ending ∧ Revises next rest ending

theorem Tracks.leads {part : List Char → α → List Char → Prop} {next : Surroundings}
    (tracks : Tracks part place next) {value : α} (taken : part text value rest) :
    Leads (part · value ·) place next text rest :=
  ⟨tracks.fits taken, tracks.revises taken⟩

theorem exists_step_blank {character : Char} (blank : isBlank character = true) :
    ∃ behind, (outside depth blankLine).step character = outside depth behind := by
  rcases Bool.or_eq_true_iff.1 blank with lineBlank | ends
  · exact ⟨blankLine, step_lineBlank rfl lineBlank⟩
  · exact ⟨true, step_lineEnd rfl ends⟩

/-- Behind blanks among children, a comment of a revision is one more comment. -/
theorem leads_behindBlanks {children : List NodeSource} {next : Surroundings}
    (leads : ∀ blankLine, Leads (ChildrenText · children ·) (outside (depth + 1) blankLine) next
      (skipBlanks text) rest) (blankLine : Bool) :
    Leads (fun text rest => ChildrenText (skipBlanks text) children rest)
      (outside (depth + 1) blankLine) next text rest where
  fits := by
    intro fits
    apply fits_of_skipBlanks rfl
    rcases exists_along_blanks (inCode_outside (depth + 1) blankLine).code
      (fun c => List.mem_takeWhile_imp) with ⟨blankLine, along⟩
    rw [along]
    exact (leads blankLine).fits fits
  revises := by
    intro revised revises
    induction text generalizing blankLine revised with
    | nil =>
      rw [revises.of_nil]
      exact (leads blankLine).revises (.nil _)
    | cons first more ih =>
      cases blank : isBlank first with
      | false =>
        rw [skipBlanks_cons_of_solid blank] at leads
        rcases revises.exists_cons (isLineEnd_eq_false blank) with ⟨others, rfl, -⟩
        rw [skipBlanks_cons_of_solid blank]
        exact (leads blankLine).revises revises
      | true =>
        rw [skipBlanks_cons_of_blank blank] at leads
        rcases exists_step_blank blank with ⟨behind, steps⟩
        cases revises with
        | keep _ others =>
          rw [steps] at others
          rw [skipBlanks_cons_of_blank blank]
          exact ih leads behind others
        | @remark _ _ _ _ revised isRemark ends _ others =>
          rw [steps] at others
          rcases ih leads behind others with ⟨ending, childrenText, revises⟩
          rw [← skipBlanks_cons_of_blank blank] at childrenText
          have comment := skipComment?_skipBlanks (isRemark.skipComment?_lineEnd ends revised)
          exact ⟨ending, .comment comment childrenText, revises⟩
        | «return» _ others =>
          rw [steps] at others
          rw [skipBlanks_cons_lineEnd rfl, skipBlanks_cons_lineEnd rfl]
          exact ih leads behind others

theorem step_behindComment {lineEnd : Char} (together : (outside depth blankLine).apart = false)
    (ends : isLineEnd lineEnd = true) :
    ({ outside depth blankLine with region := .comment } : Surroundings).step lineEnd =
      outside depth true := by
  have apart : Surroundings.apart ⟨.comment, false, false, depth, blankLine, false⟩ = false :=
    together
  simp [step, ends, apart, outside]

/-- So is a comment among children that has a comment of a revision in it. -/
theorem leads_comment {children : List NodeSource} {next : Surroundings}
    (skipped : skipComment? text = some after)
    (leads : ∀ blankLine, Leads (ChildrenText · children ·) (outside (depth + 1) blankLine) next
      (skipBlanks after) rest) (blankLine : Bool) :
    Leads (ChildrenText · children ·) (outside (depth + 1) blankLine) next text rest where
  fits := by
    intro fits
    apply fits_of_skipComment? (inCode_outside _ _) rfl rfl skipped
    rintro lineEnd more rfl ends
    rw [skipBlanks_cons_lineEnd ends] at leads
    rw [step_behindComment rfl ends]
    exact (leads_behindBlanks leads true).fits fits
  revises := by
    intro revised revises
    rcases revises.skipComment? rfl skipped with ⟨ending, skipped', revisesEnd⟩
    cases revisesEnd with
    | nothing =>
      rcases (leads true).revises (.nil _) with ⟨rest', childrenText, revises⟩
      exact ⟨rest', .comment skipped' childrenText, revises⟩
    | lineEnd ends more =>
      rw [skipBlanks_cons_lineEnd ends] at leads
      rw [step_behindComment rfl ends] at more
      rcases (leads_behindBlanks leads true).revises more with ⟨rest', childrenText, revises⟩
      rw [← skipBlanks_cons_lineEnd ends] at childrenText
      exact ⟨rest', .comment skipped' childrenText, revises⟩
    | «return» _ more =>
      rw [skipBlanks_cons_lineEnd rfl] at leads
      rw [step_behindComment rfl rfl] at more
      rcases (leads_behindBlanks leads true).revises more with ⟨rest', childrenText, revises⟩
      exact ⟨rest', .comment skipped' childrenText, revises⟩

mutual

theorem NodeText.leads {text rest : List Char} {node : NodeSource} :
    NodeText text node rest → ∀ {place : Surroundings} (depth : Nat), place.InCode →
      place.onLine = outside depth false →
      Leads (NodeText · node ·) place (outside depth false) text rest
  | .node named labelled connected nested, place, depth, inCode, onLine => by
    have name := (tracks_readName? inCode).leads named
    have label := (tracks_labelText depth).leads labelled
    have ports := (tracks_listText fun _ => tracks_portText depth _).leads connected
    have children := nested.leads depth
    rw [onLine] at name
    constructor
    · intro fits
      exact name.fits (label.fits (ports.fits (children.fits fits)))
    · intro revised revises
      rcases name.revises revises with ⟨_, named, revises⟩
      rcases label.revises revises with ⟨_, labelled, revises⟩
      rcases ports.revises revises with ⟨_, connected, revises⟩
      rcases children.revises revises with ⟨ending, nested, revises⟩
      exact ⟨ending, .node named labelled connected nested, revises⟩

theorem BlockText.leads {text rest : List Char} {children : List NodeSource} :
    BlockText text children rest → ∀ depth : Nat,
      Leads (BlockText · children ·) (outside depth false) (outside depth false) text rest
  | .absent without, depth => by
    constructor
    · exact id
    · intro revised revises
      have code := (inCode_outside depth false).code
      have without := revises.continuesWithout code (by decide) (by decide) without
      exact ⟨revised, .absent without, revises⟩
  | .block opened filled, depth => by
    have skips : Skips (skipToken? "\x7b") _ () _ := opened
    have brace := (tracks_openBrace depth).leads skips
    have inside := leads_behindBlanks (filled.leads depth) false
    constructor
    · intro fits
      exact brace.fits (inside.fits fits)
    · intro revised revises
      rcases brace.revises revises with ⟨_, opened, revises⟩
      rcases inside.revises revises with ⟨ending, filled, revises⟩
      exact ⟨ending, .block opened filled, revises⟩

theorem ChildrenText.leads {text rest : List Char} {children : List NodeSource} :
    ChildrenText text children rest → ∀ (depth : Nat) (blankLine : Bool),
      Leads (ChildrenText · children ·) (outside (depth + 1) blankLine) (outside depth false)
        text rest
  | .close closed, depth, blankLine => by
    have skips : Skips (skipToken? "\x7d") _ () _ := closed
    have brace := (tracks_closeBrace depth blankLine).leads skips
    constructor
    · exact brace.fits
    · intro revised revises
      rcases brace.revises revises with ⟨ending, closed, revises⟩
      exact ⟨ending, .close closed, revises⟩
  | .comment skipped more, depth, blankLine => leads_comment skipped (more.leads depth) blankLine
  | .child first more, depth, blankLine => by
    have child := first.leads (depth + 1) (inCode_outside (depth + 1) blankLine) rfl
    have others := leads_behindBlanks (more.leads depth) false
    constructor
    · intro fits
      exact child.fits (others.fits fits)
    · intro revised revises
      rcases child.revises revises with ⟨_, first, revises⟩
      rcases others.revises revises with ⟨ending, more, revises⟩
      exact ⟨ending, .child first more, revises⟩

end

theorem tracks_nodeText (inCode : place.InCode) (onLine : place.onLine = outside depth false) :
    Tracks NodeText place (outside depth false) where
  fits := fun nodeText => (nodeText.leads depth inCode onLine).fits
  revises := fun nodeText => (nodeText.leads depth inCode onLine).revises

theorem tracks_treeText (blankLine : Bool) :
    Tracks TreeText (outside 0 blankLine) (outside 0 false) := by
  have word : Tracks (Skips (skipText? "tree")) (outside 0 blankLine) (outside 0 false) :=
    tracks_word (inCode_outside 0 blankLine) (by decide)
  have name := tracks_readName? (inCode_outside 0 false)
  have parameters := tracks_listText fun _ => tracks_parameterText 0 _
  have equals : Tracks
      (fun text skipped rest => Skips (skipText? "=") (skipLineBlanks text) skipped rest)
      (outside 0 false) (awaiting false) :=
    (tracks_bracket (inCode_outside 0 false) '=' rfl (by decide) (by decide) rfl).behindLineBlanks
      rfl
  have root : Tracks (fun text root rest => NodeText (skipBlanks text) root rest) (awaiting false)
      (outside 0 false) :=
    .behindBlanks rfl (.inr rfl) fun blankLine => tracks_nodeText (inCode_awaiting blankLine) rfl
  refine (word.bind fun _ => name.bind fun name => parameters.bind fun parameters =>
    equals.bind fun _ => root.map fun root tree =>
      TreeSource.mk name parameters root = tree).congr ?_
  intro text tree rest
  constructor
  · rintro ⟨word, named, declared, equals, rooted⟩
    exact ⟨(), _, word, _, _, named, _, _, declared, (), _, equals, _, rooted, rfl⟩
  · rintro ⟨⟨⟩, _, word, name, _, named, parameters, _, declared, ⟨⟩, _, equals, root, rooted, rfl⟩
    exact .tree word named declared equals rooted

/-- What holds of a text up to its end, and of every revision of it. -/
structure Completes (whole : List Char → Prop) (place : Surroundings) (text : List Char) :
    Prop where
  fits : Fits place text
  revises : ∀ {revised}, Revises place text revised → whole revised

theorem TreesText.eq_nil {trees : List TreeSource} (treesText : TreesText [] trees) :
    trees = [] := by
  cases treesText with
  | nothing => rfl
  | lastComment => rfl
  | comment skipped => cases skipped
  | tree first =>
    cases first with
    | tree word => cases word

namespace Revises

/-- Blanks are not revised to nothing but blanks from anything else. -/
theorem blank_of_revised (revises : Revises place text revised)
    (blank : ∀ c ∈ revised, isBlank c = true) : ∀ c ∈ text, isBlank c = true := by
  induction revises with
  | nil => exact blank
  | keep first _ ih =>
    rw [List.forall_mem_cons] at blank ⊢
    exact ⟨blank.1, ih blank.2⟩
  | remark _ ends _ _ ih =>
    rw [List.forall_mem_append, List.forall_mem_cons] at blank
    exact List.forall_mem_cons.2 ⟨blank.2.1, ih blank.2.2⟩
  | «return» _ _ ih =>
    rw [List.forall_mem_cons] at blank
    rw [List.forall_mem_cons] at blank ⊢
    exact ⟨blank.2.1, ih blank.2.2⟩

/-- Behind the last comment no more comments are put. -/
theorem blank_of_shut (revises : Revises place text revised) (code : place.region = .code)
    (apart : place.apart = true) (shut : place.shut = true)
    (blank : ∀ c ∈ text, isBlank c = true) : ∀ c ∈ revised, isBlank c = true := by
  have step_blank : ∀ {place : Surroundings} {c : Char}, place.region = .code →
      place.apart = true → place.shut = true → isBlank c = true →
      (place.step c).region = .code ∧ (place.step c).apart = true ∧ (place.step c).shut = true := by
    intro place c code apart shut blank
    rcases Bool.or_eq_true_iff.1 blank with lineBlank | ends
    · rw [step_lineBlank code lineBlank]
      exact ⟨code, apart, shut⟩
    · rw [step_lineEnd code ends]
      simp only [Surroundings.apart, Bool.and_eq_true] at apart ⊢
      exact ⟨code, ⟨apart.1, trivial⟩, shut⟩
  induction revises with
  | nil => nofun
  | keep first _ ih =>
    rw [List.forall_mem_cons] at blank ⊢
    rcases step_blank code apart shut blank.1 with ⟨code, apart, shut⟩
    exact ⟨blank.1, ih code apart shut blank.2⟩
  | remark _ _ admitted =>
    rcases admitted with comment | ⟨-, -, -, admitted⟩
    · rw [code] at comment
      cases comment
    · rw [(admitted apart).1] at shut
      cases shut
  | «return» _ _ ih =>
    rw [List.forall_mem_cons] at blank
    rcases step_blank code apart shut blank.1 with ⟨code, apart, shut⟩
    exact List.forall_mem_cons.2 ⟨rfl, List.forall_mem_cons.2 ⟨rfl, ih code apart shut blank.2⟩⟩

end Revises

/-- On a line of its own, a comment of a revision is one more comment if a line feed follows it,
and else the last one. -/
theorem completes_behindBlanks {trees : List TreeSource}
    (completes : Completes (TreesText · trees) (outside 0 true) (skipBlanks text)) :
    Completes (fun text => TreesText (skipBlanks text) trees) (outside 0 true) text := by
  induction text with
  | nil =>
    constructor
    · trivial
    · intro revised revises
      rw [revises.of_nil]
      exact completes.revises (.nil _)
  | cons first more ih =>
    cases blank : isBlank first with
    | false =>
      rw [skipBlanks_cons_of_solid blank] at completes
      refine ⟨completes.fits, fun {revised} revises => ?_⟩
      rcases revises.exists_cons (isLineEnd_eq_false blank) with ⟨others, rfl, -⟩
      rw [skipBlanks_cons_of_solid blank]
      exact completes.revises revises
    | true =>
      have steps : (outside 0 true).step first = outside 0 true := by
        rcases Bool.or_eq_true_iff.1 blank with lineBlank | ends
        · exact step_lineBlank rfl lineBlank
        · exact step_lineEnd rfl ends
      rw [skipBlanks_cons_of_blank blank] at completes
      have others := ih completes
      constructor
      · refine ⟨allows_of_ne rfl (ne_hash_of_isBlank blank), ?_⟩
        rw [steps]
        exact others.fits
      · intro revised revises
        cases revises with
        | keep _ behind =>
          rw [steps] at behind
          rw [skipBlanks_cons_of_blank blank]
          exact others.revises behind
        | @remark _ _ _ _ revised isRemark ends admitted behind =>
          rw [steps] at behind
          have comment := skipComment?_skipBlanks (isRemark.skipComment?_lineEnd ends revised)
          have admitted : first = '\n' ∨ ∀ c ∈ revised, isBlank c = true := by
            rcases admitted with comment | ⟨-, -, -, admitted⟩
            · cases comment
            · exact (admitted rfl).2
          rcases admitted with rfl | blankRest
          · exact .comment comment (others.revises behind)
          · have nothing := skipBlanks_eq_nil_iff.2 (behind.blank_of_revised blankRest)
            rw [nothing] at completes
            rw [TreesText.eq_nil (completes.revises (.nil _))]
            rw [← skipBlanks_eq_nil_iff, ← skipBlanks_cons_of_blank blank] at blankRest
            exact .lastComment comment blankRest
        | «return» _ behind =>
          rw [skipBlanks_cons_lineEnd rfl, skipBlanks_cons_lineEnd rfl]
          exact others.revises behind

theorem skipOptionalComment_of_head (other : ContinuesWithout '#' text) :
    skipOptionalComment text = text := by
  rw [skipOptionalComment, skipComment?_eq_none other]
  rfl

theorem skipBlanks_skipOptionalComment {blank : Char} (isBlank : isLineBlank blank = true)
    (text : List Char) :
    skipBlanks (skipOptionalComment (blank :: text)) = skipBlanks (skipOptionalComment text) := by
  have same : skipComment? (blank :: text) = skipComment? text := by
    rw [skipComment?, skipLineBlanks_cons_of_blank isBlank]
    rfl
  rw [skipOptionalComment, skipOptionalComment, same]
  cases skipComment? text with
  | some after => rfl
  | none => exact skipBlanks_cons_of_blank (by simp [MissionText.isBlank, isBlank]) text

theorem continuesWithout_lineEnd {lineEnd : Char} (ends : isLineEnd lineEnd = true)
    (text : List Char) : ContinuesWithout '#' (lineEnd :: text) := by
  rw [ContinuesWithout, skipLineBlanks_cons_of_solid (isLineBlank_of_lineEnd ends)]
  rintro c ⟨⟩
  exact ne_hash_of_lineEnd ends

/-- Behind the comment that follows a definition on its line, its end follows. -/
theorem completes_comment {trees : List TreeSource}
    (skipped : skipComment? text = some after)
    (completes : Completes (TreesText · trees) (outside 0 true) (skipBlanks after)) :
    Completes (fun text => TreesText (skipBlanks (skipOptionalComment text)) trees)
      (outside 0 false) text where
  fits := by
    apply fits_of_skipComment? (inCode_outside _ _) rfl rfl skipped
    rintro lineEnd more rfl ends
    rw [skipBlanks_cons_lineEnd ends] at completes
    rw [step_behindComment rfl ends]
    exact (completes_behindBlanks completes).fits
  revises := by
    intro revised revises
    rcases revises.skipComment? rfl skipped with ⟨ending, skipped', revisesEnd⟩
    have optional : skipOptionalComment revised = ending := by
      rw [skipOptionalComment, skipped']
      rfl
    rw [optional]
    cases revisesEnd with
    | nothing => exact completes.revises (.nil _)
    | lineEnd ends more =>
      rw [skipBlanks_cons_lineEnd ends] at completes ⊢
      rw [step_behindComment rfl ends] at more
      exact (completes_behindBlanks completes).revises more
    | «return» _ more =>
      rw [skipBlanks_cons_lineEnd rfl] at completes
      rw [step_behindComment rfl rfl] at more
      rw [skipBlanks_cons_lineEnd rfl, skipBlanks_cons_lineEnd rfl]
      exact (completes_behindBlanks completes).revises more

/-- Where a definition is followed by the end of its line, a comment may be put between them. -/
theorem completes_lineEnd {trees : List TreeSource} {lineEnd : Char}
    (ends : isLineEnd lineEnd = true)
    (completes : Completes (TreesText · trees) (outside 0 true) (skipBlanks text)) :
    Completes (fun text => TreesText (skipBlanks (skipOptionalComment text)) trees)
      (outside 0 false) (lineEnd :: text) := by
  have following := completes_behindBlanks completes
  have steps : (outside 0 false).step lineEnd = outside 0 true := step_lineEnd rfl ends
  constructor
  · refine ⟨allows_of_ne rfl (ne_hash_of_lineEnd ends), ?_⟩
    rw [steps]
    exact following.fits
  · intro revised revises
    cases revises with
    | keep _ behind =>
      rw [steps] at behind
      rw [skipOptionalComment_of_head (continuesWithout_lineEnd ends _),
        skipBlanks_cons_lineEnd ends]
      exact following.revises behind
    | @remark _ _ _ _ revised isRemark _ _ behind =>
      rw [steps] at behind
      rw [skipOptionalComment, isRemark.skipComment?_lineEnd ends revised, Option.getD_some,
        skipBlanks_cons_lineEnd ends]
      exact following.revises behind
    | «return» _ behind =>
      rw [steps] at behind
      rw [skipOptionalComment_of_head (continuesWithout_lineEnd rfl _),
        skipBlanks_cons_lineEnd rfl, skipBlanks_cons_lineEnd rfl]
      exact following.revises behind

theorem completes_solid {trees : List TreeSource} {first : Char}
    (noLineBlank : isLineBlank first = false) (noLineEnd : isLineEnd first = false)
    (noComment : skipComment? (first :: text) = none)
    (completes : ∀ blankLine, blankLine = true ∨ ContinuesWithout '#' (skipBlanks (first :: text)) →
      Completes (TreesText · trees) (outside 0 blankLine) (skipBlanks (first :: text))) :
    Completes (fun text => TreesText (skipBlanks (skipOptionalComment text)) trees)
      (outside 0 false) (first :: text) := by
  have solid : isBlank first = false := by simp [isBlank, noLineBlank, noLineEnd]
  have other : ∀ text, ContinuesWithout '#' (first :: text) := by
    intro others
    rw [ContinuesWithout, skipLineBlanks_cons_of_solid noLineBlank]
    rintro c ⟨⟩ rfl
    cases noComment
  rw [skipBlanks_cons_of_solid solid] at completes
  have here := completes false (.inr (other text))
  refine ⟨here.fits, fun {revised} revises => ?_⟩
  rcases revises.exists_cons noLineEnd with ⟨others, rfl, -⟩
  rw [skipOptionalComment_of_head (other others), skipBlanks_cons_of_solid solid]
  exact here.revises revises

/-- Behind a definition, a comment of a revision is the comment that follows it on its line. -/
theorem completes_behindNode {trees : List TreeSource}
    (completes : ∀ blankLine,
      blankLine = true ∨ ContinuesWithout '#' (skipBlanks (skipOptionalComment text)) →
      Completes (TreesText · trees) (outside 0 blankLine) (skipBlanks (skipOptionalComment text))) :
    Completes (fun text => TreesText (skipBlanks (skipOptionalComment text)) trees)
      (outside 0 false) text := by
  induction text with
  | nil =>
    constructor
    · trivial
    · intro revised revises
      rw [revises.of_nil]
      exact (completes true (.inl rfl)).revises (.nil _)
  | cons first more ih =>
    cases skipped : skipComment? (first :: more) with
    | some after =>
      have optional : skipOptionalComment (first :: more) = after := by
        rw [skipOptionalComment, skipped]
        rfl
      rw [optional] at completes
      exact completes_comment skipped (completes true (.inl rfl))
    | none =>
      cases lineBlank : isLineBlank first with
      | true =>
        have steps : (outside 0 false).step first = outside 0 false := step_lineBlank rfl lineBlank
        rw [skipBlanks_skipOptionalComment lineBlank] at completes
        have others := ih completes
        constructor
        · refine ⟨allows_of_ne rfl (ne_hash_of_isBlank (by simp [isBlank, lineBlank])), ?_⟩
          rw [steps]
          exact others.fits
        · intro revised revises
          rcases revises.exists_cons (isLineEnd_of_lineBlank lineBlank) with ⟨ending, rfl, behind⟩
          rw [steps] at behind
          rw [skipBlanks_skipOptionalComment lineBlank]
          exact others.revises behind
      | false =>
        rw [skipOptionalComment, skipped] at completes
        cases ends : isLineEnd first with
        | true =>
          have behind := completes true (.inl rfl)
          rw [Option.getD_none, skipBlanks_cons_lineEnd ends] at behind
          exact completes_lineEnd ends behind
        | false => exact completes_solid lineBlank ends skipped completes

theorem step_lineFeed_behindComment :
    ({ outside 0 true with region := .comment } : Surroundings).step '\n' = outside 0 true :=
  rfl

theorem completes_nothing (place : Surroundings) : Completes (TreesText · []) place [] where
  fits := trivial
  revises := by
    intro revised revises
    rw [revises.of_nil]
    exact .nothing

/-- The last comment may end with a carriage return and may be followed by blanks. -/
theorem completes_lastComment (skipped : skipComment? text = some after)
    (blank : skipBlanks after = []) :
    Completes (TreesText · []) (outside 0 true) text where
  fits := by
    rw [skipBlanks_eq_nil_iff] at blank
    apply fits_of_skipComment? (inCode_outside _ _) rfl rfl skipped
    rintro lineEnd more rfl ends
    apply fits_blanks
    · simp [step, ends]
    · exact (List.forall_mem_cons.1 blank).2
  revises := by
    intro revised revises
    rcases revises.skipComment? rfl skipped with ⟨ending, skipped', revisesEnd⟩
    cases revisesEnd with
    | nothing => exact .lastComment skipped' rfl
    | @lineEnd lineEnd more _ ends behind =>
      rw [skipBlanks_cons_lineEnd ends] at blank
      simp only [isLineEnd, Bool.or_eq_true, beq_iff_eq] at ends
      rcases ends with rfl | rfl
      · rw [step_lineFeed_behindComment] at behind
        have nothing := completes_nothing (outside 0 true)
        rw [← blank] at nothing
        exact .comment skipped' ((completes_behindBlanks nothing).revises behind)
      · have blankRest := behind.blank_of_shut rfl rfl rfl (skipBlanks_eq_nil_iff.1 blank)
        rw [← skipBlanks_eq_nil_iff] at blankRest
        exact .lastComment skipped' blankRest
    | «return» admitted =>
      have blankRest := skipBlanks_eq_nil_iff.2 (admitted.2 rfl rfl)
      exact .lastComment skipped' blankRest

theorem completes_commentLine {trees : List TreeSource}
    (skipped : skipComment? text = some ('\n' :: after))
    (completes : Completes (TreesText · trees) (outside 0 true) (skipBlanks after)) :
    Completes (TreesText · trees) (outside 0 true) text where
  fits := by
    apply fits_of_skipComment? (inCode_outside _ _) rfl rfl skipped
    rintro lineEnd more ⟨⟩ -
    rw [step_lineFeed_behindComment]
    exact (completes_behindBlanks completes).fits
  revises := by
    intro revised revises
    rcases revises.skipComment? rfl skipped with ⟨ending, skipped', revisesEnd⟩
    cases revisesEnd with
    | lineEnd ends behind =>
      rw [step_lineFeed_behindComment] at behind
      exact .comment skipped' ((completes_behindBlanks completes).revises behind)
    | «return» admitted behind =>
      have blankRest := admitted.2 rfl rfl
      have nothing := skipBlanks_eq_nil_iff.2 (behind.blank_of_revised blankRest)
      rw [nothing] at completes
      rw [TreesText.eq_nil (completes.revises (.nil _))]
      have blankRest := skipBlanks_eq_nil_iff.2 blankRest
      exact .lastComment skipped' blankRest

theorem eq_true_of_comment (apart : blankLine = true ∨ ContinuesWithout '#' text)
    (skipped : skipComment? text = some after) : blankLine = true := by
  rcases apart with apart | other
  · exact apart
  · rw [skipComment?_eq_none other] at skipped
    cases skipped

theorem TreesText.completes {trees : List TreeSource} (treesText : TreesText text trees)
    (blankLine : Bool) (apart : blankLine = true ∨ ContinuesWithout '#' text) :
    Completes (TreesText · trees) (outside 0 blankLine) text := by
  induction treesText generalizing blankLine with
  | nothing => exact completes_nothing _
  | lastComment skipped blank =>
    rw [eq_true_of_comment apart skipped]
    exact completes_lastComment skipped blank
  | comment skipped _ ih =>
    rw [eq_true_of_comment apart skipped]
    exact completes_commentLine skipped (ih true (.inl rfl))
  | tree first _ ih =>
    have tree := (tracks_treeText blankLine).leads first
    have others := completes_behindNode ih
    constructor
    · exact tree.fits others.fits
    · intro revised revises
      rcases tree.revises revises with ⟨after, first, revises⟩
      exact .tree first (others.revises revises)

/-- An accepted text has comments only where there is a place for them. -/
theorem TreesText.fits {trees : List TreeSource} (treesText : TreesText (skipBlanks text) trees) :
    Fits .start text :=
  (completes_behindBlanks (treesText.completes true (.inl rfl))).fits

/-- A revision says the same as the text. -/
theorem TreesText.revise {trees : List TreeSource}
    (treesText : TreesText (skipBlanks text) trees) (revises : Revises .start text revised) :
    TreesText (skipBlanks revised) trees :=
  (completes_behindBlanks (treesText.completes true (.inl rfl))).revises revises

end BehaviorTree
