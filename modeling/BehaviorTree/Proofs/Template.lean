import BehaviorTree.Proofs.Engine.Outcome
import BehaviorTree.Proofs.Source.Spans
import BehaviorTree.Template
import Mathlib

/-!
# Templates put together

A template is read piece by piece, and no piece depends on what stands behind it: a placeholder ends
with its closing brace, and a doubled brace is taken as soon as it is seen. So two templates, one
behind the other, have the pieces of both. They are rendered one after the other: all placeholders
are looked up from left to right, up to the first one that fails, which decides the error.
-/

namespace BehaviorTree

namespace Template

variable {text front back rest : List Char}

/-- What takes no closing brace takes nothing from behind one. -/
theorem takeWhile_append {within : Char → Bool} (outside : within '}' = false)
    (closes : '}' ∈ text) (more : List Char) :
    (text ++ more).takeWhile within = text.takeWhile within ∧
      (text ++ more).dropWhile within = text.dropWhile within ++ more ∧
      '}' ∈ text.dropWhile within := by
  induction text with
  | nil => cases closes
  | cons first others ih =>
    cases taken : within first with
    | false => simpa [taken] using closes
    | true =>
      have later : '}' ∈ others := by
        rcases List.mem_cons.1 closes with rfl | later
        · rw [outside] at taken
          cases taken
        · exact later
      simpa [taken] using ih later

theorem identifierOfText?_append (closes : '}' ∈ text) (more : List Char) :
    identifierOfText? (text ++ more) =
      (identifierOfText? text).map fun (name, rest) => (name, rest ++ more) := by
  cases text with
  | nil => cases closes
  | cons first others =>
    rw [List.cons_append, identifierOfText?, identifierOfText?]
    cases starts : startsIdentifier first with
    | false => rfl
    | true =>
      have later : '}' ∈ others := by
        rcases List.mem_cons.1 closes with rfl | later
        · cases starts
        · exact later
      obtain ⟨taken, left, -⟩ := takeWhile_append (by decide : continuesIdentifier '}' = false)
        later more
      simp [taken, left]

theorem segmentsOfText_append (closes : '}' ∈ text) (more : List Char) :
    segmentsOfText (text ++ more) = ((segmentsOfText text).1, (segmentsOfText text).2 ++ more) := by
  have outside : isWordCharacter '}' = false := by decide
  fun_induction segmentsOfText text with
  | case1 rest none =>
    obtain ⟨taken, -, -⟩ := takeWhile_append outside (List.mem_of_ne_of_mem (by decide) closes) more
    rw [List.cons_append, segmentsOfText]
    simp only [taken, none, if_true]
  | case2 rest some segments ending later ih =>
    obtain ⟨taken, left, remains⟩ :=
      takeWhile_append outside (List.mem_of_ne_of_mem (by decide) closes) more
    have ih := ih remains
    rw [later] at ih
    rw [List.cons_append, segmentsOfText]
    simp only [taken, left, some, ih]
    rfl
  | case3 text other =>
    cases text with
    | nil => cases closes
    | cons first others =>
      rw [List.cons_append, segmentsOfText]
      rintro rest ⟨rfl, -⟩
      exact other others rfl

/-- A reader of words leaves a closing brace for its successor. -/
theorem mem_of_reads {α : Type} {read : List Char → Option (α × List Char)} {value : α}
    (reads : MissionText.IsWordReader read) (closes : '}' ∈ text)
    (done : read text = some (value, rest)) : '}' ∈ rest := by
  obtain ⟨word, rfl, -, plain⟩ := reads.takes done
  rcases List.mem_append.1 closes with inside | behind
  · exact absurd (plain '}' inside) (by decide)
  · exact behind

theorem pathOfText?_append (closes : '}' ∈ text) (more : List Char) :
    pathOfText? (text ++ more) =
      (pathOfText? text).map fun (path, rest) => (path, rest ++ more) := by
  unfold pathOfText?
  rw [identifierOfText?_append closes]
  cases named : identifierOfText? text with
  | none => rfl
  | some result =>
    have remains := mem_of_reads MissionText.isWordReader_identifierOfText? closes named
    simp [segmentsOfText_append remains]

/-- Places are read as far as their mark at most, and a closing brace is none of their digits. -/
theorem readPlaces_append (closes : '}' ∈ text) (more : List Char) :
    readPlaces (text ++ more) = ((readPlaces text).1, (readPlaces text).2 ++ more) ∧
      '}' ∈ (readPlaces text).2 := by
  rcases text with _ | ⟨first, _ | ⟨second, digits⟩⟩
  · cases closes
  · obtain rfl : '}' = first := List.mem_singleton.1 closes
    exact ⟨rfl, closes⟩
  · by_cases marked : first = ':' ∧ second = '.'
    · obtain ⟨rfl, rfl⟩ := marked
      have later : '}' ∈ digits :=
        List.mem_of_ne_of_mem (by decide) (List.mem_of_ne_of_mem (by decide) closes)
      obtain ⟨taken, left, remains⟩ :=
        takeWhile_append (by decide : Char.isDigit '}' = false) later more
      simp only [List.cons_append, readPlaces, taken, left]
      cases naturalOfText? 0x10000000000000000 (String.ofList (digits.takeWhile Char.isDigit)) with
      | none => exact ⟨rfl, closes⟩
      | some places =>
        rcases ending : digits.dropWhile Char.isDigit with _ | ⟨next, others⟩
        · simp [ending] at remains
        · rw [ending] at remains
          by_cases fixed : next = 'f'
          · subst fixed
            exact ⟨rfl, List.mem_of_ne_of_mem (by decide) remains⟩
          · simp [fixed, closes]
    · have unplaced : ∀ tail, readPlaces (first :: second :: tail) =
          (none, first :: second :: tail) := by
        intro tail
        unfold readPlaces
        split
        · rename_i same
          cases same
          exact absurd ⟨rfl, rfl⟩ marked
        · rfl
      rw [List.cons_append, List.cons_append, unplaced, unplaced]
      exact ⟨rfl, closes⟩

theorem readPlaceholder?_append (closes : '}' ∈ text) (more : List Char) :
    readPlaceholder? (text ++ more) =
      (readPlaceholder? text).map fun (piece, rest) => (piece, rest ++ more) := by
  have outside : isInlineBlank '}' = false := by decide
  obtain ⟨-, left, remains⟩ := takeWhile_append outside closes more
  unfold readPlaceholder?
  rw [left, pathOfText?_append remains]
  cases named : pathOfText? (text.dropWhile isInlineBlank) with
  | none => rfl
  | some result =>
    obtain ⟨path, rest⟩ := result
    have behind := mem_of_reads MissionText.isWordReader_pathOfText? remains named
    obtain ⟨-, afterPath, open_⟩ := takeWhile_append outside behind more
    obtain ⟨places, placed⟩ := readPlaces_append open_ more
    obtain ⟨-, afterPlaces, closing⟩ := takeWhile_append outside placed more
    simp only [Option.map_some, afterPath, places, afterPlaces]
    cases ending : (readPlaces (rest.dropWhile isInlineBlank)).2.dropWhile isInlineBlank with
    | nil => simp [ending] at closing
    | cons first others =>
      by_cases brace : first = '}'
      · simp [brace]
      · simp [brace]

theorem readPlaces_suffix (text : List Char) : (readPlaces text).2 <:+ text := by
  unfold readPlaces
  split
  · rename_i rest
    have digits : rest.dropWhile Char.isDigit <:+ ':' :: '.' :: rest :=
      ((List.dropWhile_suffix _).trans (List.suffix_cons _ _)).trans (List.suffix_cons _ _)
    split
    · rename_i others _ ending
      rw [ending] at digits
      exact (List.suffix_cons _ _).trans digits
    · exact List.suffix_rfl
  · exact List.suffix_rfl

/-- A placeholder has a closing brace. -/
theorem mem_of_readPlaceholder? {piece : TemplatePiece}
    (read : readPlaceholder? text = some (piece, rest)) : '}' ∈ text := by
  unfold readPlaceholder? at read
  split at read
  · cases read
  · rename_i path behind named
    dsimp only at read
    split at read
    · rename_i others ending
      obtain ⟨word, split, -⟩ := MissionText.isWordReader_pathOfText?.takes named
      have closing : '}' ∈ (readPlaces (behind.dropWhile isInlineBlank)).2 :=
        (List.dropWhile_suffix _).subset (ending ▸ List.mem_cons_self)
      have remains := (List.dropWhile_suffix _).subset ((readPlaces_suffix _).subset closing)
      apply (List.dropWhile_suffix isInlineBlank).subset
      rw [split]
      exact List.mem_append_right word remains
    · cases read

theorem readPieces?_append {fuel more : Nat} {text back : List Char}
    {pieces backPieces : List TemplatePiece} (first : readPieces? fuel text = some pieces)
    (second : ∀ extra, readPieces? (extra + more) back = some backPieces) :
    readPieces? (fuel + more) (text ++ back) = some (pieces ++ backPieces) := by
  fun_induction readPieces? fuel text generalizing pieces with
  | case1 fuel =>
    cases first
    exact second fuel
  | case2 text some => cases first
  | case3 fuel rest ih =>
    obtain ⟨others, read, rfl⟩ := Option.map_eq_some_iff.1 first
    rw [Nat.succ_add, List.cons_append, List.cons_append, readPieces?, ih read]
    rfl
  | case4 fuel rest ih =>
    obtain ⟨others, read, rfl⟩ := Option.map_eq_some_iff.1 first
    rw [Nat.succ_add, List.cons_append, List.cons_append, readPieces?, ih read]
    rfl
  | case5 fuel tail single => cases first
  | case6 fuel rest single unread => cases first
  | case7 fuel text single piece rest placed ih =>
    obtain ⟨others, read, rfl⟩ := Option.map_eq_some_iff.1 first
    have closes := mem_of_readPlaceholder? placed
    rw [Nat.succ_add, List.cons_append, readPieces?, readPlaceholder?_append closes, placed]
    · simp only [Option.map_some, ih read, List.cons_append]
    · intro behind same
      cases text with
      | nil => cases closes
      | cons next others =>
        cases same
        exact single others rfl
  | case8 fuel character rest notOpening notClosing noClosing noOpening ih =>
    obtain ⟨others, read, rfl⟩ := Option.map_eq_some_iff.1 first
    rw [Nat.succ_add, List.cons_append, readPieces?, ih read]
    · rfl
    · exact fun _ opening => absurd opening noOpening
    · exact fun _ closing => absurd closing noClosing
    · exact noClosing
    · exact noOpening

theorem ofText?_append {first second : String} {pieces more : List TemplatePiece}
    (one : ofText? first = some pieces) (two : ofText? second = some more) :
    ofText? (first ++ second) = some (pieces ++ more) := by
  have enough : ∀ extra, readPieces? (extra + second.length) second.toList = some more := by
    intro extra
    have nothing : ∀ fuel, readPieces? (fuel + extra) [] = some [] := by simp [readPieces?]
    rw [Nat.add_comm, ← List.append_nil second.toList, ← List.append_nil more]
    exact readPieces?_append two nothing
  unfold ofText?
  rw [String.length_append, String.toList_append]
  exact readPieces?_append one enough

def doubleBrace (character : Char) : List Char :=
  if character = '{' ∨ character = '}' then [character, character] else [character]

/-- A text with each brace doubled. -/
def doubleBraces (text : String) : String := String.ofList (text.toList.flatMap doubleBrace)

theorem ofText?_doubleBrace (character : Char) :
    ofText? (String.ofList (doubleBrace character)) = some [.literal character] := by
  unfold ofText?
  rw [String.length_ofList, String.toList_ofList]
  by_cases opening : character = '{'
  · subst opening
    rfl
  · by_cases closing : character = '}'
    · subst closing
      rfl
    · simp only [doubleBrace, opening, closing, or_self, if_false, List.length_singleton]
      rw [readPieces?]
      · rfl
      all_goals simp [opening, closing]

/-- A text with doubled braces is a template without placeholders. -/
theorem ofText?_doubleBraces (text : String) :
    ofText? (doubleBraces text) = some (text.toList.map .literal) := by
  unfold doubleBraces
  induction text.toList with
  | nil => rfl
  | cons character rest ih =>
    rw [List.flatMap_cons, String.ofList_append]
    exact ofText?_append (ofText?_doubleBrace character) ih

section Rendering

variable {m : Type → Type} [Monad m] [LawfulMonad m]
  (lookup : String → ExceptT BlackboardError m Value)

theorem renderPieces_append (pieces more : List TemplatePiece) :
    renderPieces lookup (pieces ++ more) = do
      let front ← renderPieces lookup pieces
      let back ← renderPieces lookup more
      return front ++ back := by
  induction pieces with
  | nil => simp only [List.nil_append, renderPieces, pure_bind, String.empty_append, bind_pure]
  | cons piece pieces ih =>
    simp only [List.cons_append, renderPieces, ih, bind_assoc, pure_bind, String.append_assoc]

theorem renderPieces_literals (characters : List Char) :
    renderPieces lookup (characters.map .literal) = pure (String.ofList characters) := by
  induction characters with
  | nil => rfl
  | cons character rest ih =>
    simp only [List.map_cons, renderPieces, renderPiece, ih, pure_bind]
    rw [← List.singleton_append, String.ofList_append]
    rfl

end Rendering

/-- The paths of the placeholders among some pieces, from left to right. -/
def paths : List TemplatePiece → List String
  | [] => []
  | .literal _ :: pieces => paths pieces
  | .placeholder path _ :: pieces => path :: paths pieces

section Lookups

variable {σ : Type} {lookup : String → ExceptT BlackboardError (StateM σ) Value}
  {piece : TemplatePiece} {pieces : List TemplatePiece} {state middle : σ}
  {asked : List String}

/-- A lookup that also notes which paths are looked up. -/
def noting (lookup : String → ExceptT BlackboardError (StateM σ) Value) (path : String) :
    ExceptT BlackboardError (StateM (σ × List String)) Value :=
  ExceptT.mk fun (state, asked) =>
    let (result, after) := outcome (lookup path) state
    (result, after, asked ++ [path])

/-- What is looked up when some pieces are rendered: everything, or what stands in front of the
first placeholder that fails, and this placeholder, which decides the error. -/
inductive Rendering (lookup : String → ExceptT BlackboardError (StateM σ) Value) (state : σ)
    (pieces : List TemplatePiece) : Except BlackboardError String × σ → List String → Prop
  | complete {text : String} {after : σ}
      (rendered : outcome (renderPieces lookup pieces) state = (.ok text, after)) :
      Rendering lookup state pieces (.ok text, after) (paths pieces)
  | stopped {before rest : List TemplatePiece} {path : String} {places : Option Nat} {text : String}
      {middle after : σ} {error : BlackboardError}
      (split : pieces = before ++ .placeholder path places :: rest)
      (rendered : outcome (renderPieces lookup before) state = (.ok text, middle))
      (failed : outcome (renderPiece lookup (.placeholder path places)) middle =
        (.error error, after)) :
      Rendering lookup state pieces (.error error, after) (paths before ++ [path])

theorem outcome_renderPieces_cons (piece : TemplatePiece) (pieces : List TemplatePiece)
    (state : σ) :
    outcome (renderPieces lookup (piece :: pieces)) state =
      match outcome (renderPiece lookup piece) state with
      | (.ok front, middle) =>
        ((outcome (renderPieces lookup pieces) middle).1.map (front ++ ·),
          (outcome (renderPieces lookup pieces) middle).2)
      | (.error error, middle) => (.error error, middle) := by
  rw [renderPieces, outcome_bind]
  rcases outcome (renderPiece lookup piece) state with ⟨error | front, middle⟩
  · rfl
  · dsimp only
    rw [outcome_bind]
    rcases outcome (renderPieces lookup pieces) middle with ⟨error | back, after⟩ <;> rfl

/-- Notes do not change what a piece is rendered as. -/
theorem outcome_renderPiece_noting (piece : TemplatePiece) (state : σ) (asked : List String) :
    outcome (renderPiece (noting lookup) piece) (state, asked) =
      ((outcome (renderPiece lookup piece) state).1, (outcome (renderPiece lookup piece) state).2,
        asked ++ paths [piece]) := by
  cases piece with
  | literal character => simp only [paths, List.append_nil]; rfl
  | placeholder path places =>
    have noted : outcome (noting lookup path) (state, asked) =
        ((outcome (lookup path) state).1, (outcome (lookup path) state).2, asked ++ [path]) := rfl
    simp only [renderPiece, outcome_bind, noted]
    rcases outcome (lookup path) state with ⟨error | value, after⟩ <;> rfl

theorem Rendering.cons_ok {front : String} {result : Except BlackboardError String × σ}
    (rendered : outcome (renderPiece lookup piece) state = (.ok front, middle))
    (rendering : Rendering lookup middle pieces result asked) :
    Rendering lookup state (piece :: pieces) (result.1.map (front ++ ·), result.2)
      (paths [piece] ++ asked) := by
  have asks : ∀ more, paths (piece :: more) = paths [piece] ++ paths more := by
    intro more
    cases piece <;> rfl
  cases rendering with
  | complete done =>
    rw [← asks]
    apply Rendering.complete
    rw [outcome_renderPieces_cons, rendered]
    simp only [done]
    rfl
  | @stopped before rest path places text last _ _ split done failed =>
    have longer : piece :: pieces = (piece :: before) ++ .placeholder path places :: rest := by
      rw [split, List.cons_append]
    have further : outcome (renderPieces lookup (piece :: before)) state =
        (.ok (front ++ text), last) := by
      rw [outcome_renderPieces_cons, rendered]
      simp only [done]
      rfl
    rw [← List.append_assoc, ← asks]
    exact .stopped longer further failed

/-- Pieces are looked up up to the first one that fails, and notes change nothing about that. -/
theorem rendering_noting (lookup : String → ExceptT BlackboardError (StateM σ) Value)
    (pieces : List TemplatePiece) (state : σ) (asked : List String) :
    ∃ more, Rendering lookup state pieces (outcome (renderPieces lookup pieces) state) more ∧
      outcome (renderPieces (noting lookup) pieces) (state, asked) =
        ((outcome (renderPieces lookup pieces) state).1,
          (outcome (renderPieces lookup pieces) state).2, asked ++ more) := by
  induction pieces generalizing state asked with
  | nil => exact ⟨[], .complete rfl, by rw [List.append_nil]; rfl⟩
  | cons piece pieces ih =>
    rw [outcome_renderPieces_cons, outcome_renderPieces_cons, outcome_renderPiece_noting]
    rcases rendered : outcome (renderPiece lookup piece) state with ⟨error | front, middle⟩
    · refine ⟨paths [piece], ?_, rfl⟩
      cases piece with
      | literal character => cases rendered
      | placeholder path places =>
        have split : .placeholder path places :: pieces =
            [] ++ .placeholder path places :: pieces := rfl
        exact .stopped split rfl rendered
    · obtain ⟨more, rendering, noted⟩ := ih middle (asked ++ paths [piece])
      refine ⟨paths [piece] ++ more, rendering.cons_ok rendered, ?_⟩
      simp only [noted, List.append_assoc]

end Lookups

/-- Two templates make a template, which is rendered as the first one and then the second one: what
the second one asks for is looked up after everything that the first one asks for, and not at all if
the first one fails. A text with doubled braces is a template, too, for which nothing is looked
up. -/
theorem templates_concatenate :
    (∀ (front back : String) (pieces more : List TemplatePiece),
      ofText? front = some pieces → ofText? back = some more →
      ofText? (front ++ back) = some (pieces ++ more) ∧
      (∀ (m : Type → Type) [Monad m] [LawfulMonad m]
        (lookup : String → ExceptT BlackboardError m Value),
        render (front ++ back) lookup = do
          let text ← render front lookup
          let rest ← render back lookup
          return text ++ rest) ∧
      ∀ (σ : Type) (lookup : String → ExceptT BlackboardError (StateM σ) Value) (state : σ),
        ∃ asked,
          Rendering lookup state (pieces ++ more) (outcome (render (front ++ back) lookup) state)
            asked ∧
          outcome (render (front ++ back) (noting lookup)) (state, []) =
            ((outcome (render (front ++ back) lookup) state).1,
              (outcome (render (front ++ back) lookup) state).2, asked)) ∧
    ∀ text : String, (ofText? (doubleBraces text)).isSome ∧
      ∀ (m : Type → Type) [Monad m] [LawfulMonad m]
        (lookup : String → ExceptT BlackboardError m Value),
        render (doubleBraces text) lookup = pure text := by
  refine ⟨fun front back pieces more read readMore => ?_, fun text => ⟨?_, ?_⟩⟩
  · have both := ofText?_append read readMore
    refine ⟨both, ?_, ?_⟩
    · intro m _ _ lookup
      simp only [render, both, read, readMore, renderPieces_append]
    · intro σ lookup state
      simp only [render, both]
      obtain ⟨asked, rendering, noted⟩ := rendering_noting lookup (pieces ++ more) state []
      exact ⟨asked, rendering, noted⟩
  · rw [ofText?_doubleBraces]
    rfl
  · intro m _ _ lookup
    simp only [render, ofText?_doubleBraces, renderPieces_literals, String.ofList_toList]

/-- A closing brace that belongs to a placeholder is not taken for one of a doubled brace. -/
theorem placeholder_before_brace :
    ofText? "\x7bx\x7d" = some [.placeholder "x" none] ∧
      ofText? "\x7d\x7d" = some [.literal '}'] ∧
      ∀ lookup : String → ExceptT BlackboardError Id Value,
        render ("\x7bx\x7d" ++ "\x7d\x7d") lookup = do
          let text ← render "\x7bx\x7d" lookup
          let rest ← render "\x7d\x7d" lookup
          return text ++ rest := by
  have placeholder : ofText? "\x7bx\x7d" = some [.placeholder "x" none] := by cbv
  have brace : ofText? "\x7d\x7d" = some [.literal '}'] := by cbv
  exact ⟨placeholder, brace, (templates_concatenate.1 _ _ _ _ placeholder brace).2.1 Id⟩

end Template

end BehaviorTree
