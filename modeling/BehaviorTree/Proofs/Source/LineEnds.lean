import BehaviorTree.Proofs.Source.Revision
import Mathlib

/-!
# Ends of lines with carriage returns

Lines may end with a carriage return and a line feed instead of a line feed alone, but for one
place: a comment that has its line outside of the definitions for itself is followed by a line feed
or by nothing but blanks. Where such a comment stands in front of a definition or of another such
comment, the text with carriage returns is refused.
-/

namespace BehaviorTree

open MissionText

variable {place : Surroundings} {text before after : List Char}

/-- A carriage return in front of every line feed. -/
def withReturns (text : List Char) : List Char :=
  text.flatMap fun character => if character = '\n' then ['\r', '\n'] else [character]

theorem withReturns_lineFeed (text : List Char) :
    withReturns ('\n' :: text) = '\r' :: '\n' :: withReturns text :=
  rfl

theorem withReturns_cons {character : Char} (other : character ≠ '\n') (text : List Char) :
    withReturns (character :: text) = character :: withReturns text := by
  rw [withReturns, List.flatMap_cons, if_neg other]
  rfl

theorem withReturns_append (before after : List Char) :
    withReturns (before ++ after) = withReturns before ++ withReturns after :=
  List.flatMap_append

theorem blank_withReturns (blank : ∀ c ∈ text, isBlank c = true) :
    ∀ c ∈ withReturns text, isBlank c = true := by
  induction text with
  | nil => exact blank
  | cons first more ih =>
    rw [List.forall_mem_cons] at blank
    by_cases lineFeed : first = '\n'
    · rw [lineFeed, withReturns_lineFeed]
      exact List.forall_mem_cons.2 ⟨rfl, List.forall_mem_cons.2 ⟨rfl, ih blank.2⟩⟩
    · rw [withReturns_cons lineFeed]
      exact List.forall_mem_cons.2 ⟨blank.1, ih blank.2⟩

theorem blank_of_withReturns (blank : ∀ c ∈ withReturns text, isBlank c = true) :
    ∀ c ∈ text, isBlank c = true := by
  intro c listed
  apply blank
  refine List.mem_flatMap.2 ⟨c, listed, ?_⟩
  split
  · rename_i lineFeed
    simp [lineFeed]
  · simp

/-- Carriage returns that are admitted before all line feeds are a revision of the text. -/
theorem revises_withReturns
    (admitted : ∀ before after, text = before ++ '\n' :: after →
      (place.along before).AdmitsReturn after) : Revises place text (withReturns text) := by
  induction text generalizing place with
  | nil => exact .nil place
  | cons first more ih =>
    have others : Revises (place.step first) more (withReturns more) := by
      apply ih
      rintro before after rfl
      exact admitted (first :: before) after rfl
    by_cases lineFeed : first = '\n'
    · subst lineFeed
      have here := admitted [] more rfl
      refine .return ⟨here.1, fun comment apart => ?_⟩ others
      exact blank_withReturns (here.2 comment apart)
    · rw [withReturns_cons lineFeed]
      exact .keep first others

/-- Whether the last comment was passed makes no difference to a step but to itself. -/
theorem exists_step_shut (place : Surroundings) (shut : Bool) (character : Char) :
    ∃ behind, ({ place with shut } : Surroundings).step character =
      { place.step character with shut := behind } := by
  rcases place with ⟨region, inList, afterEquals, depth, blankLine, shut'⟩
  cases region with
  | code =>
    refine ⟨shut, ?_⟩
    simp only [Surroundings.step]
    split
    · rfl
    · split
      · rfl
      · split <;> rfl
  | quote =>
    refine ⟨shut, ?_⟩
    simp only [Surroundings.step]
    split <;> rfl
  | comment =>
    simp only [Surroundings.step]
    split
    · exact ⟨_, rfl⟩
    · exact ⟨shut, rfl⟩

theorem exists_step_return (place : Surroundings) (shut : Bool) :
    ∃ behind, (({ place with shut } : Surroundings).step '\r').step '\n' =
      { place.step '\n' with shut := behind } := by
  rcases place with ⟨region, inList, afterEquals, depth, blankLine, shut'⟩
  cases region <;> exact ⟨_, rfl⟩

/-- Carriage returns in front of a place may only make the last comment end there. -/
theorem exists_along_withReturns (place : Surroundings) (shut : Bool) (text : List Char) :
    ∃ behind, ({ place with shut } : Surroundings).along (withReturns text) =
      { place.along text with shut := behind } := by
  induction text generalizing place shut with
  | nil => exact ⟨shut, rfl⟩
  | cons first more ih =>
    by_cases lineFeed : first = '\n'
    · subst lineFeed
      rcases exists_step_return place shut with ⟨behind, steps⟩
      rcases ih (place.step '\n') behind with ⟨further, along⟩
      refine ⟨further, ?_⟩
      rw [withReturns_lineFeed, Surroundings.along_cons, Surroundings.along_cons, steps, along]
      rfl
    · rcases exists_step_shut place shut first with ⟨behind, steps⟩
      rcases ih (place.step first) behind with ⟨further, along⟩
      refine ⟨further, ?_⟩
      rw [withReturns_cons lineFeed, Surroundings.along_cons, steps, along]
      rfl

/-- Carriage returns that fit were admitted. -/
theorem admitsReturn_of_fits (unquoted : (place.along before).region ≠ .quote)
    (fits : Fits place (withReturns (before ++ '\n' :: after))) :
    (place.along before).AdmitsReturn after := by
  refine ⟨unquoted, fun comment apart => ?_⟩
  rcases exists_along_withReturns place place.shut before with ⟨behind, along⟩
  rw [withReturns_append, withReturns_lineFeed, fits_append, along] at fits
  have blank := blank_of_fits fits.2.2 ?_ (Surroundings.shut_step comment apart)
  · exact blank_of_withReturns (List.forall_mem_cons.1 blank).2
  · simp [Surroundings.step, comment, isLineEnd]

/-- The ends of lines of an accepted text make no difference if nothing but blanks follows any
comment that has its line outside of the definitions for itself. Otherwise the text with carriage
returns is refused. -/
theorem line_ends_are_alike_iff_admitted {mission : MissionSource}
    (accepted : MissionSource.ofText (String.ofList text) = .ok mission)
    (unquoted : ∀ before after, text = before ++ '\n' :: after →
      (Surroundings.start.along before).region ≠ .quote) :
    ((∀ before after, text = before ++ '\n' :: after →
        (Surroundings.start.along before).AdmitsReturn after) →
      MissionSource.ofText (String.ofList (withReturns text)) = .ok mission) ∧
    ((¬∀ before after, text = before ++ '\n' :: after →
        (Surroundings.start.along before).AdmitsReturn after) →
      ∃ error, MissionSource.ofText (String.ofList (withReturns text)) = .error error) := by
  rw [ofText_eq_ok_iff, String.toList_ofList] at accepted
  constructor
  · intro admitted
    rw [ofText_eq_ok_iff, String.toList_ofList]
    exact accepted.revise (revises_withReturns admitted)
  · intro refused
    apply exists_error_of_refused
    intro trees treesText
    rw [String.toList_ofList] at treesText
    apply refused
    rintro before after rfl
    exact admitsReturn_of_fits (unquoted before after rfl) treesText.fits

/-- What is said of every line feed of a text can be checked place by place. -/
theorem forall_lineFeed {holds : List Char → List Char → Prop}
    (checked : ∀ place < text.length, text[place]? = some '\n' →
      holds (text.take place) (text.drop (place + 1))) :
    ∀ before after, text = before ++ '\n' :: after → holds before after := by
  rintro before after rfl
  have here := checked before.length (by simp) (by simp)
  rw [List.take_left, ← List.drop_drop, List.drop_left] at here
  exact here

/-- A mission with a comment among the children of a node. -/
def notedMission : List Char := "tree main = All \x7b # x\nStop\n\x7d\n".toList

/-- Comments within a definition may be followed by carriage returns. -/
theorem line_ends_of_noted_mission_are_alike :
    MissionSource.ofText (String.ofList notedMission) =
        .ok ⟨[⟨"main", [], .node "All" none [] [.node "Stop" none [] []]⟩]⟩ ∧
      (∀ before after, notedMission = before ++ '\n' :: after →
        (Surroundings.start.along before).region ≠ .quote) ∧
      (∀ before after, notedMission = before ++ '\n' :: after →
        (Surroundings.start.along before).AdmitsReturn after) ∧
      MissionSource.ofText (String.ofList (withReturns notedMission)) =
        .ok ⟨[⟨"main", [], .node "All" none [] [.node "Stop" none [] []]⟩]⟩ := by
  have accepted : MissionSource.ofText (String.ofList notedMission) =
      .ok ⟨[⟨"main", [], .node "All" none [] [.node "Stop" none [] []]⟩]⟩ := by cbv
  have admitted : ∀ before after, notedMission = before ++ '\n' :: after →
      (Surroundings.start.along before).AdmitsReturn after := by
    apply forall_lineFeed
    decide +kernel
  have unquoted : ∀ before after, notedMission = before ++ '\n' :: after →
      (Surroundings.start.along before).region ≠ .quote :=
    fun before after same => (admitted before after same).1
  exact ⟨accepted, unquoted, admitted,
    (line_ends_are_alike_iff_admitted accepted unquoted).1 admitted⟩

/-- A comment in front of the definitions may not be followed by a carriage return. -/
theorem comment_before_return_is_refused :
    '\r' ∉ "# x\ntree main = Stop".toList ∧
    (∀ before after, "# x\ntree main = Stop".toList = before ++ '\n' :: after →
      (Surroundings.start.along before).region ≠ .quote) ∧
    MissionSource.ofText (String.ofList "# x\ntree main = Stop".toList) =
      .ok ⟨[⟨"main", [], .node "Stop" none [] []⟩]⟩ ∧
    MissionSource.ofText (String.ofList (withReturns "# x\ntree main = Stop".toList)) =
      .error (.unexpectedInput ⟨2, "tree main = Stop"⟩) := by
  refine ⟨by decide +kernel, ?_, by cbv, by cbv⟩
  apply forall_lineFeed
  decide +kernel

end BehaviorTree
