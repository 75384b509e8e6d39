import BehaviorTree.Proofs.Source.Revision
import Mathlib

/-!
# Where a comment makes no difference

A comment that is put before the end of a line makes no difference behind a node, between children
and between definitions. In a list of ports or parameters and between the `=` of a definition and
its node, it makes an accepted text a refused one. On a line of its own outside of the definitions
a comment has to be followed by a line feed, or else by nothing but blanks.
-/

namespace BehaviorTree

open MissionText

variable {before after note : List Char} {lineEnd : Char}

/-- A text with a comment in front of the end of a line. -/
def withComment (before note : List Char) (lineEnd : Char) (after : List Char) : String :=
  String.ofList (before ++ ' ' :: '#' :: ' ' :: note ++ lineEnd :: after)

theorem isRemark_comment (within : ∀ c ∈ note, isLineEnd c = false) :
    IsRemark (' ' :: '#' :: ' ' :: note) :=
  ⟨[' '], ' ' :: note, rfl, List.forall_mem_singleton.2 rfl, List.forall_mem_cons.2 ⟨rfl, within⟩⟩

/-- A comment that is admitted before the end of a line is a revision of the text. -/
theorem revises_withComment (ends : isLineEnd lineEnd = true)
    (within : ∀ c ∈ note, isLineEnd c = false)
    (admitted : (Surroundings.start.along before).AdmitsRemark lineEnd after) :
    Revises .start (before ++ lineEnd :: after)
      (before ++ ' ' :: '#' :: ' ' :: note ++ lineEnd :: after) := by
  rw [List.append_assoc]
  exact .append (.remark (isRemark_comment within) ends admitted (.refl _ after))

/-- A comment that fits its place was admitted there. -/
theorem admitsRemark_of_fits {place : Surroundings} (unquoted : place.region ≠ .quote)
    (ends : isLineEnd lineEnd = true) (within : ∀ c ∈ note, isLineEnd c = false)
    (fits : Fits place (' ' :: '#' :: ' ' :: note ++ lineEnd :: after)) :
    place.AdmitsRemark lineEnd after := by
  cases region : place.region with
  | quote => exact absurd region unquoted
  | comment => exact .inl region
  | code =>
    have isRemark := isRemark_comment within
    have hash := fits.2.1
    rw [Surroundings.step_lineBlank region (by decide)] at hash
    have opened : place.shut = false := by
      rw [Bool.eq_false_iff]
      intro shut
      cases hash.1 shut
    have ⟨noList, noEquals⟩ := hash.2 region rfl
    refine .inr ⟨region, noList, noEquals, fun apart => ⟨opened, ?_⟩⟩
    rw [fits_append, isRemark.along region] at fits
    simp only [isLineEnd, Bool.or_eq_true, beq_iff_eq] at ends
    rcases ends with rfl | rfl
    · exact .inl rfl
    · exact .inr (blank_of_fits fits.2.2 rfl (Surroundings.shut_step rfl apart))

/-- A comment before the end of a line outside of texts in quotes makes no difference to an accepted
text where it is admitted: in a comment, or where the line end is neither in a list nor behind the
`=` of a definition and, if the comment has its line outside of the definitions for itself, no
comment there ended with a carriage return before and the line ends with a line feed or nothing but
blanks follow. Everywhere else the text with the comment is refused. -/
theorem comment_is_neutral_iff_admitted {mission : MissionSource}
    (accepted : MissionSource.ofText (String.ofList (before ++ lineEnd :: after)) = .ok mission)
    (ends : isLineEnd lineEnd = true)
    (unquoted : (Surroundings.start.along before).region ≠ .quote)
    (within : ∀ c ∈ note, isLineEnd c = false) :
    ((Surroundings.start.along before).AdmitsRemark lineEnd after →
      MissionSource.ofText (withComment before note lineEnd after) = .ok mission) ∧
    (¬(Surroundings.start.along before).AdmitsRemark lineEnd after →
      ∃ error, MissionSource.ofText (withComment before note lineEnd after) = .error error) := by
  rw [ofText_eq_ok_iff, String.toList_ofList] at accepted
  constructor
  · intro admitted
    rw [ofText_eq_ok_iff, withComment, String.toList_ofList]
    exact accepted.revise (revises_withComment ends within admitted)
  · intro refused
    apply exists_error_of_refused
    intro trees treesText
    rw [withComment, String.toList_ofList] at treesText
    have fits := treesText.fits
    rw [List.append_assoc, fits_append] at fits
    exact refused (admitsRemark_of_fits unquoted ends within fits.2)

/-- A mission up to the end of the line of a child. -/
def missionUpToChild : List Char := "tree main = All \x7b\nStop".toList

/-- A comment may be put behind a child. -/
theorem comment_behind_child_is_neutral :
    MissionSource.ofText (String.ofList (missionUpToChild ++ '\n' :: ['\x7d'])) =
        .ok ⟨[⟨"main", [], .node "All" none [] [.node "Stop" none [] []]⟩]⟩ ∧
      isLineEnd '\n' = true ∧
      (Surroundings.start.along missionUpToChild).region ≠ .quote ∧
      (∀ c ∈ ['x'], isLineEnd c = false) ∧
      (Surroundings.start.along missionUpToChild).AdmitsRemark '\n' ['\x7d'] ∧
      MissionSource.ofText (withComment missionUpToChild ['x'] '\n' ['\x7d']) =
        .ok ⟨[⟨"main", [], .node "All" none [] [.node "Stop" none [] []]⟩]⟩ := by
  have accepted : MissionSource.ofText (String.ofList (missionUpToChild ++ '\n' :: ['\x7d'])) =
      .ok ⟨[⟨"main", [], .node "All" none [] [.node "Stop" none [] []]⟩]⟩ := by cbv
  have unquoted : (Surroundings.start.along missionUpToChild).region ≠ .quote := by
    decide +kernel
  have within : ∀ c ∈ ['x'], isLineEnd c = false := List.forall_mem_singleton.2 rfl
  have admitted : (Surroundings.start.along missionUpToChild).AdmitsRemark '\n' ['\x7d'] := by
    decide +kernel
  exact ⟨accepted, rfl, unquoted, within, admitted,
    (comment_is_neutral_iff_admitted accepted rfl unquoted within).1 admitted⟩

/-- A comment makes an accepted text a refused one in a list, behind the `=` of a definition, and
on a line of its own outside of the definitions if the line ends with a carriage return. -/
theorem misplaced_comments_are_refused :
    (MissionSource.ofText
        (String.ofList ("tree main = Sleep (".toList ++ '\n' :: "seconds <- 1)".toList)) =
        .ok ⟨[⟨"main", [], .node "Sleep" none [⟨.input, "seconds", .constant (.int 1)⟩] []⟩]⟩ ∧
      (Surroundings.start.along "tree main = Sleep (".toList).region = .code ∧
      MissionSource.ofText
        (withComment "tree main = Sleep (".toList ['x'] '\n' "seconds <- 1)".toList) =
        .error (.unexpectedInput ⟨1, "( # x\nseconds <- 1)"⟩)) ∧
    (MissionSource.ofText (String.ofList ("tree main =".toList ++ '\n' :: "Stop".toList)) =
        .ok ⟨[⟨"main", [], .node "Stop" none [] []⟩]⟩ ∧
      (Surroundings.start.along "tree main =".toList).region = .code ∧
      MissionSource.ofText (withComment "tree main =".toList ['x'] '\n' "Stop".toList) =
        .error (.unexpectedInput ⟨1, "tree main = # x\nStop"⟩)) ∧
    MissionSource.ofText (String.ofList ([] ++ '\r' :: "\ntree main = Stop".toList)) =
        .ok ⟨[⟨"main", [], .node "Stop" none [] []⟩]⟩ ∧
      (Surroundings.start.along []).region = .code ∧
      MissionSource.ofText (withComment [] ['x'] '\r' "\ntree main = Stop".toList) =
        .error (.unexpectedInput ⟨2, "tree main = Stop"⟩) :=
  ⟨⟨by cbv, by cbv, by cbv⟩, ⟨by cbv, by cbv, by cbv⟩, by cbv, by cbv, by cbv⟩

end BehaviorTree
