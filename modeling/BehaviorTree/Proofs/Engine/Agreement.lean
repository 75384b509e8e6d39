import BehaviorTree.Proofs.Engine.Outcome

/-!
# Agreement of actions

Two actions agree if from states that are alike they have results that are related, or the same
error, and leave states that are alike. Only the first one may fail on its own, when it runs out of
something. Agreement is shown along the two actions at once: sequences agree if their parts do.
-/

namespace BehaviorTree

variable {ε α β γ δ ς : Type}

/-- What is to be alike when two actions agree. -/
structure Likeness (ε ς : Type) where
  states : ς → ς → Prop
  /-- What only happens to the first action. -/
  exhausted : ε → Prop

namespace Likeness

/-- Two actions end alike. -/
inductive Outcomes (likeness : Likeness ε ς) (after : α → β → ς → ς → Prop) :
    Except ε α × ς → Except ε β × ς → Prop where
  | done {first : α} {second : β} {older newer : ς} (holds : after first second older newer) :
      Outcomes likeness after (.ok first, older) (.ok second, newer)
  | failed {error : ε} {older newer : ς} (alike : likeness.states older newer) :
      Outcomes likeness after (.error error, older) (.error error, newer)
  | exhausted {error : ε} (out : likeness.exhausted error) (older : ς)
      (other : Except ε β × ς) : Outcomes likeness after (.error error, older) other

/-- Two actions that start alike end alike. -/
def Agree (likeness : Likeness ε ς) (related : α → β → Prop) (first : ExceptT ε (StateM ς) α)
    (second : ExceptT ε (StateM ς) β) : Prop :=
  ∀ older newer, likeness.states older newer →
    likeness.Outcomes
      (fun one other older newer => related one other ∧ likeness.states older newer)
      (outcome first older) (outcome second newer)

variable {likeness : Likeness ε ς} {related : α → β → Prop} {relatedNext : γ → δ → Prop}
  {first : ExceptT ε (StateM ς) α} {second : ExceptT ε (StateM ς) β}
  {firstNext : α → ExceptT ε (StateM ς) γ} {secondNext : β → ExceptT ε (StateM ς) δ}

theorem Outcomes.bind {after : α → β → ς → ς → Prop} {afterNext : γ → δ → ς → ς → Prop}
    {older newer : ς} (outcomes : likeness.Outcomes after (outcome first older)
      (outcome second newer))
    (rest : ∀ one other older newer, after one other older newer →
      likeness.Outcomes afterNext (outcome (firstNext one) older)
        (outcome (secondNext other) newer)) :
    likeness.Outcomes afterNext (outcome (first >>= firstNext) older)
      (outcome (second >>= secondNext) newer) := by
  rw [outcome_bind, outcome_bind]
  revert outcomes
  generalize outcome first older = one
  generalize outcome second newer = other
  intro outcomes
  cases outcomes with
  | done holds => exact rest _ _ _ _ holds
  | failed alike => exact .failed alike
  | exhausted out => exact .exhausted out _ _

/-- Outcomes stay alike when the states that were entered are left again. -/
theorem Outcomes.leave {one : Except ε α × ς} {other : Except ε β × ς} (left leftToo : ς → ς)
    (outcomes : likeness.Outcomes
      (fun first second older newer => related first second ∧ likeness.states older newer)
      one other)
    (kept : ∀ older newer, likeness.states older newer →
      likeness.states (left older) (leftToo newer)) :
    likeness.Outcomes
      (fun first second older newer => related first second ∧ likeness.states older newer)
      (one.1, left one.2) (other.1, leftToo other.2) := by
  cases outcomes with
  | done holds => exact .done ⟨holds.1, kept _ _ holds.2⟩
  | failed alike => exact .failed (kept _ _ alike)
  | exhausted out => exact .exhausted out _ _

namespace Agree

/-- Sequences of actions agree if their parts do. -/
theorem bind (agree : likeness.Agree related first second)
    (rest : ∀ one other, related one other →
      likeness.Agree relatedNext (firstNext one) (secondNext other)) :
    likeness.Agree relatedNext (first >>= firstNext) (second >>= secondNext) :=
  fun older newer alike => (agree older newer alike).bind fun one other older newer holds =>
    rest one other holds.1 older newer holds.2

/-- Sequences of actions agree, of which the first ones have the same result. -/
theorem andThen {first second : ExceptT ε (StateM ς) α} {secondNext : α → ExceptT ε (StateM ς) δ}
    (agree : likeness.Agree Eq first second)
    (rest : ∀ result, likeness.Agree relatedNext (firstNext result) (secondNext result)) :
    likeness.Agree relatedNext (first >>= firstNext) (second >>= secondNext) :=
  agree.bind fun one _ same => same ▸ rest one

end Agree

theorem agree_pure {one : α} {other : β} (holds : related one other) :
    likeness.Agree related (pure one) (pure other) := fun _ _ alike => .done ⟨holds, alike⟩

theorem agree_throw (error : ε) :
    likeness.Agree related (throw error) (throw error) := fun _ _ alike => .failed alike

theorem agree_get : likeness.Agree likeness.states (get : ExceptT ε (StateM ς) ς) get :=
  fun _ _ alike => .done ⟨alike, alike⟩

theorem agree_modify {change other : ς → ς}
    (alike : ∀ older newer, likeness.states older newer →
      likeness.states (change older) (other newer)) :
    likeness.Agree Eq (modify change : ExceptT ε (StateM ς) PUnit) (modify other) :=
  fun older newer states => .done ⟨rfl, alike older newer states⟩

/-- Loops over the same list agree if their bodies do. -/
theorem agree_forM (items : List α) {firstBody secondBody : α → ExceptT ε (StateM ς) PUnit}
    (body : ∀ item ∈ items, likeness.Agree Eq (firstBody item) (secondBody item)) :
    likeness.Agree Eq (items.forM firstBody) (items.forM secondBody) := by
  induction items with
  | nil => exact agree_pure rfl
  | cons item rest ih =>
    rw [List.forall_mem_cons] at body
    exact body.1.andThen fun _ => ih body.2

end Likeness

end BehaviorTree
