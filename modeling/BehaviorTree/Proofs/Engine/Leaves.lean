import BehaviorTree.Proofs.Engine.Turn

/-!
# Nodes without children

Nodes that compare, write or wait invoke nothing, so that they have settled whatever they do. A
remote node follows a course of one step: it only changes its own request and what it remembers.
-/

namespace BehaviorTree

variable {σ : Type} [RemoteService σ] {setting : Setting} {run : NodeIndex → Tick σ Status}
  {key : RunKey} {node : Node} {start context : Context σ} {seen running : List RunKey}

namespace Turn

theorem ends_tickCondition (turn : Turn setting run key node start)
    (kind : node.kind = .condition) (condition : ConditionConfiguration) :
    Ends (tickCondition setting condition) start
      (setting.Finishes run key node start) (setting.Fails run key node start) := by
  have finishes := turn.finishes_of_childless .start (by rw [kind]; rfl) (by rw [kind]; decide)
  have fresh := fun (rooted : start.blackboard.Rooted start.scope) operand =>
    failsOnly_freshValue rooted condition.freshness setting.now operand
  unfold tickCondition
  simp only [ends_bind, Attempt.ends_get]
  refine ends_bound_of .start (fun rooted => fresh rooted _) ?_
  intro left
  split
  · rw [ends_bind]
    simp only [ends_bind, Attempt.ends_get]
    refine ends_bound_of .start (fun rooted => fresh rooted _) ?_
    intro right
    split
    · split
      · exact finishes _
      · exact finishes _
      · apply fails_of_access .start
        intro rooted
        simp [TickError.IsScopeGone]
    · exact finishes _
  · exact finishes _

theorem ends_forM_entry (names : List (String × Value)) :
    Ends (names.forM fun (name, _) =>
        match start.blackboard.entry start.scope name with
        | .ok _ => (pure () : Attempt σ Unit)
        | .error _ => failNode (.blackboard (.undefinedVariable name))) start
      (fun _ after => after = start) (setting.Fails run key node start) := by
  induction names with
  | nil => rfl
  | cons pair rest ih =>
    rcases pair with ⟨name, value⟩
    rw [List.forM, ends_bind]
    dsimp only
    cases start.blackboard.entry start.scope name with
    | ok entry => exact ih
    | error cause =>
      apply fails_of_access .start
      intro _
      simp [TickError.IsScopeGone]

theorem ends_forM_writeVariable (values : List (String × Value))
    (course : setting.Course run key node start seen running context) :
    Ends (values.forM fun (name, value) => writeVariable setting key.node name value) context
      (fun _ after => setting.Course run key node start seen running after)
      (setting.Fails run key node start) := by
  induction values generalizing context with
  | nil => exact course
  | cons pair rest ih =>
    rw [List.forM]
    refine (ends_writeVariable course).bind ?_
    exact fun _ middle written => ih written.2

theorem ends_tickSet (turn : Turn setting run key node start) (kind : node.kind = .setBlackboard) :
    Ends (tickSet setting key node) start
      (setting.Finishes run key node start) (setting.Fails run key node start) := by
  unfold tickSet
  simp only [ends_bind, Attempt.ends_get]
  refine ends_bound_of .start (fun rooted => failsOnly_mapM ?_ _) ?_
  · exact fun assignment => (failsOnly_value rooted _).map
  · intro values
    refine (ends_forM_entry values).mono ?_ fun _ _ fails => fails
    rintro _ _ rfl
    refine (ends_forM_writeVariable values .start).mono ?_ fun _ _ fails => fails
    exact fun _ after course =>
      turn.finishes_of_childless course (by rw [kind]; rfl) (by rw [kind]; decide) _

theorem ends_writeText (turn : Turn setting run key node start)
    (count : node.kind.childCount = .none) (ordinary : node.kind ≠ .reference)
    (name text : String) :
    Ends (do
        writeVariable setting key.node name (.string text)
        return .success) start
      (setting.Finishes run key node start) (setting.Fails run key node start) := by
  refine (ends_writeVariable .start).bind ?_
  exact fun _ after written => turn.finishes_of_childless written.2 count ordinary _

theorem ends_wakeUpTime (kind : node.kind = .sleep) (duration : Duration) :
    Ends (wakeUpTime setting key duration) start
      (fun _ after => setting.Course run key node start [] [] after)
      (setting.Fails run key node start) := by
  have fits : ∀ deadline, (RunState.sleep deadline).Fits node := fun _ => kind
  unfold wakeUpTime
  simp only [ends_bind, ends_runStateOf]
  split
  · exact .start
  · rw [ends_bind]
    apply ends_later
    intro deadline
    refine (ends_remember .start (fits deadline) trivial).bind ?_
    exact fun _ after remembered => remembered.2

end Turn

end BehaviorTree
