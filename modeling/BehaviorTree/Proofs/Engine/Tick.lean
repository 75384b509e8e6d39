import BehaviorTree.Engine.Tick
import BehaviorTree.Proofs.Engine.Kinds
import BehaviorTree.Proofs.Engine.Leaves
import BehaviorTree.Proofs.Engine.RemoteNode

/-!
# Ticks of nodes

Whatever its kind, a node that is ticked follows a course. At the end of it the node is noted and,
unless it is running, halted. So a tick ends with a course that is concluded, or the course was
stopped for one of few reasons; and it stays inside of the subtree of the node.
-/

namespace BehaviorTree

variable {σ : Type} [RemoteService σ] {setting : Setting} {now : Duration}
  {run : NodeIndex → Tick σ Status} {key : RunKey} {node : Node} {start : Context σ}

omit [RemoteService σ] in
theorem Node.crash_of_effectiveConfiguration {context : Context σ} {cause : Crash}
    (effective : node.effectiveConfiguration context = .error (.crash cause)) :
    cause = .durationOverflow := by
  unfold Node.effectiveConfiguration at effective
  split at effective
  · cases effective
  · cases filled : node.overrides.foldlM (Override.fill node.kind context) node.fields with
    | ok fields =>
      rw [filled] at effective
      exact failsOnly_configure _ _ _ effective
    | error error =>
      rw [filled] at effective
      cases effective

/-- The status of a node is noted at the end of its course. -/
inductive Notes (tree : Tree) (now : Duration) (run : NodeIndex → Tick σ Status)
    (key : RunKey) (node : Node) (start : Context σ) : Status → Context σ → Prop where
  | finished {status : Status} {context : Context σ}
      (finishes : Finishes tree now run key node start status context) :
      Notes tree now run key node start status (context.visit ⟨key, status, none⟩)
  | failed {context : Context σ} {cause : TickError} {reports : List NodeReport}
      (fails : Fails tree now run key node start (.node cause) context) :
      Notes tree now run key node start .failure
        { context.visit ⟨key, .failure, some cause⟩ with reports := reports }

/-- A node that was ticked has its status noted. If it is running it goes on with whatever is
running, and else it is halted. -/
inductive Concludes (tree : Tree) (now : Duration) (run : NodeIndex → Tick σ Status)
    (key : RunKey) (node : Node) (start : Context σ) : Status → Context σ → Prop where
  | running {seen running : List RunKey} {context : Context σ} {innermost : Option RunKey}
      (course : Course tree now run key node start seen running context)
      (settled : Settled tree key start.runs seen running context.runs) :
      Concludes tree now run key node start .running
        { context.visit ⟨key, .running, none⟩ with innermost := innermost }
  | ended {seen running : List RunKey} {context after : Context σ} {status : Status}
      {cause : Option TickError} {reports : List NodeReport}
      (course : Course tree now run key node start seen running context) (ended : status ≠ .running)
      (caused : ∀ error, cause = some error → Stops tree now run key node start (.node error))
      (halts : Context.Halts tree
        { context.visit ⟨key, status, cause⟩ with reports := reports } [key] after) :
      Concludes tree now run key node start status after

namespace Turn

/-- A node that has a configuration of its kind follows a course. -/
theorem ends_tickConfigured (turn : Turn setting run key node start)
    {configuration : Configuration} (kind : configuration.kind = node.kind)
    (named : ∀ target, configuration = .reference target →
      node.configuration = some (.reference target)) :
    Ends (tickConfigured setting run key node configuration) start
      (setting.Finishes run key node start) (setting.Fails run key node start) := by
  have fits := turn.wellFormed.fits _ _ turn.found
  cases configuration with
  | sequence always => exact turn.ends_tickChildren (Or.inl kind.symm) (by decide)
  | selector always => exact turn.ends_tickChildren (Or.inr kind.symm) (by decide)
  | repeater maxStarts =>
    rcases fits.one_child (by rw [← kind]; rfl) with ⟨child, only⟩
    unfold tickConfigured
    rw [ends_bind, ends_childAt (by rw [only]; rfl)]
    exact turn.ends_tickRepeater kind.symm (by simp [only]) maxStarts
  | retrier maxAttempts =>
    rcases fits.one_child (by rw [← kind]; rfl) with ⟨child, only⟩
    unfold tickConfigured
    rw [ends_bind, ends_childAt (by rw [only]; rfl)]
    exact turn.ends_tickRetrier kind.symm (by simp [only]) maxAttempts
  | forDuration duration => exact turn.ends_tickForDuration kind.symm duration
  | simpleParallel => exact turn.ends_tickParallel kind.symm
  | condition condition => exact turn.ends_tickCondition kind.symm condition
  | restartWhenPaused => exact turn.ends_tickRestartWhenPaused kind.symm
  | defineBlackboard => exact turn.ends_tickDefine kind.symm
  | setBlackboard => exact turn.ends_tickSet kind.symm
  | formatBlackboard name format =>
    unfold tickConfigured
    simp only [ends_bind, Attempt.ends_get, ends_accessed]
    split
    · have written := fun text =>
        turn.ends_writeText (by rw [← kind]; rfl) (by simp [← kind, Configuration.kind]) name text
      exact ends_bind.1 (written _)
    · rename_i cause unformatted
      apply fails_of_access .start
      intro rooted
      rw [isScopeGone_blackboard]
      rintro rfl
      exact Blackboard.format_ne_scopeGone rooted _ unformatted
  | dateToBlackboard name format =>
    unfold tickConfigured
    rw [ends_bind]
    refine ends_bound_of .start (fun _ => failsOnly_writeDate _ _) ?_
    exact fun text => turn.ends_writeText (by rw [← kind]; rfl)
      (by simp [← kind, Configuration.kind]) name text
  | sleep duration =>
    refine (ends_wakeUpTime kind.symm duration).bind ?_
    intro deadline after course
    have finishes := turn.finishes_of_childless course (by rw [← kind]; rfl)
      (by simp [← kind, Configuration.kind])
    exact finishes _
  | constantResult status =>
    exact turn.finishes_of_childless .start (by rw [← kind]; rfl)
      (by simp [← kind, Configuration.kind]) status
  | reference target => exact turn.ends_tickReference (named target rfl)
  | remote remote => exact turn.ends_tickRemote kind.symm remote

theorem ends_attemptNode (turn : Turn setting run key node start) :
    Ends (attemptNode setting run key node) start
      (setting.Finishes run key node start) (setting.Fails run key node start) := by
  have fits := turn.wellFormed.fits _ _ turn.found
  unfold attemptNode
  rw [ends_bind, Attempt.ends_get]
  split
  · rename_i configuration effective
    apply turn.ends_tickConfigured (fits.effective_kind effective)
    rintro target rfl
    exact fits.effective_reference effective
  · rename_i cause effective
    apply fails_of_access .start
    intro rooted
    rw [isScopeGone_binding]
    exact failsOnly_effectiveConfiguration rooted node _ effective
  · rename_i cause effective
    exact fails_of_overflow (Or.inl (Node.crash_of_effectiveConfiguration effective))

/-- The status of a node that is ticked is noted. -/
theorem ends_settleAttempt (turn : Turn setting run key node start) :
    Ends (settleAttempt setting key node (attemptNode setting run key node)) start
      (Notes setting.tree setting.now run key node start)
      fun failure _ => Stops setting.tree setting.now run key node start (.abort failure) := by
  have attempted := turn.ends_attemptNode
  unfold Ends outcome at attempted ⊢
  have settles : (settleAttempt setting key node (attemptNode setting run key node)).run.run start =
      settleAttempt setting key node (attemptNode setting run key node) start := rfl
  rw [settles]
  unfold settleAttempt
  revert attempted
  rcases (attemptNode setting run key node).run.run start with ⟨(cause | failure) | status, after⟩
  · exact fun fails => .failed fails
  · exact fun fails => fails.1
  · exact fun finishes => .finished finishes

/-- A node of which the status is noted concludes its course. -/
theorem ends_concludeNode (turn : Turn setting run key node start) {status : Status}
    {noted : Context σ} (notes : Notes setting.tree setting.now run key node start status noted) :
    Ends (concludeNode setting key status) noted
      (fun _ after => Concludes setting.tree setting.now run key node start status after)
      fun _ _ => False := by
  have isNode : (setting.tree.node? key.node).isSome := by rw [turn.found]; rfl
  have halted := ends_halt turn.wellFormed isNode noted
  unfold concludeNode
  cases notes with
  | finished finishes =>
    rcases finishes with ⟨seen, running, course, settled⟩
    split
    · rename_i isRunning
      subst isRunning
      exact .running course (settled rfl)
    · rename_i isOver
      refine halted.mono ?_ fun _ _ impossible => impossible
      exact fun _ after halts => .ended course isOver (fun _ none => by cases none) halts
  | failed fails =>
    rcases fails.2 _ rfl with ⟨seen, running, course⟩
    rw [if_neg (by decide)]
    refine halted.mono ?_ fun _ _ impossible => impossible
    intro _ after halts
    refine .ended course (by decide) ?_ halts
    rintro _ ⟨⟩
    exact fails.1

/-- A node that is ticked concludes a course, or its course is stopped. -/
theorem ends_tickWithin {depth : Nat}
    (turn : Turn setting (tickWithin setting depth) key node start) :
    Ends (tickWithin setting (depth + 1) key.node) start
      (Concludes setting.tree setting.now (tickWithin setting depth) key node start)
      fun failure _ => Stops setting.tree setting.now (tickWithin setting depth) key node start
        (.abort failure) := by
  have here : (⟨start.frame, key.node⟩ : RunKey) = key := by rw [turn.atKey]
  unfold tickWithin
  simp only [turn.found]
  rw [ends_bind, ends_get, here]
  refine turn.ends_settleAttempt.bind ?_
  intro status noted notes
  rw [ends_bind]
  refine (turn.ends_concludeNode notes).mono ?_ fun _ _ impossible => impossible.elim
  exact fun _ after concludes => concludes

end Turn

/-- A node that concludes its course stays inside of its subtree. -/
theorem Concludes.outside {tree : Tree} {status : Status} {after : Context σ}
    (concludes : Concludes tree now run key node start status after)
    (found : tree.node? key.node = some node) : start.Outside tree key after := by
  cases concludes with
  | running course settled =>
    refine (course.outside found).trans ⟨.refl _, ?_, ?_, rfl, rfl, rfl, List.suffix_cons _ _⟩
    · exact fun _ _ => rfl
    · exact fun _ _ => rfl
  | ended course ended caused halts =>
    refine ((course.outside found).trans ?_).trans halts.outside
    exact ⟨.refl _, fun _ _ => rfl, fun _ _ => rfl, rfl, rfl, rfl, List.suffix_cons _ _⟩

/-- After a node concluded its course, nodes remember what fits their kinds. -/
theorem Concludes.fits {tree : Tree} {status : Status} {after : Context σ}
    (concludes : Concludes tree now run key node start status after)
    (found : tree.node? key.node = some node) (fits : start.runs.Fits tree) :
    after.runs.Fits tree := by
  cases concludes with
  | running course settled => exact course.fits found fits
  | ended course ended caused halts => exact halts.fits (course.fits found fits)

theorem behaves_tickWithin (wellFormed : setting.tree.WellFormed) (depth : Nat) :
    Behaves setting.tree (tickWithin (σ := σ) setting depth) := by
  induction depth with
  | zero => exact fun _ _ _ _ _ => trivial
  | succ depth ih =>
    intro target context atTarget isNode fits
    rcases Option.isSome_iff_exists.1 isNode with ⟨node, found⟩
    have turn : Turn setting (tickWithin setting depth) target node context :=
      ⟨ih, wellFormed, found, atTarget, fits⟩
    refine turn.ends_tickWithin.mono ?_ fun _ _ _ => trivial
    exact fun status after concludes => ⟨concludes.outside found, concludes.fits found fits⟩

end BehaviorTree
