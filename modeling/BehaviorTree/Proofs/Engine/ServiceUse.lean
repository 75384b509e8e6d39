import BehaviorTree.Proofs.Engine.RemoteHistory

/-!
# The use of services in ticks

Only remote nodes use services. Whatever tree is ticked, the client and what remote nodes remember
change in two ways: a remote node has its turn, or nodes are halted. So what every turn and every
halt keeps is kept by a tick.
-/

namespace BehaviorTree

variable {σ : Type} [RemoteService σ]

/-- How the client and what remote nodes remember may change in a tick that began in `start`. -/
inductive Context.Deals (setting : Setting) (start : Context σ) : Context σ → Prop where
  | nothing : Deals setting start start
  | elsewhere {context after : Context σ} (before : Deals setting start context)
      (client : after.client = context.client)
      (runs : ∀ key, after.runs.remoteRun key = context.runs.remoteRun key) :
      Deals setting start after
  | halted {context : Context σ} (before : Deals setting start context) (keys : List RunKey) :
      Deals setting start (context.discardedAll keys)
  | turned {context after : Context σ} {key : RunKey} {node : Node} {operation : RemoteOperation}
      {remote : RemoteConfiguration} {result : Except Fault Status}
      (before : Deals setting start context)
      (found : setting.tree.node? key.node = some node) (kind : node.kind = .remote operation)
      (effective : node.effectiveConfiguration context = .ok (.remote remote))
      (ran : outcome (tickRemote setting key node remote) context = (result, after))
      (calm : ∀ failure, result ≠ .error (.abort failure)) :
      Deals setting start after

variable {setting : Setting} {key upper : RunKey} {node other : Node} {operation : RemoteOperation}
  {start middle context after : Context σ} {run : NodeIndex → Tick σ Status}
  {seen running : List RunKey}

theorem Context.Deals.trans (first : start.Deals setting middle)
    (second : middle.Deals setting after) : start.Deals setting after := by
  induction second with
  | nothing => exact first
  | elsewhere _ client runs ih => exact ih.elsewhere client runs
  | halted _ keys ih => exact ih.halted keys
  | turned _ found kind effective ran calm ih => exact ih.turned found kind effective ran calm

theorem Context.Deals.halts {tree : Tree} {roots : List RunKey}
    (before : start.Deals setting context)
    (halts : context.Halts tree roots after) : start.Deals setting after := by
  rcases halts with ⟨keys, rfl, -⟩
  exact before.halted keys

variable (setting key start) in
/-- A remote node that cannot be configured does not use its service. -/
theorem ends_attemptNode_deals (fits : node.Fits)
    (found : setting.tree.node? key.node = some node) (kind : node.kind = .remote operation)
    (run : NodeIndex → Tick σ Status) :
    Ends (attemptNode setting run key node) start (fun _ after => start.Deals setting after)
      fun fault after => ∀ cause, fault = .node cause → start.Deals setting after := by
  simp only [attemptNode, ends_bind, Attempt.ends_get]
  split
  · rename_i configuration effective
    have same := (fits.effective_kind effective).trans kind
    cases configuration with
    | remote remote =>
      simp only [tickConfigured, Ends]
      rcases ran : outcome (tickRemote setting key node remote) start with ⟨fault | status, after⟩
      · rintro cause rfl
        exact .turned .nothing found kind effective ran (by simp)
      · exact .turned .nothing found kind effective ran (by simp)
    | _ => cases same
  · exact fun _ _ => .nothing
  · rintro _ ⟨⟩

theorem ends_tickWithin_deals (wellFormed : setting.tree.WellFormed)
    (found : setting.tree.node? key.node = some node) (kind : node.kind = .remote operation)
    (atKey : start.frame = key.frame) (depth : Nat) :
    Ends (tickWithin setting (depth + 1) key.node) start
      (fun _ after => start.Deals setting after) fun _ _ => True := by
  have isNode : (setting.tree.node? key.node).isSome := by simp [found]
  have attempted := ends_attemptNode_deals setting key start (wellFormed.fits _ _ found) found kind
    (tickWithin setting depth)
  have settled : Ends
      (settleAttempt setting key node (attemptNode setting (tickWithin setting depth) key node))
      start
      (fun _ noted => start.Deals setting noted) fun _ _ => True := by
    have settles : ∀ attempt : Attempt σ Status,
        (settleAttempt setting key node attempt).run.run start =
          settleAttempt setting key node attempt start := fun _ => rfl
    simp only [Ends, outcome, settles, settleAttempt] at attempted ⊢
    revert attempted
    rcases (attemptNode setting (tickWithin setting depth) key node).run.run start with
      ⟨(cause | failure) | status, after⟩
    · exact fun failed => (failed cause rfl).elsewhere rfl fun _ => rfl
    · exact fun _ => trivial
    · exact fun finished => finished.elsewhere rfl fun _ => rfl
  have here : (⟨start.frame, key.node⟩ : RunKey) = key := by simp only [atKey]
  simp only [tickWithin, found, ends_bind, ends_get, here]
  refine settled.mono ?_ fun _ _ _ => trivial
  intro status noted deals
  simp only [concludeNode]
  split
  · exact deals.elsewhere rfl fun _ => rfl
  · refine (ends_halt wellFormed isNode noted).mono ?_ fun _ _ impossible => impossible.elim
    exact fun _ after halts => deals.halts halts

omit [RemoteService σ] in
/-- What remote nodes remember does not depend on the run states of other nodes. -/
theorem Context.remoteRun_setRun (context : Context σ) {state : RunState}
    (unused : context.runs.remoteRun upper = .initial) (notRemote : ∀ run, state ≠ .remote run)
    (key : RunKey) :
    (context.setRun upper state).runs.remoteRun key = context.runs.remoteRun key := by
  by_cases same : key = upper
  · subst same
    rw [unused]
    simp only [RunStore.remoteRun, Context.get?_setRun, ↓reduceIte]
    split
    · rename_i run isRemote
      exact absurd (Option.some.inj isRemote) (notRemote run)
    · rfl
  · simp only [RunStore.remoteRun, Context.get?_setRun, same, ↓reduceIte]

/-- Ticks of nodes use services as ticks do. -/
def Dealing (setting : Setting) (run : NodeIndex → Tick σ Status) : Prop :=
  ∀ (target : RunKey) (context : Context σ), context.frame = target.frame →
    (setting.tree.node? target.node).isSome → context.runs.Fits setting.tree →
    Ends (run target.node) context (fun _ after => context.Deals setting after) fun _ _ => True

/-- A node that is not a remote one only uses services by what it ticks and halts. -/
theorem Course.deals (course : setting.Course run upper other start seen running context)
    (found : setting.tree.node? upper.node = some other)
    (local_kind : ∀ operation, other.kind ≠ .remote operation)
    (wellFormed : setting.tree.WellFormed) (atUpper : start.frame = upper.frame)
    (fits : start.runs.Fits setting.tree) (dealing : Dealing setting run) :
    start.Deals setting context := by
  have unused : ∀ {context : Context σ} {seen running : List RunKey},
      setting.Course run upper other start seen running context →
      context.runs.remoteRun upper = .initial := by
    intro context seen running course
    refine RunStore.remoteRun_of_fits (course.fits found fits) fun node operation isNode => ?_
    rw [found, Option.some.injEq] at isNode
    exact isNode ▸ local_kind operation
  induction course with
  | start => exact .nothing
  | wrote _ _ ih => exact ih.elsewhere rfl fun _ => rfl
  | noted _ ih => exact ih.elsewhere rfl fun _ => rfl
  | remembered course plain _ ih =>
    refine ih.elsewhere rfl (Context.remoteRun_setRun _ (unused course) ?_)
    rintro run rfl
    exact plain
  | @opened _ _ context _ blackboard course _ _ _ ih =>
    have stillUnused : context.runs.remoteRun upper = .initial := unused course
    refine ih.elsewhere rfl ?_
    exact Context.remoteRun_setRun { context with blackboard := blackboard } stillUnused (by simp)
  | @ticked _ _ context inner after target _ course enters ran outside _ ih =>
    have isNode := wellFormed.closed _ _ (enters.invokes found).leads
    have innerFits : inner.runs.Fits setting.tree := by
      intro key state remembered
      exact course.fits found fits key state ((enters.get? key).symm.trans remembered)
    have atInner := enters.frame ((course.outside found).frame.trans atUpper)
    have entered : start.Deals setting inner :=
      ih.elsewhere enters.client fun key => by simp only [RunStore.remoteRun, enters.get?]
    have inside := (dealing target inner atInner isNode innerFits).of_eq_ok ran
    exact (entered.trans inside).elsewhere rfl fun _ => rfl
  | halted _ _ halts ih => exact ih.halts halts
  | served _ kind _ _ => exact absurd kind (local_kind _)

/-- Whatever node is ticked, services are used in turns of remote nodes and by halting only. -/
theorem dealing_tickWithin (wellFormed : setting.tree.WellFormed) (depth : Nat) :
    Dealing setting (tickWithin (σ := σ) setting depth) := by
  induction depth with
  | zero => exact fun _ _ _ _ _ => trivial
  | succ depth ih =>
    intro target start atTarget isNode fits
    rcases Option.isSome_iff_exists.1 isNode with ⟨other, found⟩
    by_cases isRemote : ∃ operation, other.kind = .remote operation
    · rcases isRemote with ⟨operation, kind⟩
      exact ends_tickWithin_deals wellFormed found kind atTarget depth
    · rw [not_exists] at isRemote
      have turn : Turn setting (tickWithin setting depth) target other start :=
        ⟨behaves_tickWithin wellFormed depth, wellFormed, found, atTarget, fits⟩
      refine turn.ends_tickWithin.mono ?_ fun _ _ _ => trivial
      intro status after concludes
      cases concludes with
      | running course settled =>
        exact (course.deals found isRemote wellFormed atTarget fits ih).elsewhere rfl fun _ => rfl
      | @ended _ _ context _ _ cause reports course ended caused halts =>
        have noted : start.Deals setting
            { context.visit ⟨target, status, cause⟩ with reports := reports } :=
          (course.deals found isRemote wellFormed atTarget fits ih).elsewhere rfl fun _ => rfl
        exact noted.halts halts

theorem ends_tick_deals (wellFormed : setting.tree.WellFormed) (target : RunKey)
    (isNode : (setting.tree.node? target.node).isSome) (atTarget : start.frame = target.frame)
    (fits : start.runs.Fits setting.tree) :
    Ends (tick setting target.node) start (fun _ after => start.Deals setting after)
      fun _ _ => True :=
  dealing_tickWithin wellFormed _ target start atTarget isNode fits

end BehaviorTree
