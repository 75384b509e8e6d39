import BehaviorTree.Proofs.Engine.Activity
import BehaviorTree.Proofs.Engine.Arrivals
import BehaviorTree.Proofs.Remote.Handles

/-!
# Nodes that start their child afresh

A node that starts its child afresh after a pause remembers after how many pauses it ran last. If
that is another number than the current one, it halts its child before it ticks it: whatever the
child and everything below it remembered is gone, their requests are cancelled and their scopes are
destroyed. Otherwise the child is ticked as it was left.
-/

namespace BehaviorTree

namespace Client

variable {σ : Type} [RemoteService σ] {client : Client σ} {handle : CallHandle}
  {handles : List CallHandle} {outstanding : OutstandingCall}

theorem calls_cancel_of_ne {other : CallHandle} (client : Client σ) (different : handle ≠ other) :
    (client.cancel other).calls.get? handle = client.calls.get? handle := by
  unfold cancel
  split
  · rfl
  · dsimp only
    split <;> exact Table.get?_erase_of_ne different

/-- A request that is given up with others is cancelled at its service. -/
theorem exists_uses_of_mem (listed : handle ∈ handles)
    (found : client.calls.get? handle = some outstanding)
    (known : client.services.contains outstanding.service = true) :
    ∃ exchanges, client.Uses exchanges (handles.foldl cancel client) ∧
      .cancelled outstanding.service outstanding.call ∈ exchanges := by
  induction handles generalizing client with
  | nil => cases listed
  | cons first rest ih =>
    by_cases same : handle = first
    · subst same
      have used := uses_cancel_of_known found known
      rcases (client.cancel handle).uses_foldl_cancel rest with ⟨late, more⟩
      exact ⟨_, used.trans more, List.mem_append_left _ (List.mem_singleton_self _)⟩
    · have inRest := (List.mem_cons.1 listed).resolve_left same
      rcases client.uses_cancel first with ⟨early, used⟩
      have stillKnown := (used.contains_eq outstanding.service).trans known
      rcases ih inRest ((client.calls_cancel_of_ne same).trans found) stillKnown with
        ⟨late, more, cancelled⟩
      exact ⟨_, used.trans more, List.mem_append_right _ cancelled⟩

end Client

namespace Blackboard

variable {blackboard : Blackboard} {id other : ScopeId} {ids : List ScopeId}

/-- A scope that is destroyed is gone, and none that was gone comes back. -/
theorem isAlive_of_destroyScope
    (alive : (blackboard.destroyScope other).2.isAlive id = true) :
    blackboard.isAlive id = true ∧ (id.slot ≠ 0 → id ≠ other) := by
  unfold destroyScope at alive
  split at alive
  · rename_i spared
    refine ⟨alive, fun nested => ?_⟩
    rintro rfl
    rcases spared with first | gone
    · exact nested first
    · exact absurd alive (by simp [gone])
  · rw [isAlive, Option.isSome_iff_exists] at alive
    rcases alive with ⟨scope, found⟩
    have slot := scope?_eq_some_iff.1 found
    have elsewhere : id.slot ≠ other.slot := by
      intro same
      rw [setSlot, same, List.getElem?_set] at slot
      split at slot
      · split at slot <;> simp at slot
      · contradiction
    rw [setSlot, List.getElem?_set_ne (Ne.symm elsewhere)] at slot
    refine ⟨?_, fun _ same => elsewhere (congrArg ScopeId.slot same)⟩
    rw [isAlive, Option.isSome_iff_exists]
    exact ⟨scope, scope?_eq_some_iff.2 slot⟩

/-- The blackboard without some scopes. -/
def destroyAll (blackboard : Blackboard) (ids : List ScopeId) : Blackboard :=
  ids.foldl (fun blackboard id => (blackboard.destroyScope id).2) blackboard

theorem isAlive_of_destroyAll (alive : (blackboard.destroyAll ids).isAlive id = true) :
    blackboard.isAlive id = true ∧ (id.slot ≠ 0 → id ∉ ids) := by
  induction ids generalizing blackboard with
  | nil => exact ⟨alive, fun _ => List.not_mem_nil⟩
  | cons first rest ih =>
    rcases ih alive with ⟨aliveFirst, spared⟩
    rcases isAlive_of_destroyScope aliveFirst with ⟨aliveBefore, different⟩
    exact ⟨aliveBefore, fun nested => by simp [different nested, spared nested]⟩

end Blackboard

namespace Context

variable {σ : Type} [RemoteService σ] {tree : Tree} {root key lower : RunKey}
  {context before after : Context σ} {keys : List RunKey}

/-- Nothing is left of what a node remembered: its request was cancelled, at the service, too, if
that is known, and its scope was destroyed. -/
structure Empties (lower : RunKey) (before after : Context σ) : Prop where
  forgotten : after.runs.get? lower = none
  calls : ∀ handle, before.runs.callAt lower = some handle → ¬ after.client.Holds handle
  cancelled : ∀ handle outstanding, before.runs.callAt lower = some handle →
    before.client.calls.get? handle = some outstanding →
    before.client.services.contains outstanding.service = true →
    ∃ exchanges, before.client.Uses exchanges after.client ∧
      .cancelled outstanding.service outstanding.call ∈ exchanges
  scopes : ∀ id, before.runs.scopeAt lower = some id → after.blackboard.isAlive id = false

theorem client_discarded (context : Context σ) (key : RunKey) :
    (context.discarded key).client =
      (context.runs.callAt key).elim context.client context.client.cancel := by
  unfold discarded RunStore.callAt
  cases context.runs.get? key with
  | none => rfl
  | some state =>
    cases state with
    | remote remote =>
      cases held : remote.call <;>
        simp [release, RunState.release, RunState.call?, held]
    | _ => rfl

theorem blackboard_discarded (context : Context σ) (key : RunKey) :
    (context.discarded key).blackboard = (context.runs.scopeAt key).elim context.blackboard
      fun id => (context.blackboard.destroyScope id).2 := by
  unfold discarded RunStore.scopeAt
  cases context.runs.get? key with
  | none => rfl
  | some state =>
    cases state with
    | remote remote =>
      cases held : remote.call <;>
        simp [release, RunState.release, RunState.call?, RunState.scope?, held]
    | _ => rfl

/-- To discard run states is to cancel the requests and to destroy the scopes that they hold. -/
theorem exists_discardedAll (context : Context σ) (keys : List RunKey) :
    ∃ (handles : List CallHandle) (ids : List ScopeId),
      (context.discardedAll keys).client = handles.foldl Client.cancel context.client ∧
      (context.discardedAll keys).blackboard = context.blackboard.destroyAll ids ∧
      ∀ key ∈ keys, (∀ handle, context.runs.callAt key = some handle → handle ∈ handles) ∧
        ∀ id, context.runs.scopeAt key = some id → id ∈ ids := by
  induction keys generalizing context with
  | nil => exact ⟨[], [], rfl, rfl, by simp⟩
  | cons first rest ih =>
    rcases ih (context.discarded first) with ⟨handles, ids, client, blackboard, listed⟩
    refine ⟨(context.runs.callAt first).toList ++ handles,
      (context.runs.scopeAt first).toList ++ ids, ?_, ?_, ?_⟩
    · rw [List.foldl_append]
      refine client.trans ?_
      rw [client_discarded]
      cases context.runs.callAt first <;> rfl
    · refine blackboard.trans ?_
      rw [blackboard_discarded]
      cases context.runs.scopeAt first <;> rfl
    · intro key inside
      by_cases same : key = first
      · subst same
        exact ⟨fun handle held => by simp [held], fun id held => by simp [held]⟩
      · have later := listed key ((List.mem_cons.1 inside).resolve_left same)
        simp only [RunStore.callAt, RunStore.scopeAt, get?_discarded, if_neg same] at later ⊢
        exact ⟨fun handle held => List.mem_append_right _ (later.1 handle held),
          fun id held => List.mem_append_right _ (later.2 id held)⟩

/-- A halt leaves nothing of what was remembered in a subtree. -/
theorem Halts.empties (halts : before.Halts tree [root] after)
    (reaches : tree.Reaches before.runs root lower)
    (nested : ∀ id, before.runs.scopeAt lower = some id → id.slot ≠ 0) :
    before.Empties lower after := by
  rcases halts with ⟨keys, rfl, listed⟩
  rcases before.exists_discardedAll keys with ⟨handles, ids, client, blackboard, held⟩
  have discarded := (listed lower).2 ⟨root, List.mem_singleton_self root, reaches⟩
  have inside := held lower discarded
  refine ⟨?_, fun handle made => ?_, fun handle outstanding made found known => ?_,
    fun id opened => ?_⟩
  · rw [get?_discardedAll, if_pos discarded]
  · rw [client, (Client.retires_foldl_cancel handles).holds]
    exact fun holds => holds.2 (inside.1 handle made)
  · rw [client]
    exact Client.exists_uses_of_mem (inside.1 handle made) found known
  · rw [blackboard, ← Bool.not_eq_true]
    exact fun alive =>
      (Blackboard.isAlive_of_destroyAll alive).2 (nested id opened) (inside.2 id opened)

theorem Halts.empties_of_none (halts : before.Halts tree [root] after)
    (none : before.runs.get? lower = none) : before.Empties lower after := by
  rcases halts with ⟨keys, rfl, -⟩
  refine ⟨by rw [get?_discardedAll, none, ite_self], fun handle made => ?_,
    fun handle outstanding made => ?_, fun id opened => ?_⟩
  · simp [RunStore.callAt, none] at made
  · simp [RunStore.callAt, none] at made
  · simp [RunStore.scopeAt, none] at opened

theorem Empties.setRun (empties : before.Empties lower after) (different : lower ≠ key)
    (state : RunState) : before.Empties lower (after.setRun key state) := by
  refine ⟨?_, empties.calls, empties.cancelled, empties.scopes⟩
  rw [get?_setRun, if_neg different]
  exact empties.forgotten

end Context

variable {σ : Type} [RemoteService σ] {setting : Setting} {depth : Nat} {pauses : BitVec 64} {key : RunKey}
  {node : Node} {index child : NodeIndex} {run : NodeIndex → Tick σ Status} {status : Status}
  {before after inner : Context σ}

theorem Configuration.eq_restartWhenPaused {configuration : Configuration}
    (kind : configuration.kind = .restartWhenPaused) : configuration = .restartWhenPaused := by
  cases configuration <;> first | rfl | cases kind

/-- The child is ticked as it was left, or as it is after it was halted. -/
inductive Context.Resumes (setting : Setting) (key : RunKey) (child : NodeIndex) (pauses : BitVec 64)
    (before : Context σ) : Context σ → Prop where
  | goesOn (same : pauses = setting.pauses) :
      Resumes setting key child pauses before (before.setRun key (.epoch setting.pauses))
  | afresh {halted : Context σ} (paused : pauses ≠ setting.pauses)
      (halts : before.Halts setting.tree [key.sibling child] halted) :
      Resumes setting key child pauses before (halted.setRun key (.epoch setting.pauses))

theorem tickRestartWhenPaused_eq (only : node.children = [child])
    (run : NodeIndex → Tick σ Status) :
    tickRestartWhenPaused setting run key node = (do
      haltAfterPause setting key child
      remember key (.epoch setting.pauses)
      run child) := by
  unfold tickRestartWhenPaused childAt
  rw [only]
  rfl

theorem concluded {reported : Status} (ran : outcome (do
    concludeNode setting key reported
    return reported : Tick σ Status) before = (.ok status, after)) :
    status = reported ∧ outcome (concludeNode setting key reported : Tick σ Unit) before =
      (.ok (), after) := by
  rw [outcome_bind] at ran
  rcases ended : outcome (concludeNode setting key reported : Tick σ Unit) before with
    ⟨error | _, last⟩ <;> rw [ended] at ran <;> cases ran
  exact ⟨rfl, rfl⟩

section Turns

variable (wellFormed : setting.tree.WellFormed) (found : setting.tree.node? key.node = some node)
include wellFormed found

/-- What the node does about pauses before it ticks its child. -/
theorem exists_haltAfterPause (listed : child ∈ node.children) (before : Context σ) :
    ∃ entry, outcome (haltAfterPause setting key child) before = (.ok (), entry) ∧
      ∀ pauses, before.runs.get? key = some (.epoch pauses) →
        before.Resumes setting key child pauses (entry.setRun key (.epoch setting.pauses)) := by
  have read : outcome (runStateOf key : Attempt σ (Option RunState)) before =
      (.ok (before.runs.get? key), before) := rfl
  unfold haltAfterPause
  rw [outcome_bind, read]
  dsimp only
  split
  · rename_i pauses remembered
    rw [remembered]
    by_cases same : pauses = setting.pauses
    · refine ⟨before, by simp [same]; rfl, ?_⟩
      rintro _ ⟨⟩
      exact .goesOn same
    · rcases exists_haltSibling wellFormed found listed before with ⟨halted, ended, halts⟩
      refine ⟨halted, by simpa [same] using ended, ?_⟩
      rintro _ ⟨⟩
      exact .afresh same halts
  · rename_i other
    exact ⟨before, rfl, fun pauses remembered => absurd remembered (other pauses)⟩

/-- The only tick that the node asks for is that of its child. -/
theorem Asks.of_restartWhenPaused (kind : node.kind = .restartWhenPaused)
    (atKey : before.frame = key.frame) (asks : Asks setting depth key.node before index inner) :
    node.children = [index] ∧ ∀ pauses, before.runs.get? key = some (.epoch pauses) →
      before.Resumes setting key index pauses inner := by
  rcases asks.exists_heeds with ⟨nodeToo, foundToo, heeds⟩
  obtain rfl := Option.some.inj (found.symm.trans foundToo)
  rw [show (⟨before.frame, key.node⟩ : RunKey) = key by rw [atKey]] at heeds
  rcases heeds.exists_itinerary wellFormed found with ⟨configuration, effective, -, heeds, -⟩
  have fits := wellFormed.fits _ _ found
  rcases fits.one_child (by rw [kind]; rfl) with ⟨child, only⟩
  have listed : child ∈ node.children := by simp [only]
  cases Configuration.eq_restartWhenPaused ((fits.effective_kind effective).trans kind)
  rcases exists_haltAfterPause wellFormed found listed before with ⟨entry, ended, resumes⟩
  have heeded : Heeds (fun run => tickRestartWhenPaused setting run key node)
      (tickWithin setting depth) before index inner := heeds
  rw [funext (tickRestartWhenPaused_eq only)] at heeded
  rcases heeded.bind with heeded | ⟨_, middle, endedToo, heeded⟩
  · exact absurd heeded Heeds.not_of_still
  · obtain rfl : entry = middle := congrArg Prod.snd (ended.symm.trans endedToo)
    rcases heeded.bind with heeded | ⟨_, last, remembers, heeded⟩
    · exact absurd heeded Heeds.not_of_still
    · cases remembers
      rcases heeded.tick with ⟨rfl, rfl⟩
      exact ⟨only, resumes⟩

/-- The node asks for the tick of its child, unless it has no configuration in this turn. -/
theorem exists_asks_of_restartWhenPaused (only : node.children = [child])
    (atKey : before.frame = key.frame)
    (effective : node.effectiveConfiguration before = .ok .restartWhenPaused) :
    ∃ inner, Asks setting depth key.node before child inner := by
  classical
  have listed : child ∈ node.children := by simp [only]
  rcases exists_haltAfterPause wellFormed found listed before with ⟨entry, ended, -⟩
  let inner := entry.setRun key (.epoch setting.pauses)
  -- A tick that crashes for another cause than the turn, if that crashes at all, is noticed.
  have exists_cause : ∃ cause : Crash,
      (outcome (tickWithin setting (depth + 1) key.node) before).1 ≠ .error (.crash cause) := by
    by_cases crashed :
        (outcome (tickWithin setting (depth + 1) key.node) before).1 = .error (.crash .childRange)
    · exact ⟨.unboundedRecursion, by simp [crashed]⟩
    · exact ⟨.childRange, crashed⟩
  rcases exists_cause with ⟨cause, different⟩
  let run : NodeIndex → Tick σ Status := fun other => ExceptT.mk fun place =>
    if other = child ∧ place = inner then (.error (.crash cause), place)
    else outcome (tickWithin setting depth other) place
  have crashes : outcome (Tick.attempt (run child)) inner =
      (.error (.abort (.crash cause)), inner) := by
    have replaced : outcome (run child) inner = (.error (.crash cause), inner) := if_pos ⟨rfl, rfl⟩
    rw [outcome_attempt, replaced]
    rfl
  have attempted : outcome (attemptNode setting run key node) before =
      (.error (.abort (.crash cause)), inner) := by
    rw [outcome_attemptNode, effective]
    change outcome (tickRestartWhenPaused setting run key node) before = _
    rw [tickRestartWhenPaused_eq only, outcome_bind, ended]
    exact crashes
  have here : (⟨before.frame, key.node⟩ : RunKey) = key := by rw [atKey]
  refine ⟨inner, node, found, run, fun other place apart => if_neg apart, fun same => ?_⟩
  rw [← same, here] at different
  unfold visitNode at different
  rw [outcome_bind, outcome_settleAttempt, attempted] at different
  exact different rfl

/-- When its child was ticked the node remembers how often the mission was paused until then. -/
theorem ends_tickRestartWhenPaused_epoch (only : node.children = [child])
    (atKey : before.frame = key.frame) :
    Ends (tickRestartWhenPaused setting (tickWithin setting depth) key node) before
      (fun _ last => last.runs.get? key = some (.epoch setting.pauses)) fun _ _ => True := by
  rcases wellFormed.ranked with ⟨rank, ranking⟩
  have listed : child ∈ node.children := by simp [only]
  have halted : Ends (haltAfterPause setting key child) before
      (fun _ entry => entry.frame = key.frame) fun _ _ => True := by
    have stays : before.Stays (outcome (haltAfterPause setting key child) before).2 :=
      (itinerary_haltAfterPause listed).routine.staying (staying_tickWithin wellFormed depth) before
    unfold Ends
    split
    · rename_i ended
      rw [ended] at stays
      exact stays.frame.trans atKey
    · trivial
  rw [tickRestartWhenPaused_eq only]
  refine halted.bind fun _ entry inFrame => ?_
  have outside : ¬ setting.tree.Reaches
      (outcome (tickWithin setting depth child)
        (entry.setRun key (.epoch setting.pauses))).2.runs ⟨entry.frame, child⟩ key := by
    intro inside
    have below : setting.tree.ReachesBelow RunStore.empty key (key.sibling child) :=
      (Tree.Invokes.child found listed).reachesBelow
    rw [inFrame] at inside
    exact below.not_reaches ranking inside
  have ticked := (confined_tickWithin wellFormed depth child
    (entry.setRun key (.epoch setting.pauses))).elsewhere outside
  rw [Context.get?_setRun, if_pos rfl] at ticked
  rw [ends_bind]
  change Ends (liftM (tickWithin setting depth child : Tick σ Status) : Attempt σ Status)
    (entry.setRun key (.epoch setting.pauses)) _ _
  rw [ends_monadLift]
  unfold Ends
  split
  · rename_i ended
    rwa [ended] at ticked
  · trivial

/-- A node that remembers something after its turn remembers how often the mission was paused until
then. -/
theorem get?_of_restartWhenPaused (kind : node.kind = .restartWhenPaused)
    (atKey : before.frame = key.frame)
    (ran : outcome (tickWithin setting (depth + 1) key.node) before = (.ok status, after))
    (remembered : after.runs.get? key ≠ none) :
    after.runs.get? key = some (.epoch setting.pauses) := by
  have running : status = .running := by
    by_contra isOver
    have cleared := (ends_tickWithin_cleared wellFormed (depth + 1) key.node before).of_eq_ok ran
      isOver key
    rw [atKey] at cleared
    exact remembered (RunStore.isActive_eq_false_iff.1 (cleared (.refl key)))
  subst running
  have fits := wellFormed.fits _ _ found
  rcases fits.one_child (by rw [kind]; rfl) with ⟨child, only⟩
  have attempted : ∀ status settled,
      outcome (attemptNode setting (tickWithin setting depth) key node) before =
        (.ok status, settled) → settled.runs.get? key = some (.epoch setting.pauses) := by
    intro status settled attempted
    rw [outcome_attemptNode] at attempted
    cases effective : node.effectiveConfiguration before with
    | error failure => cases failure <;> simp [effective] at attempted <;> cases attempted
    | ok configuration =>
      cases Configuration.eq_restartWhenPaused ((fits.effective_kind effective).trans kind)
      simp only [effective] at attempted
      exact (ends_tickRestartWhenPaused_epoch wellFormed found only atKey).of_eq_ok attempted
  have here : (⟨before.frame, key.node⟩ : RunKey) = key := by rw [atKey]
  rw [outcome_tickWithin_succ found, here] at ran
  unfold visitNode at ran
  rw [outcome_bind, outcome_settleAttempt] at ran
  rcases ended : outcome (attemptNode setting (tickWithin setting depth) key node) before with
    ⟨(cause | failure) | reported, settled⟩ <;> simp only [ended] at ran
  · cases (concluded ran).1
  · cases ran
  · rcases concluded ran with ⟨rfl, concluded⟩
    unfold concludeNode at concluded
    have epoch := attempted _ _ ended
    cases concluded
    exact epoch

end Turns

end BehaviorTree
