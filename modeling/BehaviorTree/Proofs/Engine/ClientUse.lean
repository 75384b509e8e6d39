import BehaviorTree.Proofs.Engine.ServiceUse
import BehaviorTree.Proofs.Remote.Ages

/-!
# The client in ticks

Remote nodes ask the client for sessions and requests, poll their requests and give them up, and so
do halts. Nothing else is done to the client in a tick.
-/

namespace BehaviorTree

variable {σ α β : Type} [RemoteService σ] {setting : Setting} {key target : RunKey} {node : Node}
  {remote : RemoteConfiguration} {start context after : Context σ} {state : RunState}
  {tree : Tree} {roots : List RunKey}

namespace RemoteStep

/-- Whatever comes of a step of a remote node, the client was used. -/
def Uses (action : RemoteStep σ α) : Prop :=
  ∀ (before : Client σ) (run : RemoteRun) (context : Context σ), before.Used context.client →
    Ends action run context (fun _ _ after => before.Used after.client)
      fun _ _ after => before.Used after.client

namespace Uses

theorem pure (value : α) : Uses (pure value : RemoteStep σ α) := fun _ _ _ used => used

theorem throw (fault : Fault) : Uses (throw fault : RemoteStep σ α) := fun _ _ _ used => used

theorem bind {first : RemoteStep σ α} {next : α → RemoteStep σ β} (begins : Uses first)
    (goesOn : ∀ result, Uses (next result)) : Uses (first >>= next) :=
  fun before run context used =>
    (begins before run context used).bind fun result run middle used =>
      goesOn result before run middle used

theorem get : Uses (get : RemoteStep σ RemoteRun) := fun _ _ _ used => used

theorem update (change : RemoteRun → RemoteRun) :
    Uses (RemoteStep.update change : RemoteStep σ Unit) := fun _ _ _ used => used

theorem useClient {operation : Client σ → α × Client σ}
    (operates : ∀ before client : Client σ, before.Used client →
      before.Used (operation client).2) :
    Uses (RemoteStep.useClient operation) :=
  fun before _ context used => operates before context.client used

theorem writeOutput (port : String) (value : Value) :
    Uses (RemoteStep.ofAttempt (writeOutput setting key.node port value) : RemoteStep σ Unit) := by
  intro before run context used
  rw [ends_ofAttempt]
  unfold BehaviorTree.writeOutput
  split
  · exact used
  · simp only [BehaviorTree.ends_bind, Attempt.ends_get, ends_accessed, Attempt.ends_set]
    split <;> exact used

end Uses

theorem uses_retryOr (error : RemoteError) (attempts : Nat) (limit : UInt32) :
    Uses (retryOr error attempts limit : RemoteStep σ Status) := by
  unfold retryOr
  split
  · exact .pure _
  · exact .throw _

theorem uses_settle (reply : Except (Failure RemoteError) CallStatus) :
    Uses (settle setting key remote reply : RemoteStep σ Status) := by
  unfold settle
  split
  · refine .bind (.update _) fun _ => ?_
    split
    · exact .bind (.writeOutput _ _) fun _ => .pure _
    · exact .pure _
  · exact .bind (.update _) fun _ => .bind (.writeOutput _ _) fun _ => .pure _
  · exact .bind (.update _) fun _ => .throw _
  · exact .throw _
  · exact .bind (.update _) fun _ => .bind .get fun _ => uses_retryOr _ _ _
  · exact .bind (.update _) fun _ => .bind .get fun _ => uses_retryOr _ _ _

theorem uses_openSession : Uses (openSession remote : RemoteStep σ Unit) := by
  refine .bind .get fun run => ?_
  split
  · exact .pure _
  · refine .bind (.useClient fun _ _ used => used.session _ _) fun opened => ?_
    cases opened with
    | ok done => exact .update _
    | error error => exact .throw _

theorem uses_currentCall :
    Uses (currentCall setting node remote :
      RemoteStep σ (Except (Failure RemoteError) CallHandle)) := by
  refine .bind .get fun run => ?_
  cases run.call with
  | some call => exact .pure _
  | none =>
    refine .bind (.update _) fun _ => .bind (.useClient fun _ _ used => used.started _ _ _) ?_
    intro started
    cases started with
    | ok call => exact .bind (.update _) fun _ => .pure _
    | error error => exact .pure _

theorem uses_advance : Uses (advance setting key node remote : RemoteStep σ Status) := by
  refine .bind uses_openSession fun _ => .bind uses_currentCall fun made => ?_
  rcases made with (error | cause) | call
  · exact .bind .get fun _ => uses_retryOr _ _ _
  · exact .throw _
  · exact .bind (.useClient fun _ _ used => used.polled _ _) fun reply => uses_settle reply

end RemoteStep

namespace Context

theorem used_release (context : Context σ) (state : RunState) :
    context.client.Used (context.release state).client := by
  cases state with
  | remote run =>
    cases held : run.call with
    | none => simpa [release, RunState.release, RunState.call?, held] using Client.Used.unused
    | some call =>
      simpa [release, RunState.release, RunState.call?, held] using
        Client.Used.unused.cancelled call
  | _ => exact .unused

theorem used_discardedAll (context : Context σ) (keys : List RunKey) :
    context.client.Used (context.discardedAll keys).client := by
  induction keys generalizing context with
  | nil => exact .unused
  | cons first rest ih =>
    refine Client.Used.trans ?_ (ih (context.discarded first))
    unfold discarded
    split
    · exact used_release { context with runs := context.runs.erase first } _
    · exact .unused

theorem Halts.used (halts : context.Halts tree roots after) :
    context.client.Used after.client := by
  rcases halts with ⟨keys, rfl, -⟩
  exact context.used_discardedAll keys

end Context

theorem used_tickRemote (setting : Setting) (key : RunKey) (node : Node)
    (remote : RemoteConfiguration) (start : Context σ) :
    start.client.Used (outcome (tickRemote setting key node remote) start).2.client := by
  have advanced : RemoteStep.Ends (RemoteStep.advance setting key node remote)
      (start.runs.remoteRun key) { start with runs := start.runs.erase key }
      (fun _ _ after => start.client.Used after.client)
      fun _ _ after => start.client.Used after.client :=
    RemoteStep.uses_advance start.client _ _ .unused
  unfold RemoteStep.Ends at advanced
  unfold outcome tickRemote
  simp only [ExceptT.run, StateT.run] at advanced ⊢
  revert advanced
  rcases RemoteStep.advance setting key node remote (start.runs.remoteRun key)
    { start with runs := start.runs.erase key } with ⟨⟨fault | status, remembered⟩, after⟩
  · exact fun used => used.trans (after.used_release _)
  · intro used
    cases status with
    | running => exact used
    | success => exact used.trans (after.used_release _)
    | failure => exact used.trans (after.used_release _)

theorem Context.Deals.used (deals : start.Deals setting after) :
    start.client.Used after.client := by
  induction deals with
  | nothing => exact .unused
  | elsewhere _ client _ ih => exact ih.trans (.of_eq client)
  | halted _ keys ih => exact ih.trans (Context.used_discardedAll _ keys)
  | @turned context _ key node _ remote _ _ _ _ _ ran _ ih =>
    have used := used_tickRemote setting key node remote context
    rw [ran] at used
    exact ih.trans used

/-- Whatever is ticked, nothing is done to the client but that it is used. -/
theorem ends_tickWithin_used (wellFormed : setting.tree.WellFormed) (depth : Nat)
    (isNode : (setting.tree.node? target.node).isSome) (atTarget : start.frame = target.frame)
    (fits : start.runs.Fits setting.tree) :
    Ends (tickWithin setting depth target.node) start
      (fun _ after => start.client.Used after.client) fun _ _ => True :=
  (dealing_tickWithin wellFormed depth target start atTarget isNode fits).mono
    (fun _ _ deals => deals.used) fun _ _ _ => trivial

end BehaviorTree
