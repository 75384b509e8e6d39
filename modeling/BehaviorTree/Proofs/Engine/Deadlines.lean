import BehaviorTree.Proofs.Engine.Turn
import BehaviorTree.Proofs.Node.Durations
import BehaviorTree.Proofs.Remote.Calls

/-!
# Deadlines that do not fit

A deadline is a time plus a duration, and there is none if the sum reaches the limit of durations.
Nodes that sleep or limit the time of a child compute theirs when they have none yet, and a client
computes that of a request on every poll.
-/

namespace BehaviorTree

/-- The deadline of a duration that begins at a time does not fit. -/
def Duration.EndsTooLate (duration now : Duration) : Prop :=
  durationLimit ≤ now.nanoseconds + duration.nanoseconds

namespace Client

variable {σ : Type} {client : Client σ} {handle : CallHandle} {now : Duration} {cause : Crash}

theorem deadline?_eq_error {outstanding : OutstandingCall} {failure : Failure RemoteError} :
    deadline? outstanding = .error failure ↔ failure = .crash .durationOverflow ∧
      ∃ timeout, outstanding.timeout = some timeout ∧
        timeout.EndsTooLate outstanding.startedAt := by
  simp only [deadline?, Duration.EndsTooLate, ← Duration.add?_eq_none_iff]
  cases outstanding.timeout with
  | none => simp
  | some timeout =>
    cases late : outstanding.startedAt.add? timeout <;>
      simp [Failure.orCrash, Except.map, late, eq_comm]

variable [RemoteService σ]

theorem settle_ne_crash (client : Client σ) (service : String)
    (deadline : Option (Duration × Duration)) (status : CallStatus) :
    (client.settle handle service deadline now status).1 ≠ .error (.crash cause) := by
  unfold settle
  split
  · split <;> exact fun impossible => by cases impossible
  · exact fun impossible => by cases impossible
  · exact fun impossible => by cases impossible

/-- A poll crashes exactly if the last moment of the request does not fit. -/
theorem poll_eq_crash : (client.poll handle now).1 = .error (.crash cause) ↔
    cause = .durationOverflow ∧ ∃ outstanding, client.calls.get? handle = some outstanding ∧
      ∃ timeout, outstanding.timeout = some timeout ∧
        timeout.EndsTooLate outstanding.startedAt := by
  unfold poll
  cases client.calls.get? handle with
  | none => simp
  | some outstanding =>
    simp only [Option.some.injEq, exists_eq_left']
    cases late : deadline? outstanding with
    | error failure =>
      rcases deadline?_eq_error.1 late with ⟨rfl, reaches⟩
      simp [reaches, eq_comm]
    | ok deadline =>
      have fits : ¬ ∃ timeout, outstanding.timeout = some timeout ∧
          timeout.EndsTooLate outstanding.startedAt := by
        intro reaches
        rw [deadline?_eq_error.2 ⟨rfl, reaches⟩] at late
        cases late
      refine iff_of_false ?_ fun overflow => fits overflow.2
      dsimp only
      split
      · exact fun impossible => by cases impossible
      · split
        · exact fun impossible => by cases impossible
        · exact settle_ne_crash _ _ _ _

end Client

section Nodes

variable {σ : Type} {setting : Setting} {key : RunKey} {duration : Duration}
  {context after : Context σ} {fault : Fault}

theorem outcome_later (now duration : Duration) (context : Context σ) :
    outcome (later now duration) context =
      match now.add? duration with
      | some time => (.ok time, context)
      | none => (.error (.abort (.crash .durationOverflow)), context) := by
  unfold later
  cases now.add? duration <;> rfl

/-- What comes after the computation of a deadline cannot fail, so only the computation does. -/
theorem later_bind_fails_iff {α : Type} {now : Duration} {next : Duration → Attempt σ α}
    (calm : ∀ deadline, ∃ result last, outcome (next deadline) context = (.ok result, last)) :
    outcome (later now duration >>= next) context = (.error fault, after) ↔
      fault = .abort (.crash .durationOverflow) ∧ after = context ∧ duration.EndsTooLate now := by
  rw [Duration.EndsTooLate, ← Duration.add?_eq_none_iff, outcome_bind, outcome_later]
  cases now.add? duration with
  | some deadline =>
    rcases calm deadline with ⟨result, last, ends⟩
    simp [ends]
  | none => simp [eq_comm]

theorem outcome_runStateOf :
    outcome (runStateOf key) context = (.ok (context.runs.get? key), context) := rfl

/-- A node that sleeps fails to compute the end of its sleep exactly if it has none yet and the end
does not fit. -/
theorem wakeUpTime_fails_iff :
    outcome (wakeUpTime setting key duration) context = (.error fault, after) ↔
      fault = .abort (.crash .durationOverflow) ∧ after = context ∧
        duration.EndsTooLate setting.now ∧
          ∀ deadline, context.runs.get? key ≠ some (.sleep deadline) := by
  rw [wakeUpTime, outcome_bind, outcome_runStateOf]
  dsimp only
  split
  · rename_i deadline asleep
    refine iff_of_false (fun impossible => by cases impossible) ?_
    exact fun late => late.2.2.2 deadline asleep
  · rename_i awake
    rw [later_bind_fails_iff]
    · exact and_congr_right fun _ => and_congr_right fun _ => (and_iff_left awake).symm
    · exact fun deadline => ⟨_, _, rfl⟩

/-- A node that limits the time of its child fails to compute the end of that time exactly if it has
none yet and the end does not fit. -/
theorem deadlineOf_fails_iff :
    outcome (deadlineOf setting key duration) context = (.error fault, after) ↔
      fault = .abort (.crash .durationOverflow) ∧ after = context ∧
        duration.EndsTooLate setting.now ∧
          ∀ deadline timedOut,
            context.runs.get? key ≠ some (.forDuration deadline timedOut) := by
  rw [deadlineOf, outcome_bind, outcome_runStateOf]
  dsimp only
  split
  · rename_i deadline timedOut limited
    refine iff_of_false (fun impossible => by cases impossible) ?_
    exact fun late => late.2.2.2 deadline timedOut limited
  · rename_i unlimited
    rw [later_bind_fails_iff]
    · exact and_congr_right fun _ => and_congr_right fun _ => (and_iff_left unlimited).symm
    · exact fun deadline => ⟨_, _, rfl⟩

end Nodes

end BehaviorTree
