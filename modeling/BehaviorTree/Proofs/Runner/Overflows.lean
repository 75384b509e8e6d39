import BehaviorTree.Proofs.Engine.Deadlines
import BehaviorTree.Proofs.Runner.Restart

/-!
# Seconds that crash a mission

Only durations crash the configuration of a node and the computation of a deadline: a number of
seconds for which there is no duration, and a sum of a time and a duration that does not fit. Numbers
below the limit are safe for a configuration, and they are safe for a deadline as long as the time
leaves room for them. Nothing keeps a mission from having larger ones.
-/

namespace BehaviorTree

variable {σ : Type} [RemoteService σ]

/-- A configuration crashes exactly if its duration is given as a number that reaches the limit, and
a deadline cannot be computed exactly if the sum does. Nothing else crashes, and a deadline that
fails to be computed changes nothing. -/
theorem seconds_overflow_iff (kind : NodeKind) (fields : FieldTable) (setting : Setting)
    (key : RunKey) (duration : Duration) (context : Context σ) (client : Client σ)
    (handle : CallHandle) (now : Duration) (cause : Crash) (fault : Fault) (after : Context σ) :
    (kind.configure fields = .error (.crash cause) ↔
      cause = .durationOverflow ∧ kind.checkFields fields = .ok () ∧
        ∃ field, kind.durationField = some field ∧ fields.Overflows field.name) ∧
    (outcome (wakeUpTime setting key duration) context = (.error fault, after) ↔
      fault = .abort (.crash .durationOverflow) ∧ after = context ∧
        duration.EndsTooLate setting.now ∧
          ∀ deadline, context.runs.get? key ≠ some (.sleep deadline)) ∧
    (outcome (deadlineOf setting key duration) context = (.error fault, after) ↔
      fault = .abort (.crash .durationOverflow) ∧ after = context ∧
        duration.EndsTooLate setting.now ∧
          ∀ deadline timedOut,
            context.runs.get? key ≠ some (.forDuration deadline timedOut)) ∧
    ((client.poll handle now).1 = .error (.crash cause) ↔
      cause = .durationOverflow ∧ ∃ outstanding, client.calls.get? handle = some outstanding ∧
        ∃ timeout, outstanding.timeout = some timeout ∧
          timeout.EndsTooLate outstanding.startedAt) :=
  ⟨NodeKind.configure_eq_crash, wakeUpTime_fails_iff, deadlineOf_fails_iff, Client.poll_eq_crash⟩

namespace Site

/-- The longest sleep for which there is a number of seconds. -/
def endlessSleep : MissionSource :=
  ⟨[⟨"main", [], .node "Sleep" none
    [⟨.input, "seconds", .constant (.float ⟨0x43EFFFFFFFFFFFFF⟩)⟩] []⟩]⟩

set_option maxRecDepth 100000 in
def endlessSleepTree : AcceptedTree where
  source := endlessSleep
  tree := (Tree.ofSource endlessSleep).toOption.getD default
  accepted := by cbv

def fiftyMinutes : Duration := ⟨3000000000000, by decide⟩

set_option maxRecDepth 100000 in
/-- A number of seconds that is too large crashes the configuration, and a sleep that is configured
crashes a mission that reaches it after fifty minutes. -/
theorem long_sleeps_crash :
    NodeKind.sleep.configure (Table.empty.insert "seconds"
        (.constant (.float ⟨0x4415AF1D78B58C40⟩))) = .error (.crash .durationOverflow) ∧
      ((start .standard .empty : Site ScriptedService LeaseRegistry).undergoAll
        [.perform .zero (.load endlessSleepTree), .perform .zero .play,
          .perform .zero (.tick default)]).isOk = true ∧
      (start .standard .empty : Site ScriptedService LeaseRegistry).undergoAll
        [.perform .zero (.load endlessSleepTree), .perform .zero .play,
          .perform fiftyMinutes (.tick default)] = .error .durationOverflow := by
  refine ⟨by cbv, by cbv, by cbv⟩

end Site

end BehaviorTree
