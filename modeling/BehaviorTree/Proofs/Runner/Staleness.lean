import BehaviorTree.Lease.Registry
import BehaviorTree.Proofs.Runner.MissionTime
import BehaviorTree.Remote.Script
import Mathlib

/-!
# Stale values

Readers that do not want stale values judge the age of a variable by mission times. This age is the
time since the variable was written only as long as the mission is not started over: what the root
holds outlives that, but its stamps still count from the former origin. So a value looks younger
than it is by as much as the origin has moved.
-/

namespace BehaviorTree

variable {σ π : Type}

/-- Instead of a value a reader is told to wait, or that the variable is stale. -/
def IsRefusal (name : String) (maxAge : Duration) : Except BindingError Lookup → Prop
  | .ok .blocked => True
  | .error (.blackboard (.staleValue stale _ limit)) => stale = name ∧ limit = maxAge
  | _ => False

namespace Context

variable {context : Context σ} {name path : String} {entry : Entry} {policy : StalenessPolicy}
  {maxAge now : Duration}

/-- A reader is refused a variable exactly if its age in mission times is too great. -/
theorem isRefusal_freshValue_iff (strict : policy ≠ .readAnyway)
    (names : (Blackboard.splitPath path).1 = name)
    (held : context.blackboard.entry context.scope name = .ok entry) :
    IsRefusal name maxAge (context.freshValue ⟨policy, some maxAge⟩ now (.path path)) ↔
      maxAge < now.since entry.writtenAt := by
  have value : ∀ segments, ¬ IsRefusal name maxAge
      (((Blackboard.followPath name segments entry).map Lookup.value).mapError
        BindingError.blackboard) := by
    intro segments
    unfold Blackboard.followPath
    cases entry.value.field segments <;> exact id
  unfold freshValue Blackboard.resolve
  subst names
  simp only [bind, Except.bind, held]
  split
  · rename_i old
    cases policy with
    | readAnyway => exact absurd rfl strict
    | blockUntilFresh => exact iff_of_true trivial old
    | failIfStale => exact iff_of_true ⟨rfl, rfl⟩ old
  · rename_i young
    exact iff_of_false (value _) young

/-- A condition that reads a variable that it is refused is not decided. -/
theorem ends_tickCondition_of_isRefusal {setting : Setting} {condition : ConditionConfiguration}
    {operand : Operand} (reads : condition.left = operand ∨ condition.right = operand)
    (refused : IsRefusal name maxAge
      (context.freshValue condition.freshness setting.now operand)) :
    Ends (tickCondition setting condition) context (fun status _ => status = .running)
      fun fault _ => ∃ cause, fault = .node (.binding cause) := by
  unfold tickCondition
  simp only [ends_bind, Attempt.ends_get, ends_bound]
  cases left : context.freshValue condition.freshness setting.now condition.left with
  | error cause => exact ⟨cause, rfl⟩
  | ok first =>
    cases first with
    | blocked => exact rfl
    | value first =>
      simp only [ends_bind, Attempt.ends_get, ends_bound]
      cases right : context.freshValue condition.freshness setting.now condition.right with
      | error cause => exact ⟨cause, rfl⟩
      | ok second =>
        cases second with
        | blocked => exact rfl
        | value second =>
          -- Both values were read, although one of them is that of the operand.
          rcases reads with rfl | rfl
          · rw [left] at refused
            exact refused.elim
          · rw [right] at refused
            exact refused.elim

end Context

namespace Site

variable [RemoteService σ] [LeaseProvider π] {site middle last : Site σ π}
  {operation : Operation σ π} {name : String} {entry : Entry} {now : Duration}

/-- What an operation writes to the root is stamped with the mission time. -/
theorem writtenAt_of_perform (orderly : site.runner.Orderly)
    (performed : site.perform now operation = .ok middle)
    (holds : middle.runner.blackboard.entry .root name = .ok entry)
    (wrote : (∃ value, operation = .write name value) ∨
      site.runner.blackboard.entry .root name ≠ .ok entry) :
    entry.writtenAt = site.runner.elapsed now := by
  have arena := orderly.accounted.arena
  have orderlyNext := orderly_perform orderly now operation
  rw [performed] at orderlyNext
  rw [orderlyNext.accounted.arena.entry_root_iff] at holds
  rcases wrote with ⟨value, rfl⟩ | changed
  · dsimp only [perform, Runner.write] at performed
    cases written : site.runner.blackboard.write .root name
      ⟨value, site.runner.elapsed now, none⟩ with
    | ok blackboard =>
      rw [written] at performed
      cases performed
      rw [arena.rootBinding?_write written, Option.some.injEq] at holds
      rw [← holds]
    | error cause =>
      rw [written] at performed
      cases performed
      rcases arena.exists_write holds ⟨value, site.runner.elapsed now, none⟩ with
        ⟨blackboard, possible⟩
      rw [written] at possible
      cases possible
  · rw [Ne, arena.entry_root_iff] at changed
    rcases (proceeds_perform orderly performed).stamped name with same | ⟨other, held, stamped⟩
    · rw [← same] at changed
      exact absurd holds changed
    · rw [holds, Option.some.injEq] at held
      rw [held, stamped]

/-- An age in mission times falls short of the age by as much as the origin has moved. -/
theorem lt_since_since_iff {first second written maxAge : Duration} (begun : first ≤ written)
    (moved : first ≤ second) (past : second ≤ now) :
    maxAge < (now.since second).since (written.since first) ↔
      maxAge.nanoseconds + (second.nanoseconds - first.nanoseconds) <
        now.nanoseconds - written.nanoseconds := by
  change first.nanoseconds ≤ written.nanoseconds at begun
  change first.nanoseconds ≤ second.nanoseconds at moved
  change second.nanoseconds ≤ now.nanoseconds at past
  change maxAge.nanoseconds < now.nanoseconds - second.nanoseconds -
    (written.nanoseconds - first.nanoseconds) ↔ _
  omega

/-- A mission that asks for a battery that is charged by a value of the last six seconds. -/
def batteryCheck : MissionSource :=
  ⟨[⟨"main", [], .node "Condition" none
    [⟨.input, "lhs", .path "battery"⟩, ⟨.input, "operation", .constant (.string ">")⟩,
      ⟨.input, "rhs", .constant (.int 20)⟩,
      ⟨.input, "handle_staleness", .constant (.string "fail_if_stale")⟩,
      ⟨.input, "max_age", .constant (.int 6)⟩] []⟩]⟩

set_option maxRecDepth 100000 in
def batteryTree : AcceptedTree where
  source := batteryCheck
  tree := (Tree.ofSource batteryCheck).toOption.getD default
  accepted := by cbv

def tenSeconds : Duration := ⟨10000000000, by decide⟩

def twentyFiveSeconds : Duration := ⟨25000000000, by decide⟩

def played : History ScriptedService LeaseRegistry :=
  [(.zero, .load batteryTree), (.zero, .define "battery" (.int 80)), (.zero, .play)]

def charged : History ScriptedService LeaseRegistry :=
  played ++ [(tenSeconds, .write "battery" (.int 80))]

/-- The mission starts over right after the value was written. -/
def restarted : History ScriptedService LeaseRegistry := charged ++ [(tenSeconds, .restart)]

def reached (history : History ScriptedService LeaseRegistry) :
    Site ScriptedService LeaseRegistry :=
  ((start .standard .empty).follow history).toOption.getD (start .standard .empty)

set_option maxRecDepth 100000 in
theorem entry_charged : (reached charged).runner.blackboard.entry .root "battery" =
    .ok ⟨.int 80, tenSeconds, none⟩ := by cbv

set_option maxRecDepth 100000 in
theorem entry_restarted : (reached restarted).runner.blackboard.entry .root "battery" =
    .ok ⟨.int 80, tenSeconds, none⟩ := by cbv

set_option maxRecDepth 100000 in
theorem state_played : (reached played).runner.state = .playing := by cbv

/-- The origins of mission times at an operation and at the end of a run that starts with it. The
first one is not later than the operation, and the other one lies between the first one and the end
of the run. -/
theorem origins_of_follow {config : MissionConfig} {provider : π} {earlier later : History σ π}
    {written : Duration}
    (ordered : (earlier.map Prod.fst ++ written :: (later.map Prod.fst ++ [now])).Pairwise (· ≤ ·))
    (before : (start config provider : Site σ π).follow earlier = .ok site)
    (playing : site.runner.state = .playing) (orderly : site.runner.Orderly)
    (run : site.follow ((written, operation) :: later) = .ok last)
    (ticking : last.runner.state = .playing) :
    ∃ first second, site.runner.startedAt = some first ∧ last.runner.startedAt = some second ∧
      first ≤ written ∧ first ≤ second ∧ second ≤ now ∧
      (site.Continues ((written, operation) :: later) → second = first) := by
  rw [List.pairwise_append, List.pairwise_cons, List.pairwise_append] at ordered
  rcases ordered with ⟨-, ⟨fromWritten, -, -, untilNow⟩, fromEarlier⟩
  have past : written ≤ now := fromWritten now (by simp)
  rcases origin_follow (Runner.orderly_create config) before with ⟨origins, started, -⟩
  rcases origin_follow orderly run with ⟨originsAfter, startedAfter, goesOn⟩
  have starts := started fun impossible => by cases impossible
  rcases Option.isSome_iff_exists.1 (starts playing) with ⟨first, isFirst⟩
  rcases Option.isSome_iff_exists.1 (startedAfter starts ticking) with ⟨second, isSecond⟩
  have begun : first ≤ written := by
    rcases origins first isFirst with none | listed
    · cases none
    · exact fromEarlier first listed written List.mem_cons_self
  refine ⟨first, second, isFirst, isSecond, begun, ?_, ?_, ?_⟩
  · rcases originsAfter second isSecond with same | listed
    · rw [isFirst, Option.some.injEq] at same
      rw [same]
      exact Nat.le_refl _
    · rcases List.mem_cons.1 listed with rfl | listed
      · exact begun
      · exact Nat.le_trans begun (fromWritten second (List.mem_append_left _ listed))
  · rcases originsAfter second isSecond with same | listed
    · rw [isFirst, Option.some.injEq] at same
      rw [← same]
      exact Nat.le_trans begun past
    · rcases List.mem_cons.1 listed with rfl | listed
      · exact past
      · exact untilNow second listed now List.mem_cons_self
  · intro continues
    have same := goesOn first isFirst continues
    rwa [isSecond, Option.some.injEq] at same

/-- A variable of the root was last written while the mission was playing, and readings of the clock
do not decrease. A later reader that wants fresh values is refused it exactly if the time since it
was written exceeds the allowed age by more than the origin of mission times has moved since. The
origin does not move unless the mission is started over. -/
theorem refused_iff_older_than_moved_origin (config : MissionConfig) (provider : π)
    {earlier later : History σ π} {written : Duration}
    (ordered : (earlier.map Prod.fst ++ written :: (later.map Prod.fst ++ [now])).Pairwise (· ≤ ·))
    (before : (start config provider : Site σ π).follow earlier = .ok site)
    (playing : site.runner.state = .playing)
    (performed : site.perform written operation = .ok middle)
    (holds : middle.runner.blackboard.entry .root name = .ok entry)
    (wrote : (∃ value, operation = .write name value) ∨
      site.runner.blackboard.entry .root name ≠ .ok entry)
    (after : middle.follow later = .ok last) (ticking : last.runner.state = .playing)
    (kept : last.runner.blackboard.entry .root name = .ok entry) :
    ∃ first second, site.runner.startedAt = some first ∧ last.runner.startedAt = some second ∧
      first ≤ second ∧ (site.Continues ((written, operation) :: later) → second = first) ∧
      ∀ (context : Context σ) (path : String) (policy : StalenessPolicy) (maxAge : Duration),
        context.blackboard.entry context.scope name =
          last.runner.blackboard.entry .root name →
        (Blackboard.splitPath path).1 = name → policy ≠ .readAnyway →
        (IsRefusal name maxAge
            (context.freshValue ⟨policy, some maxAge⟩ (last.runner.elapsed now) (.path path)) ↔
          maxAge.nanoseconds + (second.nanoseconds - first.nanoseconds) <
            now.nanoseconds - written.nanoseconds) ∧
        (maxAge.nanoseconds + (second.nanoseconds - first.nanoseconds) <
            now.nanoseconds - written.nanoseconds →
          ∀ (tree : Tree) (wallClock : WallClock) (condition : ConditionConfiguration),
            condition.freshness = ⟨policy, some maxAge⟩ →
            condition.left = .path path ∨ condition.right = .path path →
            Ends (tickCondition (last.runner.setting tree now wallClock) condition) context
              (fun status _ => status = .running)
              fun fault _ => ∃ cause, fault = .node (.binding cause)) := by
  have orderly : site.runner.Orderly := by
    have orderly := orderly_history (σ := σ) config provider earlier
    rwa [before] at orderly
  have run : site.follow ((written, operation) :: later) = .ok last :=
    follow_cons_eq_ok.2 ⟨middle, performed, after⟩
  rcases origins_of_follow ordered before playing orderly run ticking with
    ⟨first, second, isFirst, isSecond, begun, moved, past, continued⟩
  have stamp : entry.writtenAt = written.since first := by
    rw [writtenAt_of_perform orderly performed holds wrote, Runner.elapsed, isFirst]
  have elapsed : last.runner.elapsed now = now.since second := by
    rw [Runner.elapsed, isSecond]
  refine ⟨first, second, isFirst, isSecond, moved, continued, ?_⟩
  intro context path policy maxAge sees names strict
  rw [kept] at sees
  have refused : IsRefusal name maxAge
      (context.freshValue ⟨policy, some maxAge⟩ (last.runner.elapsed now) (.path path)) ↔
        maxAge.nanoseconds + (second.nanoseconds - first.nanoseconds) <
          now.nanoseconds - written.nanoseconds := by
    rw [Context.isRefusal_freshValue_iff strict names sees, stamp, elapsed,
      lt_since_since_iff begun moved past]
  refine ⟨refused, ?_⟩
  intro old tree wallClock condition fresh reads
  apply Context.ends_tickCondition_of_isRefusal reads
  rw [fresh]
  exact refused.2 old

set_option maxRecDepth 100000 in
/-- The reader of the restarted mission, for any allowed age. -/
theorem refused_after_restart_iff :
    ∃ first second : Duration, (reached played).runner.startedAt = some first ∧
      (reached restarted).runner.startedAt = some second ∧
      ∀ maxAge : Duration,
        IsRefusal "battery" maxAge ((reached restarted).runner.context.freshValue
          ⟨.failIfStale, some maxAge⟩ ((reached restarted).runner.elapsed twentyFiveSeconds)
          (.path "battery")) ↔
        maxAge.nanoseconds + (second.nanoseconds - first.nanoseconds) <
          twentyFiveSeconds.nanoseconds - tenSeconds.nanoseconds := by
  have ordered : (played.map Prod.fst ++ tenSeconds ::
      ([(tenSeconds, (.restart : Operation ScriptedService LeaseRegistry))].map Prod.fst ++
        [twentyFiveSeconds])).Pairwise (· ≤ ·) := by decide
  have before : (start .standard .empty).follow played = .ok (reached played) := by cbv
  have performed : (reached played).perform tenSeconds (.write "battery" (.int 80)) =
      .ok (reached charged) := by cbv
  have after : (reached charged).follow [(tenSeconds, .restart)] = .ok (reached restarted) := by
    cbv
  rcases refused_iff_older_than_moved_origin .standard LeaseRegistry.empty ordered before
    state_played performed entry_charged (Or.inl ⟨_, rfl⟩) after (by cbv) entry_restarted with
    ⟨first, second, isFirst, isSecond, -, -, reads⟩
  refine ⟨first, second, isFirst, isSecond, ?_⟩
  intro maxAge
  generalize reached restarted = last at reads
  exact (reads last.runner.context "battery" .failIfStale maxAge rfl (by cbv) (by decide)).1

set_option maxRecDepth 100000 in
/-- Fifteen seconds after a value was written it passes for one of the last six seconds, because the
mission was restarted in between. -/
theorem old_value_passes_after_restart :
    (reached played).runner.state = .playing ∧
      (reached charged).runner.blackboard.entry .root "battery" =
        .ok ⟨.int 80, tenSeconds, none⟩ ∧
      (reached restarted).runner.blackboard.entry .root "battery" =
        .ok ⟨.int 80, tenSeconds, none⟩ ∧
      6000000000 < twentyFiveSeconds.nanoseconds - tenSeconds.nanoseconds ∧
      (reached restarted).runner.context.freshValue
        ⟨.failIfStale, some ⟨6000000000, by decide⟩⟩
        ((reached restarted).runner.elapsed twentyFiveSeconds) (.path "battery") =
          .ok (.value (.int 80)) ∧
      ((reached restarted).runner.tick twentyFiveSeconds default
        (reached restarted).provider).1 = .ok .success := by
  refine ⟨state_played, entry_charged, entry_restarted, by decide, ?_, ?_⟩
  · cbv
  · cbv

end Site

end BehaviorTree
