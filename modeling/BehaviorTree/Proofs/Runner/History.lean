import BehaviorTree.Proofs.Runner.Orderly

/-!
# Histories of missions

A history is what a runner is told to do, one thing after the other, each at a reading of the clock.
It starts with a runner that has just been created, and it ends early if the program crashes. In
between, others may use the same provider of leases. A runner is orderly at the end of every
history, and only numbers that do not fit crash it.
-/

namespace BehaviorTree

/-- A tree that the loader accepts, with its source. -/
structure AcceptedTree where
  source : MissionSource
  tree : Tree
  accepted : Tree.ofSource source = .ok tree

/-- What happens to a runner whose services have states of type `σ`, and to a provider of leases
whose state is `π`. -/
inductive Operation (σ π : Type) where
  | register (name : String) (service : σ)
  | load (accepted : AcceptedTree)
  | define (name : String) (value : Value)
  | write (name : String) (value : Value)
  | play
  | pause
  | stop
  | restart
  | tick (wallClock : WallClock)
  | compete (change : π → π)

/-- A runner and the provider of its leases. -/
structure Site (σ π : Type) where
  runner : Runner σ
  provider : π

/-- What a runner is told to do, with the readings of the clock. -/
abbrev History (σ π : Type) := List (Duration × Operation σ π)

namespace Site

variable {σ π : Type}

def start (config : MissionConfig) (provider : π) : Site σ π := ⟨.create config .empty, provider⟩

variable [RemoteService σ] [LeaseProvider π]

/-- The site after an operation. An operation that is refused leaves the runner as it is. -/
def perform (site : Site σ π) (now : Duration) : Operation σ π → Except Crash (Site σ π)
  | .register name service =>
    .ok { site with
      runner := { site.runner with client := site.runner.client.register name service } }
  | .load accepted =>
    let (runner, provider) := site.runner.load site.provider accepted.tree
    .ok ⟨runner, provider⟩
  | .define name value =>
    match site.runner.define now name value with
    | .ok runner => .ok { site with runner := runner }
    | .error _ => .ok site
  | .write name value =>
    match site.runner.write now name value with
    | .ok runner => .ok { site with runner := runner }
    | .error _ => .ok site
  | .play =>
    match site.runner.play now site.provider with
    | (.ok runner, provider) => .ok ⟨runner, provider⟩
    | (.error _, provider) => .ok { site with provider := provider }
  | .pause => .ok { site with runner := site.runner.pause }
  | .stop =>
    let (runner, provider) := site.runner.stop site.provider
    .ok ⟨runner, provider⟩
  | .restart => .ok { site with runner := site.runner.restart now }
  | .tick wallClock =>
    match site.runner.tick now wallClock site.provider with
    | (.error (.crash cause), _, _) => .error cause
    | (_, runner, provider) => .ok ⟨runner, provider⟩
  | .compete change => .ok { site with provider := change site.provider }

def follow (site : Site σ π) (history : History σ π) : Except Crash (Site σ π) :=
  history.foldlM (fun site entry => site.perform entry.1 entry.2) site

theorem follow_cons_eq_ok {site after : Site σ π} {entry : Duration × Operation σ π}
    {rest : History σ π} : site.follow (entry :: rest) = .ok after ↔
      ∃ middle, site.perform entry.1 entry.2 = .ok middle ∧ middle.follow rest = .ok after := by
  unfold follow
  rw [List.foldlM_cons]
  cases site.perform entry.1 entry.2 with
  | ok middle => simp [bind, Except.bind]
  | error cause => simp [bind, Except.bind]

theorem follow_append_eq_ok {site after : Site σ π} {first second : History σ π} :
    site.follow (first ++ second) = .ok after ↔
      ∃ middle, site.follow first = .ok middle ∧ middle.follow second = .ok after := by
  simp only [follow, List.foldlM_append]
  cases List.foldlM (fun (site : Site σ π) entry => site.perform entry.1 entry.2) site first with
  | ok middle => simp [bind, Except.bind]
  | error cause => simp [bind, Except.bind]

theorem follow_snoc_eq_ok {site after : Site σ π} {history : History σ π}
    {entry : Duration × Operation σ π} : site.follow (history ++ [entry]) = .ok after ↔
      ∃ middle, site.follow history = .ok middle ∧ middle.perform entry.1 entry.2 = .ok after := by
  simp only [follow_append_eq_ok, follow_cons_eq_ok]
  simp [follow, pure, Except.pure]

/-- To define a variable changes nothing but the blackboard. -/
theorem perform_define_eq_ok {site after : Site σ π} {now : Duration} {name : String}
    {value : Value} (performed : site.perform now (.define name value) = .ok after) :
    ∃ blackboard, after = { site with
      runner := { site.runner with blackboard := blackboard } } := by
  simp only [perform] at performed
  split at performed
  · rename_i defined
    simp only [Runner.define, map_eq_ok] at defined
    rcases defined with ⟨blackboard, -, rfl⟩
    cases performed
    exact ⟨blackboard, rfl⟩
  · cases performed
    exact ⟨site.runner.blackboard, rfl⟩

/-- To write a variable changes nothing but the blackboard. -/
theorem perform_write_eq_ok {site after : Site σ π} {now : Duration} {name : String}
    {value : Value} (performed : site.perform now (.write name value) = .ok after) :
    ∃ blackboard, after = { site with
      runner := { site.runner with blackboard := blackboard } } := by
  simp only [perform] at performed
  split at performed
  · rename_i written
    simp only [Runner.write, map_eq_ok] at written
    rcases written with ⟨blackboard, -, rfl⟩
    cases performed
    exact ⟨blackboard, rfl⟩
  · cases performed
    exact ⟨site.runner.blackboard, rfl⟩

/-- A runner stays orderly whatever it is told to do, unless a number does not fit. -/
theorem orderly_perform {site : Site σ π} (orderly : site.runner.Orderly) (now : Duration)
    (operation : Operation σ π) :
    match site.perform now operation with
    | .ok after => after.runner.Orderly
    | .error cause => cause = .durationOverflow ∨ cause = .handleOverflow := by
  cases operation with
  | register name service => exact orderly.congr (.refl _) rfl (.of_calls rfl rfl) rfl
  | load accepted => exact orderly.load (Tree.wellFormed_ofSource accepted.accepted)
  | define name value =>
    dsimp only [perform]
    cases defined : site.runner.define now name value with
    | ok runner => exact orderly.define defined
    | error cause => exact orderly
  | write name value =>
    dsimp only [perform]
    cases written : site.runner.write now name value with
    | ok runner => exact orderly.write written
    | error cause => exact orderly
  | play =>
    dsimp only [perform]
    rcases played : site.runner.play now site.provider with ⟨cause | runner, provider⟩
    · exact orderly
    · exact orderly.play played
  | pause => exact orderly.pause
  | stop => exact orderly.stop
  | restart => exact orderly.restart now
  | tick wallClock =>
    have ticked := orderly.ticked now wallClock site.provider
    dsimp only [perform]
    revert ticked
    rcases site.runner.tick now wallClock site.provider with
      ⟨(cause | cause) | status, runner, provider⟩ <;> intro ticked
    · exact orderly.tick ticked (by simp)
    · cases ticked with
      | crashed loaded overflow => exact overflow
    · exact orderly.tick ticked (by simp)
  | compete change => exact orderly

/-- A runner is orderly after a history, unless a number does not fit. -/
theorem orderly_follow {site : Site σ π} (orderly : site.runner.Orderly) (history : History σ π) :
    match site.follow history with
    | .ok after => after.runner.Orderly
    | .error cause => cause = .durationOverflow ∨ cause = .handleOverflow := by
  induction history generalizing site with
  | nil => exact orderly
  | cons entry rest ih =>
    have step := orderly_perform orderly entry.1 entry.2
    unfold follow at ih ⊢
    rw [List.foldlM_cons]
    revert step
    cases site.perform entry.1 entry.2 with
    | ok middle => exact fun kept => ih kept
    | error cause => exact fun overflow => overflow

/-- A runner is orderly at any time of a history that starts with its creation. -/
theorem orderly_history (config : MissionConfig) (provider : π) (history : History σ π) :
    match (start config provider : Site σ π).follow history with
    | .ok site => site.runner.Orderly
    | .error cause => cause = .durationOverflow ∨ cause = .handleOverflow :=
  orderly_follow (Runner.orderly_create config) history

end Site

end BehaviorTree
