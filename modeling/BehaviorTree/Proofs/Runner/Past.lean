import BehaviorTree.Proofs.Engine.PastTick
import BehaviorTree.Proofs.Runner.Contest

/-!
# Runners with a past

A runner with a past mirrors one without: it has the same run states, variables and requests under
other numbers. What it is told to do changes both alike, and a tick has the same result, until the
one with the past has no number left for a request. Leases may be held differently, as long as they
are filed correctly.
-/

namespace BehaviorTree

variable {σ π : Type}

namespace Runner

/-- A runner with a past does what one without a past does. -/
structure Mirrors (past : Past) (older newer : Runner σ) : Prop where
  contexts : older.context.Mirrors past newer.context
  backs : newer.client.Backs newer.runs.callAt
  config : older.config = newer.config
  tree : older.tree = newer.tree
  state : older.state = newer.state
  status : older.status = newer.status
  active : older.active = newer.active
  startedAt : older.startedAt = newer.startedAt
  pauses : older.pauses = newer.pauses + past.pauses
  ticks : older.ticks = newer.ticks

variable {past : Past} {older newer : Runner σ}

namespace Mirrors

theorem elapsed (mirrors : Mirrors past older newer) (now : Duration) :
    older.elapsed now = newer.elapsed now := by
  simp only [Runner.elapsed, mirrors.startedAt]

theorem setLeases (mirrors : Mirrors past older newer) (held other : LeaseHolder) :
    Mirrors past { older with leases := held } { newer with leases := other } :=
  { mirrors with }

theorem setBlackboard (mirrors : Mirrors past older newer) {one other : Blackboard}
    (alike : past.ground.Mirrors one other) :
    Mirrors past { older with blackboard := one } { newer with blackboard := other } :=
  { mirrors with contexts := { mirrors.contexts with blackboard := alike } }

theorem define (mirrors : Mirrors past older newer) (now : Duration) (name : String)
    (value : Value) :
    Matches (Mirrors past) (older.define now name value) (newer.define now name value) := by
  have blackboard := mirrors.contexts.blackboard
  have defined := blackboard.define .root name ⟨value, newer.elapsed now, none⟩
  rw [blackboard.groundArena.handle_root] at defined
  unfold Runner.define
  rw [mirrors.elapsed]
  exact defined.map fun _ _ => mirrors.setBlackboard

theorem write (mirrors : Mirrors past older newer) (now : Duration) (name : String)
    (value : Value) :
    Matches (Mirrors past) (older.write now name value) (newer.write now name value) := by
  have blackboard := mirrors.contexts.blackboard
  have written := blackboard.write .root name ⟨value, newer.elapsed now, none⟩
  rw [blackboard.groundArena.handle_root] at written
  unfold Runner.write
  rw [mirrors.elapsed]
  exact written.map fun _ _ => mirrors.setBlackboard

theorem register (mirrors : Mirrors past older newer) (name : String) (service : σ) :
    Mirrors past { older with client := older.client.register name service }
      { newer with client := newer.client.register name service } :=
  { mirrors with
    contexts := { mirrors.contexts with client := mirrors.contexts.client.register name service }
    backs := mirrors.backs.unchanged (.of_calls rfl rfl) }

theorem resetSessions (mirrors : Mirrors past older newer) :
    Mirrors past { older with client := older.client.resetSessions }
      { newer with client := newer.client.resetSessions } :=
  { mirrors with
    contexts := { mirrors.contexts with client := mirrors.contexts.client.resetSessions }
    backs := mirrors.backs.unchanged (.of_calls rfl rfl) }

theorem pause (mirrors : Mirrors past older newer) : Mirrors past older.pause newer.pause := by
  unfold Runner.pause
  rw [mirrors.state]
  split
  · exact { mirrors with state := rfl }
  · exact mirrors

variable [RemoteService σ]

/-- The requests that are given up are the same but for their handles. -/
theorem dropCalls (mirrors : Mirrors past older newer) :
    Mirrors past older.dropCalls newer.dropCalls := by
  have runs : older.runs = past.runs newer.runs := mirrors.contexts.runs
  have client := (mirrors.contexts.client.foldl_cancel newer.runs.detachCalls.1).cancelAll
  have listed : older.runs.detachCalls.1 =
      newer.runs.detachCalls.1.map (CallHandle.later · past.offset) := by
    rw [runs, Past.fst_detachCalls]
    rfl
  have kept : older.runs.detachCalls.2 = past.runs newer.runs.detachCalls.2 := by
    rw [runs, Past.snd_detachCalls]
  rw [← listed] at client
  refine { mirrors with
    contexts := { mirrors.contexts with runs := kept, client := client }, backs := ?_ }
  apply Client.Backs.of_none _ RunStore.callAt_detachCalls
  exact Client.numbered_cancelAll ((Client.retires_foldl_cancel _).numbered mirrors.backs.numbered)

variable [LeaseProvider π] {provider other : π}

omit [RemoteService σ] in
theorem dropLeases (mirrors : Mirrors past older newer) :
    Mirrors past (older.dropLeases provider).1 (newer.dropLeases other).1 :=
  mirrors.setLeases _ _

theorem stop (mirrors : Mirrors past older newer) :
    Mirrors past (older.stop provider).1 (newer.stop other).1 := by
  have dropped : Mirrors past (older.dropCalls.dropLeases provider).1
      (newer.dropCalls.dropLeases other).1 := mirrors.dropCalls.dropLeases
  unfold Runner.stop
  dsimp only
  rw [dropped.state]
  split
  · exact { dropped with state := rfl }
  · exact { dropped with state := rfl }
  · exact dropped

omit [LeaseProvider π] in
/-- The engine does the same for both, the visits of nodes included. -/
theorem engineTick (mirrors : Mirrors past older newer) (tree : Tree) (now : Duration)
    (wallClock : WallClock) :
    past.ticks.Outcomes (fun one other older newer => one = other ∧ past.ticks.states older newer)
      (older.engineTick tree now wallClock) (newer.engineTick tree now wallClock) := by
  have setting : older.setting tree now wallClock =
      past.setting (newer.setting tree now wallClock) := by
    simp only [Runner.setting, Past.setting, mirrors.config, mirrors.elapsed, mirrors.pauses]
  unfold Runner.engineTick
  rw [setting]
  exact Past.agree_tickWithin _ _ _ _ ⟨mirrors.contexts, mirrors.backs⟩

omit [RemoteService σ] [LeaseProvider π] in
theorem absorb (mirrors : Mirrors past older newer) {one other : Context σ}
    (alike : past.ticks.states one other) :
    Mirrors past (older.absorb one) (newer.absorb other) :=
  { mirrors with
    contexts :=
      { alike.1 with
        scope := mirrors.contexts.scope
        frame := rfl
        parameters := rfl
        innermost := rfl
        visits := rfl }
    backs := alike.2
    ticks := congrArg (· + 1) mirrors.ticks }

theorem conclude (mirrors : Mirrors past older newer)
    (result : Except (Failure EngineError) Status) (active : Option RunKey) :
    (older.conclude provider result active).1 = (newer.conclude other result active).1 ∧
      Mirrors past (older.conclude provider result active).2.1
        (newer.conclude other result active).2.1 := by
  cases result with
  | error failure => exact ⟨rfl, mirrors.stop⟩
  | ok status =>
    unfold Runner.conclude
    dsimp only
    split
    · exact ⟨rfl, { mirrors with status := rfl, active := rfl }⟩
    · exact ⟨rfl, { mirrors with status := rfl, active := rfl, state := rfl }⟩

/-- A tick has the same result for both, unless the one with a past runs out of numbers. -/
theorem tick (mirrors : Mirrors past older newer) (now : Duration) (wallClock : WallClock)
    (renews : ∃ refusals renewed, older.leases.retainAll provider = (.ok refusals, renewed))
    (alsoRenews : ∃ refusals renewed, newer.leases.retainAll other = (.ok refusals, renewed)) :
    (older.tick now wallClock provider).1 = .error (.crash .handleOverflow) ∨
      (older.tick now wallClock provider).1 = (newer.tick now wallClock other).1 ∧
        Mirrors past (older.tick now wallClock provider).2.1
          (newer.tick now wallClock other).2.1 := by
  rcases renews with ⟨refusals, ⟨leases, later⟩, renewed⟩
  rcases alsoRenews with ⟨refusalsToo, ⟨leasesToo, laterToo⟩, alsoRenewed⟩
  have leased := mirrors.setLeases leases leasesToo
  by_cases playing : newer.state = .playing
  · have alsoPlaying := mirrors.state.trans playing
    cases loaded : newer.tree with
    | none =>
      rw [tick_of_unloaded alsoPlaying renewed (mirrors.tree.trans loaded),
        tick_of_unloaded playing alsoRenewed loaded]
      exact Or.inr ⟨rfl, leased⟩
    | some tree =>
      have evaluates : older.Evaluates provider tree leases later :=
        ⟨alsoPlaying, mirrors.tree.trans loaded, refusals, renewed⟩
      have alsoEvaluates : newer.Evaluates other tree leasesToo laterToo :=
        ⟨playing, loaded, refusalsToo, alsoRenewed⟩
      rw [evaluates.tick_eq, alsoEvaluates.tick_eq]
      have outcomes := mirrors.engineTick tree now wallClock
      revert outcomes
      generalize older.engineTick tree now wallClock = one
      generalize newer.engineTick tree now wallClock = two
      intro outcomes
      cases outcomes with
      | done holds =>
        rcases holds with ⟨rfl, alike⟩
        dsimp only
        rw [alike.1.innermost]
        exact Or.inr ((leased.absorb alike).conclude _ _)
      | failed alike =>
        dsimp only
        rw [alike.1.innermost]
        exact Or.inr ((leased.absorb alike).conclude _ _)
      | exhausted out =>
        cases out
        exact Or.inl rfl
  · rw [tick_of_waiting playing, tick_of_waiting fun same => playing (mirrors.state ▸ same)]
    exact Or.inr ⟨rfl, mirrors⟩

end Mirrors

end Runner

end BehaviorTree
