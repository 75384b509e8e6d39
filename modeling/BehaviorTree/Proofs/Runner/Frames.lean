import BehaviorTree.Proofs.Engine.Confinement
import BehaviorTree.Proofs.Runner.Interruptions

/-!
# Frames of references

At any time of a mission the frames of references are numbered in the order in which they were
given, so every reference has a frame of its own. Whatever a tick comes to, it keeps to the subtree
of its node, and subtrees of two references have nothing in common unless one of them is in the
other one. So two uses of a subtree never share run states.
-/

namespace BehaviorTree

namespace Tree

variable {tree : Tree} {runs : RunStore} {upper lower other first second : RunKey}
  {frame frameToo : FrameId} {root rootToo : NodeIndex}

/-- What is in a subtree is in its frame, or in the frame of a reference of the subtree. -/
theorem Reaches.frame_eq_or (reaches : tree.Reaches runs upper lower) :
    lower.frame = upper.frame ∨
      ∃ reference,
        runs.frame? reference = some lower.frame ∧ tree.Reaches runs upper reference := by
  induction reaches with
  | refl => exact Or.inl rfl
  | @tail middle lower above invokes ih =>
    cases invokes with
    | child found listed => exact ih
    | target found configured framed known => exact Or.inr ⟨middle, framed, above⟩

/-- Subtrees of different references have no frame in common, unless one is in the other. -/
theorem Reaches.frames_ne (numbered : runs.Numbered) (framed : runs.frame? first = some frame)
    (framedToo : runs.frame? second = some frameToo) (different : first ≠ second)
    (outside : ¬ tree.Reaches runs ⟨frame, root⟩ second)
    (outsideToo : ¬ tree.Reaches runs ⟨frameToo, rootToo⟩ first)
    (reaches : tree.Reaches runs ⟨frame, root⟩ lower)
    (reachesToo : tree.Reaches runs ⟨frameToo, rootToo⟩ other) : lower.frame ≠ other.frame := by
  induction reaches generalizing other with
  | refl =>
    intro same
    rcases reachesToo.frame_eq_or with here | ⟨reference, given, above⟩
    · have meant : frame = frameToo := same.trans here
      rw [← meant] at framedToo
      exact different (numbered.alone _ _ _ framed framedToo)
    · rw [← same] at given
      exact outsideToo (numbered.alone _ _ _ framed given ▸ above)
  | @tail middle lower above invokes ih =>
    cases invokes with
    | child found listed => exact ih reachesToo
    | @target _ _ inner _ found configured given known =>
      intro same
      rcases reachesToo.frame_eq_or with here | ⟨reference, givenToo, aboveToo⟩
      · have meant : inner = frameToo := same.trans here
        rw [meant] at given
        exact outside (numbered.alone _ _ _ given framedToo ▸ above)
      · have meant : inner = other.frame := same
        rw [← meant] at givenToo
        rw [← numbered.alone _ _ _ given givenToo] at aboveToo
        exact ih aboveToo rfl

end Tree

namespace Runner

variable {σ π : Type} [RemoteService σ] [LeaseProvider π] {runner after : Runner σ}
  {provider later : π}

theorem grows_stop : runner.runs.Grows (runner.stop provider).1.runs := by
  have dropped : runner.runs.Grows (runner.dropCalls.dropLeases provider).1.runs := .same rfl rfl
  unfold Runner.stop
  dsimp only
  split <;> exact dropped

theorem grows_conclude (runner : Runner σ) (provider : π)
    (result : Except (Failure EngineError) Status) (active : Option RunKey) :
    runner.runs.Grows (runner.conclude provider result active).2.1.runs := by
  cases result with
  | error failure => exact grows_stop
  | ok status =>
    unfold Runner.conclude
    dsimp only
    split <;> exact .refl _

theorem Orderly.grows_tick (orderly : runner.Orderly) (now : Duration) (wallClock : WallClock)
    (provider : π) : runner.runs.Grows (runner.tick now wallClock provider).2.1.runs := by
  rcases runner.tick_cases now wallClock provider with
    ⟨error, leases, later, ticked, -⟩ | ⟨tree, leases, later, loaded, -, ticked⟩
  · rw [ticked]
    exact .refl _
  · rw [ticked]
    have wellFormed := (orderly.loaded tree loaded).wellFormed
    have stays : runner.context.Stays (runner.engineTick tree now wallClock).2 :=
      staying_tickWithin wellFormed _ _ _
    exact stays.grows.trans (grows_conclude
      ({ runner with leases := leases }.absorb (runner.engineTick tree now wallClock).2) later _ _)

omit [LeaseProvider π] in
theorem framed_prepare (framed : RunStore.empty.Grows runner.runs) :
    RunStore.empty.Grows runner.prepare.runs := by
  have again : RunStore.empty.Grows { runner with pauses := runner.pauses + 1 }.reset.runs := by
    rw [runs_reset]
    exact .refl _
  unfold Runner.prepare
  split
  · rw [runs_reset]
    exact .refl _
  · dsimp only
    split
    · exact again
    · exact framed
  · dsimp only
    split
    · exact again
    · exact framed
  · exact framed
  · exact framed

theorem framed_play (framed : RunStore.empty.Grows runner.runs) {now : Duration}
    (played : runner.play now provider = (.ok after, later)) :
    RunStore.empty.Grows after.runs := by
  cases played_of_play played with
  | already => exact framed
  | @started tree leases =>
    have leased : RunStore.empty.Grows { runner with leases := leases }.runs := framed
    exact framed_prepare leased

end Runner

namespace Site

variable {σ π : Type} [RemoteService σ] [LeaseProvider π] {site after : Site σ π}
  {deed : Deed σ π} {deeds : List (Deed σ π)}

/-- Frames are given one after the other, and only a reset takes them back. -/
theorem framed_undergo (orderly : site.runner.Orderly)
    (framed : RunStore.empty.Grows site.runner.runs) (happened : site.undergo deed = .ok after) :
    RunStore.empty.Grows after.runner.runs := by
  rcases deed with ⟨now, operation⟩ | _
  · change site.perform now operation = .ok after at happened
    cases operation with
    | register name service =>
      cases happened
      exact framed
    | load accepted =>
      cases happened
      change RunStore.empty.Grows (site.runner.stop site.provider).1.reset.runs
      rw [Runner.runs_reset]
      exact .refl _
    | define name value =>
      rcases perform_define_eq_ok happened with ⟨blackboard, rfl⟩
      exact framed
    | write name value =>
      rcases perform_write_eq_ok happened with ⟨blackboard, rfl⟩
      exact framed
    | play =>
      simp only [perform] at happened
      split at happened
      · rename_i played
        cases happened
        exact Runner.framed_play framed played
      · cases happened
        exact framed
    | pause =>
      cases happened
      unfold Runner.pause
      split <;> exact framed
    | stop =>
      cases happened
      exact framed.trans Runner.grows_stop
    | restart =>
      cases happened
      unfold Runner.restart
      dsimp only
      split <;>
      · change RunStore.empty.Grows site.runner.reset.runs
        rw [Runner.runs_reset]
        exact .refl _
    | tick wallClock =>
      rw [(perform_tick_eq_ok happened).1]
      exact framed.trans (orderly.grows_tick now wallClock site.provider)
    | compete change =>
      cases happened
      exact framed
  · cases happened
    exact framed

theorem framed_undergoAll (config : MissionConfig) (provider : π)
    (reached : (start config provider).undergoAll deeds = .ok site) :
    RunStore.empty.Grows site.runner.runs := by
  have initially : (start config provider : Site σ π).runner.Orderly ∧
      RunStore.empty.Grows (start config provider : Site σ π).runner.runs :=
    ⟨Runner.orderly_create config, .refl _⟩
  have kept := kept_undergoAll (fun site : Site σ π => site.runner.Orderly ∧
    RunStore.empty.Grows site.runner.runs) (fun before happened =>
      ⟨orderly_undergo before.1 happened, framed_undergo before.1 before.2 happened⟩)
    initially reached
  exact kept.2

/-- Two uses of a subtree never share run states. -/
theorem subtrees_keep_apart (config : MissionConfig) (provider : π)
    (reached : (start config provider : Site σ π).undergoAll deeds = .ok site) {tree : Tree}
    (loaded : site.runner.tree = some tree) :
    (∀ runs : RunStore, site.runner.runs.Grows runs → runs.frames.size < 2 ^ 32 →
      (∀ key frame, runs.frame? key = some frame → frame ≠ 0) ∧
      ∀ first second frame frameToo, runs.frame? first = some frame →
        runs.frame? second = some frameToo → first ≠ second →
        frame ≠ frameToo ∧
        ∀ root rootToo, ¬ tree.Reaches runs ⟨frame, root⟩ second →
          ¬ tree.Reaches runs ⟨frameToo, rootToo⟩ first →
          ∀ key, ¬ (tree.Reaches runs ⟨frame, root⟩ key ∧
            tree.Reaches runs ⟨frameToo, rootToo⟩ key)) ∧
    ∀ (setting : Setting) (context : Context σ), setting.tree = tree →
      (∀ depth index,
        context.runs.Grows (outcome (tickWithin setting depth index) context).2.runs ∧
        Confined (tree.Reaches (outcome (tickWithin setting depth index) context).2.runs
          ⟨context.frame, index⟩) (tickWithin setting depth index) context) ∧
      ∀ depth key, Confined (tree.Reaches context.runs key)
        (haltWithin tree depth key : Tick σ Unit) context := by
  have orderly : site.runner.Orderly :=
    kept_undergoAll (fun site => site.runner.Orderly) orderly_undergo
      (Runner.orderly_create config) reached
  have wellFormed := (orderly.loaded tree loaded).wellFormed
  have framed := framed_undergoAll config provider reached
  refine ⟨fun runs grown room => ?_, ?_⟩
  · have numbered := (framed.trans grown).numbered RunStore.numbered_empty room
    refine ⟨fun key frame given => ?_, ?_⟩
    · rintro rfl
      exact absurd (numbered.bounded key 0 given).1 (Nat.lt_irrefl 0)
    · intro first second frame frameToo given givenToo different
      refine ⟨?_, ?_⟩
      · rintro rfl
        exact different (numbered.alone first second frame given givenToo)
      · rintro root rootToo outside outsideToo key ⟨here, there⟩
        exact here.frames_ne numbered given givenToo different outside outsideToo there rfl
  · rintro setting context rfl
    refine ⟨fun depth index => ⟨?_, ?_⟩, fun depth key => ?_⟩
    · exact (staying_tickWithin wellFormed depth index context).grows
    · exact confined_tickWithin wellFormed depth index context
    · exact confined_haltWithin setting.tree depth key context

/-- The same nap is used at two places. -/
def twoNaps : MissionSource :=
  ⟨[⟨"main", [], .node "SimpleParallel" none [] [.node "Nap" none [] [], .node "Nap" none [] []]⟩,
    ⟨"Nap", [], .node "Sleep" none [⟨.input, "seconds", .constant (.int 20)⟩] []⟩]⟩

set_option maxRecDepth 100000 in
def twoNapsTree : AcceptedTree where
  source := twoNaps
  tree := (Tree.ofSource twoNaps).toOption.getD default
  accepted := by cbv

def untilNaps : List (Deed ScriptedService LeaseRegistry) :=
  [.perform .zero (.load twoNapsTree), .perform .zero .play, .perform .zero (.tick default)]

def napping : Site ScriptedService LeaseRegistry := afterAll (start .standard .empty) untilNaps

set_option maxRecDepth 100000 in
theorem undergoAll_untilNaps : (start .standard .empty).undergoAll untilNaps = .ok napping := by
  cbv

set_option maxRecDepth 100000 in
/-- The two naps are in frames of their own, where to halt one leaves the other alone. -/
theorem naps_keep_apart :
    napping.runner.runs.frame? ⟨0, 0⟩ = some 1 ∧ napping.runner.runs.frame? ⟨0, 1⟩ = some 2 ∧
      napping.runner.runs.isActive ⟨1, 3⟩ = true ∧ napping.runner.runs.isActive ⟨2, 3⟩ = true ∧
      (∀ key, ¬ (twoNapsTree.tree.Reaches napping.runner.runs ⟨1, 3⟩ key ∧
        twoNapsTree.tree.Reaches napping.runner.runs ⟨2, 3⟩ key)) ∧
      Confined (twoNapsTree.tree.Reaches napping.runner.runs ⟨1, 3⟩)
        (haltWithin twoNapsTree.tree 5 ⟨1, 3⟩ : Tick ScriptedService Unit)
        napping.runner.context := by
  have loaded : napping.runner.tree = some twoNapsTree.tree := by cbv
  have room : napping.runner.runs.frames.size < 2 ^ 32 := by cbv
  have first : napping.runner.runs.frame? ⟨0, 0⟩ = some 1 := by cbv
  have second : napping.runner.runs.frame? ⟨0, 1⟩ = some 2 := by cbv
  rcases subtrees_keep_apart .standard .empty undergoAll_untilNaps loaded with ⟨apart, confined⟩
  rcases apart _ (.refl _) room with ⟨inner, apart⟩
  -- Nothing in the frame of a reference leads back to the mission itself.
  have outside : ∀ frame root node, frame ≠ 0 →
      ¬ twoNapsTree.tree.Reaches napping.runner.runs ⟨frame, root⟩ ⟨0, node⟩ := by
    intro frame root node nested reaches
    rcases reaches.frame_eq_or with same | ⟨reference, given, -⟩
    · exact nested same.symm
    · exact inner _ _ given rfl
  refine ⟨first, second, by cbv, by cbv, ?_, ?_⟩
  · exact (apart _ _ _ _ first second (by simp)).2 3 3 (outside 1 3 1 (by decide))
      (outside 2 3 0 (by decide))
  · exact (confined (napping.runner.setting twoNapsTree.tree .zero default)
      napping.runner.context rfl).2 5 ⟨1, 3⟩

end Site

end BehaviorTree
