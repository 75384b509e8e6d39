import BehaviorTree.Proofs.Runner.History

/-!
# Mission times

The mission time counts from an origin, the reading of the clock when the mission was first played.
An operation keeps the origin, forgets it or moves it to the present reading, and it moves an origin
only if it starts the mission over. Variables of the root are stamped with the mission time when
they are written, and they are left alone by whatever moves the origin.
-/

namespace BehaviorTree

namespace Runner

variable {σ π : Type} {runner after : Runner σ} {restarts : Prop} {now : Duration}

/-- What an operation, which may start the mission over, does to the origin of mission times and to
the variables of the root. -/
structure Proceeds (restarts : Prop) (now : Duration) (before after : Runner σ) : Prop where
  /-- An origin is kept, or it is forgotten or moved to the present. -/
  origin : after.startedAt = before.startedAt ∨
    ((restarts ∨ before.startedAt = none) ∧ (after.startedAt = none ∨ after.startedAt = some now))
  started : (before.state = .playing → before.startedAt.isSome) →
    after.state = .playing → after.startedAt.isSome
  /-- Variables of the root are stamped with the mission time. -/
  stamped : Blackboard.Stamped (before.elapsed now) before.blackboard after.blackboard

theorem Proceeds.of_stamped (origin : after.startedAt = runner.startedAt)
    (state : after.state = .playing → runner.state = .playing)
    (stamped : Blackboard.Stamped (runner.elapsed now) runner.blackboard after.blackboard) :
    runner.Proceeds restarts now after := by
  refine ⟨Or.inl origin, ?_, stamped⟩
  intro started playing
  rw [origin]
  exact started (state playing)

theorem Proceeds.of_blackboard (origin : after.startedAt = runner.startedAt)
    (state : after.state = .playing → runner.state = .playing)
    (blackboard : after.blackboard = runner.blackboard) : runner.Proceeds restarts now after :=
  .of_stamped origin state (.of_eq fun _ => by rw [blackboard])

theorem proceeds_define {name : String} {value : Value}
    (defined : runner.define now name value = .ok after) : runner.Proceeds restarts now after := by
  unfold define at defined
  rw [map_eq_ok] at defined
  rcases defined with ⟨blackboard, defined, rfl⟩
  exact .of_stamped rfl id (Blackboard.writes_define defined).stamped

theorem proceeds_write {name : String} {value : Value}
    (written : runner.write now name value = .ok after) : runner.Proceeds restarts now after := by
  unfold write at written
  rw [map_eq_ok] at written
  rcases written with ⟨blackboard, written, rfl⟩
  exact .of_stamped rfl id (Blackboard.writes_write written).stamped

theorem proceeds_pause : runner.Proceeds restarts now runner.pause := by
  unfold pause
  split
  · exact .of_blackboard rfl (fun impossible => by cases impossible) rfl
  · exact .of_blackboard rfl id rfl

variable [RemoteService σ]

theorem startedAt_reset (runner : Runner σ) : runner.reset.startedAt = none := by rw [reset_eq]

/-- Variables of the root outlive a reset, with the times at which they were written. -/
theorem rootBinding?_reset (runner : Runner σ) (name : String) :
    runner.reset.blackboard.rootBinding? name = runner.blackboard.rootBinding? name := by
  have released : ∀ (states : List RunState) (runner : Runner σ),
      (states.foldl release runner).blackboard.rootBinding? name =
        runner.blackboard.rootBinding? name := by
    intro states
    induction states with
    | nil => exact fun _ => rfl
    | cons state rest ih =>
      intro runner
      exact (ih (runner.release state)).trans (state.rootBinding?_release _ _ name)
  rw [reset_eq]
  exact (Blackboard.rootBinding?_clearNestedScopes name).trans (released _ _)

theorem proceeds_restart : runner.Proceeds True now (runner.restart now) := by
  have stamped : Blackboard.Stamped (runner.elapsed now) runner.blackboard
      runner.reset.blackboard := .of_eq runner.rootBinding?_reset
  unfold restart
  dsimp only
  split
  · refine ⟨Or.inr ⟨Or.inl trivial, Or.inl runner.startedAt_reset⟩, ?_, stamped⟩
    intro _ playing
    cases playing
  · exact ⟨Or.inr ⟨Or.inl trivial, Or.inr rfl⟩, fun _ _ => rfl, stamped⟩
  · rename_i notPlaying
    exact ⟨Or.inr ⟨Or.inl trivial, Or.inl runner.startedAt_reset⟩,
      fun _ playing => absurd playing notPlaying, stamped⟩

def PlaysOver (runner : Runner σ) : Prop :=
  runner.state = .finished ∨
    ((runner.state = .paused ∨ runner.state = .stopped) ∧ runner.config.restartOnPlay = true)

/-- A runner that is got ready keeps the variables of the root, and its origin unless it starts
over. -/
theorem prepare_cases (runner : Runner σ) :
    (runner.prepare.startedAt = runner.startedAt ∨
      (runner.PlaysOver ∧ runner.prepare.startedAt = none)) ∧
      ∀ name, runner.prepare.blackboard.rootBinding? name =
        runner.blackboard.rootBinding? name := by
  unfold prepare
  split
  · rename_i finished
    exact ⟨Or.inr ⟨Or.inl finished, startedAt_reset _⟩, rootBinding?_reset _⟩
  · rename_i paused
    split
    · rename_i forced
      exact ⟨Or.inr ⟨Or.inr ⟨Or.inl paused, forced⟩, startedAt_reset _⟩, rootBinding?_reset _⟩
    · exact ⟨Or.inl rfl, fun _ => rfl⟩
  · rename_i stopped
    split
    · rename_i forced
      exact ⟨Or.inr ⟨Or.inr ⟨Or.inr stopped, forced⟩, startedAt_reset _⟩, rootBinding?_reset _⟩
    · exact ⟨Or.inl rfl, fun _ => rfl⟩
  · exact ⟨Or.inl rfl, fun _ => rfl⟩
  · exact ⟨Or.inl rfl, fun _ => rfl⟩

variable [LeaseProvider π] {provider later : π}

theorem startedAt_stop : (runner.stop provider).1.startedAt = runner.startedAt := by
  unfold stop
  dsimp only
  split <;> rfl

theorem blackboard_stop : (runner.stop provider).1.blackboard = runner.blackboard := by
  unfold stop
  dsimp only
  split <;> rfl

theorem state_stop_ne : (runner.stop provider).1.state ≠ .playing := by
  unfold stop
  dsimp only
  split
  · exact fun impossible => by cases impossible
  · exact fun impossible => by cases impossible
  · assumption

theorem proceeds_stop : runner.Proceeds restarts now (runner.stop provider).1 :=
  .of_blackboard startedAt_stop (fun playing => absurd playing state_stop_ne) blackboard_stop

theorem proceeds_load {tree : Tree} : runner.Proceeds True now (runner.load provider tree).1 := by
  have forgotten := startedAt_reset (runner.stop provider).1
  refine ⟨Or.inr ⟨Or.inl trivial, Or.inl forgotten⟩, ?_, .of_eq ?_⟩
  · intro _ playing
    cases playing
  · intro name
    have reset := rootBinding?_reset (runner.stop provider).1 name
    rwa [blackboard_stop] at reset

theorem proceeds_play (played : runner.play now provider = (.ok after, later)) :
    runner.Proceeds runner.PlaysOver now after := by
  cases played_of_play played with
  | already => exact .of_blackboard rfl id rfl
  | @started tree leases =>
    rcases prepare_cases { runner with leases := leases } with ⟨origin, root⟩
    refine ⟨?_, fun _ _ => ?_, .of_eq root⟩
    · rcases origin with kept | ⟨startsOver, forgotten⟩
      · dsimp only at kept ⊢
        rw [kept]
        cases runner.startedAt with
        | none => exact Or.inr ⟨Or.inr rfl, Or.inr rfl⟩
        | some first => exact Or.inl rfl
      · dsimp only
        rw [forgotten]
        exact Or.inr ⟨Or.inl startsOver, Or.inr rfl⟩
    · dsimp only
      rw [Option.isSome_or, Option.isSome_some, Bool.or_true]

omit [LeaseProvider π] in
theorem proceeds_tick {wallClock : WallClock} {result : Except (Failure MissionError) Status}
    (ticked : runner.Ticked now wallClock result after)
    (calm : ∀ cause, result ≠ .error (.crash cause)) : runner.Proceeds restarts now after := by
  cases ticked with
  | refused leases cause => exact .of_blackboard rfl id rfl
  | crashed loaded overflow => exact absurd rfl (calm _)
  | ran leases loaded ticked advances active goesOn =>
    exact .of_stamped rfl goesOn advances.stamped

end Runner

variable {σ π : Type}

/-- An operation may start the mission over, depending on what its runner is doing. -/
def Operation.StartsOver (runner : Runner σ) : Operation σ π → Prop
  | .load _ | .restart => True
  | .play => runner.PlaysOver
  | _ => False

namespace Site

variable [RemoteService σ] [LeaseProvider π] {site after : Site σ π} {now : Duration}
  {operation : Operation σ π} {history : History σ π}

def Continues : Site σ π → History σ π → Prop
  | _, [] => True
  | site, (now, operation) :: rest => ¬ operation.StartsOver site.runner ∧
      ∀ next, site.perform now operation = .ok next → next.Continues rest

theorem proceeds_perform (orderly : site.runner.Orderly)
    (performed : site.perform now operation = .ok after) :
    site.runner.Proceeds (operation.StartsOver site.runner) now after.runner := by
  have idle : ∀ {restarts : Prop}, site.runner.Proceeds restarts now site.runner :=
    .of_blackboard rfl id rfl
  cases operation with
  | register name service =>
    cases performed
    exact .of_blackboard rfl id rfl
  | load accepted =>
    cases performed
    exact Runner.proceeds_load
  | define name value =>
    dsimp only [perform] at performed
    split at performed
    · rename_i defined
      cases performed
      exact Runner.proceeds_define defined
    · cases performed
      exact idle
  | write name value =>
    dsimp only [perform] at performed
    split at performed
    · rename_i written
      cases performed
      exact Runner.proceeds_write written
    · cases performed
      exact idle
  | play =>
    dsimp only [perform] at performed
    split at performed
    · rename_i played
      cases performed
      exact Runner.proceeds_play played
    · cases performed
      exact idle
  | pause =>
    cases performed
    exact Runner.proceeds_pause
  | stop =>
    cases performed
    exact Runner.proceeds_stop
  | restart =>
    cases performed
    exact Runner.proceeds_restart
  | tick wallClock =>
    dsimp only [perform] at performed
    have ticked := orderly.ticked now wallClock site.provider
    split at performed
    · cases performed
    · rename_i result runner provider notCrashed outcome
      cases performed
      rw [outcome] at ticked
      apply Runner.proceeds_tick ticked
      rintro cause rfl
      exact notCrashed cause rfl
  | compete change =>
    cases performed
    exact idle

/-- The origin at the end of a run is the first one or a reading of the clock during the run. A
mission that is playing has an origin, and it is the first one if the mission was not started
over. -/
theorem origin_follow (orderly : site.runner.Orderly) (followed : site.follow history = .ok after) :
    (∀ origin, after.runner.startedAt = some origin →
      site.runner.startedAt = some origin ∨ origin ∈ history.map Prod.fst) ∧
    ((site.runner.state = .playing → site.runner.startedAt.isSome) →
      after.runner.state = .playing → after.runner.startedAt.isSome) ∧
    ∀ origin, site.runner.startedAt = some origin → site.Continues history →
      after.runner.startedAt = some origin := by
  induction history generalizing site with
  | nil =>
    cases followed
    exact ⟨fun _ => Or.inl, fun started => started, fun _ same _ => same⟩
  | cons entry rest ih =>
    rw [follow_cons_eq_ok] at followed
    rcases followed with ⟨middle, performed, followed⟩
    have proceeds := proceeds_perform orderly performed
    have orderlyNext := orderly_perform orderly entry.1 entry.2
    rw [performed] at orderlyNext
    rcases ih orderlyNext followed with ⟨origins, started, kept⟩
    refine ⟨?_, fun first => started (proceeds.started first), ?_⟩
    · intro origin same
      rcases origins origin same with same | listed
      · rcases proceeds.origin with unchanged | ⟨-, forgotten | moved⟩
        · exact Or.inl (unchanged ▸ same)
        · rw [forgotten] at same
          cases same
        · rw [moved, Option.some.injEq] at same
          exact Or.inr (by simp [same])
      · exact Or.inr (List.mem_cons_of_mem _ listed)
    · rintro origin first ⟨goesOn, continues⟩
      apply kept origin _ (continues middle performed)
      rcases proceeds.origin with unchanged | ⟨startsOver | none, -⟩
      · rw [unchanged, first]
      · exact absurd startsOver goesOn
      · rw [first] at none
        cases none

end Site

end BehaviorTree
