import BehaviorTree.Proofs.Engine.Branches
import BehaviorTree.Proofs.Engine.Invocations

/-!
# Arrivals at nodes

A turn of a node makes the ticks of other nodes on which its outcome depends, each of them in a
context of its own. Followed from the root of the mission, they lead to every node that is ticked,
and the context in which the engine arrives there is the one that the node finds. On the way to a
node and on the way back from it the rest of the tree has its turns, which leave the subtree of the
node alone: what is remembered in it is as it was, or the node is forgotten with what is above it.
Provided that every reference has a frame of its own, the engine arrives at a node once in a tick.
-/

namespace BehaviorTree

variable {σ α β : Type} [RemoteService σ] {setting : Setting} {depth : Nat} {tree : Tree}
  {key upper target lowest lower : RunKey} {node : Node} {index child : NodeIndex}
  {path : List NodeIndex} {run : NodeIndex → Tick σ Status} {final runs : RunStore}
  {rank : NodeIndex → Nat} {start context before middle after inner : Context σ}

/-- What becomes of an action depends on what the tick of a node in a context is. -/
def Heeds (body : (NodeIndex → Tick σ Status) → Attempt σ α) (run : NodeIndex → Tick σ Status)
    (context : Context σ) (index : NodeIndex) (inner : Context σ) : Prop :=
  ∃ other : NodeIndex → Tick σ Status,
    (∀ indexToo innerToo, ¬ (indexToo = index ∧ innerToo = inner) →
      outcome (other indexToo) innerToo = outcome (run indexToo) innerToo) ∧
    outcome (body other) context ≠ outcome (body run) context

namespace Heeds

omit [RemoteService σ]

theorem not_of_still {action : Attempt σ α} :
    ¬ Heeds (fun _ => action) run context index inner := by
  rintro ⟨other, elsewhere, different⟩
  exact different rfl

/-- A sequence of actions makes a tick in its first action, or in what follows on that. -/
theorem bind {first : (NodeIndex → Tick σ Status) → Attempt σ α}
    {next : (NodeIndex → Tick σ Status) → α → Attempt σ β}
    (heeds : Heeds (fun run => first run >>= next run) run context index inner) :
    Heeds first run context index inner ∨
      ∃ result middle, outcome (first run) context = (.ok result, middle) ∧
        Heeds (fun run => next run result) run middle index inner := by
  rcases heeds with ⟨other, elsewhere, different⟩
  by_cases same : outcome (first other) context = outcome (first run) context
  · refine Or.inr ?_
    rw [outcome_bind, outcome_bind, same] at different
    rcases ended : outcome (first run) context with ⟨error | result, middle⟩
    · simp [ended] at different
    · simp only [ended] at different
      exact ⟨result, middle, rfl, other, elsewhere, different⟩
  · exact Or.inl ⟨other, elsewhere, same⟩

theorem tick (heeds : Heeds (fun run : NodeIndex → Tick σ Status =>
    (liftM (run child) : Attempt σ Status)) run context index inner) :
    child = index ∧ context = inner := by
  rcases heeds with ⟨other, elsewhere, different⟩
  by_contra distinct
  apply different
  change outcome (Tick.attempt (other child)) context = outcome (Tick.attempt (run child)) context
  rw [outcome_attempt, outcome_attempt, elsewhere child context distinct]

theorem inScope {scope : ScopeId} {body : (NodeIndex → Tick σ Status) → Attempt σ α}
    (heeds : Heeds (fun run => BehaviorTree.inScope scope (body run)) run context index inner) :
    Heeds body run { context with scope := scope } index inner := by
  rcases heeds with ⟨other, elsewhere, different⟩
  refine ⟨other, elsewhere, fun same => different ?_⟩
  rw [outcome_inScope, outcome_inScope, same]

/-- A reference ticks the root of its target, in its own frame. -/
theorem invoke {name : String} (heeds : Heeds (fun run : NodeIndex → Tick σ Status =>
    tickReference setting run key node name) run context index inner) :
    ∃ definition parameters, setting.tree.lookup name = some index ∧
      setting.tree.node? index = some definition ∧
      bindParameters definition.parameters node.arguments context = .ok parameters ∧
      inner = { context with
        runs := (context.runs.frameFor key).2
        frame := (context.runs.frameFor key).1
        parameters := parameters :: context.parameters } := by
  rcases heeds with ⟨other, elsewhere, different⟩
  cases known : setting.tree.lookup name with
  | none =>
    unfold tickReference at different
    simp [known] at different
  | some root =>
    cases found : setting.tree.node? root with
    | none =>
      unfold tickReference at different
      simp [known, found] at different
    | some definition =>
      rw [outcome_tickReference known found, outcome_tickReference known found] at different
      cases filled : bindParameters definition.parameters node.arguments context with
      | error cause => simp [filled] at different
      | ok parameters =>
        by_cases here : root = index ∧ { context with
            runs := (context.runs.frameFor key).2
            frame := (context.runs.frameFor key).1
            parameters := parameters :: context.parameters } = inner
        · rcases here with ⟨rfl, rfl⟩
          exact ⟨definition, parameters, rfl, found, filled, rfl⟩
        · simp only [filled] at different
          rw [elsewhere _ _ here] at different
          exact absurd rfl different

end Heeds

namespace Itinerary

variable {body : (NodeIndex → Tick σ Status) → Attempt σ α} {indexToo : NodeIndex}
  {innerToo : Context σ}

/-- A node makes the ticks of its stops only. -/
theorem listed (itinerary : Itinerary setting key node path body)
    (heeds : Heeds body run context index inner) : index ∈ path := by
  induction itinerary generalizing context with
  | own own => exact absurd heeds Heeds.not_of_still
  | bind _ _ ih ihNext =>
    rcases heeds.bind with heeds | ⟨result, middle, -, heeds⟩
    · exact List.mem_append_left _ (ih heeds)
    · exact List.mem_append_right _ (ihNext result heeds)
  | tick => exact List.mem_singleton.2 heeds.tick.1.symm
  | halt => exact absurd heeds Heeds.not_of_still
  | inScope scope _ ih => exact ih heeds.inScope
  | invoke =>
    rcases heeds.invoke with ⟨definition, parameters, known, -⟩
    simp [known]
  | among _ sublist ih => exact sublist.subset (ih heeds)

/-- A node ticks every other one in one context at most. -/
theorem heeds_unique (itinerary : Itinerary setting key node path body) (once : path.Nodup)
    (heeds : Heeds body run context index inner)
    (heedsToo : Heeds body run context index innerToo) :
    inner = innerToo := by
  induction itinerary generalizing context with
  | own own => exact absurd heeds Heeds.not_of_still
  | bind begins goesOn ih ihNext =>
    rcases List.nodup_append.1 once with ⟨onceFirst, onceMore, apart⟩
    rcases heeds.bind with heeds | ⟨result, middle, ended, heeds⟩ <;>
      rcases heedsToo.bind with heedsToo | ⟨resultToo, middleToo, endedToo, heedsToo⟩
    · exact ih onceFirst heeds heedsToo
    · exact absurd rfl (apart _ (begins.listed heeds) _ ((goesOn resultToo).listed heedsToo))
    · exact absurd rfl (apart _ (begins.listed heedsToo) _ ((goesOn result).listed heeds))
    · rw [ended] at endedToo
      cases endedToo
      exact ihNext result onceMore heeds heedsToo
  | tick => exact heeds.tick.2.symm.trans heedsToo.tick.2
  | halt => exact absurd heeds Heeds.not_of_still
  | inScope scope _ ih => exact ih once heeds.inScope heedsToo.inScope
  | invoke =>
    rcases heeds.invoke with ⟨definition, parameters, -, found, filled, rfl⟩
    rcases heedsToo.invoke with ⟨definitionToo, parametersToo, -, foundToo, filledToo, rfl⟩
    cases found.symm.trans foundToo
    cases filled.symm.trans filledToo
    rfl
  | among _ sublist ih => exact ih (once.sublist sublist) heeds heedsToo

end Itinerary

/-- What is remembered in the subtree of a node is as it was, or the node is forgotten. -/
def Tree.KeptOrForgotten (tree : Tree) (final : RunStore) (key : RunKey)
    (before after : RunStore) : Prop :=
  (∀ lower, tree.Reaches final key lower → after.get? lower = before.get? lower) ∨
    after.get? key = none

namespace Tree.KeptOrForgotten

theorem of_eq {before after : RunStore} (same : ∀ key, after.get? key = before.get? key) :
    tree.KeptOrForgotten final key before after :=
  Or.inl fun lower _ => same lower

theorem trans {first second third : RunStore} (left : tree.KeptOrForgotten final key first second)
    (right : tree.KeptOrForgotten final key second third) :
    tree.KeptOrForgotten final key first third := by
  rcases right with kept | forgotten
  · rcases left with keptBefore | forgotten
    · exact Or.inl fun lower reaches => (kept lower reaches).trans (keptBefore lower reaches)
    · exact Or.inr ((kept key (.refl key)).trans forgotten)
  · exact Or.inr forgotten

/-- What a node that is not forgotten finds in its subtree is what was there. -/
theorem kept {before after : RunStore} (undisturbed : tree.KeptOrForgotten final key before after)
    (remembered : after.get? key ≠ none) (reaches : tree.Reaches final key lower) :
    after.get? lower = before.get? lower :=
  undisturbed.elim (fun kept => kept lower reaches) fun forgotten => absurd forgotten remembered

end Tree.KeptOrForgotten

omit [RemoteService σ] in
/-- What is confined to some nodes leaves the run states of all others as they are. -/
theorem Confined.elsewhere {ε : Type} {within : RunKey → Prop}
    {action : ExceptT ε (StateM (Context σ)) α} (confined : Confined within action context)
    (outside : ¬ within key) :
    (outcome action context).2.runs.get? key = context.runs.get? key := by
  rcases confined context.runs.states (fun _ _ => rfl) with ⟨_, _, _, elsewhere⟩
  exact (elsewhere key outside).1

omit [RemoteService σ] in
/-- What a node does on its own changes its own run state only. -/
theorem Own.elsewhere {action : Attempt σ α} (own : Own upper action) (different : key ≠ upper) :
    (outcome action context).2.runs.get? key = context.runs.get? key := by
  have confined : Confined (· = upper) action context :=
    confined_of_parallel (.refl _) fun _ shares => .own (shares upper rfl) own
  exact confined.elsewhere different

section Halting

variable (branches : tree.Branches) (distinct : final.Distinct)
include branches distinct

/-- The way from a node down to what is below another one leads through the latter, unless it begins
there. -/
theorem Tree.Reaches.through (reaches : tree.Reaches runs upper lower)
    (framesIn : runs.FramesIn final) (reachesToo : tree.Reaches final key lower) :
    tree.Reaches runs upper key ∨ tree.ReachesBelow final key upper := by
  induction reaches with
  | refl =>
    rcases reachesToo.eq_or_below with rfl | below
    · exact Or.inl (.refl _)
    · exact Or.inr below
  | @tail middle lower above invokes ih =>
    rcases reachesToo.eq_or_below with rfl | below
    · exact Or.inl (above.trans invokes.reaches)
    · exact ih (below.invoker branches distinct (invokes.mono framesIn))

/-- To halt a node that is not below another one leaves the subtree of the latter alone, or the
latter is halted, too. -/
theorem Context.Halts.keptOrForgotten (halts : context.Halts tree [upper] after)
    (framesIn : context.runs.FramesIn final) (outside : ¬ tree.ReachesBelow final key upper) :
    tree.KeptOrForgotten final key context.runs after.runs := by
  rcases halts with ⟨keys, rfl, listed⟩
  simp only [List.mem_singleton, exists_eq_left] at listed
  by_cases reached : tree.Reaches context.runs upper key
  · refine Or.inr ?_
    rw [Context.get?_discardedAll, if_pos ((listed key).2 reached)]
  · refine Or.inl fun lower reaches => ?_
    rw [Context.get?_discardedAll, if_neg fun gone => ?_]
    have through := ((listed lower).1 gone).through branches distinct framesIn reaches
    exact through.elim reached outside

end Halting

/-- A child can always be halted. -/
theorem exists_haltSibling (wellFormed : setting.tree.WellFormed)
    (found : setting.tree.node? upper.node = some node) (listed : child ∈ node.children)
    (context : Context σ) :
    ∃ after, outcome (haltSibling setting.tree upper child) context = (.ok (), after) ∧
      context.Halts setting.tree [upper.sibling child] after := by
  have isNode := wellFormed.closed _ _ (Tree.Leads.child found listed)
  have ends : Ends (halt setting.tree (upper.sibling child)) context _ _ :=
    ends_halt wellFormed isNode context
  unfold Ends at ends
  unfold haltSibling
  rw [outcome_attempt]
  split at ends
  · rename_i after ended
    exact ⟨after, by rw [ended]; rfl, ends⟩
  · exact ends.elim

omit [RemoteService σ] in
/-- A node has no stop twice. -/
theorem Configuration.stops_nodup (configuration : Configuration) (branches : tree.Branches)
    (found : tree.node? index = some node) : (configuration.stops tree node).Nodup := by
  cases configuration with
  | reference name => cases known : tree.lookup name <;> simp [stops, known]
  | _ => exact branches.children_nodup found

section Turns

variable (wellFormed : setting.tree.WellFormed) (branches : setting.tree.Branches)
  (distinct : final.Distinct) (ranking : setting.tree.Ranking rank)
  (found : setting.tree.node? upper.node = some node)
include wellFormed branches distinct ranking found

/-- What a node does without ticking another one leaves the subtree of the latter alone. -/
theorem Itinerary.keptOrForgotten {body : (NodeIndex → Tick σ Status) → Attempt σ α}
    (itinerary : Itinerary setting upper node path body) (avoids : target.node ∉ path)
    (invokes : setting.tree.Invokes final upper target)
    (reaches : setting.tree.Reaches final target lowest) (atUpper : context.frame = upper.frame)
    (framesIn : (outcome (body (tickWithin setting depth)) context).2.runs.FramesIn final) :
    setting.tree.KeptOrForgotten final lowest context.runs
      (outcome (body (tickWithin setting depth)) context).2.runs := by
  have staying : ∀ index, Staying (tickWithin setting depth index : Tick σ Status) :=
    staying_tickWithin wellFormed depth
  have above : setting.tree.ReachesBelow final upper lowest := invokes.reachesBelow.then reaches
  have notBack : ∀ {lower}, setting.tree.Reaches final lowest lower → lower ≠ upper := by
    rintro _ down rfl
    exact above.not_reaches ranking down
  induction itinerary generalizing context with
  | own own =>
    exact Or.inl fun lower down => own.elsewhere (notBack down)
  | @bind _ _ stops more first next begins goesOn ih ihNext =>
    rw [List.mem_append, not_or] at avoids
    have stays := begins.routine.staying staying context
    rw [outcome_bind] at framesIn ⊢
    rcases ended : outcome (first (tickWithin setting depth)) context with
      ⟨error | result, middle⟩
    · simp only [ended] at framesIn ⊢
      have kept := ih avoids.1 atUpper (by rwa [ended])
      rwa [ended] at kept
    · simp only [ended] at framesIn stays ⊢
      have later := (goesOn result).routine.staying staying middle
      have kept := ih avoids.1 atUpper (by rw [ended]; exact later.grows.framesIn.trans framesIn)
      rw [ended] at kept
      exact kept.trans (ihNext result avoids.2 (stays.frame.trans atUpper) framesIn)
  | @tick child listed =>
    have different : target ≠ upper.sibling child := by
      rintro rfl
      exact avoids (List.mem_singleton_self child)
    change (outcome (Tick.attempt (tickWithin setting depth child)) context).2.runs.FramesIn
      final at framesIn
    change setting.tree.KeptOrForgotten final lowest context.runs
      (outcome (Tick.attempt (tickWithin setting depth child)) context).2.runs
    rw [outcome_attempt] at framesIn ⊢
    refine Or.inl fun lower down => ?_
    refine (confined_tickWithin wellFormed depth child context).elsewhere fun inside => ?_
    rw [atUpper] at inside
    exact Tree.Invokes.apart branches distinct ranking invokes (.child found listed) different
      (reaches.trans down) (inside.mono framesIn)
  | @halt child listed =>
    rcases exists_haltSibling wellFormed found listed context with ⟨after, ended, halts⟩
    rw [ended] at framesIn ⊢
    refine halts.keptOrForgotten branches distinct
      (halts.outside.framesIn.trans framesIn) fun below => ?_
    exact notBack (below.invoker branches distinct (.child found listed)) rfl
  | inScope scope inner ih =>
    rw [outcome_inScope] at framesIn ⊢
    have inFrame : ({ context with scope := scope } : Context σ).frame = upper.frame := atUpper
    exact ih avoids inFrame framesIn
  | @invoke name configured =>
    -- All that a reference invokes is its target, which is not to be ticked.
    cases invokes with
    | child foundToo listed =>
      rw [found, Option.some.injEq] at foundToo
      subst foundToo
      simp [(wellFormed.fits _ _ found).childless_of_reference configured] at listed
    | target foundToo configuredToo framed known =>
      rw [found, Option.some.injEq] at foundToo
      subst foundToo
      rw [configured] at configuredToo
      cases configuredToo
      simp [known] at avoids
  | among inner sublist ih =>
    exact ih (fun listed => avoids (sublist.subset listed)) atUpper framesIn

/-- A node ticks another one on the way. It leaves the subtree of the latter alone before that and
after that. -/
structure Setting.Stopover (setting : Setting) (final : RunStore) (upper : RunKey)
    (index : NodeIndex) (context inner left last : Context σ) : Prop where
  invokes : setting.tree.Invokes final upper ⟨inner.frame, index⟩
  there : ∀ lowest, setting.tree.Reaches final ⟨inner.frame, index⟩ lowest →
    setting.tree.KeptOrForgotten final lowest context.runs inner.runs
  framesThere : context.runs.FramesIn inner.runs
  back : ∀ lowest, setting.tree.Reaches final ⟨inner.frame, index⟩ lowest →
    setting.tree.KeptOrForgotten final lowest left.runs last.runs
  framesBack : left.runs.FramesIn last.runs

/-- Every tick that a node makes is a stopover. -/
theorem Itinerary.stopover {body : (NodeIndex → Tick σ Status) → Attempt σ α}
    (itinerary : Itinerary setting upper node path body) (once : path.Nodup)
    (heeds : Heeds body (tickWithin setting depth) context index inner)
    (atUpper : context.frame = upper.frame)
    (framesIn : (outcome (body (tickWithin setting depth)) context).2.runs.FramesIn final) :
    setting.Stopover final upper index context inner
      (outcome (tickWithin setting depth index) inner).2
      (outcome (body (tickWithin setting depth)) context).2 := by
  have staying : ∀ index, Staying (tickWithin setting depth index : Tick σ Status) :=
    staying_tickWithin wellFormed depth
  induction itinerary generalizing context with
  | own own => exact absurd heeds Heeds.not_of_still
  | @bind _ _ stops more first next begins goesOn ih ihNext =>
    rcases List.nodup_append.1 once with ⟨onceFirst, onceMore, apart⟩
    have stays := begins.routine.staying staying context
    rcases heeds.bind with heeds | ⟨result, middle, ended, heeds⟩
    · have avoids : index ∉ more := fun also => apart index (begins.listed heeds) index also rfl
      rw [outcome_bind] at framesIn ⊢
      rcases ended : outcome (first (tickWithin setting depth)) context with
        ⟨error | result, middle⟩
      · simp only [ended] at framesIn ⊢
        have stopover := ih onceFirst heeds atUpper (by rwa [ended])
        rwa [ended] at stopover
      · simp only [ended] at framesIn stays ⊢
        have later := ((goesOn result).routine.staying staying middle).grows.framesIn
        have stopover := ih onceFirst heeds atUpper (by rw [ended]; exact later.trans framesIn)
        rw [ended] at stopover
        refine ⟨stopover.invokes, stopover.there, stopover.framesThere, ?_,
          stopover.framesBack.trans later⟩
        intro lowest down
        refine (stopover.back lowest down).trans ?_
        exact (goesOn result).keptOrForgotten wellFormed branches distinct ranking found avoids
          stopover.invokes down (stays.frame.trans atUpper) framesIn
    · have avoids : index ∉ stops := fun also =>
        apart index also index ((goesOn result).listed heeds) rfl
      rw [outcome_bind, ended] at framesIn ⊢
      rw [ended] at stays
      have stopover := ihNext result onceMore heeds (stays.frame.trans atUpper) framesIn
      have later := ((goesOn result).routine.staying staying middle).grows.framesIn
      refine ⟨stopover.invokes, fun lowest down => ?_,
        stays.grows.framesIn.trans stopover.framesThere, stopover.back, stopover.framesBack⟩
      have kept : setting.tree.KeptOrForgotten final lowest context.runs
          (outcome (first (tickWithin setting depth)) context).2.runs :=
        begins.keptOrForgotten wellFormed branches distinct ranking found avoids stopover.invokes down
          atUpper (by rw [ended]; exact later.trans framesIn)
      rw [ended] at kept
      exact kept.trans (stopover.there lowest down)
  | @tick child listed =>
    rcases heeds.tick with ⟨rfl, rfl⟩
    change (outcome (Tick.attempt (tickWithin setting depth child)) context).2.runs.FramesIn
      final at framesIn
    change setting.Stopover final upper child context context _
      (outcome (Tick.attempt (tickWithin setting depth child)) context).2
    rw [outcome_attempt] at framesIn ⊢
    refine ⟨?_, fun _ _ => .of_eq fun _ => rfl, .refl _, fun _ _ => .of_eq fun _ => rfl, .refl _⟩
    rw [atUpper]
    exact .child found listed
  | halt listed => exact absurd heeds Heeds.not_of_still
  | inScope scope inner ih =>
    rw [outcome_inScope] at framesIn ⊢
    have inFrame : ({ context with scope := scope } : Context σ).frame = upper.frame := atUpper
    have stopover := ih once heeds.inScope inFrame framesIn
    exact ⟨stopover.invokes, stopover.there, stopover.framesThere, stopover.back,
      stopover.framesBack⟩
  | @invoke name configured =>
    rcases heeds.invoke with ⟨definition, parameters, known, isNode, filled, rfl⟩
    rw [outcome_tickReference known isNode] at framesIn ⊢
    simp only [filled] at framesIn ⊢
    have framesInner := (staying index { context with
      runs := (context.runs.frameFor upper).2
      frame := (context.runs.frameFor upper).1
      parameters := parameters :: context.parameters }).grows.framesIn.trans framesIn
    refine ⟨?_, fun lowest _ => .of_eq fun other => RunStore.get?_frameFor _ _ _,
      RunStore.framesIn_frameFor _ _, fun lowest _ => .of_eq fun _ => rfl, .refl _⟩
    exact .target found configured (framesInner _ _ (RunStore.frame?_frameFor _ _)) known
  | among inner sublist ih => exact ih (once.sublist sublist) heeds atUpper framesIn

omit branches distinct ranking in
/-- What a node is configured as when it makes a tick gives it an itinerary. -/
theorem Heeds.exists_itinerary
    (heeds : Heeds (fun run => attemptNode setting run upper node) run context index inner) :
    ∃ configuration, node.effectiveConfiguration context = .ok configuration ∧
      Itinerary setting upper node (configuration.stops setting.tree node)
        (fun run : NodeIndex → Tick σ Status =>
          tickConfigured setting run upper node configuration) ∧
      Heeds (fun run => tickConfigured setting run upper node configuration) run context index
        inner ∧
      ∀ run : NodeIndex → Tick σ Status, outcome (attemptNode setting run upper node) context =
        outcome (tickConfigured setting run upper node configuration) context := by
  rcases heeds with ⟨other, elsewhere, different⟩
  rw [outcome_attemptNode, outcome_attemptNode] at different
  cases effective : node.effectiveConfiguration context with
  | ok configuration =>
    simp only [effective] at different
    refine ⟨configuration, rfl, itinerary_tickConfigured fun target same => ?_,
      ⟨other, elsewhere, different⟩, fun run => by rw [outcome_attemptNode, effective]⟩
    rw [same] at effective
    exact (wellFormed.fits _ _ found).effective_reference effective
  | error failure => cases failure <;> simp [effective] at different

omit [RemoteService σ] wellFormed branches distinct ranking found in
theorem outcome_bind_return {first : Tick σ PUnit} {status : Status} :
    (outcome (do first; return status : Tick σ Status) context).2 = (outcome first context).2 := by
  rw [outcome_bind]
  rcases outcome first context with ⟨error | _, after⟩ <;> rfl

/-- At the end of its turn a node that is over is forgotten with everything below it. -/
theorem keptOrForgotten_concludeNode (below : setting.tree.ReachesBelow final upper lowest)
    (status : Status)
    (framesIn : (outcome (concludeNode setting upper status : Tick σ Unit)
      context).2.runs.FramesIn final) :
    setting.tree.KeptOrForgotten final lowest context.runs
      (outcome (concludeNode setting upper status : Tick σ Unit) context).2.runs := by
  unfold concludeNode at framesIn ⊢
  split
  · exact .of_eq fun _ => rfl
  · rename_i isOver
    rw [if_neg isOver] at framesIn
    have ends : Ends (halt setting.tree upper) context _ _ :=
      ends_halt wellFormed (by simp [found]) context
    unfold Ends at ends
    rcases ended : outcome (halt setting.tree upper) context with ⟨error | _, halted⟩
    · rw [ended] at ends
      exact ends.elim
    · rw [ended] at ends framesIn
      exact ends.keptOrForgotten branches distinct (ends.outside.framesIn.trans framesIn)
        fun back => below.not_reaches ranking back.reaches

omit wellFormed branches distinct ranking found in
theorem framesIn_visitNode : (outcome (attemptNode setting run upper node) context).2.runs.FramesIn
    (outcome (visitNode setting run upper node) context).2.runs := by
  have concludes : ∀ (status : Status) (settled : Context σ), settled.runs.FramesIn
      (outcome (concludeNode setting upper status : Tick σ Unit) settled).2.runs :=
    fun status settled => (staying_concludeNode status settled).grows.framesIn
  unfold visitNode
  rw [outcome_bind, outcome_settleAttempt]
  rcases outcome (attemptNode setting run upper node) context with
    ⟨(cause | failure) | status, settled⟩ <;>
    simp only [outcome_bind_return]
  · exact concludes .failure
      ((settled.report setting upper.node node cause).visit ⟨upper, .failure, some cause⟩)
  · exact .refl _
  · exact concludes status (settled.visit ⟨upper, status, none⟩)

/-- What the attempt of a node leaves in a subtree below it is left by its turn, or forgotten. -/
theorem keptOrForgotten_visitNode (below : setting.tree.ReachesBelow final upper lowest)
    (framesIn : (outcome (visitNode setting run upper node) context).2.runs.FramesIn final) :
    setting.tree.KeptOrForgotten final lowest
      (outcome (attemptNode setting run upper node) context).2.runs
      (outcome (visitNode setting run upper node) context).2.runs := by
  unfold visitNode at framesIn ⊢
  rw [outcome_bind, outcome_settleAttempt] at framesIn ⊢
  rcases ended : outcome (attemptNode setting run upper node) context with
    ⟨(cause | failure) | status, settled⟩ <;>
    simp only [ended, outcome_bind_return] at framesIn ⊢
  · exact keptOrForgotten_concludeNode wellFormed branches distinct ranking found below _ framesIn
  · exact .of_eq fun _ => rfl
  · exact keptOrForgotten_concludeNode wellFormed branches distinct ranking found below _ framesIn

end Turns

variable {upperIndex : NodeIndex} {invocations : List (Invocation σ)}

/-- What the tick of a node asks for, its attempt heeds. -/
theorem Asks.exists_heeds (asks : Asks setting depth upperIndex context index inner) :
    ∃ node, setting.tree.node? upperIndex = some node ∧
      Heeds (fun run => attemptNode setting run ⟨context.frame, upperIndex⟩ node)
        (tickWithin setting depth) context index inner := by
  rcases asks with ⟨node, found, other, elsewhere, different⟩
  refine ⟨node, found, other, fun indexToo innerToo => elsewhere indexToo innerToo, ?_⟩
  rw [outcome_tickWithin_succ found] at different
  exact fun same => different (outcome_visitNode_congr same)

/-- The engine goes to a node and comes back from it. The subtree of the node is left alone by the
rest of the tree, unless the node is forgotten. -/
structure Setting.Excursion (setting : Setting) (final : RunStore) (index : NodeIndex)
    (start before after last : Context σ) : Prop where
  reaches : setting.tree.Reaches final ⟨start.frame, setting.tree.main⟩ ⟨before.frame, index⟩
  there : ∀ lowest, setting.tree.Reaches final ⟨before.frame, index⟩ lowest →
    setting.tree.KeptOrForgotten final lowest start.runs before.runs
  framesThere : start.runs.FramesIn before.runs
  back : ∀ lowest, setting.tree.Reaches final ⟨before.frame, index⟩ lowest →
    setting.tree.KeptOrForgotten final lowest after.runs last.runs
  framesBack : after.runs.FramesIn last.runs

section Arrivals

variable (wellFormed : setting.tree.WellFormed) (branches : setting.tree.Branches)
  (distinct : final.Distinct)
include wellFormed branches distinct

/-- Every tick that a node asks for is a stopover of its turn. -/
theorem Asks.stopover (asks : Asks setting depth upperIndex context index inner)
    (framesIn : (outcome (tickWithin setting (depth + 1) upperIndex) context).2.runs.FramesIn
      final) :
    setting.Stopover final ⟨context.frame, upperIndex⟩ index context inner
      (outcome (tickWithin setting depth index) inner).2
      (outcome (tickWithin setting (depth + 1) upperIndex) context).2 := by
  rcases wellFormed.ranked with ⟨rank, ranking⟩
  rcases asks.exists_heeds with ⟨node, found, heeds⟩
  rcases heeds.exists_itinerary wellFormed found with
    ⟨configuration, -, itinerary, heeds, same⟩
  rw [outcome_tickWithin_succ found] at framesIn ⊢
  have attempted : (outcome (attemptNode setting (tickWithin setting depth)
      ⟨context.frame, upperIndex⟩ node) context).2.runs.FramesIn
      (outcome (visitNode setting (tickWithin setting depth) ⟨context.frame, upperIndex⟩ node)
        context).2.runs := framesIn_visitNode
  have stopover := itinerary.stopover wellFormed branches distinct ranking found
    (configuration.stops_nodup branches found) heeds rfl
    (by rw [← same]; exact attempted.trans framesIn)
  rw [← same] at stopover
  refine ⟨stopover.invokes, stopover.there, stopover.framesThere, fun lowest down => ?_,
    stopover.framesBack.trans attempted⟩
  exact (stopover.back lowest down).trans
    (keptOrForgotten_visitNode wellFormed branches distinct ranking found
      (stopover.invokes.reachesBelow.then down) framesIn)

omit distinct in
/-- A node asks for the tick of another one in one context at most. -/
theorem Asks.unique (asks : Asks setting depth upperIndex context index inner)
    {innerToo : Context σ} (asksToo : Asks setting depth upperIndex context index innerToo) :
    inner = innerToo := by
  rcases asks.exists_heeds with ⟨node, found, heeds⟩
  rcases asksToo.exists_heeds with ⟨nodeToo, foundToo, heedsToo⟩
  cases found.symm.trans foundToo
  rcases heeds.exists_itinerary wellFormed found with
    ⟨configuration, effective, itinerary, heeds, -⟩
  rcases heedsToo.exists_itinerary wellFormed found with
    ⟨configurationToo, effectiveToo, -, heedsToo, -⟩
  cases effective.symm.trans effectiveToo
  exact itinerary.heeds_unique (configuration.stops_nodup branches found) heeds heedsToo

variable (framesIn : (outcome (tick setting setting.tree.main) start).2.runs.FramesIn final)
include framesIn

/-- Between two contexts at which the engine arrives one after the other there is a stopover. -/
theorem Setting.Excursion.next (excursion : setting.Excursion final upperIndex start context
      (outcome (tickWithin setting (depth + 1) upperIndex) context).2
      (outcome (tick setting setting.tree.main) start).2)
    (asks : Asks setting depth upperIndex context index inner) :
    setting.Excursion final index start inner (outcome (tickWithin setting depth index) inner).2
      (outcome (tick setting setting.tree.main) start).2 := by
  have stopover := asks.stopover wellFormed branches distinct (excursion.framesBack.trans framesIn)
  have down := stopover.invokes.reaches
  refine ⟨excursion.reaches.trans down, fun lowest reaches => ?_,
    excursion.framesThere.trans stopover.framesThere, fun lowest reaches => ?_,
    stopover.framesBack.trans excursion.framesBack⟩
  · exact (excursion.there lowest (down.trans reaches)).trans (stopover.there lowest reaches)
  · exact (stopover.back lowest reaches).trans (excursion.back lowest (down.trans reaches))

/-- From the beginning of a tick of the mission until the engine arrives at a node, and from the end
of the turn of the node to the end of the tick, its subtree is left alone. -/
theorem Ticks.excursion (ticks : Ticks setting start invocations depth index before) :
    setting.Excursion final index start before (outcome (tickWithin setting depth index) before).2
      (outcome (tick setting setting.tree.main) start).2 := by
  induction ticks with
  | main =>
    exact ⟨.refl _, fun _ _ => .of_eq fun _ => rfl, .refl _, fun _ _ => .of_eq fun _ => rfl,
      .refl _⟩
  | child ticks found ordinary asks ih => exact ih.next wellFormed branches distinct framesIn asks
  | target ticks found configured asks ih =>
    exact ih.next wellFormed branches distinct framesIn asks

/-- What is ticked is the root of the mission, or another node that is ticked invokes it. -/
theorem Ticks.main_or_asked (ticks : Ticks setting start invocations depth index before) :
    (depth = setting.tree.depthLimit ∧ index = setting.tree.main ∧ before = start) ∨
      ∃ invocations upperIndex context,
        Ticks setting start invocations (depth + 1) upperIndex context ∧
        Asks setting depth upperIndex context index before ∧
        setting.tree.Reaches final ⟨start.frame, setting.tree.main⟩ ⟨context.frame, upperIndex⟩ ∧
        setting.tree.Invokes final ⟨context.frame, upperIndex⟩ ⟨before.frame, index⟩ := by
  have asked : ∀ {invocations depth upperIndex context index before},
      Ticks setting start invocations (depth + 1) upperIndex context →
      Asks setting depth upperIndex context index before →
      setting.tree.Reaches final ⟨start.frame, setting.tree.main⟩ ⟨context.frame, upperIndex⟩ ∧
        setting.tree.Invokes final ⟨context.frame, upperIndex⟩ ⟨before.frame, index⟩ := by
    intro invocations depth upperIndex context index before ticks asks
    have excursion := ticks.excursion wellFormed branches distinct framesIn
    exact ⟨excursion.reaches, (asks.stopover wellFormed branches distinct
      (excursion.framesBack.trans framesIn)).invokes⟩
  cases ticks with
  | main => exact Or.inl ⟨rfl, rfl, rfl⟩
  | child ticks found ordinary asks => exact Or.inr ⟨_, _, _, ticks, asks, asked ticks asks⟩
  | target ticks found configured asks => exact Or.inr ⟨_, _, _, ticks, asks, asked ticks asks⟩

section Unique

variable {invocationsToo : List (Invocation σ)} {depthToo : Nat} {indexToo : NodeIndex}
  {beforeToo : Context σ}

/-- All ways to a node come from the only one that invokes it, so there is one way to it if there is
one way to that one. -/
theorem Ticks.unique_of_asks
    (ticks : Ticks setting start invocations (depth + 1) upperIndex context)
    (asks : Asks setting depth upperIndex context index before)
    (unique : ∀ {invocationsToo depthToo indexToo beforeToo},
      Ticks setting start invocationsToo depthToo indexToo beforeToo →
      (⟨context.frame, upperIndex⟩ : RunKey) = ⟨beforeToo.frame, indexToo⟩ →
      depth + 1 = depthToo ∧ context = beforeToo)
    (ticksToo : Ticks setting start invocationsToo depthToo indexToo beforeToo)
    (here : (⟨before.frame, index⟩ : RunKey) = ⟨beforeToo.frame, indexToo⟩) :
    depth = depthToo ∧ before = beforeToo := by
  rcases wellFormed.ranked with ⟨rank, ranking⟩
  have excursion := ticks.excursion wellFormed branches distinct framesIn
  have invokes := (asks.stopover wellFormed branches distinct
    (excursion.framesBack.trans framesIn)).invokes
  rcases ticksToo.main_or_asked wellFormed branches distinct framesIn with
    ⟨-, rfl, rfl⟩ | ⟨invocationsToo, upperToo, contextToo, ticksToo, asksToo, -, invokesToo⟩
  · rw [here] at invokes
    exact absurd excursion.reaches (invokes.reachesBelow.not_reaches ranking)
  · rw [← here] at invokesToo
    have uppers := invokes.unique branches distinct invokesToo
    rcases unique ticksToo uppers with ⟨depths, rfl⟩
    obtain rfl := Nat.add_right_cancel depths
    obtain ⟨-, rfl⟩ := RunKey.mk.inj here
    obtain ⟨-, rfl⟩ := RunKey.mk.inj uppers
    exact ⟨rfl, asks.unique wellFormed branches asksToo⟩

/-- The engine arrives at a node once at most in a tick of the mission. -/
theorem Ticks.unique (ticks : Ticks setting start invocations depth index before)
    (ticksToo : Ticks setting start invocationsToo depthToo indexToo beforeToo)
    (here : (⟨before.frame, index⟩ : RunKey) = ⟨beforeToo.frame, indexToo⟩) :
    depth = depthToo ∧ before = beforeToo := by
  rcases wellFormed.ranked with ⟨rank, ranking⟩
  induction ticks generalizing invocationsToo depthToo indexToo beforeToo with
  | main =>
    rcases ticksToo.main_or_asked wellFormed branches distinct framesIn with
      ⟨rfl, -, rfl⟩ | ⟨invocationsToo, upperToo, contextToo, -, -, reaches, invokesToo⟩
    · exact ⟨rfl, rfl⟩
    · rw [← here] at invokesToo
      exact absurd reaches (invokesToo.reachesBelow.not_reaches ranking)
  | child ticks found ordinary asks ih =>
    exact ticks.unique_of_asks wellFormed branches distinct framesIn asks ih ticksToo here
  | target ticks found configured asks ih =>
    exact ticks.unique_of_asks wellFormed branches distinct framesIn asks ih ticksToo here

end Unique

end Arrivals

end BehaviorTree
