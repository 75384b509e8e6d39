import BehaviorTree.Proofs.Engine.Stays

/-!
# Confinement of ticks

To tick or halt a node concerns only the run states in its subtree, with the frames that references
have in the end. Whatever all other run states are, the same happens, and all other run states are
left as they are.
-/

namespace BehaviorTree

variable {σ α β ε : Type}

/-- Two actions at the same place do the same, from run states that are alike to run states that are
alike, if all frames that the first one finds and gives are in a final store. -/
def Parallel (alike : Table RunKey RunState → Table RunKey RunState → Prop) (final : RunStore)
    (frame : FrameId) (parameters : List (Table String Value))
    (first second : ExceptT ε (StateM (Context σ)) α) : Prop :=
  ∀ (context : Context σ) (states : Table RunKey RunState), context.frame = frame →
    context.parameters = parameters → alike context.runs.states states →
    (outcome first context).2.runs.FramesIn final →
    ∃ after, outcome second (context.withStates states) =
        ((outcome first context).1, (outcome first context).2.withStates after) ∧
      alike (outcome first context).2.runs.states after

variable {alike : Table RunKey RunState → Table RunKey RunState → Prop} {final : RunStore}
  {frame : FrameId} {parameters : List (Table String Value)}

namespace Parallel

theorem pure (value : α) : Parallel alike final frame parameters
    (pure value : ExceptT ε (StateM (Context σ)) α) (pure value) :=
  fun _ states _ _ kin _ => ⟨states, rfl, kin⟩

theorem throw (error : ε) : Parallel alike final frame parameters
    (throw error : ExceptT ε (StateM (Context σ)) α) (throw error) :=
  fun _ states _ _ kin _ => ⟨states, rfl, kin⟩

theorem bind {first second : ExceptT ε (StateM (Context σ)) α}
    {firstNext secondNext : α → ExceptT ε (StateM (Context σ)) β}
    (begins : Parallel alike final frame parameters first second) (staying : Staying first)
    (stayingNext : ∀ result, Staying (firstNext result))
    (goesOn : ∀ result, Parallel alike final frame parameters (firstNext result)
      (secondNext result)) :
    Parallel alike final frame parameters (first >>= firstNext) (second >>= secondNext) := by
  intro context states inFrame bound kin framesIn
  have here := staying context
  have began := begins context states inFrame bound kin
  rcases ended : outcome first context with ⟨error | result, middle⟩
  · simp only [outcome_bind, ended] at began framesIn ⊢
    rcases began framesIn with ⟨after, same, kin⟩
    rw [same]
    exact ⟨after, rfl, kin⟩
  · simp only [outcome_bind, ended] at here began framesIn ⊢
    rcases began ((stayingNext result middle).grows.framesIn.trans framesIn) with
      ⟨after, same, kin⟩
    rw [same]
    exact goesOn result middle after (here.frame.trans inFrame) (here.parameters.trans bound) kin
      framesIn

theorem attempt {first second : Tick σ α}
    (parallel : Parallel alike final frame parameters first second) :
    Parallel alike final frame parameters (Tick.attempt first) (Tick.attempt second) := by
  intro context states inFrame bound kin framesIn
  rw [outcome_attempt] at framesIn
  rcases parallel context states inFrame bound kin framesIn with ⟨after, same, kin⟩
  rw [outcome_attempt, outcome_attempt, same]
  exact ⟨after, rfl, kin⟩

theorem inScope {first second : Attempt σ α}
    (parallel : Parallel alike final frame parameters first second) (scope : ScopeId) :
    Parallel alike final frame parameters (inScope scope first) (inScope scope second) := by
  intro context states inFrame bound kin framesIn
  rw [outcome_inScope] at framesIn
  rcases parallel { context with scope := scope } states inFrame bound kin framesIn with
    ⟨after, same, kin⟩
  refine ⟨after, ?_, kin⟩
  rw [outcome_inScope, outcome_inScope]
  have inside : { context.withStates states with scope := scope } =
      { context with scope := scope }.withStates states := rfl
  rw [inside, same]
  rfl

theorem own {key : RunKey} (shares : Shares alike key) {action : Attempt σ α}
    (own : Own key action) : Parallel alike final frame parameters action action := by
  intro context states _ _ kin _
  have outcomes := own alike context.place shares context (context.withStates states)
    ⟨rfl, states, rfl, kin⟩
  revert outcomes
  generalize outcome action context = one
  generalize outcome action (context.withStates states) = other
  intro outcomes
  cases outcomes with
  | done holds =>
    rcases holds with ⟨rfl, -, after, rfl, kin⟩
    exact ⟨after, rfl, kin⟩
  | failed alike =>
    rcases alike with ⟨-, after, rfl, kin⟩
    exact ⟨after, rfl, kin⟩
  | exhausted out => exact out.elim

end Parallel

/-- What is alike while a node is halted, with one or the other run states. No frames are given. -/
def halting (alike : Table RunKey RunState → Table RunKey RunState → Prop) (runs : RunStore) :
    Likeness (Failure EngineError) (Context σ) where
  states older newer := older.runs.frames = runs.frames ∧
    ∃ states, newer = older.withStates states ∧ alike older.runs.states states
  exhausted _ := False

/-- Everything that is invoked with the frames of a store stays within a set of nodes. -/
def Tree.Closes (tree : Tree) (runs : RunStore) (within : RunKey → Prop) : Prop :=
  ∀ upper lower, within upper → tree.Invokes runs upper lower → within lower

variable [RemoteService σ] {tree : Tree} {runs : RunStore} {key : RunKey}
  {within : RunKey → Prop}

omit [RemoteService σ] in
theorem Tree.Closes.of_framesIn (closes : tree.Closes final within)
    (framesIn : runs.FramesIn final) : tree.Closes runs within :=
  fun _ _ inside invokes => closes _ _ inside (invokes.mono framesIn)

theorem agree_discard (shares : Shares alike key) :
    (halting alike runs).Agree Eq (discard key : Tick σ Unit) (discard key) := by
  rintro older newer ⟨frames, states, rfl, kin⟩
  have discards : ∀ context : Context σ,
      outcome (discard key) context = (.ok (), context.discarded key) := fun _ => rfl
  have own : (older.withStates states).runs.get? key = older.runs.get? key :=
    (shares.get? kin).symm
  rw [discards, discards]
  unfold Context.discarded
  rw [own]
  cases older.runs.get? key with
  | none => exact .done ⟨rfl, frames, states, rfl, kin⟩
  | some state => exact .done ⟨rfl, frames, states.erase key, rfl, shares.erase kin⟩

/-- To halt a node does the same for all run states that are alike in its subtree. -/
theorem agree_haltWithin (closes : tree.Closes runs within)
    (shares : ∀ key, within key → Shares alike key) (depth : Nat) (inside : within key) :
    (halting alike runs).Agree Eq (haltWithin tree depth key : Tick σ Unit)
      (haltWithin tree depth key) := by
  induction depth generalizing key with
  | zero => exact Likeness.agree_throw _
  | succ depth ih =>
    unfold haltWithin
    split
    · rename_i node found
      refine (agree_discard (shares key inside)).andThen fun _ => ?_
      split
      · rename_i target configured
        refine Likeness.agree_get.bind ?_
        rintro older newer ⟨frames, states, rfl, -⟩
        have kept : (older.withStates states).runs.frame? key = older.runs.frame? key := rfl
        rw [kept]
        cases framed : older.runs.frame? key with
        | none => exact Likeness.agree_pure rfl
        | some frame =>
          dsimp only
          split
          · rename_i root known
            have same : runs.frame? key = some frame := by
              rw [RunStore.frame?, ← frames]
              exact framed
            exact ih (closes _ _ inside (.target found configured same known))
          · exact Likeness.agree_throw _
      · refine Likeness.agree_forM _ fun child listed => ?_
        exact ih (closes _ _ inside (.child found listed))
    · exact Likeness.agree_throw _

/-- To halt a node gives no frames. -/
theorem frames_haltWithin (tree : Tree) (depth : Nat) (key : RunKey) (context : Context σ) :
    (outcome (haltWithin tree depth key) context).2.runs.frames = context.runs.frames := by
  have everywhere : tree.Closes context.runs fun _ => True := fun _ _ _ _ => trivial
  have agrees : (halting Eq context.runs).Agree Eq (haltWithin tree depth key : Tick σ Unit)
      (haltWithin tree depth key) :=
    agree_haltWithin everywhere (fun key _ => shares_eq key) depth trivial
  have outcomes := agrees context context ⟨rfl, _, rfl, rfl⟩
  revert outcomes
  generalize outcome (haltWithin tree depth key) context = halted
  intro outcomes
  cases outcomes with
  | done holds => exact holds.2.1
  | failed alike => exact alike.1
  | exhausted out => exact out.elim

theorem parallel_haltWithin (closes : tree.Closes final within)
    (shares : ∀ key, within key → Shares alike key) (depth : Nat) (inside : within key) :
    Parallel alike final frame parameters (haltWithin tree depth key : Tick σ Unit)
      (haltWithin tree depth key) := by
  intro context states _ _ kin framesIn
  have known : context.runs.FramesIn final :=
    (staying_haltWithin tree depth key context).grows.framesIn.trans framesIn
  have outcomes := agree_haltWithin (closes.of_framesIn known) shares depth inside context
    (context.withStates states) ⟨rfl, states, rfl, kin⟩
  revert outcomes
  generalize outcome (haltWithin tree depth key) context = one
  generalize outcome (haltWithin tree depth key) (context.withStates states) = other
  intro outcomes
  cases outcomes with
  | done holds =>
    rcases holds with ⟨rfl, -, after, rfl, kin⟩
    exact ⟨after, rfl, kin⟩
  | failed alike =>
    rcases alike with ⟨-, after, rfl, kin⟩
    exact ⟨after, rfl, kin⟩
  | exhausted out => exact out.elim

variable {setting : Setting} {node : Node} {run other : NodeIndex → Tick σ Status}

/-- The ticks of what a node invokes are parallel to other ones. -/
structure Setting.RunsParallel (setting : Setting)
    (alike : Table RunKey RunState → Table RunKey RunState → Prop) (final : RunStore)
    (key : RunKey) (node : Node) (parameters : List (Table String Value))
    (run other : NodeIndex → Tick σ Status) : Prop where
  children : ∀ child ∈ node.children,
    Parallel alike final key.frame parameters (run child) (other child)
  target : ∀ target root frame values, node.configuration = some (.reference target) →
    setting.tree.lookup target = some root → final.frame? key = some frame →
    Parallel alike final frame (values :: parameters) (run root) (other root)

omit [RemoteService σ] in
theorem Context.frameFor_withStates (context : Context σ) (states : Table RunKey RunState)
    (key : RunKey) : (context.withStates states).runs.frameFor key =
      ((context.runs.frameFor key).1, { (context.runs.frameFor key).2 with states := states }) := by
  cases framed : context.runs.frames.get? key <;>
    simp [RunStore.frameFor, withStates, framed]

variable (staying : ∀ index, Staying (run index))
include staying

omit [RemoteService σ] in
theorem parallel_tickReference
    (runs : setting.RunsParallel alike final key node parameters run other) {target : String}
    (configured : node.configuration = some (.reference target)) :
    Parallel alike final key.frame parameters (tickReference setting run key node target)
      (tickReference setting other key node target) := by
  intro context states inFrame bound kin framesIn
  cases known : setting.tree.lookup target with
  | none =>
    unfold tickReference
    simp only [known]
    exact ⟨states, rfl, kin⟩
  | some root =>
    cases found : setting.tree.node? root with
    | none =>
      unfold tickReference
      simp only [known, found]
      exact ⟨states, rfl, kin⟩
    | some definition =>
      rw [outcome_tickReference known found] at framesIn ⊢
      rw [outcome_tickReference known found, context.bindParameters_withStates]
      cases filled : bindParameters definition.parameters node.arguments context with
      | error cause => exact ⟨states, rfl, kin⟩
      | ok values =>
        let inside := { context with
          runs := (context.runs.frameFor key).2
          frame := (context.runs.frameFor key).1
          parameters := values :: context.parameters }
        simp only [filled, context.frameFor_withStates] at framesIn ⊢
        have given : final.frame? key = some (context.runs.frameFor key).1 :=
          framesIn _ _ ((staying root inside).grows.framesIn _ _ (RunStore.frame?_frameFor _ _))
        have kinInside : alike inside.runs.states states := by
          rwa [show inside.runs.states = context.runs.states from Past.states_frameFor _ _]
        rcases runs.target target root _ values configured known given inside states rfl
          (congrArg (values :: ·) bound) kinInside framesIn with ⟨after, same, kin⟩
        refine ⟨after, ?_, kin⟩
        have entered : { context.withStates states with
            runs := { (context.runs.frameFor key).2 with states := states }
            frame := (context.runs.frameFor key).1
            parameters := values :: (context.withStates states).parameters } =
            inside.withStates states := rfl
        rw [entered, same]
        rfl

theorem Routine.parallel {body : (NodeIndex → Tick σ Status) → Attempt σ α}
    (routine : Routine setting key node body) (closes : setting.tree.Closes final within)
    (shares : ∀ key, within key → Shares alike key) (inside : within key)
    (found : setting.tree.node? key.node = some node)
    (runs : setting.RunsParallel alike final key node parameters run other) :
    Parallel alike final key.frame parameters (body run) (body other) := by
  induction routine with
  | own own => exact .own (shares key inside) own
  | bind begins goesOn ih ihNext =>
    exact .bind ih (begins.staying staying) (fun result => (goesOn result).staying staying) ihNext
  | tick listed => exact .attempt (runs.children _ listed)
  | halt listed =>
    exact .attempt (parallel_haltWithin closes shares _ (closes _ _ inside (.child found listed)))
  | inScope scope _ ih => exact ih.inScope scope
  | invoke configured => exact parallel_tickReference staying runs configured

theorem parallel_attemptNode (fits : node.Fits) (closes : setting.tree.Closes final within)
    (shares : ∀ key, within key → Shares alike key) (inside : within key)
    (found : setting.tree.node? key.node = some node)
    (runs : setting.RunsParallel alike final key node parameters run other) :
    Parallel alike final key.frame parameters (attemptNode setting run key node)
      (attemptNode setting other key node) := by
  intro context states inFrame bound kin framesIn
  rw [outcome_attemptNode] at framesIn ⊢
  rw [outcome_attemptNode, context.effectiveConfiguration_withStates]
  revert framesIn
  cases effective : node.effectiveConfiguration context with
  | ok configuration =>
    intro framesIn
    refine (routine_tickConfigured fun target same => ?_).parallel staying closes shares inside
      found runs context states inFrame bound kin framesIn
    rw [same] at effective
    exact fits.effective_reference effective
  | error failure =>
    intro _
    cases failure <;> exact ⟨states, rfl, kin⟩

omit [RemoteService σ] staying in
theorem parallel_settleAttempt {first second : Attempt σ Status}
    (parallel : Parallel alike final frame parameters first second) :
    Parallel alike final frame parameters (settleAttempt setting key node first)
      (settleAttempt setting key node second) := by
  intro context states inFrame bound kin framesIn
  have attempted := parallel context states inFrame bound kin
  rw [outcome_settleAttempt] at framesIn ⊢
  rw [outcome_settleAttempt]
  rcases ended : outcome first context with ⟨(cause | failure) | status, middle⟩ <;>
    simp only [ended] at attempted framesIn ⊢
  · rcases attempted framesIn with ⟨after, same, kin⟩
    rw [same]
    exact ⟨after, rfl, kin⟩
  · rcases attempted framesIn with ⟨after, same, kin⟩
    rw [same]
    exact ⟨after, rfl, kin⟩
  · rcases attempted framesIn with ⟨after, same, kin⟩
    rw [same]
    exact ⟨after, rfl, kin⟩

omit staying in
theorem parallel_concludeNode (closes : setting.tree.Closes final within)
    (shares : ∀ key, within key → Shares alike key) (inside : within key) (status : Status) :
    Parallel alike final frame parameters (concludeNode setting key status : Tick σ Unit)
      (concludeNode setting key status) := by
  unfold concludeNode
  split
  · exact fun context states _ _ kin _ => ⟨states, rfl, kin⟩
  · exact parallel_haltWithin closes shares _ inside

theorem parallel_visitNode (fits : node.Fits) (closes : setting.tree.Closes final within)
    (shares : ∀ key, within key → Shares alike key) (inside : within key)
    (found : setting.tree.node? key.node = some node)
    (runs : setting.RunsParallel alike final key node parameters run other) :
    Parallel alike final key.frame parameters (visitNode setting run key node)
      (visitNode setting other key node) := by
  refine .bind ?_ ?_ (fun status => ?_) fun status => ?_
  · exact parallel_settleAttempt (parallel_attemptNode staying fits closes shares inside found runs)
  · exact staying_settleAttempt (staying_attemptNode staying fits)
  · exact .bind (staying_concludeNode status) fun _ => .pure _
  · exact .bind (parallel_concludeNode closes shares inside status) (staying_concludeNode status)
      (fun _ => .pure _) fun _ => .pure _

omit staying in
/-- A tick does the same for all run states that are alike in the subtree of its node. -/
theorem parallel_tickWithin (wellFormed : setting.tree.WellFormed)
    (closes : setting.tree.Closes final within) (shares : ∀ key, within key → Shares alike key)
    (depth : Nat) (index : NodeIndex) (inside : within ⟨frame, index⟩) :
    Parallel alike final frame parameters (tickWithin setting depth index : Tick σ Status)
      (tickWithin setting depth index) := by
  induction depth generalizing index frame parameters with
  | zero => exact .throw _
  | succ depth ih =>
    cases found : setting.tree.node? index with
    | none =>
      unfold tickWithin
      simp only [found]
      exact .throw _
    | some node =>
      have runs : setting.RunsParallel alike final ⟨frame, index⟩ node parameters
          (tickWithin setting depth : NodeIndex → Tick σ Status) (tickWithin setting depth) := by
        refine ⟨fun child listed => ih child (closes _ _ inside (.child found listed)), ?_⟩
        intro target root other values configured known given
        exact ih root (closes _ _ inside (.target found configured given known))
      rintro context states rfl
      rw [outcome_tickWithin_succ found, outcome_tickWithin_succ found]
      exact parallel_visitNode (staying_tickWithin wellFormed depth) (wellFormed.fits _ _ found)
        closes shares inside found runs context states rfl

omit [RemoteService σ] staying

/-- An action concerns only the run states of some nodes: it does the same whatever all others are,
and leaves them as they are. -/
def Confined (within : RunKey → Prop) (action : ExceptT ε (StateM (Context σ)) α)
    (context : Context σ) : Prop :=
  ∀ states : Table RunKey RunState,
    (∀ key, within key → states.get? key = context.runs.get? key) →
    ∃ after, outcome action (context.withStates states) =
        ((outcome action context).1, (outcome action context).2.withStates after) ∧
      (∀ key, within key → after.get? key = (outcome action context).2.runs.get? key) ∧
      ∀ key, ¬ within key → (outcome action context).2.runs.get? key = context.runs.get? key ∧
        after.get? key = states.get? key

/-- Run states are the same within a set of nodes, and as they are given elsewhere. -/
def AlikeWithin (within : RunKey → Prop) (first second one other : Table RunKey RunState) :
    Prop :=
  (∀ key, within key → other.get? key = one.get? key) ∧
    ∀ key, ¬ within key → one.get? key = first.get? key ∧ other.get? key = second.get? key

theorem shares_alikeWithin {first second : Table RunKey RunState} (inside : within key) :
    Shares (AlikeWithin within first second) key := by
  have elsewhere : ∀ {other}, ¬ within other → other ≠ key := by
    rintro _ outside rfl
    exact outside inside
  refine ⟨fun kin => (kin.1 key inside).symm, ?_, ?_⟩
  · rintro one other state ⟨same, kept⟩
    refine ⟨fun place listed => ?_, fun place outside => ?_⟩
    · rw [Table.get?_insert, Table.get?_insert, same place listed]
    · rw [Table.get?_insert_of_ne (elsewhere outside), Table.get?_insert_of_ne (elsewhere outside)]
      exact kept place outside
  · rintro one other ⟨same, kept⟩
    refine ⟨fun place listed => ?_, fun place outside => ?_⟩
    · rw [Table.get?_erase, Table.get?_erase, same place listed]
    · rw [Table.get?_erase_of_ne (elsewhere outside), Table.get?_erase_of_ne (elsewhere outside)]
      exact kept place outside

/-- What is parallel for all run states that are alike within a set of nodes is confined to it. -/
theorem confined_of_parallel {action : ExceptT ε (StateM (Context σ)) α} {context : Context σ}
    (framesIn : (outcome action context).2.runs.FramesIn final)
    (parallel : ∀ alike, (∀ key, within key → Shares alike key) →
      Parallel alike final context.frame context.parameters action action) :
    Confined within action context := by
  intro states same
  have kin : AlikeWithin within context.runs.states states context.runs.states states :=
    ⟨same, fun _ _ => ⟨rfl, rfl⟩⟩
  rcases parallel _ (fun key inside => shares_alikeWithin inside) context states rfl rfl kin
    framesIn with ⟨after, ended, inside, outside⟩
  exact ⟨after, ended, inside, outside⟩

theorem Tree.closes_reaches (tree : Tree) (runs : RunStore) (key : RunKey) :
    tree.Closes runs (tree.Reaches runs key) :=
  fun _ _ reaches invokes => reaches.trans invokes.reaches

variable [RemoteService σ]

/-- The tick of a node is confined to its subtree. -/
theorem confined_tickWithin (wellFormed : setting.tree.WellFormed) (depth : Nat)
    (index : NodeIndex) (context : Context σ) :
    Confined (setting.tree.Reaches (outcome (tickWithin setting depth index) context).2.runs
      ⟨context.frame, index⟩) (tickWithin setting depth index) context :=
  confined_of_parallel (.refl _) fun _ shares =>
    parallel_tickWithin wellFormed (Tree.closes_reaches _ _ _) shares depth index (.refl _)

/-- To halt a node is confined to its subtree. -/
theorem confined_haltWithin (tree : Tree) (depth : Nat) (key : RunKey) (context : Context σ) :
    Confined (tree.Reaches context.runs key) (haltWithin tree depth key) context :=
  confined_of_parallel (.of_eq (frames_haltWithin tree depth key context).symm) fun _ shares =>
    parallel_haltWithin (Tree.closes_reaches _ _ _) shares depth (.refl _)

end BehaviorTree
