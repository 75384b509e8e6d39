import BehaviorTree.Proofs.Blackboard.Outputs
import BehaviorTree.Proofs.Engine.ChildTicks
import BehaviorTree.Proofs.Engine.Housing

/-!
# Turns that nothing disturbs

A node of a loaded tree has its turn in a context in which nothing is amiss: requests and scopes are
accounted for, and the scope in which the engine is cannot go away. The steps of the turn keep that.
So outputs can always be written, and the turn of a node that has a configuration and uses no
service ends without a status only if the tick as a whole does. What a child does in its tick is all
that the node learns of it: its status, after which nothing of a child that is over is left.
-/

namespace BehaviorTree

variable {σ : Type}

/-- The engine is at a node, in a context in which nothing is amiss. -/
structure Context.Ready (tree : Tree) (key : RunKey) (context : Context σ) : Prop where
  atKey : context.frame = key.frame
  sound : context.Sound tree
  anchored : context.Anchored tree key
  housed : context.runs.Housed
  inside : context.runs.Knows key.frame

/-- A node stands in a tree that was loaded, with at most `depth` levels below it. -/
structure Standing (setting : Setting) (depth : Nat) (key : RunKey) (node : Node) : Prop where
  wellFormed : setting.tree.WellFormed
  branches : setting.tree.Branches
  found : setting.tree.node? key.node = some node
  shallow : ∃ rank, setting.tree.Ranking rank ∧ rank key.node ≤ depth

/-- The tick as a whole has no status. -/
def Aborts (fault : Fault) (_ : Context σ) : Prop := ∃ failure, fault = .abort failure

theorem ends_outcome {ε α ς : Type} {action : ExceptT ε (StateM ς) α} {state : ς} :
    Ends action state (fun result next => outcome action state = (.ok result, next))
      fun error next => outcome action state = (.error error, next) := by
  unfold Ends
  split <;> assumption

namespace Context

/-- What the tick of a child leaves to its parent. -/
structure TicksChild (tree : Tree) (key : RunKey) (node : Node) (child : NodeIndex)
    (status : Status) (before after : Context σ) : Prop where
  ready : after.Ready tree key
  outside : before.Outside tree (key.sibling child) after
  ticks : after.childTicks key node.children =
    before.childTicks key node.children ++ [(child, status)]
  cleared : status ≠ .running → tree.Vacant after.runs (key.sibling child)

/-- The end of a turn: the status of the node is noted, and unless it is running it is halted. -/
inductive Closes [RemoteService σ] (tree : Tree) (key : RunKey) (last : Context σ) :
    Status → Context σ → Prop where
  | running {innermost : Option RunKey} :
      Closes tree key last .running { last.visit ⟨key, .running, none⟩ with innermost := innermost }
  | ended {status : Status} {after : Context σ} (ended : status ≠ .running)
      (halts : (last.visit ⟨key, status, none⟩).Halts tree [key] after) :
      Closes tree key last status after

end Context

variable [RemoteService σ] {tree : Tree} {rank : NodeIndex → Nat} {setting : Setting} {depth : Nat}
  {key lower : RunKey} {node : Node} {child : NodeIndex} {status : Status}
  {start context last before after : Context σ}

namespace Context.Ready

omit [RemoteService σ] in
theorem of_outside (ready : context.Ready tree key) (ranking : tree.Ranking rank)
    (sound : after.Sound tree) (outside : context.Outside tree key after) :
    after.Ready tree key :=
  ⟨outside.frame.trans ready.atKey, sound, ready.anchored.of_outside ranking outside,
    outside.housed ready.housed ready.inside, ready.inside.of_framesIn outside.framesIn⟩

omit [RemoteService σ] in
theorem wrote (ready : context.Ready tree key) {blackboard : Blackboard}
    (same : context.blackboard.SameScopes blackboard) :
    Ready tree key { context with blackboard := blackboard } :=
  ⟨ready.atKey, ready.sound.wrote same, ready.anchored, ready.housed, ready.inside⟩

omit [RemoteService σ] in
theorem remembered (ready : context.Ready tree key) (found : tree.node? key.node = some node)
    (ranking : tree.Ranking rank) {state : RunState} (plain : state.IsPlain)
    (fits : state.Fits node) : (context.setRun key state).Ready tree key :=
  ready.of_outside ranking (ready.sound.remembered found plain fits) .of_setRun

theorem halted (ready : context.Ready tree key) (found : tree.node? key.node = some node)
    (ranking : tree.Ranking rank) (listed : child ∈ node.children)
    (halts : context.Halts tree [key.sibling child] after) : after.Ready tree key :=
  ready.of_outside ranking (ready.sound.halted halts)
    (halts.outside.up (Tree.Invokes.child found listed).reaches)

omit [RemoteService σ] in
theorem rooted (ready : context.Ready tree key) : context.blackboard.Rooted context.scope :=
  ready.sound.rooted ready.anchored (Or.inl rfl)

end Context.Ready

namespace Standing

variable (stands : Standing setting depth key node)
include stands

theorem turn (ready : start.Ready setting.tree key) :
    Turn setting (tickWithin (σ := σ) setting depth) key node start :=
  ⟨behaves_tickWithin stands.wellFormed depth, stands.wellFormed, stands.found, ready.atKey,
    ready.sound.fits⟩

/-- A child is ticked in the turn of its parent. -/
theorem ends_child (ready : before.Ready setting.tree key) (listed : child ∈ node.children) :
    Ends (liftM (tickWithin setting depth child : Tick σ Status) : Attempt σ Status) before
      (fun status after => before.TicksChild setting.tree key node child status after ∧
        outcome (tickWithin setting depth child) before = (.ok status, after)) Aborts := by
  rcases stands.shallow with ⟨rank, ranking, shallow⟩
  have leads : setting.tree.Leads key.node child := .child stands.found listed
  have isNode := stands.wellFormed.closed _ _ leads
  have down : setting.tree.Invokes before.runs key (key.sibling child) :=
    .child stands.found listed
  have enters : before.Enters setting.tree key node (key.sibling child) before := .child listed
  have below : rank (key.sibling child).node < depth :=
    Nat.lt_of_lt_of_le (ranking.descends _ _ leads) shallow
  have sound := ends_tickWithin_sound stands.wellFormed ranking isNode below ready.atKey
    ready.sound (enters.anchored stands.found ready.anchored)
  have behaves := behaves_tickWithin stands.wellFormed depth (key.sibling child) before ready.atKey
    isNode ready.sound.fits
  have noted := noting_tickWithin stands.wellFormed depth (key.sibling child) before ready.atKey
    isNode ready.sound.fits
  have cleared := ends_tickWithin_cleared stands.wellFormed depth child before
  rw [ends_monadLift]
  refine ((((sound.and behaves).and noted).and cleared).and ends_outcome).mono ?_
    fun failure _ _ => ⟨failure, rfl⟩
  rintro status after ⟨⟨⟨⟨advances, outside, -⟩, ticked⟩, ended⟩, ran⟩
  have up : before.Outside setting.tree key after :=
    outside.up (down.mono outside.framesIn).reaches
  refine ⟨⟨ready.of_outside ranking advances.sound up, outside,
    ticked.childTicks_eq stands.branches ranking stands.found listed, ?_⟩, ran⟩
  intro isOver lower reaches
  have inFrame : (⟨before.frame, child⟩ : RunKey) = key.sibling child := by
    rw [ready.atKey]
    rfl
  exact RunStore.isActive_eq_false_iff.1 (ended isOver lower (inFrame ▸ reaches))

omit [RemoteService σ] in
/-- An output is written, or it leads to no variable. -/
theorem ends_writeOutput (ready : before.Ready setting.tree key) {port : String} {value : Value} :
    Ends (writeOutput setting key.node port value) before
      (fun _ after => ∃ blackboard, after = { before with blackboard := blackboard } ∧
        after.Ready setting.tree key ∧
        ∀ name, node.outputs.get? port = some name →
          blackboard.get? before.scope name = some value)
      Aborts := by
  unfold writeOutput
  rw [stands.found]
  dsimp only [Option.bind]
  split
  · rename_i none
    exact ⟨before.blackboard, rfl, ready, fun name given => by rw [none] at given; cases given⟩
  · rename_i name given
    simp only [ends_bind, Attempt.ends_get, ends_accessed, Attempt.ends_set]
    rcases Blackboard.exists_outputTo ready.rooted name ⟨value, setting.now, some key.node⟩ with
      ⟨blackboard, written⟩
    rw [written]
    refine ⟨blackboard, rfl, ready.wrote (Blackboard.writes_outputTo written).toSameScopes, ?_⟩
    rintro other givenToo
    rw [given, Option.some.injEq] at givenToo
    exact givenToo ▸ Blackboard.get?_outputTo written

omit [RemoteService σ] in
theorem ends_remember (ready : before.Ready setting.tree key) {state : RunState}
    (plain : state.IsPlain) (fits : state.Fits node) :
    Ends (remember key state) before
      (fun _ after => after = before.setRun key state ∧ after.Ready setting.tree key) Aborts := by
  rcases stands.shallow with ⟨rank, ranking, -⟩
  exact ⟨rfl, ready.remembered stands.found ranking plain fits⟩

theorem ends_haltChild (ready : before.Ready setting.tree key) (listed : child ∈ node.children) :
    Ends (haltSibling setting.tree key child) before
      (fun _ after => before.Halts setting.tree [key.sibling child] after ∧
        after.Ready setting.tree key) Aborts := by
  rcases stands.shallow with ⟨rank, ranking, -⟩
  have isNode := stands.wellFormed.closed key.node child (.child stands.found listed)
  unfold haltSibling
  rw [ends_attempt]
  refine (ends_halt stands.wellFormed isNode before).mono ?_ fun _ _ impossible =>
    impossible.elim
  exact fun _ after halts => ⟨halts, ready.halted stands.found ranking listed halts⟩

omit [RemoteService σ] in
/-- What a node remembers is its own: its children do not change it. -/
theorem get?_of_ticksChild (listed : child ∈ node.children)
    (ticked : before.TicksChild setting.tree key node child status after) :
    after.runs.get? key = before.runs.get? key := by
  rcases stands.shallow with ⟨rank, ranking, -⟩
  have below : setting.tree.ReachesBelow after.runs key (key.sibling child) :=
    (Tree.Invokes.child stands.found listed).reachesBelow
  exact ticked.outside.states key (below.not_reaches ranking)

/-- What a node does in its turn is followed by the end of the turn. -/
theorem ends_tickWithin {attempted : Status → Context σ → Prop}
    (ready : start.Ready setting.tree key)
    (ends : Ends (attemptNode setting (tickWithin setting depth) key node) start attempted
      Aborts) :
    Ends (tickWithin setting (depth + 1) key.node) start
      (fun status after => ∃ last, attempted status last ∧
        last.Closes setting.tree key status after) fun _ _ => True := by
  have isNode : (setting.tree.node? key.node).isSome := by simp [stands.found]
  have here : (⟨start.frame, key.node⟩ : RunKey) = key := by rw [ready.atKey]
  simp only [tickWithin, stands.found, ends_bind, BehaviorTree.ends_get, here]
  have settled : Ends (settleAttempt setting key node
      (attemptNode setting (tickWithin setting depth) key node)) start
      (fun status noted => ∃ last, attempted status last ∧
        noted = last.visit ⟨key, status, none⟩) fun _ _ => True := by
    unfold Ends at ends ⊢
    rw [outcome_settleAttempt]
    revert ends
    rcases outcome (attemptNode setting (tickWithin setting depth) key node) start with
      ⟨(cause | failure) | status, after⟩
    · rintro ⟨failure, impossible⟩
      cases impossible
    · exact fun _ => trivial
    · exact fun holds => ⟨after, holds, rfl⟩
  refine settled.mono ?_ fun _ _ _ => trivial
  rintro status noted ⟨last, holds, rfl⟩
  unfold concludeNode
  split
  · rename_i isRunning
    subst isRunning
    exact ⟨last, holds, .running⟩
  · rename_i isOver
    refine (ends_halt stands.wellFormed isNode _).mono ?_ fun _ _ impossible => impossible.elim
    exact fun _ after halts => ⟨last, holds, .ended isOver halts⟩

end Standing

namespace Context.Closes

variable (closes : last.Closes tree key status after)
include closes

theorem childTicks_eq (ranking : tree.Ranking rank) (found : tree.node? key.node = some node) :
    after.childTicks key node.children = last.childTicks key node.children := by
  cases closes with
  | running => exact childTicks_visit ranking found
  | ended _ halts =>
    exact (childTicks_congr halts.samePlace.visits).trans (childTicks_visit ranking found)

theorem frames_eq : after.runs.frames = last.runs.frames := by
  cases closes with
  | running => rfl
  | ended _ halts => exact halts.samePlace.frames

/-- A node that is running leaves everything as it was at the end of its turn. -/
theorem of_running (isRunning : status = .running) :
    after.runs = last.runs ∧ after.blackboard = last.blackboard ∧ after.scope = last.scope := by
  cases closes with
  | running => exact ⟨rfl, rfl, rfl⟩
  | ended isOver _ => exact absurd isRunning isOver

end Context.Closes

end BehaviorTree
