import BehaviorTree.Proofs.Engine.Keeping
import BehaviorTree.Proofs.Engine.Routine
import BehaviorTree.Proofs.Engine.Course
import Mathlib.Algebra.Group.Nat.Defs

/-!
# Places of ticks

Whatever becomes of a tick, it ends at the place where it started, in the same invocation. Meanwhile
frames may have been given to references, one number after the other, and no frame is ever taken
back. So as long as the numbers last, no two references have the same frame.
-/

namespace BehaviorTree

namespace RunStore

/-- Frames were given to references, one after the other. -/
inductive Grows (before : RunStore) : RunStore → Prop where
  | same {after : RunStore} (frames : after.frames = before.frames)
      (last : after.lastFrame = before.lastFrame) : Grows before after
  | framed {middle after : RunStore} (grows : Grows before middle) (key : RunKey)
      (frames : after.frames = (middle.frameFor key).2.frames)
      (last : after.lastFrame = (middle.frameFor key).2.lastFrame) : Grows before after

variable {first second third before after : RunStore} {key other : RunKey} {frame : FrameId}

theorem Grows.refl (runs : RunStore) : runs.Grows runs := .same rfl rfl

theorem Grows.trans (left : first.Grows second) (right : second.Grows third) :
    first.Grows third := by
  induction right with
  | same frames last =>
    cases left with
    | same sameFrames sameLast => exact .same (frames.trans sameFrames) (last.trans sameLast)
    | framed grows key framed lastFramed =>
      exact .framed grows key (frames.trans framed) (last.trans lastFramed)
  | framed _ key frames last ih => exact .framed ih key frames last

theorem Grows.framesIn (grows : before.Grows after) : before.FramesIn after := by
  induction grows with
  | same frames last => exact .of_eq frames
  | framed _ key frames last ih =>
    exact (ih.trans (framesIn_frameFor _ key)).trans (.of_eq frames)

/-- Frames are numbered in the order in which they were given. -/
structure Numbered (runs : RunStore) : Prop where
  last : runs.lastFrame.toNat = runs.frames.size
  bounded : ∀ key frame, runs.frame? key = some frame →
    0 < frame.toNat ∧ frame.toNat ≤ runs.frames.size
  alone : ∀ one other frame, runs.frame? one = some frame → runs.frame? other = some frame →
    one = other

theorem numbered_empty : empty.Numbered := by
  refine ⟨rfl, ?_, ?_⟩
  · rintro key frame ⟨⟩
  · rintro one other frame ⟨⟩

theorem Numbered.of_eq (numbered : before.Numbered) (frames : after.frames = before.frames)
    (last : after.lastFrame = before.lastFrame) : after.Numbered := by
  have framed : ∀ key, after.frame? key = before.frame? key := fun key => by
    rw [frame?, frame?, frames]
  refine ⟨by rw [frames, last, numbered.last], fun key frame known => ?_,
    fun one other frame known also => ?_⟩
  · rw [framed] at known
    rw [frames]
    exact numbered.bounded key frame known
  · rw [framed] at known also
    exact numbered.alone one other frame known also

theorem size_frames_le_frameFor (runs : RunStore) (key : RunKey) :
    runs.frames.size ≤ (runs.frameFor key).2.frames.size := by
  cases framed : runs.frames.get? key with
  | some frame => rw [frameFor, framed]
  | none =>
    simp only [frameFor, framed, Table.size_insert_of_get?_eq_none framed]
    exact Nat.le_succ _

theorem Numbered.frameFor (numbered : before.Numbered) (key : RunKey)
    (room : (before.frameFor key).2.frames.size < 2 ^ 32) :
    (before.frameFor key).2.Numbered := by
  cases framed : before.frames.get? key with
  | some frame => rwa [RunStore.frameFor, framed]
  | none =>
    have size := Table.size_insert_of_get?_eq_none framed (before.lastFrame + 1)
    simp only [RunStore.frameFor, framed, size] at room
    have last : (before.lastFrame + 1).toNat = before.frames.size + 1 := by
      rw [UInt32.toNat_add, numbered.last]
      exact Nat.mod_eq_of_lt room
    have unused : ∀ other frame, before.frame? other = some frame →
        frame ≠ before.lastFrame + 1 := by
      rintro other _ known rfl
      have bound := (numbered.bounded _ _ known).2
      omega
    have known : ∀ other frame, (before.frameFor key).2.frame? other = some frame ↔
        other = key ∧ frame = before.lastFrame + 1 ∨
          other ≠ key ∧ before.frame? other = some frame := by
      intro other frame
      simp only [RunStore.frameFor, framed, frame?, Table.get?_insert]
      by_cases same : other = key <;> simp [same, eq_comm]
    refine ⟨?_, ?_, ?_⟩
    · simp only [RunStore.frameFor, framed, size, last]
    · intro other frame given
      simp only [RunStore.frameFor, framed, size]
      rcases (known other frame).1 given with ⟨-, rfl⟩ | ⟨-, earlier⟩
      · omega
      · have bounds := numbered.bounded _ _ earlier
        omega
    · intro one other frame given also
      rcases (known one frame).1 given with ⟨same, new⟩ | ⟨-, earlier⟩ <;>
        rcases (known other frame).1 also with ⟨alsoSame, alsoNew⟩ | ⟨-, alsoEarlier⟩
      · rw [same, alsoSame]
      · exact absurd new (unused _ _ alsoEarlier)
      · exact absurd alsoNew (unused _ _ earlier)
      · exact numbered.alone _ _ _ earlier alsoEarlier

/-- Frames stay numbered as long as there are numbers for them. -/
theorem Grows.numbered (grows : before.Grows after) (numbered : before.Numbered)
    (room : after.frames.size < 2 ^ 32) : after.Numbered := by
  induction grows with
  | same frames last => exact numbered.of_eq frames last
  | @framed middle after _ key frames last ih =>
    rw [frames] at room
    have fits := Nat.lt_of_le_of_lt (size_frames_le_frameFor middle key) room
    exact ((ih fits).frameFor key room).of_eq frames last

end RunStore

variable {σ α β ε : Type}

/-- The engine is at the same place as before, and frames may have been given meanwhile. -/
structure Context.Stays (before after : Context σ) : Prop where
  frame : after.frame = before.frame
  parameters : after.parameters = before.parameters
  grows : before.runs.Grows after.runs

/-- Whatever becomes of an action, the engine stays at its place. -/
def Staying (action : ExceptT ε (StateM (Context σ)) α) : Prop :=
  ∀ context : Context σ, context.Stays (outcome action context).2

theorem Context.Stays.refl (context : Context σ) : context.Stays context := ⟨rfl, rfl, .refl _⟩

theorem Context.Stays.trans {first second third : Context σ} (left : first.Stays second)
    (right : second.Stays third) : first.Stays third :=
  ⟨right.frame.trans left.frame, right.parameters.trans left.parameters,
    left.grows.trans right.grows⟩

instance : @Std.Refl (Context σ) Context.Stays := ⟨.refl⟩

instance : IsTrans (Context σ) Context.Stays := ⟨fun _ _ _ => .trans⟩

namespace Staying

theorem pure (value : α) : Staying (pure value : ExceptT ε (StateM (Context σ)) α) :=
  Keeping.pure value

theorem throw (error : ε) : Staying (throw error : ExceptT ε (StateM (Context σ)) α) :=
  Keeping.throw error

theorem bind {first : ExceptT ε (StateM (Context σ)) α}
    {next : α → ExceptT ε (StateM (Context σ)) β} (begins : Staying first)
    (goesOn : ∀ result, Staying (next result)) : Staying (first >>= next) :=
  Keeping.bind begins goesOn

theorem attempt {action : Tick σ α} (staying : Staying action) : Staying (Tick.attempt action) :=
  Keeping.attempt staying

theorem inScope {action : Attempt σ α} (staying : Staying action) (scope : ScopeId) :
    Staying (inScope scope action) := by
  intro context
  rw [outcome_inScope]
  exact ⟨(staying { context with scope := scope }).frame,
    (staying { context with scope := scope }).parameters,
    (staying { context with scope := scope }).grows⟩

theorem own {key : RunKey} {action : Attempt σ α} (own : Own key action) : Staying action := by
  intro context
  have outcomes := own Eq context.place (shares_eq key) context context ⟨rfl, _, rfl, rfl⟩
  have here : (outcome action context).2.place = context.place := by
    revert outcomes
    generalize outcome action context = one
    intro outcomes
    cases outcomes with
    | done holds => exact holds.2.1
    | failed alike => exact alike.1
    | exhausted out => exact out.elim
  rw [Context.place, Context.place, Place.mk.injEq] at here
  exact ⟨here.1, here.2.1, .same here.2.2.1 here.2.2.2⟩

end Staying

variable [RemoteService σ] {setting : Setting} {key : RunKey} {node : Node}
  {run : NodeIndex → Tick σ Status}

theorem Context.stays_discarded (context : Context σ) (key : RunKey) :
    context.Stays (context.discarded key) := by
  unfold discarded
  split
  · exact ⟨rfl, rfl, .same rfl rfl⟩
  · exact .refl context

theorem staying_haltWithin (tree : Tree) (depth : Nat) (key : RunKey) :
    Staying (haltWithin tree depth key : Tick σ Unit) :=
  Keeping.haltWithin (fun key context => context.stays_discarded key) tree depth key

omit [RemoteService σ] in
/-- What becomes of the tick of a reference whose target is known. -/
theorem outcome_tickReference {target : String} {root : NodeIndex} {definition : Node}
    (known : setting.tree.lookup target = some root)
    (found : setting.tree.node? root = some definition) (context : Context σ) :
    outcome (tickReference setting run key node target) context =
      match bindParameters definition.parameters node.arguments context with
      | .error cause => (.error (.node (.binding cause)), context)
      | .ok parameters =>
        let inside := { context with
          runs := (context.runs.frameFor key).2
          frame := (context.runs.frameFor key).1
          parameters := parameters :: context.parameters }
        ((outcome (run root) inside).1.mapError .abort,
          { (outcome (run root) inside).2 with
            frame := context.frame
            parameters := (outcome (run root) inside).2.parameters.tail }) := by
  unfold tickReference
  simp only [known, found]
  have read : outcome (get : Attempt σ (Context σ)) context = (.ok context, context) := rfl
  rw [outcome_bind, read]
  cases filled : bindParameters definition.parameters node.arguments context with
  | error cause =>
    simp only [outcome_bind, filled, bound]
    rfl
  | ok parameters =>
    simp only [outcome_bind, filled, bound]
    rfl

/-- What a tick does at a node, with other ticks for what the node invokes. -/
def visitNode (setting : Setting) (run : NodeIndex → Tick σ Status) (key : RunKey)
    (node : Node) : Tick σ Status := do
  let status ← settleAttempt setting key node (attemptNode setting run key node)
  concludeNode setting key status
  return status

theorem outcome_tickWithin_succ {depth : Nat} {index : NodeIndex}
    (found : setting.tree.node? index = some node) (context : Context σ) :
    outcome (tickWithin setting (depth + 1) index) context =
      outcome (visitNode setting (tickWithin setting depth) ⟨context.frame, index⟩ node)
        context := by
  have read : outcome (get : Tick σ (Context σ)) context = (.ok context, context) := rfl
  unfold tickWithin visitNode
  simp only [found]
  rw [outcome_bind, read]

variable (stays : ∀ index, Staying (run index))
include stays

omit [RemoteService σ] in
theorem staying_tickReference (target : String) :
    Staying (tickReference setting run key node target) := by
  intro context
  cases known : setting.tree.lookup target with
  | none =>
    unfold tickReference
    simp only [known]
    exact .refl context
  | some root =>
    cases found : setting.tree.node? root with
    | none =>
      unfold tickReference
      simp only [known, found]
      exact .refl context
    | some definition =>
      rw [outcome_tickReference known found]
      split
      · exact .refl context
      · rename_i parameters _
        have given : context.runs.Grows (context.runs.frameFor key).2 :=
          .framed (.refl _) key rfl rfl
        have ticked := stays root { context with
          runs := (context.runs.frameFor key).2
          frame := (context.runs.frameFor key).1
          parameters := parameters :: context.parameters }
        exact ⟨rfl, congrArg List.tail ticked.parameters, given.trans ticked.grows⟩

theorem Routine.staying {body : (NodeIndex → Tick σ Status) → Attempt σ α}
    (routine : Routine setting key node body) : Staying (body run) := by
  induction routine with
  | own own => exact .own own
  | bind _ _ begins goesOn => exact .bind begins goesOn
  | tick _ => exact .attempt (stays _)
  | halt _ => exact .attempt (staying_haltWithin _ _ _)
  | inScope scope _ ih => exact ih.inScope scope
  | invoke _ => exact staying_tickReference stays _

omit stays in
theorem outcome_attemptNode (context : Context σ) :
    outcome (attemptNode setting run key node) context =
      outcome (match node.effectiveConfiguration context with
        | .ok configuration => tickConfigured setting run key node configuration
        | .error (.error cause) => failNode (.binding cause)
        | .error (.crash cause) => throw (.abort (.crash cause))) context :=
  rfl

theorem staying_attemptNode (fits : node.Fits) :
    Staying (attemptNode setting run key node) := by
  intro context
  rw [outcome_attemptNode]
  split
  · rename_i configuration effective
    refine (routine_tickConfigured fun target same => ?_).staying stays context
    rw [same] at effective
    exact fits.effective_reference effective
  · exact .refl context
  · exact .refl context

omit [RemoteService σ] stays in
theorem outcome_settleAttempt (attempt : Attempt σ Status) (context : Context σ) :
    outcome (settleAttempt setting key node attempt) context =
      match outcome attempt context with
      | (.ok status, after) => (.ok status, after.visit ⟨key, status, none⟩)
      | (.error (.abort failure), after) => (.error failure, after)
      | (.error (.node cause), after) =>
        (.ok .failure,
          (after.report setting key.node node cause).visit ⟨key, .failure, some cause⟩) :=
  rfl

omit [RemoteService σ] stays in
theorem staying_settleAttempt {attempt : Attempt σ Status} (staying : Staying attempt) :
    Staying (settleAttempt setting key node attempt) := by
  intro context
  have attempted := staying context
  rw [outcome_settleAttempt]
  split
  all_goals
    rename_i after ended
    rw [ended] at attempted
    exact ⟨attempted.frame, attempted.parameters, attempted.grows⟩

omit stays in
theorem staying_concludeNode (status : Status) :
    Staying (concludeNode setting key status : Tick σ Unit) := by
  unfold concludeNode
  split
  · exact fun context => ⟨rfl, rfl, .refl _⟩
  · exact staying_haltWithin _ _ _

theorem staying_visitNode (fits : node.Fits) :
    Staying (visitNode setting run key node) :=
  .bind (staying_settleAttempt (staying_attemptNode stays fits)) fun status =>
    .bind (staying_concludeNode status) fun _ => .pure _

omit stays in
/-- Whatever becomes of a tick, the engine stays at its place. -/
theorem staying_tickWithin (wellFormed : setting.tree.WellFormed) (depth : Nat)
    (index : NodeIndex) : Staying (tickWithin setting depth index : Tick σ Status) := by
  induction depth generalizing index with
  | zero => exact .throw _
  | succ depth ih =>
    cases found : setting.tree.node? index with
    | none =>
      unfold tickWithin
      simp only [found]
      exact .throw _
    | some node =>
      intro context
      rw [outcome_tickWithin_succ found]
      exact staying_visitNode ih (wellFormed.fits _ _ found) context

end BehaviorTree
