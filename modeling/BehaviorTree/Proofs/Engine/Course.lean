import BehaviorTree.Engine.Tick
import BehaviorTree.Proofs.Blackboard.Writes
import BehaviorTree.Proofs.Engine.Subtree
import BehaviorTree.Proofs.Remote.Calls

/-!
# Courses of nodes

On the way to its status a node takes steps, and there are few kinds of them: it writes variables,
remembers something, opens its scope, ticks or halts what it invokes, and deals with its service. A
course is a sequence of such steps. It also keeps track of what was ticked or halted on the way, and
of what is running. Every property of ticks is derived from courses: a step keeps it, so a course
does. A course stays inside the subtree of its node.
-/

namespace BehaviorTree

namespace RunState

/-- A run state is one of those that a node of its kind remembers. -/
def Fits (state : RunState) (node : Node) : Prop :=
  match state with
  | child position =>
    (node.kind = .sequence ∨ node.kind = .selector) ∧ position < node.children.length
  | counter _ => node.kind = .repeater ∨ node.kind = .retrier
  | forDuration _ _ => node.kind = .forDuration
  | scope _ => node.kind = .defineBlackboard
  | sleep _ => node.kind = .sleep
  | remote _ => ∃ operation, node.kind = .remote operation
  | epoch _ => node.kind = .restartWhenPaused

/-- The scope that a run state holds. -/
def scope? : RunState → Option ScopeId
  | scope id => some id
  | _ => none

/-- A run state is of a kind that holds neither scopes nor requests. -/
def IsPlain : RunState → Prop
  | scope _ | remote _ => False
  | _ => True

end RunState

namespace RunStore

/-- The request that the run state of a node holds. -/
def callAt (runs : RunStore) (key : RunKey) : Option CallHandle :=
  (runs.get? key).bind RunState.call?

/-- The scope that the run state of a node holds. -/
def scopeAt (runs : RunStore) (key : RunKey) : Option ScopeId :=
  (runs.get? key).bind RunState.scope?

/-- Nodes of the tree remember something that fits their kinds, and nothing else is remembered. -/
def Fits (runs : RunStore) (tree : Tree) : Prop :=
  ∀ key state, runs.get? key = some state →
    ∃ node, tree.node? key.node = some node ∧ state.Fits node

end RunStore

/-- A child may be running, by what its parent remembers: the parent goes on with it. -/
def Node.Current (node : Node) (state : Option RunState) (position : Nat) : Prop :=
  match node.kind with
  | .sequence | .selector => state = some (.child position)
  | .forDuration => ∃ deadline timedOut, state = some (.forDuration deadline timedOut) ∧
      position = if timedOut then 1 else 0
  | _ => True

/-- What a node goes on with, by what it remembers. -/
inductive Tree.GoesOn (tree : Tree) (runs : RunStore) : RunKey → RunKey → Prop where
  | child {key : RunKey} {node : Node} {position : Nat} {child : NodeIndex}
      (found : tree.node? key.node = some node) (placed : node.children[position]? = some child)
      (current : node.Current (runs.get? key) position) :
      GoesOn tree runs key (key.sibling child)
  /-- The target of a reference, in the frame of the reference. -/
  | target {key : RunKey} {node : Node} {target : String} {frame : FrameId} {root : NodeIndex}
      (found : tree.node? key.node = some node)
      (configured : node.configuration = some (.reference target))
      (framed : runs.frame? key = some frame) (known : tree.lookup target = some root) :
      GoesOn tree runs key ⟨frame, root⟩

theorem Tree.GoesOn.invokes {tree : Tree} {runs : RunStore} {upper lower : RunKey}
    (goesOn : tree.GoesOn runs upper lower) : tree.Invokes runs upper lower := by
  cases goesOn with
  | child found placed current => exact .child found (List.mem_of_getElem? placed)
  | target found configured framed known => exact .target found configured framed known

variable {σ : Type}

namespace Context

/-- Two contexts that only differ inside of the subtree of a node. -/
structure Outside (tree : Tree) (key : RunKey) (before after : Context σ) : Prop where
  framesIn : before.runs.FramesIn after.runs
  frames : ∀ other, ¬ tree.Reaches after.runs key other →
    after.runs.frame? other = before.runs.frame? other
  states : ∀ other, ¬ tree.Reaches after.runs key other →
    after.runs.get? other = before.runs.get? other
  scope : after.scope = before.scope
  frame : after.frame = before.frame
  parameters : after.parameters = before.parameters
  visits : before.visits <:+ after.visits

variable {tree : Tree} {key lower : RunKey} {before middle after : Context σ}

theorem Outside.refl (tree : Tree) (key : RunKey) (context : Context σ) :
    Outside tree key context context :=
  ⟨.refl _, fun _ _ => rfl, fun _ _ => rfl, rfl, rfl, rfl, List.suffix_refl _⟩

theorem Outside.trans (first : Outside tree key before middle)
    (second : Outside tree key middle after) : Outside tree key before after := by
  refine ⟨first.framesIn.trans second.framesIn, ?_, ?_, second.scope.trans first.scope,
    second.frame.trans first.frame, second.parameters.trans first.parameters,
    first.visits.trans second.visits⟩
  · intro other elsewhere
    rw [second.frames other elsewhere,
      first.frames other fun reaches => elsewhere (reaches.mono second.framesIn)]
  · intro other elsewhere
    rw [second.states other elsewhere,
      first.states other fun reaches => elsewhere (reaches.mono second.framesIn)]

/-- What is inside of the subtree of an invoked node is inside of that of the node. -/
theorem Outside.up (outside : Outside tree lower before after)
    (reaches : tree.Reaches after.runs key lower) : Outside tree key before after := by
  refine ⟨outside.framesIn, ?_, ?_, outside.scope, outside.frame, outside.parameters,
    outside.visits⟩
  · exact fun other elsewhere => outside.frames other fun deeper => elsewhere (reaches.trans deeper)
  · exact fun other elsewhere => outside.states other fun deeper => elsewhere (reaches.trans deeper)

/-- Contexts that agree on run states up to those of one node. -/
theorem Outside.of_samePlace (same : before.SamePlace after)
    (states : ∀ other, other ≠ key → after.runs.get? other = before.runs.get? other) :
    Outside tree key before after := by
  refine ⟨.of_eq same.frames, ?_, ?_, same.scope, same.frame, same.parameters,
    by rw [same.visits]⟩
  · intro other _
    simp [RunStore.frame?, same.frames]
  · intro other elsewhere
    apply states
    rintro rfl
    exact elsewhere (.refl _)

theorem samePlace_setRun {state : RunState} : before.SamePlace (before.setRun key state) :=
  ⟨rfl, rfl, rfl, rfl, rfl⟩

theorem get?_setRun {state : RunState} {other : RunKey} :
    (before.setRun key state).runs.get? other =
      if other = key then some state else before.runs.get? other := by
  simp [setRun, RunStore.get?, RunStore.insert, Table.get?_insert]

theorem Outside.of_setRun {state : RunState} :
    Outside tree key before (before.setRun key state) := by
  refine .of_samePlace samePlace_setRun ?_
  intro other different
  rw [get?_setRun, if_neg different]

/-- To halt a node changes nothing outside of its subtree. -/
theorem Halts.outside [RemoteService σ] (halts : before.Halts tree [key] after) :
    Outside tree key before after := by
  rcases halts with ⟨keys, rfl, reached⟩
  have same : before.SamePlace (before.discardedAll keys) := samePlace_discardedAll
  refine ⟨.of_eq same.frames, ?_, ?_, same.scope, same.frame, same.parameters,
    by rw [same.visits]⟩
  · intro other _
    simp [RunStore.frame?, same.frames]
  · intro other elsewhere
    rw [same.reaches_iff] at elsewhere
    rw [get?_discardedAll, if_neg]
    simpa [reached] using elsewhere

/-- Nothing in the subtree of a node that was halted is remembered. -/
theorem Halts.cleared [RemoteService σ] (halts : before.Halts tree [key] after)
    (reaches : tree.Reaches after.runs key lower) : after.runs.get? lower = none := by
  rcases halts with ⟨keys, rfl, reached⟩
  rw [samePlace_discardedAll.reaches_iff] at reaches
  rw [get?_discardedAll, if_pos]
  simpa [reached] using reaches

end Context

/-- What a remote node may do with its service: only its own run state and request change. -/
structure Context.Serves (now : Duration) (key : RunKey) (before after : Context σ) : Prop where
  place : before.SamePlace after
  elsewhere : ∀ other, other ≠ key → after.runs.get? other = before.runs.get? other
  here : ∀ state, after.runs.get? key = some state → ∃ run, state = .remote run
  writes : before.blackboard.Writes now after.blackboard
  /-- Its request is the only one that changes. -/
  trades : before.client.Numbered →
    (∀ handle, before.runs.callAt key = some handle → before.client.Holds handle) →
    before.client.Trades (before.runs.callAt key) (after.runs.callAt key) after.client

/-- How a node enters what it invokes: a child as it is or in the scope of the node, and the target
of a reference in the frame of the reference. -/
inductive Context.Enters (tree : Tree) (key : RunKey) (node : Node) (context : Context σ) :
    RunKey → Context σ → Prop where
  | child {child : NodeIndex} (listed : child ∈ node.children) :
      Enters tree key node context (key.sibling child) context
  /-- A child is entered in the scope that the node holds. -/
  | inScope {child : NodeIndex} {scope : ScopeId} (listed : child ∈ node.children)
      (held : context.runs.get? key = some (.scope scope)) :
      Enters tree key node context (key.sibling child) { context with scope := scope }
  /-- The target of a reference is entered in a frame. -/
  | inFrame {target : String} {root : NodeIndex} (parameters : Table String Value)
      (configured : node.configuration = some (.reference target))
      (known : tree.lookup target = some root) :
      Enters tree key node context ⟨(context.runs.frameFor key).1, root⟩
        { context with
          runs := (context.runs.frameFor key).2
          frame := (context.runs.frameFor key).1
          parameters := parameters :: context.parameters }

/-- A context that is left for the place from which it was entered. -/
def Context.leave (inner outer : Context σ) : Context σ :=
  { inner with scope := outer.scope, frame := outer.frame, parameters := outer.parameters }

/-- To leave for the place where one is changes nothing. -/
theorem Context.Outside.leave_eq {tree : Tree} {key : RunKey} {before after : Context σ}
    (outside : before.Outside tree key after) : after.leave before = after := by
  unfold Context.leave
  rw [← outside.scope, ← outside.frame, ← outside.parameters]

variable [RemoteService σ]

/-- What a node did to a context until now, with the nodes that it ticked or halted on the way, and
those of them that are running. -/
inductive Course (tree : Tree) (now : Duration) (run : NodeIndex → Tick σ Status)
    (key : RunKey) (node : Node) (start : Context σ) :
    (seen running : List RunKey) → Context σ → Prop where
  | start : Course tree now run key node start [] [] start
  | wrote {seen running : List RunKey} {context : Context σ} {blackboard : Blackboard}
      (course : Course tree now run key node start seen running context)
      (writes : context.blackboard.Writes now blackboard) :
      Course tree now run key node start seen running { context with blackboard := blackboard }
  | noted {seen running : List RunKey} {context : Context σ} {innermost : Option RunKey}
      (course : Course tree now run key node start seen running context) :
      Course tree now run key node start seen running { context with innermost := innermost }
  | remembered {seen running : List RunKey} {context : Context σ} {state : RunState}
      (course : Course tree now run key node start seen running context) (plain : state.IsPlain)
      (fits : state.Fits node) :
      Course tree now run key node start seen running (context.setRun key state)
  /-- A scope was created and remembered, in place of one that is gone. -/
  | opened {seen running : List RunKey} {context : Context σ} {scope : ScopeId}
      {blackboard : Blackboard} (course : Course tree now run key node start seen running context)
      (kind : node.kind = .defineBlackboard)
      (gone : ∀ scope, context.runs.get? key = some (.scope scope) →
        context.blackboard.isAlive scope = false)
      (created : context.blackboard.createScope context.scope = .ok (scope, blackboard)) :
      Course tree now run key node start seen running
        ({ context with blackboard := blackboard }.setRun key (.scope scope))
  | ticked {seen running : List RunKey} {context inner after : Context σ} {target : RunKey}
      {status : Status} (course : Course tree now run key node start seen running context)
      (enters : context.Enters tree key node target inner)
      (ran : outcome (run target.node) inner = (.ok status, after))
      (outside : inner.Outside tree target after) (fits : after.runs.Fits tree) :
      Course tree now run key node start (target :: seen)
        (if status = .running then target :: running else running) (after.leave context)
  | halted {seen running : List RunKey} {context after : Context σ} {child : NodeIndex}
      (course : Course tree now run key node start seen running context)
      (listed : child ∈ node.children)
      (halts : context.Halts tree [key.sibling child] after) :
      Course tree now run key node start (key.sibling child :: seen) running after
  /-- The service of a remote node was dealt with. -/
  | served {seen running : List RunKey} {context after : Context σ} {operation : RemoteOperation}
      (course : Course tree now run key node start seen running context)
      (kind : node.kind = .remote operation) (serves : context.Serves now key after) :
      Course tree now run key node start seen running after

/-- The failure is a crash of numbers that do not fit. -/
def Failure.IsOverflow {ε : Type} : Failure ε → Prop
  | error _ => False
  | crash cause => cause = .durationOverflow ∨ cause = .handleOverflow

/-- The error is that a scope is gone. -/
def TickError.IsScopeGone : TickError → Prop
  | .blackboard .scopeGone | .binding (.blackboard .scopeGone) => True
  | _ => False

/-- Why a node may end a course without a status. -/
inductive Stops (tree : Tree) (now : Duration) (run : NodeIndex → Tick σ Status)
    (key : RunKey) (node : Node) (start : Context σ) : Fault → Prop where
  /-- The node fails for a cause that has nothing to do with scopes. -/
  | failed {cause : TickError} (harmless : ¬ cause.IsScopeGone) :
      Stops tree now run key node start (.node cause)
  /-- The node uses a scope that is not rooted: that of the engine, or that of its own. -/
  | unrooted {seen running : List RunKey} {context : Context σ} {scope : ScopeId}
      {cause : TickError} (course : Course tree now run key node start seen running context)
      (used : scope = context.scope ∨ context.runs.get? key = some (.scope scope))
      (unrooted : ¬ context.blackboard.Rooted scope) :
      Stops tree now run key node start (.node cause)
  /-- A duration does not fit, or there is no number left for a request. -/
  | overflow {failure : Failure EngineError} (overflow : failure.IsOverflow) :
      Stops tree now run key node start (.abort failure)
  /-- Something that the node invokes has no status. -/
  | inner {seen running : List RunKey} {context inner after : Context σ} {target : RunKey}
      {failure : Failure EngineError}
      (course : Course tree now run key node start seen running context)
      (enters : context.Enters tree key node target inner)
      (ran : outcome (run target.node) inner = (.error failure, after)) :
      Stops tree now run key node start (.abort failure)

variable {tree : Tree} {now : Duration} {run : NodeIndex → Tick σ Status} {key target : RunKey}
  {node : Node}
  {start context inner after : Context σ} {seen running : List RunKey}

omit [RemoteService σ] in
theorem RunStore.frame?_frameFor (runs : RunStore) (key : RunKey) :
    (runs.frameFor key).2.frame? key = some (runs.frameFor key).1 := by
  unfold frameFor
  split
  · assumption
  · simp [frame?]

omit [RemoteService σ] in
theorem RunStore.frame?_frameFor_of_ne {runs : RunStore} {key other : RunKey}
    (different : other ≠ key) : (runs.frameFor key).2.frame? other = runs.frame? other := by
  unfold frameFor
  split
  · rfl
  · simp [frame?, Table.get?_insert_of_ne different]

omit [RemoteService σ] in
theorem RunStore.get?_frameFor (runs : RunStore) (key other : RunKey) :
    (runs.frameFor key).2.get? other = runs.get? other := by
  unfold frameFor
  split <;> rfl

omit [RemoteService σ] in
theorem RunStore.framesIn_frameFor (runs : RunStore) (key : RunKey) :
    runs.FramesIn (runs.frameFor key).2 := by
  intro other frame framed
  by_cases same : other = key
  · subst same
    have known : runs.frames.get? other = some frame := framed
    simpa [frameFor, known] using framed
  · rwa [frame?_frameFor_of_ne same]

namespace Context.Enters

omit [RemoteService σ]

theorem invokes (enters : context.Enters tree key node target inner)
    (found : tree.node? key.node = some node) : tree.Invokes inner.runs key target := by
  cases enters with
  | child listed => exact .child found listed
  | inScope listed held => exact .child found listed
  | inFrame parameters configured known =>
    exact .target found configured (RunStore.frame?_frameFor _ _) known

theorem framesIn (enters : context.Enters tree key node target inner) :
    context.runs.FramesIn inner.runs := by
  cases enters with
  | child listed => exact .refl _
  | inScope listed held => exact .refl _
  | inFrame parameters configured known => exact RunStore.framesIn_frameFor _ _

theorem frame?_of_ne (enters : context.Enters tree key node target inner) {other : RunKey}
    (different : other ≠ key) : inner.runs.frame? other = context.runs.frame? other := by
  cases enters with
  | child listed => rfl
  | inScope listed held => rfl
  | inFrame parameters configured known => exact RunStore.frame?_frameFor_of_ne different

theorem get? (enters : context.Enters tree key node target inner) (other : RunKey) :
    inner.runs.get? other = context.runs.get? other := by
  cases enters with
  | child listed => rfl
  | inScope listed held => rfl
  | inFrame parameters configured known => exact RunStore.get?_frameFor _ _ _

theorem visits (enters : context.Enters tree key node target inner) :
    inner.visits = context.visits := by
  cases enters <;> rfl

theorem blackboard (enters : context.Enters tree key node target inner) :
    inner.blackboard = context.blackboard := by
  cases enters <;> rfl

theorem client (enters : context.Enters tree key node target inner) :
    inner.client = context.client := by
  cases enters <;> rfl

theorem frame (enters : context.Enters tree key node target inner)
    (atKey : context.frame = key.frame) : inner.frame = target.frame := by
  cases enters with
  | child listed => exact atKey
  | inScope listed held => exact atKey
  | inFrame parameters configured known => rfl

/-- What a node invokes stays inside of its own subtree. -/
theorem outside (enters : context.Enters tree key node target inner)
    (found : tree.node? key.node = some node) (outside : inner.Outside tree target after) :
    context.Outside tree key (after.leave context) := by
  have reaches : tree.Reaches after.runs key target :=
    ((enters.invokes found).mono outside.framesIn).reaches
  have up := outside.up reaches
  refine ⟨enters.framesIn.trans outside.framesIn, ?_, ?_, rfl, rfl, rfl, ?_⟩
  · intro other elsewhere
    have different : other ≠ key := by
      rintro rfl
      exact elsewhere (.refl _)
    exact (up.frames other elsewhere).trans (enters.frame?_of_ne different)
  · intro other elsewhere
    exact (up.states other elsewhere).trans (enters.get? other)
  · have kept := outside.visits
    rwa [enters.visits] at kept

end Context.Enters

omit [RemoteService σ] in
theorem Context.Serves.outside (serves : context.Serves now key after) :
    context.Outside tree key after :=
  .of_samePlace serves.place serves.elsewhere

/-- A course stays inside of the subtree of its node. -/
theorem Course.outside (course : Course tree now run key node start seen running context)
    (found : tree.node? key.node = some node) : start.Outside tree key context := by
  induction course with
  | start => exact .refl tree key start
  | wrote _ _ ih => exact ih.trans (.of_samePlace ⟨rfl, rfl, rfl, rfl, rfl⟩ fun _ _ => rfl)
  | noted _ ih => exact ih.trans (.of_samePlace ⟨rfl, rfl, rfl, rfl, rfl⟩ fun _ _ => rfl)
  | remembered _ _ _ ih => exact ih.trans .of_setRun
  | opened _ _ _ _ ih =>
    refine ih.trans (.of_samePlace ⟨rfl, rfl, rfl, rfl, rfl⟩ ?_)
    intro other different
    rw [Context.get?_setRun, if_neg different]
  | ticked _ enters _ outside _ ih => exact ih.trans (enters.outside found outside)
  | halted _ listed halts ih =>
    exact ih.trans (halts.outside.up (Tree.Invokes.child found listed).reaches)
  | served _ _ serves ih => exact ih.trans serves.outside

/-- What was ticked or halted on a course is invoked by its node, and what is running was ticked. -/
theorem Course.invokes (course : Course tree now run key node start seen running context)
    (found : tree.node? key.node = some node) :
    (∀ target ∈ seen, tree.Invokes context.runs key target) ∧
      ∀ target ∈ running, target ∈ seen := by
  induction course with
  | start => simp
  | wrote _ _ ih => exact ih
  | noted _ ih => exact ih
  | remembered _ _ _ ih => exact ⟨fun target listed => (ih.1 target listed).mono (.refl _), ih.2⟩
  | opened _ _ _ _ ih => exact ⟨fun target listed => (ih.1 target listed).mono (.refl _), ih.2⟩
  | @ticked _ _ _ _ _ target status _ enters _ outside _ ih =>
    have framesIn := enters.framesIn.trans outside.framesIn
    refine ⟨?_, ?_⟩
    · intro other listed
      rcases List.mem_cons.1 listed with rfl | listed
      · exact (enters.invokes found).mono outside.framesIn
      · exact (ih.1 other listed).mono framesIn
    · intro other listed
      split at listed
      · rcases List.mem_cons.1 listed with rfl | listed
        · exact List.mem_cons_self
        · exact List.mem_cons_of_mem _ (ih.2 other listed)
      · exact List.mem_cons_of_mem _ (ih.2 other listed)
  | halted _ listed halts ih =>
    refine ⟨?_, fun other listed => List.mem_cons_of_mem _ (ih.2 other listed)⟩
    intro other listed
    rcases List.mem_cons.1 listed with rfl | listed
    · exact .child found (by assumption)
    · exact (ih.1 other listed).mono halts.outside.framesIn
  | served _ _ serves ih =>
    exact ⟨fun target listed => (ih.1 target listed).mono (.of_eq serves.place.frames), ih.2⟩

omit [RemoteService σ] in
theorem RunStore.Fits.setRun (fits : context.runs.Fits tree)
    (found : tree.node? key.node = some node) {state : RunState} (fitting : state.Fits node) :
    (context.setRun key state).runs.Fits tree := by
  intro other remembered same
  rw [Context.get?_setRun] at same
  split at same
  · rename_i here
    cases same
    rw [here]
    exact ⟨node, found, fitting⟩
  · exact fits other remembered same

theorem Context.Halts.fits {roots : List RunKey} (halts : context.Halts tree roots after)
    (fits : context.runs.Fits tree) : after.runs.Fits tree := by
  rcases halts with ⟨keys, rfl, -⟩
  intro other state same
  rw [Context.get?_discardedAll] at same
  split at same
  · cases same
  · exact fits other state same

/-- On a course nodes only come to remember what fits their kinds. -/
theorem Course.fits (course : Course tree now run key node start seen running context)
    (found : tree.node? key.node = some node) (fits : start.runs.Fits tree) :
    context.runs.Fits tree := by
  induction course with
  | start => exact fits
  | wrote _ _ ih => exact ih
  | noted _ ih => exact ih
  | remembered _ _ fitting ih => exact ih.setRun found fitting
  | @opened _ _ context _ blackboard _ kind _ _ ih =>
    have here : RunStore.Fits { context with blackboard := blackboard }.runs tree := ih
    exact here.setRun found kind
  | ticked _ _ _ _ fits _ => exact fits
  | halted _ _ halts ih => exact halts.fits ih
  | @served _ _ _ _ operation _ kind serves ih =>
    intro other state same
    by_cases here : other = key
    · subst here
      rcases serves.here state same with ⟨remote, rfl⟩
      exact ⟨node, found, operation, kind⟩
    · rw [serves.elsewhere other here] at same
      exact ih other state same

end BehaviorTree
