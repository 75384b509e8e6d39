import BehaviorTree.Proofs.Engine.Binding
import BehaviorTree.Proofs.Engine.Course

/-!
# Turns of nodes

A node that is ticked has its turn, in which it follows a course. What the steps that nodes of all
kinds take do to a course is said here. A node that reports that it is running has to have settled:
it ticked or halted everything that it went on with before and everything that it goes on with now,
and it goes on with whatever is running.
-/

namespace BehaviorTree

variable {σ : Type}

/-- Ticks of nodes change nothing outside of the subtrees of these nodes, and what nodes remember
after them fits their kinds. -/
def Behaves (tree : Tree) (run : NodeIndex → Tick σ Status) : Prop :=
  ∀ (target : RunKey) (context : Context σ), context.frame = target.frame →
    (tree.node? target.node).isSome → context.runs.Fits tree →
    Ends (run target.node) context
      (fun _ after => context.Outside tree target after ∧ after.runs.Fits tree) fun _ _ => True

/-- What a node goes on with agrees with what it ticked or halted, and with what is running. -/
structure Settled (tree : Tree) (key : RunKey) (before : RunStore) (seen running : List RunKey)
    (after : RunStore) : Prop where
  earlier : ∀ target, tree.GoesOn before key target → target ∈ seen
  later : ∀ target, tree.GoesOn after key target → target ∈ seen
  ongoing : ∀ target ∈ running, tree.GoesOn after key target

variable [RemoteService σ]

/-- A node ends its course with a status, and if it is running it has settled. -/
def Finishes (tree : Tree) (now : Duration) (run : NodeIndex → Tick σ Status) (key : RunKey)
    (node : Node) (start : Context σ) (status : Status) (context : Context σ) : Prop :=
  ∃ seen running, Course tree now run key node start seen running context ∧
    (status = .running → Settled tree key start.runs seen running context.runs)

def Fails (tree : Tree) (now : Duration) (run : NodeIndex → Tick σ Status) (key : RunKey)
    (node : Node) (start : Context σ) (fault : Fault) (context : Context σ) : Prop :=
  Stops tree now run key node start fault ∧
    ∀ cause, fault = .node cause →
      ∃ seen running, Course tree now run key node start seen running context

section Setting

variable (setting : Setting) (run : NodeIndex → Tick σ Status) (key : RunKey) (node : Node)
  (start : Context σ)

abbrev Setting.Course (seen running : List RunKey) (context : Context σ) : Prop :=
  BehaviorTree.Course setting.tree setting.now run key node start seen running context

/-- A node ends its course in a tick with a status. -/
abbrev Setting.Finishes (status : Status) (context : Context σ) : Prop :=
  BehaviorTree.Finishes setting.tree setting.now run key node start status context

/-- A node ends its course in a tick without a status. -/
abbrev Setting.Fails (fault : Fault) (context : Context σ) : Prop :=
  BehaviorTree.Fails setting.tree setting.now run key node start fault context

end Setting

/-- What may be assumed of a node that is ticked: the tree is well formed, ticks of other nodes stay
inside of their subtrees, the engine is in the frame of the node, and what nodes remember fits
their kinds. -/
structure Turn (setting : Setting) (run : NodeIndex → Tick σ Status) (key : RunKey) (node : Node)
    (start : Context σ) : Prop where
  behaves : Behaves setting.tree run
  wellFormed : setting.tree.WellFormed
  found : setting.tree.node? key.node = some node
  atKey : start.frame = key.frame
  remembers : start.runs.Fits setting.tree

variable {setting : Setting} {run : NodeIndex → Tick σ Status} {key : RunKey} {node : Node}
  {start context : Context σ} {seen running : List RunKey}

theorem fails_of_cause {tree : Tree} {cause : TickError}
    (course : Course tree now run key node start seen running context)
    (lost : cause.IsScopeGone → ∃ scope,
      (scope = context.scope ∨ context.runs.get? key = some (.scope scope)) ∧
        ¬ context.blackboard.Rooted scope) :
    Fails tree now run key node start (.node cause) context := by
  refine ⟨?_, fun _ _ => ⟨seen, running, course⟩⟩
  by_cases gone : cause.IsScopeGone
  · rcases lost gone with ⟨scope, used, unrooted⟩
    exact .unrooted course used unrooted
  · exact .failed gone

/-- A node fails on a course because of the scope in which the engine is. -/
theorem fails_of_access {tree : Tree} {cause : TickError}
    (course : Course tree now run key node start seen running context)
    (harmless : context.blackboard.Rooted context.scope → ¬ cause.IsScopeGone) :
    Fails tree now run key node start (.node cause) context :=
  fails_of_cause course fun gone => ⟨context.scope, Or.inl rfl, fun rooted => harmless rooted gone⟩

theorem fails_of_overflow {tree : Tree} {cause : Crash}
    (overflow : cause = .durationOverflow ∨ cause = .handleOverflow) :
    Fails tree now run key node start (.abort (.crash cause)) context :=
  ⟨.overflow overflow, fun _ impossible => by cases impossible⟩

theorem isScopeGone_blackboard {cause : BlackboardError} :
    (TickError.blackboard cause).IsScopeGone ↔ cause = .scopeGone := by
  cases cause <;> simp [TickError.IsScopeGone]

theorem isScopeGone_binding {cause : BindingError} :
    (TickError.binding cause).IsScopeGone ↔ cause = .blackboard .scopeGone := by
  cases cause with
  | blackboard cause => cases cause <;> simp [TickError.IsScopeGone]
  | _ => simp [TickError.IsScopeGone]

/-- A value that the node needs can be had, or the node fails. -/
theorem ends_bound_of {tree : Tree} {α : Type} {result : Except BindingError α}
    {after : α → Context σ → Prop}
    (course : Course tree now run key node start seen running context)
    (harmless : context.blackboard.Rooted context.scope →
      FailsOnly BindingError.IsHarmless result)
    (ends : ∀ value, after value context) :
    Ends (bound result) context after (Fails tree now run key node start) := by
  rw [ends_bound]
  split
  · exact ends _
  · apply fails_of_access course
    intro rooted
    rw [isScopeGone_binding]
    exact harmless rooted _ rfl

theorem ends_writeVariable {name : String} {value : Value}
    (course : setting.Course run key node start seen running context) :
    Ends (writeVariable setting key.node name value) context
      (fun _ after => (∃ blackboard, after = { context with blackboard := blackboard }) ∧
        setting.Course run key node start seen running after)
      (setting.Fails run key node start) := by
  unfold writeVariable
  simp only [ends_bind, Attempt.ends_get, ends_accessed, Attempt.ends_set]
  split
  · rename_i written
    exact ⟨⟨_, rfl⟩, course.wrote (Blackboard.writes_write written)⟩
  · rename_i cause unwritten
    apply fails_of_access course
    intro rooted
    rw [Blackboard.write_error_of_rooted rooted unwritten, isScopeGone_blackboard]
    exact fun impossible => by cases impossible

theorem ends_writeOutput {port : String} {value : Value}
    (course : setting.Course run key node start seen running context) :
    Ends (writeOutput setting key.node port value) context
      (fun _ after => (∃ blackboard, after = { context with blackboard := blackboard }) ∧
        setting.Course run key node start seen running after)
      (setting.Fails run key node start) := by
  unfold writeOutput
  split
  · exact ⟨⟨context.blackboard, rfl⟩, course⟩
  · simp only [ends_bind, Attempt.ends_get, ends_accessed, Attempt.ends_set]
    split
    · rename_i written
      exact ⟨⟨_, rfl⟩, course.wrote (Blackboard.writes_outputTo written)⟩
    · rename_i cause unwritten
      apply fails_of_access course
      intro rooted
      rw [isScopeGone_blackboard]
      rintro rfl
      exact Blackboard.outputTo_ne_scopeGone rooted _ unwritten

theorem ends_remember {state : RunState}
    (course : setting.Course run key node start seen running context) (fits : state.Fits node)
    (plain : state.IsPlain) :
    Ends (remember key state) context
      (fun _ after => after = context.setRun key state ∧
        setting.Course run key node start seen running after)
      (setting.Fails run key node start) :=
  ⟨rfl, course.remembered plain fits⟩

theorem ends_later {now duration : Duration} {after : Duration → Context σ → Prop}
    (ends : ∀ time, after time context) :
    Ends (later now duration) context after (setting.Fails run key node start) := by
  unfold later
  split
  · exact ends _
  · exact fails_of_overflow (Or.inl rfl)

omit [RemoteService σ] in
theorem ends_runStateOf {after : Option RunState → Context σ → Prop}
    {failed : Fault → Context σ → Prop} :
    Ends (runStateOf key) context after failed ↔ after (context.runs.get? key) context :=
  Iff.rfl

namespace Turn

omit [RemoteService σ] in
theorem fits_of_remembered (turn : Turn setting run key node start) {state : RunState}
    (remembered : start.runs.get? key = some state) : state.Fits node := by
  rcases turn.remembers key state remembered with ⟨other, found, fits⟩
  rw [turn.found, Option.some.injEq] at found
  rwa [found]

/-- A node is at its place all along its course. -/
theorem frame_eq (turn : Turn setting run key node start)
    (course : setting.Course run key node start seen running context) :
    context.frame = key.frame :=
  (course.outside turn.found).frame.trans turn.atKey

theorem ends_entered (turn : Turn setting run key node start) {inner : Context σ}
    {target : RunKey} (course : setting.Course run key node start seen running context)
    (enters : context.Enters setting.tree key node target inner) :
    Ends (liftM (run target.node) : Attempt σ Status) inner
      (fun status after => setting.Course run key node start (target :: seen)
          (if status = .running then target :: running else running) (after.leave context) ∧
        inner.Outside setting.tree target after)
      fun fault _ => ∀ context, setting.Fails run key node start fault context := by
  rw [ends_monadLift]
  have isNode := turn.wellFormed.closed _ _ (enters.invokes turn.found).leads
  have fits : inner.runs.Fits setting.tree := by
    intro other state remembered
    rw [enters.get?] at remembered
    exact course.fits turn.found turn.remembers other state remembered
  have behaved := turn.behaves target inner (enters.frame (turn.frame_eq course)) isNode fits
  unfold Ends at behaved ⊢
  split
  · rename_i status after ran
    rw [ran] at behaved
    exact ⟨course.ticked enters ran behaved.1 behaved.2, behaved.1⟩
  · rename_i failure after ran
    intro context
    exact ⟨.inner course enters ran, fun _ impossible => by cases impossible⟩

theorem ends_child (turn : Turn setting run key node start) {child : NodeIndex}
    (course : setting.Course run key node start seen running context)
    (listed : child ∈ node.children) :
    Ends (liftM (run child) : Attempt σ Status) context
      (fun status after => setting.Course run key node start (key.sibling child :: seen)
          (if status = .running then key.sibling child :: running else running) after ∧
        context.Outside setting.tree (key.sibling child) after)
      (setting.Fails run key node start) := by
  refine (turn.ends_entered course (.child listed)).mono ?_ ?_
  · rintro status after ⟨ticked, outside⟩
    rw [outside.leave_eq] at ticked
    exact ⟨ticked, outside⟩
  · exact fun fault after fails => fails after

theorem ends_haltSibling (turn : Turn setting run key node start) {child : NodeIndex}
    (course : setting.Course run key node start seen running context)
    (listed : child ∈ node.children) :
    Ends (haltSibling setting.tree key child) context
      (fun _ after =>
        setting.Course run key node start (key.sibling child :: seen) running after ∧
          context.Outside setting.tree (key.sibling child) after)
      (setting.Fails run key node start) := by
  unfold haltSibling
  rw [ends_attempt]
  have isNode := turn.wellFormed.closed key.node child (.child turn.found listed)
  refine (ends_halt turn.wellFormed isNode context).mono ?_ fun _ _ impossible => impossible.elim
  exact fun _ after halts => ⟨course.halted listed halts, halts.outside⟩

omit [RemoteService σ] in
/-- What a node remembers is not changed inside of its children. -/
theorem get?_of_outside (turn : Turn setting run key node start) {child : NodeIndex}
    (listed : child ∈ node.children) {before after : Context σ}
    (outside : before.Outside setting.tree (key.sibling child) after) :
    after.runs.get? key = before.runs.get? key := by
  rcases turn.wellFormed.ranked with ⟨rank, ranking⟩
  have below : setting.tree.ReachesBelow after.runs key (key.sibling child) :=
    (Tree.Invokes.child turn.found listed).reachesBelow
  exact outside.states key (below.not_reaches ranking)

omit [RemoteService σ] in
theorem invokes_iff (turn : Turn setting run key node start) (ordinary : node.kind ≠ .reference)
    (runs : RunStore) (lower : RunKey) :
    setting.tree.Invokes runs key lower ↔ ∃ child ∈ node.children, lower = key.sibling child := by
  apply Tree.invokes_iff_of_ordinary turn.found
  intro target configured
  exact ordinary ((turn.wellFormed.fits _ _ turn.found).kind_eq_reference_iff.2
    ⟨target, configured⟩)

/-- A node that goes on with everything has settled once it dealt with everything. -/
theorem settled_of_steady (turn : Turn setting run key node start)
    (course : setting.Course run key node start seen running context)
    (steady : ∀ state position, node.Current state position)
    (all : ∀ target, setting.tree.Invokes context.runs key target → target ∈ seen) :
    Settled setting.tree key start.runs seen running context.runs := by
  have framesIn := (course.outside turn.found).framesIn
  refine ⟨?_, ?_, ?_⟩
  · exact fun target goesOn => all target (goesOn.invokes.mono framesIn)
  · exact fun target goesOn => all target goesOn.invokes
  · intro target listed
    have invokes := (course.invokes turn.found).1 target ((course.invokes turn.found).2 _ listed)
    cases invokes with
    | child found inside =>
      rcases List.getElem?_of_mem inside with ⟨position, placed⟩
      rw [turn.found, Option.some.injEq] at found
      subst found
      exact .child turn.found placed (steady _ position)
    | target found configured framed known => exact .target found configured framed known

/-- A node without children has settled if it is running. -/
theorem finishes_of_childless (turn : Turn setting run key node start)
    (course : setting.Course run key node start seen running context)
    (count : node.kind.childCount = .none) (ordinary : node.kind ≠ .reference) (status : Status) :
    setting.Finishes run key node start status context := by
  refine ⟨seen, running, course, fun _ => ?_⟩
  have childless := (turn.wellFormed.fits _ _ turn.found).no_child count
  apply turn.settled_of_steady course
  · intro state position
    unfold Node.Current
    split
    all_goals first
      | trivial
      | rename_i kind
        rw [kind] at count
        cases count
  · intro target invokes
    rw [turn.invokes_iff ordinary, childless] at invokes
    simp at invokes

end Turn

end BehaviorTree
