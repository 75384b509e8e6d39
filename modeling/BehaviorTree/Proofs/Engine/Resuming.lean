import BehaviorTree.Proofs.Engine.Activations

/-!
# Sequences and selectors that resume

A sequence or a selector that does not always start with its first child remembers at which child it
is. In a turn it may pass several children. Over an activation it ticks its children one after the
other, each of them until it passes, as if it had kept the children that are left. It is over when a
child stops it or when no child is left.
-/

namespace BehaviorTree

/-- A node goes on with the next child when one reports `pass`, and a child that reports `stop`
stops it. It resumes where it was. -/
inductive Configuration.Resumes : Configuration → Status → Status → Prop where
  | sequence : Resumes (.sequence false) .success .failure
  | selector : Resumes (.selector false) .failure .success

/-- Children are ticked in their order, each one while it is running and until it passes. Given are
the ticks so far and the children that are left. -/
inductive Passes (pass : Status) (children : List NodeIndex) :
    List (NodeIndex × Status) → List NodeIndex → Prop where
  | begins : Passes pass children [] children
  | waited {ticks : List (NodeIndex × Status)} {child : NodeIndex} {rest : List NodeIndex}
      (before : Passes pass children ticks (child :: rest)) :
      Passes pass children (ticks ++ [(child, .running)]) (child :: rest)
  | passed {ticks : List (NodeIndex × Status)} {child : NodeIndex} {rest : List NodeIndex}
      (before : Passes pass children ticks (child :: rest)) :
      Passes pass children (ticks ++ [(child, pass)]) rest

/-- The ticks of a single turn, the status that comes of them and the children that are left. -/
inductive Traverses (pass stop : Status) :
    List NodeIndex → List (NodeIndex × Status) → Status → List NodeIndex → Prop where
  | finished : Traverses pass stop [] [] pass []
  | waits {child : NodeIndex} {rest : List NodeIndex} :
      Traverses pass stop (child :: rest) [(child, .running)] .running (child :: rest)
  | stops {child : NodeIndex} {rest : List NodeIndex} :
      Traverses pass stop (child :: rest) [(child, stop)] stop (child :: rest)
  | passes {child : NodeIndex} {rest left : List NodeIndex} {ticks : List (NodeIndex × Status)}
      {status : Status} (traversed : Traverses pass stop rest ticks status left) :
      Traverses pass stop (child :: rest) ((child, pass) :: ticks) status left

/-- Ticks of children are kept in order: no child is ticked again once it has passed, and none is
ticked before the one in front of it has passed. -/
structure KeepsOrder (pass : Status) (children : List NodeIndex)
    (ticks : List (NodeIndex × Status)) : Prop where
  once : ticks.Pairwise fun earlier later => earlier.2 = pass → later.1 ≠ earlier.1
  next : ∀ before after previous child status, ticks = before ++ (child, status) :: after →
    [previous, child] <:+: children → (previous, pass) ∈ before

variable {pass stop status : Status} {children rest left : List NodeIndex} {child : NodeIndex}
  {ticks more : List (NodeIndex × Status)}

namespace Configuration.Resumes

variable {configuration : Configuration} (resumes : configuration.Resumes pass stop)
include resumes

theorem differ : pass ≠ .running ∧ stop ≠ .running ∧ pass ≠ stop := by
  cases resumes <;> decide

theorem kind_eq : configuration.kind = .sequence ∨ configuration.kind = .selector := by
  cases resumes
  · exact Or.inl rfl
  · exact Or.inr rfl

theorem eq_pass_of_ne (notRunning : status ≠ .running) (notStop : status ≠ stop) :
    status = pass := by
  cases resumes <;> cases status <;> first | rfl | contradiction

end Configuration.Resumes

namespace Passes

/-- A turn that is not stopped goes on with the children that are left. -/
theorem traverses (passes : Passes pass children ticks rest)
    (traversed : Traverses pass stop rest more status left) (goesOn : status ≠ stop) :
    Passes pass children (ticks ++ more) left := by
  induction traversed generalizing ticks with
  | finished => rwa [List.append_nil]
  | waits => exact passes.waited
  | stops => exact absurd rfl goesOn
  | passes _ ih =>
    rw [List.append_cons]
    exact ih passes.passed goesOn

/-- The children that are not left are those that have passed. -/
theorem exists_done (passes : Passes pass children ticks rest) (settles : pass ≠ .running) :
    ∃ done, children = done ++ rest ∧ ∀ child, (child, pass) ∈ ticks ↔ child ∈ done := by
  induction passes with
  | begins => exact ⟨[], rfl, by simp⟩
  | waited _ ih =>
    rcases ih with ⟨done, split, passed⟩
    exact ⟨done, split, fun child => by simp [passed child, settles]⟩
  | @passed ticks next rest _ ih =>
    rcases ih with ⟨done, split, passed⟩
    exact ⟨done ++ [next], by rw [split, List.append_assoc, List.singleton_append],
      fun child => by simp [passed child]⟩

/-- A tick of the first child that is left keeps the order, whatever comes of it. -/
theorem keepsOrder_snoc (passes : Passes pass children ticks (child :: rest))
    (settles : pass ≠ .running) (nodup : children.Nodup)
    (ordered : KeepsOrder pass children ticks) :
    KeepsOrder pass children (ticks ++ [(child, status)]) := by
  rcases passes.exists_done settles with ⟨done, rfl, passed⟩
  have unpassed : child ∉ done := fun isDone =>
    (List.disjoint_of_nodup_append nodup) isDone List.mem_cons_self
  constructor
  · refine List.pairwise_append.2 ⟨ordered.once, List.pairwise_singleton _ _, ?_⟩
    rintro ⟨earlier, report⟩ listed ⟨later, _⟩ isLast rfl
    simp only [List.mem_singleton, Prod.mk.injEq] at isLast
    rw [isLast.1]
    rintro rfl
    exact unpassed ((passed child).1 listed)
  · intro before after previous other report split adjacent
    rcases List.eq_nil_or_concat after with rfl | ⟨front, final, rfl⟩
    · -- The tick in question is the last one.
      rcases List.append_inj' split rfl with ⟨rfl, same⟩
      simp only [List.cons.injEq, Prod.mk.injEq, and_true] at same
      rcases same with ⟨rfl, -⟩
      rcases adjacent with ⟨front, back, joined⟩
      have unlisted : child ∉ rest := by
        have apart := (List.nodup_append.1 nodup).2.1
        exact (List.nodup_cons.1 apart).1
      have halves : (front ++ [previous]) ++ child :: back = done ++ child :: rest := by
        rw [← joined]
        simp
      have isDone := (List.append_cons_inj_of_notMem unpassed unlisted).1 halves.symm
      exact (passed previous).2 (by rw [isDone.1]; simp)
    · rw [List.concat_eq_append, ← List.cons_append, ← List.append_assoc] at split
      exact ordered.next before front previous other report (List.append_inj' split rfl).1 adjacent

theorem keepsOrder (passes : Passes pass children ticks rest) (settles : pass ≠ .running)
    (nodup : children.Nodup) : KeepsOrder pass children ticks := by
  induction passes with
  | begins => exact ⟨.nil, fun before after _ _ _ none => by simp at none⟩
  | waited before ih => exact before.keepsOrder_snoc settles nodup ih
  | passed before ih => exact before.keepsOrder_snoc settles nodup ih

end Passes

namespace Traverses

variable (traversed : Traverses pass stop rest ticks status left)
include traversed

/-- A turn is stopped exactly by a child that stops it. -/
theorem stopped_iff (differ : pass ≠ .running ∧ stop ≠ .running ∧ pass ≠ stop) :
    status = stop ↔ ∃ child, (child, stop) ∈ ticks := by
  rcases differ with ⟨-, settles, apart⟩
  induction traversed with
  | finished => simp [apart]
  | waits => simp [settles, settles.symm]
  | stops => simp
  | passes _ ih => simp [ih, apart.symm]

/-- A turn is passed exactly if the last child passes in it, or if no child was left. -/
theorem passed_iff (differ : pass ≠ .running ∧ stop ≠ .running ∧ pass ≠ stop)
    (nodup : rest.Nodup) :
    status = pass ↔ rest = [] ∨ ∃ last, rest.getLast? = some last ∧ (last, pass) ∈ ticks := by
  rcases differ with ⟨settles, -, apart⟩
  induction traversed with
  | finished => simp
  | waits => simp [settles, settles.symm]
  | stops => simp [apart, apart.symm]
  | @passes child rest left ticks status traversed ih =>
    rw [ih nodup.tail]
    cases rest with
    | nil => cases traversed; simp
    | cons next rest =>
      have apartFrom : ∀ last, (next :: rest).getLast? = some last → last ≠ child := by
        rintro last isLast rfl
        exact (List.nodup_cons.1 nodup).1 (List.mem_of_getLast? isLast)
      simp only [List.cons_ne_nil, false_or, List.getLast?_cons_cons, List.mem_cons, Prod.mk.injEq,
        and_true]
      constructor
      · rintro ⟨last, isLast, listed⟩
        exact ⟨last, isLast, Or.inr listed⟩
      · rintro ⟨last, isLast, first | listed⟩
        · exact absurd first (apartFrom last isLast)
        · exact ⟨last, isLast, listed⟩

/-- A turn that is stopped passed some of the children before. -/
theorem exists_passes (passes : Passes pass children more rest) (isStop : status = stop)
    (apart : pass ≠ stop) :
    ∃ earlier child later, Passes pass children earlier (child :: later) ∧
      more ++ ticks = earlier ++ [(child, stop)] := by
  induction traversed generalizing more with
  | finished => exact absurd isStop apart
  | waits => exact ⟨more, _, _, passes, by rw [isStop]⟩
  | stops => exact ⟨more, _, _, passes, rfl⟩
  | passes _ ih =>
    rw [List.append_cons]
    exact ih passes.passed isStop

/-- A child is left at the end of a turn that is not over. -/
theorem left_ne_nil (isRunning : status = .running)
    (differ : pass ≠ .running ∧ stop ≠ .running ∧ pass ≠ stop) : left ≠ [] := by
  induction traversed with
  | finished => exact absurd isRunning differ.1
  | waits => exact List.cons_ne_nil _ _
  | stops => exact absurd isRunning differ.2.1
  | passes _ ih => exact ih isRunning

end Traverses

variable {σ : Type} [RemoteService σ] {setting : Setting} {depth position : Nat} {key : RunKey}
  {node : Node} {before : Context σ} {previous : Option Nat} {configuration : Configuration}
  {turn : PastTurn σ key} {turns : List (PastTurn σ key)}

/-- The children that are left to a node that is running, by what it remembers. -/
def Node.IsLeft (node : Node) (state : Option RunState) (rest : List NodeIndex) : Prop :=
  ∃ position, state = some (.child position) ∧ rest = node.children.drop position

/-- Children were traversed: their ticks were noted, and the node remembers which ones are left. -/
def Context.Traversed (before : Context σ) (key : RunKey) (node : Node) (pass stop : Status)
    (rest : List NodeIndex) (status : Status) (after : Context σ) : Prop :=
  ∃ ticks left, Traverses pass stop rest ticks status left ∧
    after.childTicks key node.children = before.childTicks key node.children ++ ticks ∧
    (status = .running → node.IsLeft (after.runs.get? key) left)

section Steps

variable (stands : Standing setting depth key node) (resumes : configuration.Resumes pass stop)
  (kind : node.kind = configuration.kind)
include stands resumes kind

/-- The children from a position on are traversed. No child has to hand over, as that is where the
node was. -/
theorem Standing.ends_tickFrom (forward : ∀ last, previous = some last → last ≤ position)
    (isRest : rest = node.children.drop position) (ready : before.Ready setting.tree key) :
    Ends (tickFrom setting.tree (tickWithin setting depth) key node.children previous stop pass
      position rest) before (before.Traversed key node pass stop rest) Aborts := by
  induction rest generalizing before position with
  | nil => exact ⟨[], [], .finished, by simp, fun isRunning => absurd isRunning resumes.differ.1⟩
  | cons child rest ih =>
    have placed : node.children[position]? = some child := by
      have head : (node.children.drop position)[0]? = some child := by rw [← isRest]; rfl
      simpa using head
    have isRestNext : rest = node.children.drop (position + 1) := by
      have tail : (node.children.drop position).tail = rest := by rw [← isRest]; rfl
      rw [← tail, List.tail_drop]
    unfold tickFrom
    refine (stands.ends_child ready (List.mem_of_getElem? placed)).bind ?_
    rintro status middle ⟨ticked, -⟩
    by_cases isRunning : status = .running
    · subst isRunning
      have noHandOver : handOver (σ := σ) setting.tree key node.children previous position =
          pure () := by
        unfold handOver
        split
        · rename_i last
          rw [if_neg (Nat.not_lt.2 (forward last rfl))]
        · rfl
      have fits : (RunState.child position).Fits node :=
        ⟨kind ▸ resumes.kind_eq, (List.getElem?_eq_some_iff.1 placed).1⟩
      have plain : (RunState.child position).IsPlain := trivial
      simp only [↓reduceIte, noHandOver, pure_bind]
      refine (stands.ends_remember ticked.ready plain fits).bind ?_
      rintro _ after ⟨rfl, -⟩
      exact ⟨_, _, .waits, ticked.ticks, fun _ => ⟨position,
        by rw [Context.get?_setRun, if_pos rfl], isRest⟩⟩
    · simp only [if_neg isRunning]
      split
      · rename_i isStop
        subst isStop
        exact ⟨_, _, .stops, ticked.ticks, fun running => absurd running isRunning⟩
      · rename_i notStop
        cases resumes.eq_pass_of_ne isRunning notStop
        refine (ih (fun last given => Nat.le_succ_of_le (forward last given)) isRestNext
          ticked.ready).mono ?_ fun _ _ fails => fails
        rintro status after ⟨ticks, left, traversed, more, remembered⟩
        refine ⟨_, left, .passes traversed, ?_, remembered⟩
        rw [more, ticked.ticks, List.append_assoc, List.singleton_append]

/-- A node that is ticked first traverses all of its children, and later those that are left. -/
theorem Standing.ends_tickChildren (ready : before.Ready setting.tree key)
    (goesOn : before.runs.get? key = none ∧ rest = node.children ∨
      node.IsLeft (before.runs.get? key) rest) :
    Ends (tickChildren setting.tree (tickWithin setting depth) key node.children false stop pass)
      before (before.Traversed key node pass stop rest) Aborts := by
  simp only [tickChildren, ends_bind, ends_runStateOf, Bool.false_eq_true, ↓reduceIte]
  rcases goesOn with ⟨none, rfl⟩ | ⟨position, remembered, rfl⟩
  · simp only [none, Option.getD_none, List.drop_zero]
    exact stands.ends_tickFrom resumes kind (fun _ given => nomatch given) List.drop_zero.symm ready
  · simp only [remembered, Option.getD_some]
    refine stands.ends_tickFrom resumes kind ?_ rfl ready
    rintro _ ⟨⟩
    exact Nat.le_refl _

end Steps

/-- In a turn a node traverses the children that are left, and remembers which are left then. -/
theorem PastTurn.traverses (resumes : configuration.Resumes pass stop)
    (fixed : turn.node.IsFixed configuration)
    (goesOn : turn.before.runs.get? key = none ∧ rest = turn.node.children ∨
      turn.node.IsLeft (turn.before.runs.get? key) rest) :
    ∃ left, Traverses pass stop rest turn.ticks turn.status left ∧
      (turn.status = .running → turn.node.IsLeft (turn.after.runs.get? key) left) := by
  have kind := (turn.fits.configured _ fixed.configured).symm
  have traversed := turn.stands.ends_tickChildren resumes kind turn.ready goesOn
  have ends : Ends (tickConfigured turn.setting (tickWithin turn.setting turn.depth) key turn.node
      configuration) turn.before (turn.before.Traversed key turn.node pass stop rest) Aborts := by
    cases resumes <;> exact traversed
  rcases exists_closes (fixed.effectiveConfiguration_eq _) ends with
    ⟨last, ⟨ticks, left, traversed, ticked, remembered⟩, closes⟩
  rw [ticks_eq closes ticked]
  refine ⟨left, traversed, fun isRunning => ?_⟩
  rw [(closes.of_running isRunning).1]
  exact remembered isRunning

/-- What a node that resumes does in the turns of an activation, up to the latest one. -/
structure PastTurn.ResumesAfter (pass stop : Status) (turn : PastTurn σ key)
    (earlier : List (PastTurn σ key)) : Prop where
  /-- Children are ticked one after the other, each of them until it passes, and a child that stops
  the node is ticked last. -/
  passes : ∃ ticks rest, Passes pass turn.node.children ticks rest ∧
    (ticksOf (turn :: earlier) = ticks ∨
      ∃ child later, rest = child :: later ∧ ticksOf (turn :: earlier) = ticks ++ [(child, stop)])
  ordered : KeepsOrder pass turn.node.children (ticksOf (turn :: earlier))
  stopped_iff : turn.status = stop ↔ ∃ child, (child, stop) ∈ turn.ticks
  passed_iff : turn.status = pass ↔
    turn.node.children = [] ∨
      ∃ last, turn.node.children.getLast? = some last ∧ (last, pass) ∈ turn.ticks

/-- Before a turn some children have passed. The turn traverses those that are left, among which is
the last child. -/
theorem Activation.traverses (activation : Activation (turn :: turns))
    (resumes : configuration.Resumes pass stop) (fixed : turn.node.IsFixed configuration) :
    ∃ rest left, Passes pass turn.node.children (ticksOf turns) rest ∧
      rest.getLast? = turn.node.children.getLast? ∧
      Traverses pass stop rest turn.ticks turn.status left ∧
      (turn.status = .running → turn.node.IsLeft (turn.after.runs.get? key) left) := by
  induction turns generalizing turn with
  | nil =>
    cases activation with
    | begins fresh =>
      rcases PastTurn.traverses resumes fixed (Or.inl ⟨fresh, rfl⟩) with
        ⟨left, traversed, remembered⟩
      exact ⟨_, left, .begins, rfl, traversed, remembered⟩
  | cons last turns ih =>
    cases activation with
    | goesOn activation running leaves =>
      have same := leaves.node_eq
      rcases ih activation (same ▸ fixed) with ⟨rest, left, passes, -, traversed, remembered⟩
      have goesOn : last.status ≠ stop := running ▸ resumes.differ.2.1.symm
      have passesOn := passes.traverses traversed goesOn
      rw [← ticksOf_cons, same] at passesOn
      rcases passesOn.exists_done resumes.differ.1 with ⟨done, split, -⟩
      have isLast : left.getLast? = turn.node.children.getLast? := by
        rw [split, List.getLast?_append_of_ne_nil _ (traversed.left_ne_nil running resumes.differ)]
      rcases remembered running with ⟨position, state, isRest⟩
      have isLeft : turn.node.IsLeft (turn.before.runs.get? key) left :=
        ⟨position, leaves.state _ state trivial, same ▸ isRest⟩
      rcases PastTurn.traverses resumes fixed (Or.inr isLeft) with
        ⟨leftToo, traversedToo, rememberedToo⟩
      exact ⟨left, leftToo, passesOn, isLast, traversedToo, rememberedToo⟩

/-- Whatever its children do, a node that resumes ticks them as if it kept those that are left. -/
theorem Activation.resumes (activation : Activation (turn :: turns))
    (resumes : configuration.Resumes pass stop) (fixed : turn.node.IsFixed configuration) :
    turn.ResumesAfter pass stop turns := by
  have differ := resumes.differ
  rcases activation.traverses resumes fixed with ⟨rest, left, passes, isLast, traversed, -⟩
  have nodup := turn.stands.branches.children_nodup turn.stands.found
  have split : ∃ ticks rest, Passes pass turn.node.children ticks rest ∧
      (ticksOf (turn :: turns) = ticks ∨ ∃ child later, rest = child :: later ∧
        ticksOf (turn :: turns) = ticks ++ [(child, stop)]) := by
    rw [ticksOf_cons]
    by_cases isStop : turn.status = stop
    · rcases traversed.exists_passes passes isStop differ.2.2 with
        ⟨earlier, child, later, passed, ticked⟩
      exact ⟨earlier, _, passed, Or.inr ⟨child, later, rfl, ticked⟩⟩
    · exact ⟨_, left, passes.traverses traversed isStop, Or.inl rfl⟩
  refine ⟨split, ?_, traversed.stopped_iff differ, ?_⟩
  · rcases split with ⟨ticks, rest, passed, same | ⟨child, later, rfl, same⟩⟩
    · rw [same]
      exact passed.keepsOrder differ.1 nodup
    · rw [same]
      exact passed.keepsOrder_snoc differ.1 nodup (passed.keepsOrder differ.1 nodup)
  · rcases passes.exists_done differ.1 with ⟨done, joined, -⟩
    have restNodup : rest.Nodup := by
      rw [joined] at nodup
      exact (List.nodup_append.1 nodup).2.1
    rw [traversed.passed_iff differ restNodup, isLast, ← List.getLast?_eq_none_iff, isLast,
      List.getLast?_eq_none_iff]

end BehaviorTree
