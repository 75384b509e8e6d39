import BehaviorTree.Proofs.Engine.Activity
import BehaviorTree.Proofs.Engine.Branches
import BehaviorTree.Proofs.Engine.RemoteHistory
import BehaviorTree.Proofs.Engine.Soundness

/-!
# Ticks of children

What a node reports when it is ticked is noted, after what the nodes below it reported. Nothing
below a child of a node is a child of the same node. So the ticks of the children of a node can be
read off what was noted: a tick of a child adds one to them, and nothing else does.
-/

namespace BehaviorTree

variable {σ : Type}

namespace Context

/-- The ticks of the children of a node that were noted, the first one in front. -/
def childTicks (context : Context σ) (key : RunKey) (children : List NodeIndex) :
    List (NodeIndex × Status) :=
  context.visits.reverse.filterMap fun visit =>
    if visit.key.frame = key.frame ∧ visit.key.node ∈ children then
      some (visit.key.node, visit.status)
    else none

/-- Everything that was noted since a context was noted of nodes below another one. -/
def NotesBelow (tree : Tree) (index : NodeIndex) (before after : Context σ) : Prop :=
  ∃ noted, after.visits = noted ++ before.visits ∧
    ∀ visit ∈ noted, Relation.TransGen tree.Leads index visit.key.node

/-- The tick of a node was noted, after ticks of nodes below it. -/
def NotesTick (tree : Tree) (target : RunKey) (status : Status) (before after : Context σ) : Prop :=
  ∃ cause, ∃ inner : Context σ, before.NotesBelow tree target.node inner ∧
    after.visits = ⟨target, status, cause⟩ :: inner.visits

variable {tree : Tree} {rank : NodeIndex → Nat} {key target upper : RunKey} {node other : Node}
  {child index : NodeIndex} {status : Status} {before middle after start context inner : Context σ}
  {children : List NodeIndex}

theorem childTicks_congr (same : after.visits = before.visits) :
    after.childTicks key children = before.childTicks key children := by
  simp only [childTicks, same]

theorem NotesBelow.of_eq (same : after.visits = before.visits) :
    before.NotesBelow tree index after :=
  ⟨[], by simp [same], by simp⟩

theorem NotesBelow.trans (first : before.NotesBelow tree index middle)
    (second : middle.NotesBelow tree index after) : before.NotesBelow tree index after := by
  rcases first with ⟨noted, visits, below⟩
  rcases second with ⟨more, moreVisits, moreBelow⟩
  refine ⟨more ++ noted, by rw [moreVisits, visits, List.append_assoc], ?_⟩
  intro visit listed
  rcases List.mem_append.1 listed with new | old
  · exact moreBelow visit new
  · exact below visit old

/-- The tick of a node is noted below the nodes that lead to it. -/
theorem NotesTick.notesBelow (ticked : before.NotesTick tree target status after)
    (leads : tree.Leads index target.node) : before.NotesBelow tree index after := by
  rcases ticked with ⟨cause, inner, ⟨noted, visits, below⟩, noticed⟩
  refine ⟨⟨target, status, cause⟩ :: noted, by rw [noticed, visits, List.cons_append], ?_⟩
  intro visit listed
  rcases List.mem_cons.1 listed with rfl | listed
  · exact .single leads
  · exact .head leads (below visit listed)

/-- Nothing below a child of a node is noted as a tick of a child of the node. -/
theorem NotesBelow.childTicks_eq (branches : tree.Branches) (ranking : tree.Ranking rank)
    (found : tree.node? key.node = some node) (listed : child ∈ node.children)
    (below : before.NotesBelow tree child after) :
    after.childTicks key node.children = before.childTicks key node.children := by
  rcases below with ⟨noted, visits, deeper⟩
  have unlisted : ∀ visit ∈ noted, visit.key.node ∉ node.children := fun visit isNoted isChild =>
    branches.not_below_child ranking found listed isChild (deeper visit isNoted)
  have none : noted.reverse.filterMap (fun visit =>
      if visit.key.frame = key.frame ∧ visit.key.node ∈ node.children then
        some (visit.key.node, visit.status) else none) = [] := by
    rw [List.filterMap_eq_nil_iff]
    intro visit isNoted
    simp [unlisted visit (List.mem_reverse.1 isNoted)]
  simp only [childTicks, visits, List.reverse_append, List.filterMap_append, none, List.append_nil]

/-- The tick of a child is one more tick of a child. -/
theorem NotesTick.childTicks_eq (branches : tree.Branches) (ranking : tree.Ranking rank)
    (found : tree.node? key.node = some node) (listed : child ∈ node.children)
    (ticked : before.NotesTick tree (key.sibling child) status after) :
    after.childTicks key node.children =
      before.childTicks key node.children ++ [(child, status)] := by
  rcases ticked with ⟨cause, inner, below, noticed⟩
  have earlier := NotesBelow.childTicks_eq branches ranking found listed below
  simp only [childTicks] at earlier
  simp [childTicks, noticed, earlier, RunKey.sibling, listed]

/-- That a node itself reported is no tick of a child of it. -/
theorem childTicks_visit (ranking : tree.Ranking rank) (found : tree.node? key.node = some node)
    {cause : Option TickError} :
    (context.visit ⟨key, status, cause⟩).childTicks key node.children =
      context.childTicks key node.children := by
  have unlisted : key.node ∉ node.children := fun listed =>
    Nat.lt_irrefl _ (ranking.descends _ _ (.child found listed))
  simp [childTicks, visit, unlisted]

end Context

/-- Ticks of nodes are noted, after what was noted below them. -/
def Noting (tree : Tree) (run : NodeIndex → Tick σ Status) : Prop :=
  ∀ (target : RunKey) (context : Context σ), context.frame = target.frame →
    (tree.node? target.node).isSome → context.runs.Fits tree →
    Ends (run target.node) context
      (fun status after => context.NotesTick tree target status after) fun _ _ => True

variable [RemoteService σ] {tree : Tree} {now : Duration} {rank : NodeIndex → Nat}
  {key target upper : RunKey} {node : Node} {child : NodeIndex} {status : Status}
  {start context inner after : Context σ} {run : NodeIndex → Tick σ Status}
  {seen running : List RunKey} {setting : Setting}

/-- What is invoked on a course is a node, which is entered at its place. -/
theorem Course.entered (course : Course tree now run key node start seen running context)
    (found : tree.node? key.node = some node) (wellFormed : tree.WellFormed)
    (atKey : start.frame = key.frame) (fits : start.runs.Fits tree)
    (enters : context.Enters tree key node target inner) :
    inner.frame = target.frame ∧ (tree.node? target.node).isSome ∧ inner.runs.Fits tree := by
  refine ⟨enters.frame ((course.outside found).frame.trans atKey),
    wellFormed.closed _ _ (enters.invokes found).leads, ?_⟩
  intro other state remembered
  exact course.fits found fits other state ((enters.get? other).symm.trans remembered)

theorem Course.notesBelow (course : Course tree now run key node start seen running context)
    (found : tree.node? key.node = some node) (wellFormed : tree.WellFormed)
    (atKey : start.frame = key.frame) (fits : start.runs.Fits tree) (noting : Noting tree run) :
    start.NotesBelow tree key.node context := by
  induction course with
  | start => exact .of_eq rfl
  | wrote _ _ ih => exact ih.trans (.of_eq rfl)
  | noted _ ih => exact ih.trans (.of_eq rfl)
  | remembered _ _ _ ih => exact ih.trans (.of_eq rfl)
  | opened _ _ _ _ ih => exact ih.trans (.of_eq rfl)
  | ticked course enters ran _ _ ih =>
    rcases course.entered found wellFormed atKey fits enters with ⟨atTarget, isNode, fitting⟩
    have ticked := (noting _ _ atTarget isNode fitting).of_eq_ok ran
    have below := ticked.notesBelow (enters.invokes found).leads
    exact ih.trans ((Context.NotesBelow.of_eq enters.visits).trans (below.trans (.of_eq rfl)))
  | halted _ _ halts ih => exact ih.trans (.of_eq halts.samePlace.visits)
  | served _ _ serves ih => exact ih.trans (.of_eq serves.place.visits)

theorem noting_tickWithin (wellFormed : setting.tree.WellFormed) (depth : Nat) :
    Noting setting.tree (tickWithin (σ := σ) setting depth) := by
  induction depth with
  | zero => exact fun _ _ _ _ _ => trivial
  | succ depth ih =>
    intro target start atTarget isNode fits
    rcases Option.isSome_iff_exists.1 isNode with ⟨node, found⟩
    have turn : Turn setting (tickWithin setting depth) target node start :=
      ⟨behaves_tickWithin wellFormed depth, wellFormed, found, atTarget, fits⟩
    refine turn.ends_tickWithin.mono ?_ fun _ _ _ => trivial
    intro status after concludes
    cases concludes with
    | running course settled =>
      exact ⟨none, _, course.notesBelow found wellFormed atTarget fits ih, rfl⟩
    | @ended _ _ context _ _ cause reports course ended caused halts =>
      exact ⟨cause, _, course.notesBelow found wellFormed atTarget fits ih,
        halts.samePlace.visits⟩

end BehaviorTree
