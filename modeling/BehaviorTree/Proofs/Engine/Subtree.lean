import BehaviorTree.Proofs.Engine.Outcome
import BehaviorTree.Proofs.Tree.WellFormed
import Mathlib.Logic.Relation

/-!
# Invocations and halting

A node in an invocation invokes its children in the same invocation, and a reference invokes the
root of its target in the frame that it was given. What a node reaches in this way is its subtree.
Frames are only ever added, so subtrees grow. To halt a node is to discard everything in its
subtree: the way down is no longer than there are nodes, so it comes to an end.
-/

namespace BehaviorTree

namespace Tree

inductive Invokes (tree : Tree) (runs : RunStore) : RunKey → RunKey → Prop where
  | child {key : RunKey} {node : Node} {child : NodeIndex}
      (found : tree.node? key.node = some node) (listed : child ∈ node.children) :
      Invokes tree runs key (key.sibling child)
  /-- The target of a reference, in the frame of the reference. -/
  | target {key : RunKey} {node : Node} {target : String} {frame : FrameId} {root : NodeIndex}
      (found : tree.node? key.node = some node)
      (configured : node.configuration = some (.reference target))
      (framed : runs.frame? key = some frame) (known : tree.lookup target = some root) :
      Invokes tree runs key ⟨frame, root⟩

/-- What a node invokes directly or indirectly, and the node itself. -/
def Reaches (tree : Tree) (runs : RunStore) : RunKey → RunKey → Prop :=
  Relation.ReflTransGen (tree.Invokes runs)

def ReachesBelow (tree : Tree) (runs : RunStore) : RunKey → RunKey → Prop :=
  Relation.TransGen (tree.Invokes runs)

end Tree

/-- The frames that references have in one store they have in the other one, too. -/
def RunStore.FramesIn (before after : RunStore) : Prop :=
  ∀ key frame, before.frame? key = some frame → after.frame? key = some frame

theorem RunStore.FramesIn.refl (runs : RunStore) : runs.FramesIn runs := fun _ _ framed => framed

theorem RunStore.FramesIn.trans {first second third : RunStore} (left : first.FramesIn second)
    (right : second.FramesIn third) : first.FramesIn third :=
  fun key frame framed => right key frame (left key frame framed)

theorem RunStore.FramesIn.of_eq {before after : RunStore} (same : after.frames = before.frames) :
    before.FramesIn after := by
  intro key frame framed
  simpa [frame?, same] using framed

namespace Tree

variable {tree : Tree} {runs after : RunStore} {key upper lower : RunKey}
  {rank : NodeIndex → Nat}

theorem Invokes.leads (invokes : tree.Invokes runs upper lower) :
    tree.Leads upper.node lower.node := by
  cases invokes with
  | child found listed => exact .child found listed
  | target found configured framed known => exact .target found configured known

theorem Invokes.mono (invokes : tree.Invokes runs upper lower) (framesIn : runs.FramesIn after) :
    tree.Invokes after upper lower := by
  cases invokes with
  | child found listed => exact .child found listed
  | target found configured framed known =>
    exact .target found configured (framesIn _ _ framed) known

theorem Reaches.mono (reaches : tree.Reaches runs upper lower) (framesIn : runs.FramesIn after) :
    tree.Reaches after upper lower :=
  Relation.ReflTransGen.mono (fun _ _ invokes => invokes.mono framesIn) upper lower reaches

theorem ReachesBelow.mono (reaches : tree.ReachesBelow runs upper lower)
    (framesIn : runs.FramesIn after) : tree.ReachesBelow after upper lower :=
  Relation.TransGen.mono (fun _ _ invokes => invokes.mono framesIn) upper lower reaches

theorem Reaches.refl (key : RunKey) : tree.Reaches runs key key := Relation.ReflTransGen.refl

theorem Reaches.trans (first : tree.Reaches runs upper key) (second : tree.Reaches runs key lower) :
    tree.Reaches runs upper lower :=
  Relation.ReflTransGen.trans first second

theorem Invokes.reaches (invokes : tree.Invokes runs upper lower) :
    tree.Reaches runs upper lower :=
  Relation.ReflTransGen.single invokes

theorem Reaches.head (invokes : tree.Invokes runs upper key)
    (reaches : tree.Reaches runs key lower) : tree.Reaches runs upper lower :=
  Relation.ReflTransGen.head invokes reaches

theorem Reaches.eq_or_below (reaches : tree.Reaches runs upper lower) :
    lower = upper ∨ tree.ReachesBelow runs upper lower :=
  Relation.reflTransGen_iff_eq_or_transGen.1 reaches

theorem ReachesBelow.reaches (below : tree.ReachesBelow runs upper lower) :
    tree.Reaches runs upper lower :=
  Relation.TransGen.to_reflTransGen below

theorem ReachesBelow.then (below : tree.ReachesBelow runs upper key)
    (reaches : tree.Reaches runs key lower) : tree.ReachesBelow runs upper lower :=
  Relation.TransGen.trans_left below reaches

theorem Invokes.reachesBelow (invokes : tree.Invokes runs upper lower) :
    tree.ReachesBelow runs upper lower :=
  Relation.TransGen.single invokes

theorem ReachesBelow.rank_lt (ranking : tree.Ranking rank)
    (below : tree.ReachesBelow runs upper lower) : rank lower.node < rank upper.node := by
  induction below with
  | single invokes => exact ranking.descends _ _ invokes.leads
  | tail _ invokes ih => exact Nat.lt_trans (ranking.descends _ _ invokes.leads) ih

theorem Reaches.rank_le (ranking : tree.Ranking rank) (reaches : tree.Reaches runs upper lower) :
    rank lower.node ≤ rank upper.node := by
  rcases reaches.eq_or_below with rfl | below
  · exact Nat.le_refl _
  · exact Nat.le_of_lt (below.rank_lt ranking)

theorem ReachesBelow.not_reaches (ranking : tree.Ranking rank)
    (below : tree.ReachesBelow runs upper lower) : ¬ tree.Reaches after lower upper := by
  intro back
  exact Nat.not_lt.2 (back.rank_le ranking) (below.rank_lt ranking)

end Tree

namespace Context

variable {σ : Type}

/-- Two contexts in which the engine is at the same place and has seen the same. -/
structure SamePlace (before after : Context σ) : Prop where
  frames : after.runs.frames = before.runs.frames
  scope : after.scope = before.scope
  frame : after.frame = before.frame
  parameters : after.parameters = before.parameters
  visits : after.visits = before.visits

namespace SamePlace

theorem refl (context : Context σ) : context.SamePlace context :=
  ⟨rfl, rfl, rfl, rfl, rfl⟩

theorem trans {first second third : Context σ} (left : first.SamePlace second)
    (right : second.SamePlace third) : first.SamePlace third :=
  ⟨right.frames.trans left.frames, right.scope.trans left.scope, right.frame.trans left.frame,
    right.parameters.trans left.parameters, right.visits.trans left.visits⟩

/-- Subtrees are the same for contexts with the same frames. -/
theorem reaches_iff {tree : Tree} {before after : Context σ} {upper lower : RunKey}
    (same : before.SamePlace after) :
    tree.Reaches after.runs upper lower ↔ tree.Reaches before.runs upper lower :=
  ⟨fun reaches => reaches.mono (.of_eq same.frames.symm),
    fun reaches => reaches.mono (.of_eq same.frames)⟩

end SamePlace

variable [RemoteService σ]

/-- The context without the run state of a node, and without what it held. -/
def discarded (context : Context σ) (key : RunKey) : Context σ :=
  match context.runs.get? key with
  | some state => { context with runs := context.runs.erase key }.release state
  | none => context

variable {context : Context σ} {key other : RunKey} {state : RunState}

theorem get?_discarded :
    (context.discarded key).runs.get? other =
      if other = key then none else context.runs.get? other := by
  unfold discarded
  split
  · simp [release, RunStore.get?, RunStore.erase, Table.get?_erase]
  · rename_i absent
    by_cases same : other = key
    · simp [same, absent]
    · simp [same]

theorem samePlace_discarded : context.SamePlace (context.discarded key) := by
  unfold discarded
  split
  · exact ⟨rfl, rfl, rfl, rfl, rfl⟩
  · exact .refl context

/-- The context without the run states of some nodes, and without what they held. -/
def discardedAll (context : Context σ) (keys : List RunKey) : Context σ :=
  keys.foldl discarded context

variable {keys : List RunKey}

theorem get?_discardedAll :
    (context.discardedAll keys).runs.get? other =
      if other ∈ keys then none else context.runs.get? other := by
  unfold discardedAll
  induction keys generalizing context with
  | nil => simp
  | cons first rest ih =>
    rw [List.foldl_cons, ih, get?_discarded]
    by_cases listed : other ∈ rest <;> by_cases same : other = first <;> simp [listed, same]

theorem samePlace_discardedAll : context.SamePlace (context.discardedAll keys) := by
  unfold discardedAll
  induction keys generalizing context with
  | nil => exact .refl context
  | cons first rest ih => exact samePlace_discarded.trans ih

/-- Everything in the subtrees of some nodes is discarded, and nothing else. -/
def Halts (tree : Tree) (context : Context σ) (roots : List RunKey) (after : Context σ) : Prop :=
  ∃ keys, after = context.discardedAll keys ∧
    ∀ key, key ∈ keys ↔ ∃ root ∈ roots, tree.Reaches context.runs root key

theorem Halts.nil (tree : Tree) (context : Context σ) : context.Halts tree [] context :=
  ⟨[], rfl, by simp⟩

theorem Halts.cons {tree : Tree} {root : RunKey} {roots : List RunKey}
    {middle after : Context σ} (first : context.Halts tree [root] middle)
    (rest : middle.Halts tree roots after) : context.Halts tree (root :: roots) after := by
  rcases first with ⟨keys, rfl, reached⟩
  rcases rest with ⟨more, rfl, reachedMore⟩
  refine ⟨keys ++ more, by simp [discardedAll], ?_⟩
  intro key
  rw [List.mem_append, reached, reachedMore]
  simp [samePlace_discardedAll.reaches_iff]

/-- The subtree of a node is the node itself and the subtrees of what it invokes. -/
theorem Halts.of_discarded {tree : Tree} {roots : List RunKey} {after : Context σ}
    (invoked : ∀ lower, lower ∈ roots ↔ tree.Invokes context.runs key lower)
    (halts : (context.discarded key).Halts tree roots after) : context.Halts tree [key] after := by
  rcases halts with ⟨keys, rfl, reached⟩
  refine ⟨key :: keys, rfl, ?_⟩
  intro other
  simp only [List.mem_cons, reached, samePlace_discarded.reaches_iff, invoked,
    List.not_mem_nil, or_false, exists_eq_left]
  constructor
  · rintro (rfl | ⟨lower, invokes, reaches⟩)
    · exact .refl _
    · exact .head invokes reaches
  · intro reaches
    rcases Relation.ReflTransGen.cases_head reaches with same | ⟨lower, invokes, reaches⟩
    · exact Or.inl same.symm
    · exact Or.inr ⟨lower, invokes, reaches⟩

end Context

namespace Tree

variable {tree : Tree} {key : RunKey} {node : Node}

theorem invokes_iff_of_ordinary (found : tree.node? key.node = some node)
    (ordinary : ∀ target, node.configuration ≠ some (.reference target)) (runs : RunStore)
    (lower : RunKey) :
    tree.Invokes runs key lower ↔ ∃ child ∈ node.children, lower = key.sibling child := by
  constructor
  · intro invokes
    cases invokes with
    | child found' listed =>
      rw [found, Option.some.injEq] at found'
      subst found'
      exact ⟨_, listed, rfl⟩
    | target found' configured framed known =>
      rw [found, Option.some.injEq] at found'
      subst found'
      exact absurd configured (ordinary _)
  · rintro ⟨child, listed, rfl⟩
    exact .child found listed

/-- A reference invokes the root of its target, if it has a frame. -/
theorem invokes_iff_of_reference (fits : node.Fits) {target : String} {root : NodeIndex}
    (found : tree.node? key.node = some node)
    (configured : node.configuration = some (.reference target))
    (known : tree.lookup target = some root) (runs : RunStore) (lower : RunKey) :
    tree.Invokes runs key lower ↔
      ∃ frame, runs.frame? key = some frame ∧ lower = ⟨frame, root⟩ := by
  constructor
  · intro invokes
    cases invokes with
    | child found' listed =>
      rw [found, Option.some.injEq] at found'
      subst found'
      simp [fits.childless_of_reference configured] at listed
    | target found' configured' framed known' =>
      rw [found, Option.some.injEq] at found'
      subst found'
      rw [configured] at configured'
      cases configured'
      rw [known] at known'
      cases known'
      exact ⟨_, framed, rfl⟩
  · rintro ⟨frame, framed, rfl⟩
    exact .target found configured framed known

end Tree

variable {σ : Type} [RemoteService σ] {tree : Tree} {rank : NodeIndex → Nat}

/-- Nodes are halted one after the other, if each of them can be halted. -/
theorem ends_forM_halt {depth : Nat} {key : RunKey} (nodes : List NodeIndex)
    (halts : ∀ node ∈ nodes, ∀ context : Context σ,
      Ends (haltWithin tree depth (key.sibling node)) context
        (fun _ after => context.Halts tree [key.sibling node] after) fun _ _ => False)
    (context : Context σ) :
    Ends (nodes.forM fun node => haltWithin tree depth (key.sibling node)) context
      (fun _ after => context.Halts tree (nodes.map key.sibling) after) fun _ _ => False := by
  induction nodes generalizing context with
  | nil => exact .nil tree context
  | cons node rest ih =>
    rw [List.forM, ends_bind]
    refine (halts node List.mem_cons_self context).mono ?_ fun _ _ impossible => impossible
    intro _ middle first
    refine (ih (fun other listed => halts other (List.mem_cons_of_mem _ listed)) middle).mono ?_
      fun _ _ impossible => impossible
    exact fun _ after others => first.cons others

/-- A node is halted with everything in it, if there is room for everything that is nested. -/
theorem ends_haltWithin (wellFormed : tree.WellFormed) (ranking : tree.Ranking rank) {depth : Nat}
    {key : RunKey} (isNode : (tree.node? key.node).isSome) (shallow : rank key.node < depth)
    (context : Context σ) :
    Ends (haltWithin tree depth key) context
      (fun _ after => context.Halts tree [key] after) fun _ _ => False := by
  induction depth generalizing key context with
  | zero => exact absurd shallow (Nat.not_lt_zero _)
  | succ depth ih =>
    rcases Option.isSome_iff_exists.1 isNode with ⟨node, found⟩
    have deeper : ∀ (lower : RunKey), tree.Leads key.node lower.node → ∀ context : Context σ,
        Ends (haltWithin tree depth lower) context
          (fun _ after => context.Halts tree [lower] after) fun _ _ => False := by
      intro lower leads
      have descends := ranking.descends _ _ leads
      exact ih (wellFormed.closed _ _ leads)
        (Nat.lt_of_lt_of_le descends (Nat.le_of_lt_succ shallow))
    have discarding : Ends (discard key) context
        (fun _ after => after = context.discarded key) fun _ _ => False := rfl
    unfold haltWithin
    simp only [found]
    rw [ends_bind]
    refine discarding.mono ?_ fun _ _ impossible => impossible
    rintro _ _ rfl
    split
    · rename_i target configured
      rcases wellFormed.resolved _ _ _ found configured with ⟨root, known⟩
      have invoked := Tree.invokes_iff_of_reference (wellFormed.fits _ _ found) found configured
        known context.runs
      have sameFrame : (context.discarded key).runs.frame? key = context.runs.frame? key := by
        simp [RunStore.frame?, Context.samePlace_discarded.frames]
      rw [ends_bind, ends_get, sameFrame]
      cases framed : context.runs.frame? key with
      | none =>
        refine Context.Halts.of_discarded ?_ (.nil tree _)
        simp [invoked, framed]
      | some frame =>
        simp only [known]
        refine (deeper ⟨frame, root⟩ (.target found configured known) _).mono ?_
          fun _ _ impossible => impossible
        intro _ after halted
        refine Context.Halts.of_discarded ?_ halted
        simp [invoked, framed]
    · rename_i ordinary
      have invoked := Tree.invokes_iff_of_ordinary found ordinary context.runs
      refine (ends_forM_halt node.children
        (fun child listed => deeper (key.sibling child) (.child found listed)) _).mono ?_
        fun _ _ impossible => impossible
      intro _ after halted
      refine Context.Halts.of_discarded ?_ halted
      intro lower
      simp [invoked, eq_comm]

theorem ends_halt (wellFormed : tree.WellFormed) {key : RunKey}
    (isNode : (tree.node? key.node).isSome) (context : Context σ) :
    Ends (halt tree key) context
      (fun _ after => context.Halts tree [key] after) fun _ _ => False := by
  rcases wellFormed.ranked with ⟨rank, ranking⟩
  exact ends_haltWithin wellFormed ranking isNode
    (Nat.lt_succ_of_lt (ranking.bounded _ isNode)) context

end BehaviorTree
