import BehaviorTree.Proofs.Engine.Tick

/-!
# Activity of nodes

A node is active if it has a run state, and it is live below another one if that one goes on with
it, by way of nodes that go on with one another. A tick sweeps the subtree of its node: whatever is
active afterwards ran together with everything on the way to it, or the tick did not touch it and it
is not live below the node. So if everything that was active was live below the node that is
ticked, everything that is active afterwards ran in this very tick.
-/

namespace BehaviorTree

/-- A node goes on with another one, directly or by way of others. -/
def Tree.Live (tree : Tree) (runs : RunStore) : RunKey → RunKey → Prop :=
  Relation.ReflTransGen (tree.GoesOn runs)

variable {σ : Type} {tree : Tree} {rank : NodeIndex → Nat} {runs before middle after : RunStore}
  {key upper lower : RunKey}

theorem Tree.Live.reaches (live : tree.Live runs upper lower) : tree.Reaches runs upper lower :=
  Relation.ReflTransGen.mono (fun _ _ goesOn => goesOn.invokes) upper lower live

/-- What a node goes on with depends on its own run state and frame only. -/
theorem Tree.GoesOn.congr (goesOn : tree.GoesOn before upper lower)
    (sameState : after.get? upper = before.get? upper)
    (sameFrame : after.frame? upper = before.frame? upper) : tree.GoesOn after upper lower := by
  cases goesOn with
  | child found placed current => exact .child found placed (sameState ▸ current)
  | target found configured framed known =>
    exact .target found configured (sameFrame.trans framed) known

/-- Outside of a part of the nodes nothing changes, so what is live does not either, if it does not
in that part. -/
theorem Tree.Live.transfer {part : RunKey → Prop}
    (same : ∀ other, ¬ part other →
      after.get? other = before.get? other ∧ after.frame? other = before.frame? other)
    (inPart : ∀ other, part other → tree.Live before other lower → tree.Live after other lower)
    (live : tree.Live before upper lower) : tree.Live after upper lower := by
  induction live using Relation.ReflTransGen.head_induction_on with
  | refl => exact .refl
  | @head upper next goesOn rest ih =>
    by_cases here : part upper
    · exact inPart upper here (.head goesOn rest)
    · exact .head (goesOn.congr (same upper here).1 (same upper here).2) ih

/-- What is live below a node depends on nodes of at most its rank. -/
theorem Tree.Live.transfer_below (ranking : tree.Ranking rank) {bound : Nat}
    (same : ∀ other, rank other.node < bound →
      after.get? other = before.get? other ∧ after.frame? other = before.frame? other)
    (below : rank upper.node < bound) (live : tree.Live before upper lower) :
    tree.Live after upper lower := by
  induction live using Relation.ReflTransGen.head_induction_on with
  | refl => exact .refl
  | @head upper next goesOn rest ih =>
    have descends := ranking.descends _ _ goesOn.invokes.leads
    exact .head (goesOn.congr (same upper below).1 (same upper below).2)
      (ih (Nat.lt_trans descends below))

/-- A node is active as before, and live below the same nodes. -/
structure Undisturbed (tree : Tree) (before after : RunStore) (key : RunKey) : Prop where
  active : before.isActive key = true
  live : ∀ upper, tree.Live before upper key ↔ tree.Live after upper key

theorem RunStore.isActive_congr (same : after.get? key = before.get? key) :
    after.isActive key = before.isActive key := by
  unfold RunStore.isActive Table.contains
  exact congrArg Option.isSome same

theorem RunStore.isActive_eq_false_iff : runs.isActive key = false ↔ runs.get? key = none := by
  unfold RunStore.isActive Table.contains RunStore.get?
  simp

namespace Context

variable {context later inner : Context σ} {top : RunKey}

def Ran (context : Context σ) (key : RunKey) : Prop := ⟨key, .running, none⟩ ∈ context.visits

/-- A node ran, and so did everything on the way on which it was invoked. -/
inductive RunsThrough (tree : Tree) (context : Context σ) (top : RunKey) : RunKey → Prop where
  | first (ran : context.Ran top) : RunsThrough tree context top top
  | next {upper lower : RunKey} (above : RunsThrough tree context top upper)
      (invokes : tree.Invokes context.runs upper lower) (ran : context.Ran lower) :
      RunsThrough tree context top lower

theorem RunsThrough.mono (through : context.RunsThrough tree top key)
    (framesIn : context.runs.FramesIn later.runs) (visits : context.visits <:+ later.visits) :
    later.RunsThrough tree top key := by
  induction through with
  | first ran => exact .first (visits.subset ran)
  | next _ invokes ran ih => exact .next ih (invokes.mono framesIn) (visits.subset ran)

theorem RunsThrough.head (ran : context.Ran upper) (invokes : tree.Invokes context.runs upper top)
    (through : context.RunsThrough tree top key) : context.RunsThrough tree upper key := by
  induction through with
  | first ranTop => exact .next (.first ran) invokes ranTop
  | next _ invoked ranBelow ih => exact .next ih invoked ranBelow

/-- What a tick of a node leaves of what is active: it ran below the node, or it was not touched. -/
def Swept (tree : Tree) (key : RunKey) (status : Status) (before after : Context σ) : Prop :=
  ∀ other, after.runs.isActive other = true →
    (status = .running ∧ tree.Live after.runs key other ∧ after.RunsThrough tree key other) ∨
      (Undisturbed tree before.runs after.runs other ∧ ¬ tree.Live after.runs key other)

/-- What a course of a node leaves of what is active besides the node: it ran below something that
is running, or it was not touched and is not live below anything that was dealt with. -/
def Sweeps (tree : Tree) (rank : NodeIndex → Nat) (key : RunKey) (seen running : List RunKey)
    (before after : Context σ) : Prop :=
  ∀ other, after.runs.isActive other = true → other ≠ key →
    (∃ target ∈ running, tree.Live after.runs target other ∧ after.RunsThrough tree target other) ∨
      (before.runs.isActive other = true ∧
        (∀ upper, rank upper.node < rank key.node →
          (tree.Live before.runs upper other ↔ tree.Live after.runs upper other)) ∧
        ∀ target ∈ seen, ¬ tree.Live after.runs target other)

variable {seen running : List RunKey} {start : Context σ} {target : RunKey}

/-- A step that concerns the node itself matters for nothing that the node invokes. -/
theorem Sweeps.of_own_step (sweeps : Sweeps tree rank key seen running start context)
    (ranking : tree.Ranking rank) (lower : ∀ target ∈ seen, rank target.node < rank key.node)
    (ticked : ∀ target ∈ running, target ∈ seen) (outside : context.Outside tree key later)
    (states : ∀ other, other ≠ key → later.runs.get? other = context.runs.get? other)
    (frames : ∀ other, other ≠ key → later.runs.frame? other = context.runs.frame? other) :
    Sweeps tree rank key seen running start later := by
  -- Nodes of lower ranks are as before, so that the same is live below them.
  have same : ∀ other, rank other.node < rank key.node →
      later.runs.get? other = context.runs.get? other ∧
        later.runs.frame? other = context.runs.frame? other := by
    intro other below
    have different : other ≠ key := by
      rintro rfl
      exact Nat.lt_irrefl _ below
    exact ⟨states other different, frames other different⟩
  have back : ∀ other, rank other.node < rank key.node →
      context.runs.get? other = later.runs.get? other ∧
        context.runs.frame? other = later.runs.frame? other :=
    fun other below => ⟨(same other below).1.symm, (same other below).2.symm⟩
  intro other active different
  rw [RunStore.isActive_congr (states other different)] at active
  rcases sweeps other active different with ⟨target, isRunning, live, through⟩ | ⟨was, kept, off⟩
  · have below := lower target (ticked target isRunning)
    exact Or.inl ⟨target, isRunning, live.transfer_below ranking same below,
      through.mono outside.framesIn outside.visits⟩
  · refine Or.inr ⟨was, ?_, ?_⟩
    · intro upper below
      rw [kept upper below]
      exact ⟨fun live => live.transfer_below ranking same below,
        fun live => live.transfer_below ranking back below⟩
    · intro target isSeen live
      exact off target isSeen (live.transfer_below ranking back (lower target isSeen))

/-- Something is dealt with that the node invokes: what is active afterwards ran below it, or it was
active before and is still live below the same nodes. -/
theorem Sweeps.of_deeper_step (sweeps : Sweeps tree rank key seen running start context)
    (lower : ∀ target ∈ seen, rank target.node < rank key.node)
    (ticked : ∀ target ∈ running, target ∈ seen) (outside : context.Outside tree key later)
    (status : Status)
    (swept : ∀ other, later.runs.isActive other = true → other ≠ key →
      (status = .running ∧ tree.Live later.runs target other ∧
          later.RunsThrough tree target other) ∨
        (context.runs.isActive other = true ∧
          (∀ upper, rank upper.node < rank key.node →
            (tree.Live context.runs upper other ↔ tree.Live later.runs upper other)) ∧
          ¬ tree.Live later.runs target other)) :
    Sweeps tree rank key (target :: seen)
      (if status = .running then target :: running else running) start later := by
  intro other active different
  rcases swept other active different with ⟨isRunning, live, through⟩ | ⟨was, kept, off⟩
  · refine Or.inl ⟨target, ?_, live, through⟩
    rw [if_pos isRunning]
    exact List.mem_cons_self
  · rcases sweeps other was different with ⟨former, isRunning, live, through⟩ | ⟨first, same, out⟩
    · refine Or.inl ⟨former, ?_, ?_, through.mono outside.framesIn outside.visits⟩
      · split
        · exact List.mem_cons_of_mem _ isRunning
        · exact isRunning
      · exact (kept former (lower former (ticked former isRunning))).1 live
    · refine Or.inr ⟨first, fun upper below => (same upper below).trans (kept upper below), ?_⟩
      intro former isSeen live
      rcases List.mem_cons.1 isSeen with rfl | isSeen
      · exact off live
      · exact out former isSeen ((kept former (lower former isSeen)).2 live)

/-- If nothing in the subtree of a node is active, what is active elsewhere is not disturbed. -/
theorem Outside.undisturbed (outside : context.Outside tree top later)
    (cleared : ∀ lower, tree.Reaches later.runs top lower → later.runs.get? lower = none)
    {other : RunKey} (active : later.runs.isActive other = true) :
    Undisturbed tree context.runs later.runs other ∧ ¬ tree.Live later.runs top other := by
  have elsewhere : ¬ tree.Reaches later.runs top other := by
    intro reaches
    rw [RunStore.isActive_eq_false_iff.2 (cleared other reaches)] at active
    cases active
  refine ⟨⟨?_, ?_⟩, fun live => elsewhere live.reaches⟩
  · rwa [← RunStore.isActive_congr (outside.states other elsewhere)]
  · intro upper
    constructor
    · apply Tree.Live.transfer fun inner apart =>
        ⟨outside.states inner apart, outside.frames inner apart⟩
      intro inner inside live
      exact absurd (inside.trans (live.reaches.mono outside.framesIn)) elsewhere
    · apply Tree.Live.transfer fun inner apart =>
        ⟨(outside.states inner apart).symm, (outside.frames inner apart).symm⟩
      exact fun inner inside live => absurd (inside.trans live.reaches) elsewhere

end Context

variable [RemoteService σ] {now : Duration} {run : NodeIndex → Tick σ Status} {node : Node}
  {seen running : List RunKey} {start context : Context σ}

def KeepsSwept (tree : Tree) (key : RunKey) (run : NodeIndex → Tick σ Status) : Prop :=
  ∀ (target : RunKey) (context : Context σ), tree.Leads key.node target.node →
    context.frame = target.frame → context.runs.Fits tree →
    Ends (run target.node) context
      (fun status after => Context.Swept tree target status context after) fun _ _ => True

/-- What a node dealt with on its course has a lower rank. -/
theorem Course.rank_lt (course : Course tree now run key node start seen running context)
    (found : tree.node? key.node = some node) (ranking : tree.Ranking rank) :
    ∀ target ∈ seen, rank target.node < rank key.node :=
  fun target isSeen => ranking.descends _ _ ((course.invokes found).1 target isSeen).leads

/-- Something that the node of a course invokes is ticked. -/
theorem Context.Sweeps.ticked {inner after : Context σ} {target : RunKey} {status : Status}
    (sweeps : Context.Sweeps tree rank key seen running start context)
    (course : Course tree now run key node start seen running context)
    (found : tree.node? key.node = some node) (ranking : tree.Ranking rank)
    (enters : context.Enters tree key node target inner)
    (outside : inner.Outside tree target after)
    (swept : Context.Swept tree target status inner after) :
    Context.Sweeps tree rank key (target :: seen)
      (if status = .running then target :: running else running) start (after.leave context) := by
  have entered : ∀ other, rank other.node < rank key.node →
      inner.runs.get? other = context.runs.get? other ∧
        inner.runs.frame? other = context.runs.frame? other := by
    intro other below
    refine ⟨enters.get? other, enters.frame?_of_ne ?_⟩
    rintro rfl
    exact Nat.lt_irrefl _ below
  refine sweeps.of_deeper_step (course.rank_lt found ranking) (course.invokes found).2
    (enters.outside found outside) status ?_
  intro other active different
  rcases swept other active with ⟨isRunning, live, through⟩ | ⟨undisturbed, off⟩
  · exact Or.inl ⟨isRunning, live, through.mono (.refl _) (List.suffix_refl _)⟩
  · refine Or.inr ⟨?_, ?_, off⟩
    · rw [← RunStore.isActive_congr (enters.get? other)]
      exact undisturbed.active
    · intro upper below
      refine Iff.trans ?_ (undisturbed.live upper)
      exact ⟨fun live => live.transfer_below ranking entered below,
        fun live => live.transfer_below ranking
          (fun inner below => ⟨(entered inner below).1.symm, (entered inner below).2.symm⟩) below⟩

/-- A child of the node of a course is halted. -/
theorem Context.Sweeps.halted {after : Context σ} {child : NodeIndex}
    (sweeps : Context.Sweeps tree rank key seen running start context)
    (course : Course tree now run key node start seen running context)
    (found : tree.node? key.node = some node) (ranking : tree.Ranking rank)
    (listed : child ∈ node.children) (halts : context.Halts tree [key.sibling child] after) :
    Context.Sweeps tree rank key (key.sibling child :: seen) running start after := by
  have reaches : tree.Reaches after.runs key (key.sibling child) :=
    (Tree.Invokes.child found listed).reaches
  refine sweeps.of_deeper_step (course.rank_lt found ranking) (course.invokes found).2
    (halts.outside.up reaches) .success ?_
  intro other active different
  have undisturbed := halts.outside.undisturbed (fun lower => halts.cleared) active
  exact Or.inr ⟨undisturbed.1.active, fun upper _ => undisturbed.1.live upper, undisturbed.2⟩

theorem Course.sweeps (course : Course tree now run key node start seen running context)
    (found : tree.node? key.node = some node) (ranking : tree.Ranking rank)
    (atKey : start.frame = key.frame) (fits : start.runs.Fits tree)
    (keeps : KeepsSwept tree key run) :
    Context.Sweeps tree rank key seen running start context := by
  -- Most steps only concern what the node itself remembers.
  have own : ∀ {seen running : List RunKey} {context later : Context σ},
      Course tree now run key node start seen running context →
      Context.Sweeps tree rank key seen running start context →
      context.Outside tree key later →
      (∀ other, other ≠ key → later.runs.get? other = context.runs.get? other) →
      later.runs.frames = context.runs.frames →
      Context.Sweeps tree rank key seen running start later := by
    intro seen running context later course ih outside states frames
    refine ih.of_own_step ranking (course.rank_lt found ranking) (course.invokes found).2 outside
      states ?_
    intro other _
    simp [RunStore.frame?, frames]
  induction course with
  | start =>
    intro other active different
    exact Or.inr ⟨active, fun _ _ => Iff.rfl, by simp⟩
  | wrote course _ ih | noted course ih =>
    exact own course ih (.of_samePlace ⟨rfl, rfl, rfl, rfl, rfl⟩ fun _ _ => rfl)
      (fun _ _ => rfl) rfl
  | remembered course _ _ ih =>
    refine own course ih .of_setRun ?_ rfl
    intro other different
    rw [Context.get?_setRun, if_neg different]
  | @opened _ _ context scope blackboard course _ _ _ ih =>
    have states : ∀ other, other ≠ key →
        ({ context with blackboard := blackboard }.setRun key (.scope scope)).runs.get? other =
          context.runs.get? other := by
      intro other different
      rw [Context.get?_setRun, if_neg different]
    exact own course ih (.of_samePlace ⟨rfl, rfl, rfl, rfl, rfl⟩ states) states rfl
  | @ticked _ _ context inner _ _ _ course enters ran outside _ ih =>
    have framed := (course.outside found).frame.trans atKey
    have fitsInner : inner.runs.Fits tree := by
      intro other state remembered
      rw [enters.get?] at remembered
      exact course.fits found fits other state remembered
    have swept := keeps _ _ (enters.invokes found).leads (enters.frame framed) fitsInner
    unfold Ends at swept
    rw [ran] at swept
    exact ih.ticked course found ranking enters outside swept
  | halted course listed halts ih => exact ih.halted course found ranking listed halts
  | served course _ serves ih =>
    exact own course ih serves.outside serves.elsewhere serves.place.frames

omit [RemoteService σ] in
/-- What a node does not go on with at the end of its course, although it is running, was not live
below it at the start either. -/
theorem Settled.undisturbed (settled : Settled tree key start.runs seen running context.runs)
    (ranking : tree.Ranking rank) (outside : start.Outside tree key context) {other : RunKey}
    (different : other ≠ key) (active : start.runs.isActive other = true)
    (same : ∀ upper, rank upper.node < rank key.node →
      (tree.Live start.runs upper other ↔ tree.Live context.runs upper other))
    (off : ∀ target ∈ seen, ¬ tree.Live context.runs target other) :
    Undisturbed tree start.runs context.runs other ∧ ¬ tree.Live context.runs key other := by
  have offAfter : ¬ tree.Live context.runs key other := by
    intro live
    rcases Relation.ReflTransGen.cases_head live with here | ⟨target, goesOn, rest⟩
    · exact different here.symm
    · exact off target (settled.later target goesOn) rest
  have offBefore : ¬ tree.Live start.runs key other := by
    intro live
    rcases Relation.ReflTransGen.cases_head live with here | ⟨target, goesOn, rest⟩
    · exact different here.symm
    · have below := ranking.descends _ _ goesOn.invokes.leads
      exact off target (settled.earlier target goesOn) ((same target below).1 rest)
  have inside : ∀ upper, tree.Reaches context.runs key upper →
      (tree.Live start.runs upper other ↔ tree.Live context.runs upper other) := by
    intro upper reaches
    rcases reaches.eq_or_below with rfl | below
    · exact iff_of_false offBefore offAfter
    · exact same upper (below.rank_lt ranking)
  refine ⟨⟨active, fun upper => ⟨?_, ?_⟩⟩, offAfter⟩
  · exact Tree.Live.transfer
      (fun inner apart => ⟨outside.states inner apart, outside.frames inner apart⟩)
      fun inner reaches => (inside inner reaches).1
  · exact Tree.Live.transfer
      (fun inner apart => ⟨(outside.states inner apart).symm, (outside.frames inner apart).symm⟩)
      fun inner reaches => (inside inner reaches).2

theorem Concludes.swept {status : Status} {after : Context σ}
    (concludes : Concludes tree now run key node start status after)
    (found : tree.node? key.node = some node) (ranking : tree.Ranking rank)
    (atKey : start.frame = key.frame) (fits : start.runs.Fits tree)
    (keeps : KeepsSwept tree key run) : Context.Swept tree key status start after := by
  have outside := concludes.outside found
  intro other active
  cases concludes with
  | @running seen running context innermost course settled =>
    have visits : context.visits <:+ ⟨key, .running, none⟩ :: context.visits :=
      List.suffix_cons _ _
    by_cases here : other = key
    · rw [here]
      exact Or.inl ⟨rfl, .refl, .first List.mem_cons_self⟩
    · have sweeps := course.sweeps found ranking atKey fits keeps
      rcases sweeps other active here with ⟨target, isRunning, live, through⟩ | ⟨was, same, off⟩
      · have goesOn := settled.ongoing target isRunning
        have noted : Context.RunsThrough tree
            { context.visit ⟨key, .running, none⟩ with innermost := innermost } target other :=
          through.mono (.refl _) visits
        refine Or.inl ⟨rfl, .head goesOn live, ?_⟩
        exact noted.head List.mem_cons_self goesOn.invokes
      · exact Or.inr (settled.undisturbed ranking (course.outside found) here was same off)
  | ended course ended caused halts =>
    exact Or.inr (outside.undisturbed (fun lower => halts.cleared) active)

variable {setting : Setting}

theorem ends_tickWithin_swept (wellFormed : setting.tree.WellFormed) {depth : Nat}
    (isNode : (setting.tree.node? key.node).isSome) (atKey : start.frame = key.frame)
    (fits : start.runs.Fits setting.tree) :
    Ends (tickWithin setting depth key.node) start
      (fun status after => Context.Swept setting.tree key status start after)
      fun _ _ => True := by
  induction depth generalizing key start with
  | zero => trivial
  | succ depth ih =>
    rcases Option.isSome_iff_exists.1 isNode with ⟨node, found⟩
    rcases wellFormed.ranked with ⟨rank, ranking⟩
    have keeps : KeepsSwept setting.tree key (tickWithin (σ := σ) setting depth) :=
      fun target context leads => ih (wellFormed.closed _ _ leads)
    have turn : Turn setting (tickWithin setting depth) key node start :=
      ⟨behaves_tickWithin wellFormed depth, wellFormed, found, atKey, fits⟩
    refine turn.ends_tickWithin.mono ?_ fun _ _ _ => trivial
    exact fun status after concludes => concludes.swept found ranking atKey fits keeps

/-- After a tick of a node that is over nothing in its subtree is active, whatever was before. -/
theorem ends_tickWithin_cleared (wellFormed : setting.tree.WellFormed) (depth : Nat)
    (index : NodeIndex) (start : Context σ) :
    Ends (tickWithin setting depth index) start
      (fun status after => status ≠ .running → ∀ lower,
        setting.tree.Reaches after.runs ⟨start.frame, index⟩ lower →
          after.runs.isActive lower = false)
      fun _ _ => True := by
  cases depth with
  | zero => trivial
  | succ depth =>
    unfold tickWithin
    cases found : setting.tree.node? index with
    | none => trivial
    | some node =>
      rw [ends_bind, ends_get]
      refine ends_true.bind ?_
      intro status noted _
      rw [ends_bind]
      unfold concludeNode
      split
      · rename_i isRunning
        exact fun isOver => absurd isRunning isOver
      · have isNode : (setting.tree.node? index).isSome := by rw [found]; rfl
        refine (ends_halt wellFormed isNode noted).mono ?_ fun _ _ _ => trivial
        intro _ after halts _ lower reaches
        exact RunStore.isActive_eq_false_iff.2 (halts.cleared reaches)

variable (key) in
/-- If everything that is active is live below a node, then so is everything that is active after a
tick of the node, and it ran in this tick together with everything on the way to it. -/
theorem ends_tick_active (wellFormed : setting.tree.WellFormed)
    (isNode : (setting.tree.node? key.node).isSome) (atKey : start.frame = key.frame)
    (fits : start.runs.Fits setting.tree)
    (live : ∀ other, start.runs.isActive other = true → setting.tree.Live start.runs key other) :
    Ends (tick setting key.node) start
      (fun _ after => ∀ other, after.runs.isActive other = true →
        setting.tree.Live after.runs key other ∧ after.RunsThrough setting.tree key other)
      fun _ _ => True := by
  refine (ends_tickWithin_swept wellFormed isNode atKey fits).mono ?_ fun _ _ _ => trivial
  intro status after swept other active
  rcases swept other active with ⟨-, liveAfter, through⟩ | ⟨undisturbed, off⟩
  · exact ⟨liveAfter, through⟩
  · exact absurd ((undisturbed.live key).1 (live other undisturbed.active)) off

end BehaviorTree
