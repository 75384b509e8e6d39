import BehaviorTree.Proofs.Engine.Steady
import BehaviorTree.Proofs.Engine.TimeLimits

/-!
# The innermost running node

A node that is running at the end of its turn is noted as the innermost one, unless there is one
inside of it. So what is noted when the node itself is running stands at the end of a way down
through nodes that are all running, and nothing below it is remembered. A node that is over has not
let anything be noted: whatever it ticked was over as well, or the note was taken back.
-/

namespace BehaviorTree

variable {σ : Type} {tree : Tree} {rank : NodeIndex → Nat} {runs : RunStore}
  {key target top tip upper lower : RunKey} {node : Node} {child : NodeIndex} {status : Status}
  {start context before after inner : Context σ} {state : RunState}

/-- Nothing below a node is remembered, not even once more references have frames. -/
def Tree.Bare (tree : Tree) (runs : RunStore) (key : RunKey) : Prop :=
  ∀ lower, tree.MayReach runs key lower → lower ≠ key → runs.get? lower = none

theorem Tree.MayReach.rank_le (ranking : tree.Ranking rank)
    (reaches : tree.MayReach runs upper lower) : rank lower.node ≤ rank upper.node := by
  rcases reaches with ⟨later, -, -, way⟩
  exact way.rank_le ranking

/-- A node below which something may be invokes the first node on the way there. -/
theorem Tree.MayReach.exists_invokes (reaches : tree.MayReach runs upper lower)
    (different : lower ≠ upper) :
    ∃ later next, runs.FramesIn later ∧ later.Distinct ∧ tree.Invokes later upper next ∧
      tree.Reaches later next lower := by
  rcases reaches with ⟨later, framesIn, distinct, way⟩
  rcases Relation.ReflTransGen.cases_head way with same | ⟨next, invokes, rest⟩
  · exact absurd same.symm different
  · exact ⟨later, next, framesIn, distinct, invokes, rest⟩

/-- Frames that are given later do not lead to what is remembered. -/
theorem RunStore.Housed.get?_of_mayReach (housed : runs.Housed) (vacant : tree.Vacant runs upper)
    (reaches : tree.MayReach runs upper lower) : runs.get? lower = none := by
  rcases reaches with ⟨later, framesIn, distinct, way⟩
  cases remembered : runs.get? lower with
  | none => rfl
  | some state =>
    have knows := housed.states lower state remembered
    rw [vacant lower (housed.reaches_of_later framesIn distinct knows way)] at remembered
    cases remembered

/-- A node is bare if nothing is remembered in the subtrees of its children. -/
theorem RunStore.Housed.bare (housed : runs.Housed) (found : tree.node? key.node = some node)
    (ordinary : ∀ target, node.configuration ≠ some (.reference target))
    (vacant : ∀ child ∈ node.children, tree.Vacant runs (key.sibling child)) :
    tree.Bare runs key := by
  intro lower reaches different
  rcases reaches.exists_invokes different with ⟨later, next, framesIn, distinct, invokes, rest⟩
  rcases (Tree.invokes_iff_of_ordinary found ordinary later next).1 invokes with
    ⟨child, listed, rfl⟩
  exact housed.get?_of_mayReach (vacant child listed) ⟨later, framesIn, distinct, rest⟩

namespace Context

theorem RunsThrough.reaches (through : context.RunsThrough tree top tip) :
    tree.Reaches context.runs top tip := by
  induction through with
  | first => exact .refl _
  | next _ invokes _ ih => exact ih.trans invokes.reaches

/-- A node ran with everything on the way to it, and nothing below it is remembered. -/
structure Tips (tree : Tree) (context : Context σ) (top tip : RunKey) : Prop where
  through : context.RunsThrough tree top tip
  bare : tree.Bare context.runs tip

theorem Tips.later (tips : before.Tips tree top tip) (framesIn : before.runs.FramesIn after.runs)
    (visits : before.visits <:+ after.visits)
    (quiet : ∀ lower, tree.MayReach after.runs tip lower → before.runs.get? lower = none →
      after.runs.get? lower = none) : after.Tips tree top tip := by
  refine ⟨tips.through.mono framesIn visits, fun lower reaches different => ?_⟩
  exact quiet lower reaches (tips.bare lower (reaches.of_framesIn framesIn) different)

theorem Tips.receded (tips : before.Tips tree top tip) (recedes : before.Recedes after) :
    after.Tips tree top tip :=
  tips.later (.of_eq recedes.frames) (recedes.visits ▸ List.suffix_refl _) fun lower _ =>
    recedes.states lower

/-- What a node remembers is not below anything that it invokes. -/
theorem Tips.remembered (tips : context.Tips tree target tip) (ranking : tree.Ranking rank)
    (invokes : tree.Invokes context.runs key target) :
    (context.setRun key state).Tips tree target tip := by
  refine tips.later (.refl _) (List.suffix_refl _) fun lower reaches none => ?_
  have below := ranking.descends _ _ invokes.leads
  have inside := tips.through.reaches.rank_le ranking
  have deeper := reaches.rank_le ranking
  have different : lower ≠ key := by
    rintro rfl
    omega
  rw [Context.get?_setRun, if_neg different, none]

/-- What a tick of a node notes as the innermost running node. -/
inductive Points (tree : Tree) (key : RunKey) (before : Context σ) : Status → Context σ → Prop where
  | ended {status : Status} {after : Context σ} (isOver : status ≠ .running)
      (same : before.SameInnermost after) : Points tree key before status after
  | running {after : Context σ} {tip : RunKey} (tips : after.Tips tree key tip)
      (noted : after.innermost = before.innermost.or (some tip)) :
      Points tree key before .running after

/-- What the course of a node leaves for the note of the innermost running node: the node itself is
the one, or one in something that it invokes was noted. -/
inductive Foremost (tree : Tree) (key : RunKey) (start : Context σ) :
    Status → Context σ → Prop where
  | ended {status : Status} {last : Context σ} (isOver : status ≠ .running)
      (same : start.SameInnermost last) : Foremost tree key start status last
  | here {last : Context σ} (same : start.SameInnermost last)
      (bare : tree.Bare last.runs key) : Foremost tree key start .running last
  | below {last : Context σ} {target tip : RunKey}
      (invokes : tree.Invokes last.runs key target) (tips : last.Tips tree target tip)
      (noted : last.innermost = start.innermost.or (some tip)) :
      Foremost tree key start .running last

/-- A node that has no status of its own has not let anything be noted. -/
def Calm (start : Context σ) (fault : Fault) (last : Context σ) : Prop :=
  ∀ cause, fault = .node cause → start.SameInnermost last

theorem Calm.of_aborts {fault : Fault} (aborts : Aborts fault after) : start.Calm fault after := by
  rcases aborts with ⟨failure, rfl⟩
  rintro cause ⟨⟩

theorem calm_of_aborts {α : Type} {action : Attempt σ α} {done : α → Context σ → Prop}
    (ends : Ends action context done Aborts) : Ends action context done start.Calm :=
  ends.mono (fun _ _ => id) fun _ _ => .of_aborts

theorem Foremost.of_points (points : before.Points tree target status after)
    (same : start.SameInnermost before) (invokes : tree.Invokes after.runs key target) :
    Foremost tree key start status after := by
  cases points with
  | ended isOver kept => exact .ended isOver (kept.trans same)
  | running tips noted => exact .below invokes tips (same ▸ noted)

/-- It does not matter where the engine is. -/
theorem Foremost.moved (foremost : Foremost tree key start status after) {scope : ScopeId}
    {frame : FrameId} {parameters : List (Table String Value)} :
    Foremost tree key start status
      { after with scope := scope, frame := frame, parameters := parameters } := by
  cases foremost with
  | ended isOver same => exact .ended isOver same
  | here same bare => exact .here same bare
  | below invokes tips noted =>
    exact .below invokes (tips.later (.refl _) (List.suffix_refl _) fun _ _ => id) noted

/-- A running node is noted unless one inside of it is. -/
theorem Foremost.concludes (foremost : Foremost tree key start .running context) :
    Points tree key start .running { context.visit ⟨key, .running, none⟩ with
      innermost := context.innermost.or (some key) } := by
  have ran : Ran { context.visit ⟨key, .running, none⟩ with
      innermost := context.innermost.or (some key) } key := List.mem_cons_self
  cases foremost with
  | ended isOver => exact absurd rfl isOver
  | here same bare => exact .running ⟨.first ran, bare⟩ (by rw [← same])
  | @below _ target tip invokes tips noted =>
    have noticed : Tips tree { context.visit ⟨key, .running, none⟩ with
        innermost := context.innermost.or (some key) } target tip :=
      tips.later (.refl _) (List.suffix_cons _ _) fun _ _ => id
    refine .running ⟨noticed.through.head ran invokes, noticed.bare⟩ ?_
    dsimp only
    rw [noted, Option.or_assoc, Option.some_or]

end Context

variable [RemoteService σ] {setting : Setting} {depth : Nat}

/-- Ticks of the nodes up to a rank note the innermost running node. -/
def Pointing (setting : Setting) (rank : NodeIndex → Nat) (σ : Type) [RemoteService σ]
    (depth : Nat) : Prop :=
  ∀ (target : RunKey) (context : Context σ), (setting.tree.node? target.node).isSome →
    rank target.node < depth → context.Ready setting.tree target →
    Ends (tickWithin setting depth target.node) context
      (context.Points setting.tree target) fun _ _ => True

namespace Standing

variable (stands : Standing setting depth key node) (ranking : setting.tree.Ranking rank)
  (shallow : rank key.node ≤ depth) (pointing : Pointing setting rank σ depth)
include stands ranking shallow pointing

theorem ends_entered_points (enters : context.Enters setting.tree key node target inner)
    (ready : inner.Ready setting.tree target) :
    Ends (liftM (tickWithin setting depth target.node : Tick σ Status) : Attempt σ Status) inner
      (inner.Points setting.tree target) Aborts := by
  have leads := (enters.invokes stands.found).leads
  rw [ends_monadLift]
  exact (pointing target inner (stands.wellFormed.closed _ _ leads)
    (Nat.lt_of_lt_of_le (ranking.descends _ _ leads) shallow) ready).mono (fun _ _ => id)
    fun failure _ _ => ⟨failure, rfl⟩

theorem ends_child_points (ready : before.Ready setting.tree key)
    (listed : child ∈ node.children) :
    Ends (liftM (tickWithin setting depth child : Tick σ Status) : Attempt σ Status) before
      (fun status after => before.TicksChild setting.tree key node child status after ∧
        before.Points setting.tree (key.sibling child) status after) Aborts := by
  have enters : before.Enters setting.tree key node (key.sibling child) before := .child listed
  have entered : before.Ready setting.tree (key.sibling child) :=
    ⟨ready.atKey, ready.sound, enters.anchored stands.found ready.anchored, ready.housed,
      ready.inside⟩
  refine ((stands.ends_child ready listed).and (stands.ends_entered_points ranking shallow pointing
    enters entered)).mono ?_ fun _ _ aborts => aborts.1
  exact fun status after ticked => ⟨ticked.1.1, ticked.2⟩

/-- A child is ticked last, and its status is that of the node. -/
theorem ends_child_foremost (ready : before.Ready setting.tree key)
    (listed : child ∈ node.children) (same : start.SameInnermost before) :
    Ends (liftM (tickWithin setting depth child : Tick σ Status) : Attempt σ Status) before
      (start.Foremost setting.tree key) start.Calm := by
  refine (stands.ends_child_points ranking shallow pointing ready listed).mono ?_
    fun _ _ => .of_aborts
  exact fun status after ticked => .of_points ticked.2 same (.child stands.found listed)

omit ranking shallow pointing in
theorem ends_handOver_recedes {previous : Option Nat} {position : Nat} :
    Ends (handOver setting.tree key node.children previous position) context
      (fun _ after => context.Recedes after) Aborts := by
  have wellFormed := stands.wellFormed
  have each : ∀ (children : List NodeIndex) (context : Context σ),
      Ends (children.forM (haltSibling setting.tree key)) context
        (fun _ after => context.Recedes after) Aborts := by
    intro children
    induction children with
    | nil => exact .refl
    | cons child rest ih =>
      intro context
      have halted := ((receding_haltWithin (σ := σ) setting.tree setting.tree.depthLimit
        (key.sibling child)).ends context).mono (fun _ _ => id)
        fun failure _ _ => (⟨failure, rfl⟩ : Aborts (.abort failure) context)
      rw [List.forM]
      refine (ends_attempt.2 halted).bind fun _ middle recedes => ?_
      exact (ih middle).mono (fun _ _ rest => recedes.trans rest) fun _ _ => id
  unfold handOver abandon
  split
  · split
    · split
      · exact each _ _
      · exact ⟨_, rfl⟩
    · exact .refl context
  · exact .refl context

theorem ends_tickFrom_foremost {previous : Option Nat} {stopOn otherwise : Status}
    (last : otherwise ≠ .running) {position : Nat} (rest : List NodeIndex)
    (listed : ∀ child ∈ rest, child ∈ node.children) (ready : context.Ready setting.tree key)
    (same : start.SameInnermost context) :
    Ends (tickFrom setting.tree (tickWithin setting depth) key node.children previous stopOn
      otherwise position rest) context (start.Foremost setting.tree key) start.Calm := by
  induction rest generalizing context position with
  | nil => exact .ended last same
  | cons child rest ih =>
    rw [List.forall_mem_cons] at listed
    have invokes : setting.tree.Invokes context.runs key (key.sibling child) :=
      .child stands.found listed.1
    unfold tickFrom
    refine (Context.calm_of_aborts
      (stands.ends_child_points ranking shallow pointing ready listed.1)).bind ?_
    rintro status middle ⟨ticked, points⟩
    cases points with
    | ended isOver kept =>
      rw [if_neg isOver]
      split
      · exact .ended isOver (kept.trans same)
      · exact ih listed.2 ticked.ready (kept.trans same)
    | running tips noted =>
      rw [if_pos rfl]
      refine (Context.calm_of_aborts stands.ends_handOver_recedes).bind ?_
      intro _ handed recedes
      have handedTips := tips.receded recedes
      have invokesHanded : setting.tree.Invokes handed.runs key (key.sibling child) :=
        .child stands.found listed.1
      exact .below (.child stands.found listed.1) (handedTips.remembered ranking invokesHanded)
        (recedes.innermost.trans (same ▸ noted))

theorem ends_tickChildren_foremost (ready : start.Ready setting.tree key) {always : Bool}
    {stopOn otherwise : Status} (last : otherwise ≠ .running) :
    Ends (tickChildren setting.tree (tickWithin setting depth) key node.children always stopOn
      otherwise) start (start.Foremost setting.tree key) start.Calm := by
  unfold tickChildren
  simp only [ends_bind, ends_runStateOf]
  exact stands.ends_tickFrom_foremost ranking shallow pointing last _
    (fun _ => List.mem_of_mem_drop) ready rfl

omit ranking shallow pointing [RemoteService σ] in
/-- A node that remembers something after its only child was over is the innermost one. -/
theorem foremost_of_cleared (ready : context.Ready setting.tree key)
    (only : node.children = [child]) (vacant : setting.tree.Vacant context.runs (key.sibling child))
    (same : start.SameInnermost context) :
    start.Foremost setting.tree key .running context := by
  refine .here same (ready.housed.bare stands.found ?_ ?_)
  · intro target configured
    have childless := (stands.wellFormed.fits _ _ stands.found).childless_of_reference configured
    rw [only] at childless
    cases childless
  · intro other listed
    rw [only, List.mem_singleton] at listed
    rwa [listed]

omit ranking shallow pointing [RemoteService σ] in
/-- A node starts its only child again: nothing is left of the child. -/
theorem ends_again_foremost {port : String} {value : Value} (ready : context.Ready setting.tree key)
    (only : node.children = [child]) (vacant : setting.tree.Vacant context.runs (key.sibling child))
    (same : start.SameInnermost context) (plain : state.IsPlain) (fits : state.Fits node) :
    Ends (do
      writeOutput setting key.node port value
      remember key state
      return .running) context (start.Foremost setting.tree key) start.Calm := by
  rcases stands.shallow with ⟨rank, ranking, -⟩
  refine (Context.calm_of_aborts (stands.ends_writeOutput ready)).bind ?_
  rintro _ written ⟨blackboard, rfl, readyWritten, -⟩
  refine (Context.calm_of_aborts (stands.ends_remember readyWritten plain fits)).bind ?_
  rintro _ _ ⟨rfl, readyAfter⟩
  exact stands.foremost_of_cleared readyAfter only
    (Context.vacant_setRun ranking stands.found (by simp [only]) vacant) same

omit shallow pointing [RemoteService σ] in
/-- A node waits for its child, which is running. -/
theorem ends_wait_foremost (ready : context.Ready setting.tree key) (listed : child ∈ node.children)
    (tips : context.Tips setting.tree (key.sibling child) tip)
    (noted : context.innermost = start.innermost.or (some tip)) (plain : state.IsPlain)
    (fits : state.Fits node) :
    Ends (do
      remember key state
      return .running) context (start.Foremost setting.tree key) start.Calm := by
  have invokes : setting.tree.Invokes context.runs key (key.sibling child) :=
    .child stands.found listed
  refine (Context.calm_of_aborts (stands.ends_remember ready plain fits)).bind ?_
  rintro _ _ ⟨rfl, -⟩
  exact .below (.child stands.found listed) (tips.remembered ranking invokes) noted

theorem ends_tickRepeater_foremost (kind : node.kind = .repeater)
    (ready : start.Ready setting.tree key) (only : node.children = [child]) {maxStarts : Int64} :
    Ends (tickRepeater setting (tickWithin setting depth) key child maxStarts) start
      (start.Foremost setting.tree key) start.Calm := by
  have listed : child ∈ node.children := by simp [only]
  have fits : ∀ count, (RunState.counter count).Fits node := fun _ => Or.inl kind
  have started : Ends (startsOf setting key) start
      (fun _ entry => entry.Ready setting.tree key ∧ start.SameInnermost entry) start.Calm := by
    unfold startsOf
    rw [ends_bind]
    refine Turn.ends_counted fun starts => ?_
    split
    · exact ⟨ready, rfl⟩
    · refine (Context.calm_of_aborts (stands.ends_writeOutput ready)).bind ?_
      rintro _ _ ⟨blackboard, rfl, readyEntry, -⟩
      exact ⟨readyEntry, rfl⟩
  unfold tickRepeater
  split
  · exact .ended (by decide) rfl
  · refine started.bind fun starts entry ⟨readyEntry, same⟩ => ?_
    refine (Context.calm_of_aborts
      (stands.ends_child_points ranking shallow pointing readyEntry listed)).bind ?_
    rintro reported last ⟨ticked, points⟩
    cases points with
    | ended isOver kept =>
      cases reported with
      | running => exact absurd rfl isOver
      | failure => exact .ended (by decide) (kept.trans same)
      | success =>
        dsimp only
        split
        · exact .ended (by decide) (kept.trans same)
        · exact stands.ends_again_foremost ticked.ready only (ticked.cleared isOver)
            (kept.trans same) trivial (fits _)
    | running tips noted =>
      exact stands.ends_wait_foremost ranking ticked.ready listed tips (same ▸ noted) trivial
        (fits _)

theorem ends_tickRetrier_foremost (kind : node.kind = .retrier)
    (ready : start.Ready setting.tree key) (only : node.children = [child]) {maxAttempts : Int64} :
    Ends (tickRetrier setting (tickWithin setting depth) key child maxAttempts) start
      (start.Foremost setting.tree key) start.Calm := by
  have listed : child ∈ node.children := by simp [only]
  have fits : ∀ count, (RunState.counter count).Fits node := fun _ => Or.inr kind
  unfold tickRetrier
  rw [ends_bind]
  refine Turn.ends_counted fun failures => ?_
  refine (Context.calm_of_aborts
    (stands.ends_child_points ranking shallow pointing ready listed)).bind ?_
  rintro reported last ⟨ticked, points⟩
  cases points with
  | ended isOver kept =>
    cases reported with
    | running => exact absurd rfl isOver
    | success => exact .ended (by decide) kept
    | failure =>
      dsimp only
      split
      · exact .ended (by decide) kept
      · exact stands.ends_again_foremost ticked.ready only (ticked.cleared isOver) kept trivial
          (fits _)
  | running tips noted =>
    exact stands.ends_wait_foremost ranking ticked.ready listed tips noted trivial (fits _)

theorem ends_tickForDuration_foremost (kind : node.kind = .forDuration)
    (ready : start.Ready setting.tree key) {duration : Duration} :
    Ends (tickForDuration setting (tickWithin setting depth) key node duration) start
      (start.Foremost setting.tree key) start.Calm := by
  rcases (stands.wellFormed.fits _ _ stands.found).one_or_two_children (by rw [kind]; rfl) with
    ⟨main, fallback, children, -⟩
  have placed : node.children[0]? = some main := by rw [children]; rfl
  have listed : main ∈ node.children := List.mem_of_getElem? placed
  have fits : ∀ deadline timedOut, (RunState.forDuration deadline timedOut).Fits node :=
    fun _ _ => kind
  have plain : ∀ deadline timedOut, (RunState.forDuration deadline timedOut).IsPlain :=
    fun _ _ => trivial
  unfold tickForDuration
  refine (Context.calm_of_aborts (stands.ends_deadlineOf ready kind)).bind ?_
  rintro ⟨deadline, timedOut⟩ _ ⟨rfl, -⟩
  dsimp only
  rw [ends_bind, Turn.ends_childAt placed]
  split
  · refine (Context.calm_of_aborts (stands.ends_writeOutput ready)).bind ?_
    rintro _ _ ⟨blackboard, rfl, readyWritten, -⟩
    refine (Context.calm_of_aborts (stands.ends_remember readyWritten (plain _ _)
      (fits _ _))).bind ?_
    rintro _ _ ⟨rfl, readyEntry⟩
    exact stands.ends_child_foremost ranking shallow pointing readyEntry listed rfl
  · have steady : Steady (timeOut (σ := σ) setting key main timedOut) := .timeOut _ _ _ _
    have timedOut := (stands.ends_timeOut ready listed).and (steady.ends _)
    refine (Context.calm_of_aborts (timedOut.mono (fun _ _ => id) fun _ _ => And.left)).bind ?_
    rintro _ middle ⟨timesOut, same⟩
    split
    · exact .ended (by decide) same
    · rename_i other second
      refine (Context.calm_of_aborts
        (stands.ends_remember timesOut.ready (plain _ _) (fits _ _))).bind ?_
      rintro _ _ ⟨rfl, readyEntry⟩
      exact stands.ends_child_foremost ranking shallow pointing readyEntry
        (List.mem_of_getElem? second) same

theorem ends_tickParallel_foremost (kind : node.kind = .simpleParallel)
    (ready : start.Ready setting.tree key) :
    Ends (tickParallel (tickWithin setting depth) key node) start
      (start.Foremost setting.tree key) start.Calm := by
  rcases (stands.wellFormed.fits _ _ stands.found).two_children (by rw [kind]; rfl) with
    ⟨first, second, both⟩
  have listed : first ∈ node.children := by simp [both]
  have listedToo : second ∈ node.children := by simp [both]
  have different : first ≠ second := by
    have once := stands.branches.children_nodup stands.found
    rw [both, List.nodup_cons, List.mem_singleton] at once
    exact once.1
  unfold tickParallel
  rw [ends_bind, Turn.ends_childAt (by rw [both]; rfl)]
  refine (Context.calm_of_aborts
    (stands.ends_child_points ranking shallow pointing ready listed)).bind ?_
  rintro status middle ⟨ticked, points⟩
  simp only [ends_bind, Attempt.ends_get]
  rw [Turn.ends_childAt (by rw [both]; rfl)]
  refine (stands.ends_child_points ranking shallow pointing ticked.ready listedToo).mono ?_
    fun _ _ => .of_aborts
  rintro ignored last ⟨tickedToo, pointsToo⟩
  cases points with
  | ended isOver kept =>
    rw [if_pos isOver]
    exact .ended isOver kept
  | @running _ tip tips noted =>
    -- What the second child does stays apart from everything in the first one.
    have apart : ∀ lower, setting.tree.MayReach last.runs tip lower →
        ¬ setting.tree.Reaches last.runs (key.sibling second) lower := by
      rintro lower ⟨later, framesIn, distinct, way⟩ reaches
      have down := (tips.through.reaches.mono (tickedToo.outside.framesIn.trans framesIn)).trans way
      exact Tree.children_apart stands.branches distinct ranking stands.found listed listedToo
        different down (reaches.mono framesIn)
    have kept := tips.later tickedToo.outside.framesIn tickedToo.outside.visits
      fun lower reaches none => (tickedToo.outside.states lower (apart lower reaches)).trans none
    rw [if_neg (fun ended => ended rfl)]
    refine .below (.child stands.found listed) kept ?_
    cases pointsToo with
    | ended _ same => exact same.trans noted
    | running _ notedToo => rw [notedToo, noted, Option.or_assoc, Option.some_or]

theorem ends_tickRestartWhenPaused_foremost (kind : node.kind = .restartWhenPaused)
    (ready : start.Ready setting.tree key) :
    Ends (tickRestartWhenPaused setting (tickWithin setting depth) key node) start
      (start.Foremost setting.tree key) start.Calm := by
  rcases (stands.wellFormed.fits _ _ stands.found).one_child (by rw [kind]; rfl) with ⟨child, only⟩
  have listed : child ∈ node.children := by simp [only]
  have plain : (RunState.epoch setting.pauses).IsPlain := trivial
  have halted : Ends (haltAfterPause setting key child) start
      (fun _ entry => entry.Ready setting.tree key) Aborts := by
    simp only [haltAfterPause, ends_bind, ends_runStateOf]
    split
    · split
      · exact (stands.ends_haltChild ready listed).mono (fun _ _ => And.right) fun _ _ => id
      · exact ready
    · exact ready
  have steady : Steady (haltAfterPause (σ := σ) setting key child) := .haltAfterPause _ _ _
  unfold tickRestartWhenPaused
  rw [ends_bind, Turn.ends_childAt (by rw [only]; rfl)]
  refine (Context.calm_of_aborts ((halted.and (steady.ends start)).mono (fun _ _ => id)
    fun _ _ => And.left)).bind ?_
  rintro _ entry ⟨readyEntry, same⟩
  refine (Context.calm_of_aborts (stands.ends_remember readyEntry plain kind)).bind ?_
  rintro _ _ ⟨rfl, readyAgain⟩
  exact stands.ends_child_foremost ranking shallow pointing readyAgain listed same

/-- A node that is entered on the course of the node is ticked last. -/
theorem ends_entered_foremost {seen running : List RunKey} (ready : start.Ready setting.tree key)
    (course : setting.Course (tickWithin setting depth) key node start seen running context)
    (same : start.SameInnermost context)
    (enters : context.Enters setting.tree key node target inner) :
    Ends (liftM (tickWithin setting depth target.node : Tick σ Status) : Attempt σ Status) inner
      (start.Foremost setting.tree key) Aborts := by
  have turn := stands.turn ready
  have entered := course.ready_of_enters stands ranking shallow ready enters
  have noted : start.SameInnermost inner := by
    cases enters <;> exact same
  refine ((stands.ends_entered_points ranking shallow pointing enters entered).and
    (turn.ends_entered course enters)).mono ?_ fun _ _ => And.left
  rintro status after ⟨points, -, outside⟩
  exact .of_points points noted ((enters.invokes stands.found).mono outside.framesIn)

theorem ends_tickDefine_foremost (kind : node.kind = .defineBlackboard)
    (ready : start.Ready setting.tree key) :
    Ends (tickDefine setting (tickWithin setting depth) key node) start
      (start.Foremost setting.tree key) start.Calm := by
  rcases (stands.wellFormed.fits _ _ stands.found).one_child (by rw [kind]; rfl) with ⟨child, only⟩
  have listed : child ∈ node.children := by simp [only]
  have course : setting.Course (tickWithin setting depth) key node start [] [] start := .start
  have steady : Steady (scopeOf (σ := σ) setting key node) := .scopeOf _ _ _
  have opened := (Turn.ends_scopeOf kind course).and (steady.ends start)
  unfold tickDefine
  rw [ends_bind, Turn.ends_childAt (by rw [only]; rfl)]
  refine (opened.mono (fun _ _ => id) fun _ _ fails _ _ => fails.2).bind ?_
  rintro scope context ⟨⟨course, held⟩, same⟩
  rw [ends_inScope]
  refine (stands.ends_entered_foremost ranking shallow pointing ready course same
    (.inScope listed held)).mono (fun _ _ foremost => foremost.moved)
      fun _ _ => .of_aborts

theorem ends_tickReference_foremost {reference : String}
    (configured : node.configuration = some (.reference reference))
    (ready : start.Ready setting.tree key) :
    Ends (tickReference setting (tickWithin setting depth) key node reference) start
      (start.Foremost setting.tree key) start.Calm := by
  rcases stands.wellFormed.resolved _ _ _ stands.found configured with ⟨root, known⟩
  rcases Option.isSome_iff_exists.1
    (stands.wellFormed.closed _ _ (.target stands.found configured known)) with ⟨definition, isNode⟩
  unfold tickReference
  simp only [known, isNode, ends_bind, Attempt.ends_get, ends_bound]
  split
  · rename_i parameters _
    simp only [Attempt.ends_set, ends_inFrame]
    refine (stands.ends_entered_foremost ranking shallow pointing ready .start rfl
      (.inFrame parameters configured known)).mono (fun _ _ foremost => foremost.moved)
      fun _ _ => .of_aborts
  · rintro _ ⟨⟩
    rfl

omit ranking shallow pointing [RemoteService σ] in
/-- A node without children has nothing below it. -/
theorem ends_childless_foremost {action : Attempt σ Status} (steady : Steady action)
    (count : node.kind.childCount = .none) (ordinary : node.kind ≠ .reference) :
    Ends action start (start.Foremost setting.tree key) start.Calm := by
  have fits := stands.wellFormed.fits _ _ stands.found
  have bare : ∀ runs, setting.tree.Bare runs key := by
    intro runs lower reaches different
    rcases reaches.exists_invokes different with ⟨later, next, -, -, invokes, -⟩
    rcases (Tree.invokes_iff_of_ordinary stands.found (fun target configured =>
      ordinary (fits.kind_eq_reference_iff.2 ⟨target, configured⟩)) later next).1 invokes with
      ⟨child, listed, -⟩
    rw [fits.no_child count] at listed
    cases listed
  refine (steady.ends start).mono (fun status last same => ?_) fun _ _ same _ _ => same
  by_cases isRunning : status = .running
  · rw [isRunning]
    exact .here same (bare _)
  · exact .ended isRunning same

/-- Whatever its kind is, a node leaves the innermost running node to be noted. -/
theorem ends_tickConfigured_foremost {configuration : Configuration}
    (kind : configuration.kind = node.kind)
    (named : ∀ target, configuration = .reference target →
      node.configuration = some (.reference target)) (ready : start.Ready setting.tree key) :
    Ends (tickConfigured setting (tickWithin setting depth) key node configuration) start
      (start.Foremost setting.tree key) start.Calm := by
  have fits := stands.wellFormed.fits _ _ stands.found
  have leaf : ∀ {action : Attempt σ Status}, Steady action →
      configuration.kind.childCount = .none → configuration.kind ≠ .reference →
      Ends action start (start.Foremost setting.tree key) start.Calm := by
    rw [kind]
    exact fun steady count ordinary => stands.ends_childless_foremost steady count ordinary
  cases configuration with
  | sequence always =>
    exact stands.ends_tickChildren_foremost ranking shallow pointing ready (by decide)
  | selector always =>
    exact stands.ends_tickChildren_foremost ranking shallow pointing ready (by decide)
  | repeater maxStarts =>
    rcases fits.one_child (by rw [← kind]; rfl) with ⟨child, only⟩
    unfold tickConfigured
    rw [ends_bind, Turn.ends_childAt (by rw [only]; rfl)]
    exact stands.ends_tickRepeater_foremost ranking shallow pointing kind.symm ready only
  | retrier maxAttempts =>
    rcases fits.one_child (by rw [← kind]; rfl) with ⟨child, only⟩
    unfold tickConfigured
    rw [ends_bind, Turn.ends_childAt (by rw [only]; rfl)]
    exact stands.ends_tickRetrier_foremost ranking shallow pointing kind.symm ready only
  | forDuration duration =>
    exact stands.ends_tickForDuration_foremost ranking shallow pointing kind.symm ready
  | simpleParallel =>
    exact stands.ends_tickParallel_foremost ranking shallow pointing kind.symm ready
  | condition condition => exact leaf (.tickCondition _ _) rfl (by simp [Configuration.kind])
  | restartWhenPaused =>
    exact stands.ends_tickRestartWhenPaused_foremost ranking shallow pointing kind.symm ready
  | defineBlackboard =>
    exact stands.ends_tickDefine_foremost ranking shallow pointing kind.symm ready
  | setBlackboard => exact leaf (.tickSet _ _ _) rfl (by decide)
  | formatBlackboard name format =>
    exact leaf (.bind .get fun _ => .bind (Keeping.accessed _) fun _ =>
      .bind (Keeping.writeVariable _ _ _ _) fun _ => .pure _) rfl (by simp [Configuration.kind])
  | dateToBlackboard name format =>
    exact leaf (.bind (Keeping.bound _) fun _ => .bind (Keeping.writeVariable _ _ _ _) fun _ =>
      .pure _) rfl (by simp [Configuration.kind])
  | sleep duration =>
    exact leaf (.bind (Keeping.wakeUpTime _ _ _) fun _ => .pure _) rfl (by simp [Configuration.kind])
  | constantResult status => exact leaf (.pure _) rfl (by simp [Configuration.kind])
  | reference target =>
    exact stands.ends_tickReference_foremost ranking shallow pointing (named target rfl) ready
  | remote remote => exact leaf (.tickRemote _ _ _ _) rfl (by simp [Configuration.kind])

theorem ends_attemptNode_foremost (ready : start.Ready setting.tree key) :
    Ends (attemptNode setting (tickWithin setting depth) key node) start
      (start.Foremost setting.tree key) start.Calm := by
  have fits := stands.wellFormed.fits _ _ stands.found
  unfold attemptNode
  rw [ends_bind, Attempt.ends_get]
  split
  · rename_i configuration effective
    refine stands.ends_tickConfigured_foremost ranking shallow pointing
      (fits.effective_kind effective) ?_ ready
    rintro target rfl
    exact fits.effective_reference effective
  · exact fun _ _ => rfl
  · exact .of_aborts ⟨_, rfl⟩

/-- A node that is ticked notes itself as the innermost running node, or one inside of it does. -/
theorem ends_tickWithin_points (ready : start.Ready setting.tree key) :
    Ends (tickWithin setting (depth + 1) key.node) start (start.Points setting.tree key)
      fun _ _ => True := by
  have here : (⟨start.frame, key.node⟩ : RunKey) = key := by rw [ready.atKey]
  have settled : Ends (settleAttempt setting key node
      (attemptNode setting (tickWithin setting depth) key node)) start
      (fun status noted => if status = .running then
          ∃ last, start.Foremost setting.tree key .running last ∧
            noted = last.visit ⟨key, .running, none⟩
        else start.SameInnermost noted) fun _ _ => True := by
    have attempted := stands.ends_attemptNode_foremost ranking shallow pointing ready
    unfold Ends at attempted ⊢
    rw [outcome_settleAttempt]
    revert attempted
    rcases outcome (attemptNode setting (tickWithin setting depth) key node) start with
      ⟨(cause | failure) | status, last⟩
    · exact fun calm => calm cause rfl
    · exact fun _ => trivial
    · intro foremost
      cases foremost with
      | ended isOver same =>
        dsimp only
        rwa [if_neg isOver]
      | here same bare => exact ⟨last, .here same bare, rfl⟩
      | below invokes tips noted => exact ⟨last, .below invokes tips noted, rfl⟩
  simp only [tickWithin, stands.found, ends_bind, BehaviorTree.ends_get, here]
  refine settled.mono (fun status noted concluded => ?_) fun _ _ => id
  unfold concludeNode
  split at concluded
  · rename_i isRunning
    subst isRunning
    rcases concluded with ⟨last, foremost, rfl⟩
    exact foremost.concludes
  · rename_i isOver
    rw [if_neg isOver]
    refine ((receding_haltWithin (σ := σ) _ _ _).ends noted).mono (fun _ after recedes => ?_)
      fun _ _ _ => trivial
    exact .ended isOver (recedes.innermost.trans concluded)

end Standing

theorem pointing_tickWithin (wellFormed : setting.tree.WellFormed)
    (branches : setting.tree.Branches) (ranking : setting.tree.Ranking rank) (depth : Nat) :
    Pointing setting rank σ depth := by
  induction depth with
  | zero => exact fun target _ _ below => absurd below (Nat.not_lt_zero _)
  | succ depth ih =>
    intro target start isNode below ready
    rcases Option.isSome_iff_exists.1 isNode with ⟨node, found⟩
    have shallow := Nat.le_of_lt_succ below
    have stands : Standing setting depth target node :=
      ⟨wellFormed, branches, found, rank, ranking, shallow⟩
    exact stands.ends_tickWithin_points ranking shallow ih ready

/-- A tick of a mission notes its innermost running node. -/
theorem ends_tick_points (wellFormed : setting.tree.WellFormed) (branches : setting.tree.Branches)
    (ready : start.Ready setting.tree ⟨0, setting.tree.main⟩) :
    Ends (tick setting setting.tree.main) start
      (start.Points setting.tree ⟨0, setting.tree.main⟩) fun _ _ => True := by
  rcases wellFormed.ranked with ⟨rank, ranking⟩
  exact pointing_tickWithin wellFormed branches ranking setting.tree.depthLimit
    ⟨0, setting.tree.main⟩ start wellFormed.rooted
    (Nat.lt_succ_of_lt (ranking.bounded _ wellFormed.rooted)) ready

end BehaviorTree
