import BehaviorTree.Proofs.Engine.ReadyTurn

/-!
# Chronicles of nodes

A node has turns, and in between other nodes are ticked, or the node is halted with one above it.
The turns between two ends make up an activation: it begins without a run state, every turn but the
last one leaves the node running, and from one turn to the next the node remembers what it
remembered. Nothing happens to the subtree of a node while it waits, as long as every reference has
a frame of its own: no run state appears in it.
-/

namespace BehaviorTree

/-- A turn that a node had: it was ticked, and the tick had a status. -/
structure PastTurn (σ : Type) [RemoteService σ] (key : RunKey) where
  setting : Setting
  depth : Nat
  node : Node
  before : Context σ
  status : Status
  after : Context σ
  stands : Standing setting depth key node
  ready : before.Ready setting.tree key
  framed : RunStore.empty.Grows before.runs
  ran : outcome (tickWithin setting (depth + 1) key.node) before = (.ok status, after)

/-- What happens to a node. -/
inductive Happening (σ : Type) [RemoteService σ] (key : RunKey) where
  /-- The node was halted from outside, or everything was forgotten. -/
  | ended
  | turned (turn : PastTurn σ key)

/-- What happened to a node, the latest in front. -/
abbrev Chronicle (σ : Type) [RemoteService σ] (key : RunKey) := List (Happening σ key)

variable {σ : Type} [RemoteService σ] {setting : Setting} {key target upper lower : RunKey}
  {tree : Tree} {rank : NodeIndex → Nat} {depth : Nat} {node other : Node} {status : Status}
  {start context before middle after inner : Context σ} {runs later : RunStore}
  {chronicle log earlier : Chronicle σ key} {turn last : PastTurn σ key}
  {turns : List (PastTurn σ key)}

/-- The ticks of the children of the node in a turn, the first one in front. -/
def PastTurn.ticks (turn : PastTurn σ key) : List (NodeIndex × Status) :=
  (turn.after.childTicks key turn.node.children).drop
    (turn.before.childTicks key turn.node.children).length

/-- The turns of the activation that goes on, the latest in front. -/
def Chronicle.ongoing : Chronicle σ key → List (PastTurn σ key)
  | .turned turn :: earlier => if turn.status = .running then turn :: ongoing earlier else []
  | _ => []

/-- A node is in the subtree of another one once enough references have frames. -/
def Tree.MayReach (tree : Tree) (runs : RunStore) (upper lower : RunKey) : Prop :=
  ∃ later : RunStore, runs.FramesIn later ∧ later.Distinct ∧ tree.Reaches later upper lower

/-- What a turn left is still there: the node remembers the same if that holds nothing, and nothing
came to be remembered in its subtree. -/
structure PastTurn.Leaves (last : PastTurn σ key) (tree : Tree) (runs : RunStore) : Prop where
  sameTree : last.setting.tree = tree
  framesIn : last.after.runs.FramesIn runs
  state : ∀ state, last.after.runs.get? key = some state → state.IsPlain →
    runs.get? key = some state
  quiet : ∀ lower, tree.MayReach runs key lower → last.after.runs.get? lower = none →
    runs.get? lower = none

/-- The turns of a node from the beginning of an activation on, the latest in front. -/
inductive Activation : List (PastTurn σ key) → Prop where
  | begins {turn : PastTurn σ key} (fresh : turn.before.runs.get? key = none) : Activation [turn]
  | goesOn {turn last : PastTurn σ key} {turns : List (PastTurn σ key)}
      (activation : Activation (last :: turns)) (running : last.status = .running)
      (leaves : last.Leaves turn.setting.tree turn.before.runs) :
      Activation (turn :: last :: turns)

/-- Every turn of a chronicle belongs to an activation. -/
inductive Chronicle.Orderly : Chronicle σ key → Prop where
  | nothing : Orderly []
  | ended {chronicle : Chronicle σ key} (orderly : Orderly chronicle) :
      Orderly (.ended :: chronicle)
  | turned {chronicle : Chronicle σ key} {turn : PastTurn σ key} (orderly : Orderly chronicle)
      (activation : Activation (turn :: Chronicle.ongoing chronicle)) :
      Orderly (.turned turn :: chronicle)

/-- What is remembered now agrees with the chronicle of a node. -/
structure Chronicle.Agrees (chronicle : Chronicle σ key) (tree : Tree) (runs : RunStore) :
    Prop where
  fresh : ongoing chronicle = [] → runs.get? key = none
  goesOn : ∀ last turns, ongoing chronicle = last :: turns → last.Leaves tree runs

namespace Chronicle

theorem Orderly.activation (orderly : Orderly chronicle)
    (goesOn : ongoing chronicle = last :: turns) :
    Activation (last :: turns) ∧ last.status = .running := by
  cases orderly with
  | nothing => cases goesOn
  | ended => cases goesOn
  | @turned chronicle turn orderly activation =>
    by_cases running : turn.status = .running
    · simp only [ongoing, running, ↓reduceIte, List.cons.injEq] at goesOn
      rcases goesOn with ⟨rfl, rfl⟩
      exact ⟨activation, running⟩
    · simp [ongoing, running] at goesOn

/-- Every turn of a chronicle is the latest one of an activation. -/
theorem Orderly.activation_of_suffix (orderly : Orderly chronicle)
    (listed : (.turned turn :: earlier) <:+ chronicle) :
    Activation (turn :: ongoing earlier) := by
  induction orderly with
  | nothing => simp at listed
  | ended _ ih =>
    rcases List.suffix_cons_iff.1 listed with same | inside
    · cases same
    · exact ih inside
  | turned _ activation ih =>
    rcases List.suffix_cons_iff.1 listed with same | inside
    · cases same
      exact activation
    · exact ih inside

theorem Orderly.turned_of_agrees (orderly : Orderly chronicle)
    (agrees : Agrees chronicle turn.setting.tree turn.before.runs) :
    Orderly (.turned turn :: chronicle) := by
  refine .turned orderly ?_
  cases going : ongoing chronicle with
  | nil => exact .begins (agrees.fresh going)
  | cons last turns =>
    rcases orderly.activation going with ⟨activation, running⟩
    exact .goesOn activation running (agrees.goesOn last turns going)

theorem agrees_ended (forgotten : runs.get? key = none) :
    Agrees (.ended :: chronicle : Chronicle σ key) tree runs :=
  ⟨fun _ => forgotten, fun _ _ impossible => by cases impossible⟩

/-- After a turn the node remembers what it remembers, and nothing if it is over. -/
theorem agrees_turned (turn : PastTurn σ key) (chronicle : Chronicle σ key) :
    Agrees (.turned turn :: chronicle) turn.setting.tree turn.after.runs := by
  by_cases running : turn.status = .running
  · refine ⟨fun none => by simp [ongoing, running] at none, ?_⟩
    intro last turns going
    simp only [ongoing, running, ↓reduceIte, List.cons.injEq] at going
    rcases going with ⟨rfl, -⟩
    exact ⟨rfl, .refl _, fun _ remembered _ => remembered, fun _ _ none => none⟩
  · refine ⟨fun _ => ?_, fun last turns going => by simp [ongoing, running] at going⟩
    have cleared := ends_tickWithin_cleared turn.stands.wellFormed (turn.depth + 1) key.node
      turn.before
    have here : (⟨turn.before.frame, key.node⟩ : RunKey) = key := by rw [turn.ready.atKey]
    rw [here] at cleared
    exact RunStore.isActive_eq_false_iff.1 (cleared.of_eq_ok turn.ran running key (.refl key))

end Chronicle

/-- Nothing happens to a node: it remembers what it remembered, it is not ticked, and nothing comes
to be remembered in its subtree. -/
structure Context.Spares (tree : Tree) (key : RunKey) (before after : Context σ) : Prop where
  framesIn : before.runs.FramesIn after.runs
  state : after.runs.get? key = before.runs.get? key
  visits : after.visitsOf key = before.visitsOf key
  quiet : ∀ lower, tree.MayReach after.runs key lower → before.runs.get? lower = none →
    after.runs.get? lower = none

/-- What happens to the node `key` in a tick that began in `start`. -/
inductive Befalls (setting : Setting) (key : RunKey) (start : Context σ) :
    Chronicle σ key → Context σ → Prop where
  | nothing : Befalls setting key start [] start
  | spared {log : Chronicle σ key} {context after : Context σ}
      (before : Befalls setting key start log context)
      (spares : context.Spares setting.tree key after) : Befalls setting key start log after
  | halted {log : Chronicle σ key} {context after : Context σ} {roots : List RunKey}
      (before : Befalls setting key start log context)
      (halts : context.Halts setting.tree roots after)
      (reached : ∃ root ∈ roots, setting.tree.Reaches context.runs root key) :
      Befalls setting key start (.ended :: log) after
  | turned {log : Chronicle σ key} (turn : PastTurn σ key) (same : turn.setting = setting)
      (before : Befalls setting key start log turn.before) :
      Befalls setting key start (.turned turn :: log) turn.after

omit [RemoteService σ] in
/-- A node is spared by what changes no run states. -/
theorem Context.Spares.of_states (framesIn : before.runs.FramesIn after.runs)
    (states : ∀ other, after.runs.get? other = before.runs.get? other)
    (visits : after.visitsOf key = before.visitsOf key) : before.Spares tree key after :=
  ⟨framesIn, states key, visits, fun lower _ none => (states lower).trans none⟩

omit [RemoteService σ] in
/-- A node is spared by what only changes the run state of a node outside of its subtree. -/
theorem Context.Spares.of_elsewhere (framesIn : before.runs.FramesIn after.runs)
    (states : ∀ other, other ≠ upper → after.runs.get? other = before.runs.get? other)
    (visits : after.visitsOf key = before.visitsOf key) (different : key ≠ upper)
    (outside : ¬ tree.MayReach after.runs key upper) : before.Spares tree key after := by
  refine ⟨framesIn, states key different, visits, ?_⟩
  intro lower inside none
  rw [states lower ?_, none]
  rintro rfl
  exact outside inside

omit [RemoteService σ] in
theorem Tree.MayReach.of_framesIn (reaches : tree.MayReach later upper lower)
    (framesIn : runs.FramesIn later) : tree.MayReach runs upper lower := by
  rcases reaches with ⟨last, grows, distinct, way⟩
  exact ⟨last, framesIn.trans grows, distinct, way⟩

omit [RemoteService σ] in
/-- What a node outside of a subtree invokes is outside of the subtree, too, or is its root. -/
theorem Tree.MayReach.invoked (branches : tree.Branches) (reaches : tree.MayReach runs key lower)
    (different : key ≠ lower) (invokes : tree.Invokes runs upper lower) :
    tree.MayReach runs key upper := by
  rcases reaches with ⟨later, framesIn, distinct, way⟩
  rcases way.eq_or_below with same | below
  · exact absurd same.symm different
  · exact ⟨later, framesIn, distinct, below.invoker branches distinct (invokes.mono framesIn)⟩

theorem PastTurn.Leaves.spared (leaves : last.Leaves tree before.runs)
    (spares : before.Spares tree key after) : last.Leaves tree after.runs := by
  refine ⟨leaves.sameTree, leaves.framesIn.trans spares.framesIn, ?_, ?_⟩
  · intro state remembered plain
    rw [spares.state]
    exact leaves.state state remembered plain
  · intro lower inside none
    exact spares.quiet lower inside
      (leaves.quiet lower (inside.of_framesIn spares.framesIn) none)

theorem Chronicle.Agrees.spared (agrees : Agrees chronicle tree before.runs)
    (spares : before.Spares tree key after) : Agrees chronicle tree after.runs :=
  ⟨fun none => spares.state.trans (agrees.fresh none),
    fun last turns going => (agrees.goesOn last turns going).spared spares⟩

/-- The chronicle of a node goes on with what happens to it in a tick. -/
theorem Befalls.continues (befalls : Befalls setting key start log after)
    (orderly : Chronicle.Orderly earlier)
    (agrees : Chronicle.Agrees earlier setting.tree start.runs) :
    Chronicle.Orderly (log ++ earlier) ∧
      Chronicle.Agrees (log ++ earlier) setting.tree after.runs := by
  induction befalls with
  | nothing => exact ⟨orderly, agrees⟩
  | spared _ spares ih => exact ⟨ih.1, ih.2.spared spares⟩
  | halted _ halts reached ih =>
    refine ⟨.ended ih.1, Chronicle.agrees_ended ?_⟩
    rcases halts with ⟨keys, rfl, listed⟩
    rw [Context.get?_discardedAll, if_pos ((listed key).2 reached)]
  | turned turn same _ ih =>
    subst same
    exact ⟨ih.1.turned_of_agrees ih.2, Chronicle.agrees_turned turn _⟩

theorem Befalls.trans {first second : Chronicle σ key}
    (before : Befalls setting key start first middle)
    (rest : Befalls setting key middle second after) :
    Befalls setting key start (second ++ first) after := by
  induction rest with
  | nothing => exact before
  | spared _ spares ih => exact ih.spared spares
  | halted _ halts reached ih => exact ih.halted halts reached
  | turned turn same _ ih => exact ih.turned turn same

/-- A node is halted with others, or it is spared. -/
theorem Befalls.halts {roots : List RunKey} (before : Befalls setting key start log context)
    (halts : context.Halts setting.tree roots after) :
    ∃ log, Befalls setting key start log after := by
  by_cases reached : ∃ root ∈ roots, setting.tree.Reaches context.runs root key
  · exact ⟨_, before.halted halts reached⟩
  · refine ⟨log, before.spared ⟨.of_eq halts.samePlace.frames, ?_, ?_, ?_⟩⟩
    · rcases halts with ⟨keys, rfl, listed⟩
      rw [Context.get?_discardedAll, if_neg fun inside => reached ((listed key).1 inside)]
    · simp only [Context.visitsOf, halts.samePlace.visits]
    · rcases halts with ⟨keys, rfl, listed⟩
      intro lower _ none
      rw [Context.get?_discardedAll, none, ite_self]

omit [RemoteService σ] in
/-- A node that is entered may have got its frame for it. -/
theorem Context.Enters.grows (enters : context.Enters tree upper other target inner) :
    context.runs.Grows inner.runs := by
  cases enters with
  | child listed => exact .refl _
  | inScope listed held => exact .refl _
  | inFrame parameters configured known => exact .framed (.refl _) upper rfl rfl

theorem Context.stays_discardedAll (context : Context σ) (keys : List RunKey) :
    context.Stays (context.discardedAll keys) := by
  induction keys generalizing context with
  | nil => exact .refl context
  | cons first rest ih => exact (context.stays_discarded first).trans (ih _)

/-- Something happens to the node `key` whenever nodes are ticked that are not below it. -/
def Befalling (setting : Setting) (rank : NodeIndex → Nat) (key : RunKey) (σ : Type)
    [RemoteService σ] (depth : Nat) : Prop :=
  ∀ (target : RunKey) (context : Context σ), (setting.tree.node? target.node).isSome →
    rank target.node < depth → context.Ready setting.tree target →
    RunStore.empty.Grows context.runs →
    (key = target ∨ ¬ setting.tree.MayReach context.runs key target) →
    Ends (tickWithin setting depth target.node) context
      (fun _ after => ∃ log, Befalls setting key context log after) fun _ _ => True

/-- A node that is entered on the course of another one finds nothing amiss. -/
theorem Course.ready_of_enters {seen running : List RunKey}
    (course : setting.Course (tickWithin (σ := σ) setting depth) upper other start seen running
      context)
    (stands : Standing setting depth upper other) (ranking : setting.tree.Ranking rank)
    (shallow : rank upper.node ≤ depth) (ready : start.Ready setting.tree upper)
    (enters : context.Enters setting.tree upper other target inner) :
    inner.Ready setting.tree target := by
  have keeps : KeepsSound setting.tree setting.now upper (tickWithin (σ := σ) setting depth) := by
    intro target context leads atTarget sound anchored
    exact ends_tickWithin_sound stands.wellFormed ranking (stands.wellFormed.closed _ _ leads)
      (Nat.lt_of_lt_of_le (ranking.descends _ _ leads) shallow) atTarget sound anchored
  have place := course.outside stands.found
  have sound := (course.advances stands.found ranking ready.atKey ready.sound ready.anchored
    keeps).sound
  have anchored := ready.anchored.of_outside ranking place
  have entered := enters.housed (place.housed ready.housed ready.inside)
    (ready.inside.of_framesIn place.framesIn)
  exact ⟨enters.frame (place.frame.trans ready.atKey), enters.sound sound,
    enters.anchored stands.found anchored, entered.1, entered.2⟩

/-- Frames are only given one after the other on the course of a node that uses no service. -/
theorem Course.grows {seen running : List RunKey}
    (course : setting.Course (tickWithin (σ := σ) setting depth) upper other start seen running
      context)
    (wellFormed : setting.tree.WellFormed)
    (local_kind : ∀ operation, other.kind ≠ .remote operation) :
    start.runs.Grows context.runs := by
  induction course with
  | start => exact .refl _
  | wrote _ _ ih => exact ih
  | noted _ ih => exact ih
  | remembered _ _ _ ih => exact ih.trans (.same rfl rfl)
  | opened _ _ _ _ ih => exact ih.trans (.same rfl rfl)
  | @ticked _ _ _ inner _ target _ _ enters ran _ _ ih =>
    have stays := staying_tickWithin (σ := σ) wellFormed depth target.node inner
    rw [ran] at stays
    exact (ih.trans enters.grows).trans stays.grows
  | halted _ _ halts ih =>
    rcases halts with ⟨keys, rfl, -⟩
    exact ih.trans (Context.stays_discardedAll _ keys).grows
  | served _ kind _ _ => exact absurd kind (local_kind _)

/-- On the course of another node that uses no service, a node is befallen by what the ticks on the
way bring. -/
theorem Course.befalls {seen running : List RunKey}
    (course : setting.Course (tickWithin (σ := σ) setting depth) upper other start seen running
      context)
    (stands : Standing setting depth upper other) (ranking : setting.tree.Ranking rank)
    (shallow : rank upper.node ≤ depth)
    (local_kind : ∀ operation, other.kind ≠ .remote operation)
    (ready : start.Ready setting.tree upper) (framed : RunStore.empty.Grows start.runs)
    (different : key ≠ upper) (outside : ¬ setting.tree.MayReach start.runs key upper)
    (befalling : Befalling setting rank key σ depth) :
    ∃ log, Befalls setting key start log context := by
  have elsewhere : ∀ {context : Context σ} {seen running : List RunKey},
      setting.Course (tickWithin setting depth) upper other start seen running context →
      ¬ setting.tree.MayReach context.runs key upper := fun course reaches =>
    outside (reaches.of_framesIn (course.outside stands.found).framesIn)
  have own : ∀ {context after : Context σ} {seen running : List RunKey} {log : Chronicle σ key},
      setting.Course (tickWithin setting depth) upper other start seen running after →
      Befalls setting key start log context → after.runs.frames = context.runs.frames →
      (∀ other, other ≠ upper → after.runs.get? other = context.runs.get? other) →
      after.visits = context.visits → Befalls setting key start log after := by
    intro context after seen running log course before frames states visits
    refine before.spared (.of_elsewhere (.of_eq frames) states ?_ different (elsewhere course))
    simp only [Context.visitsOf, visits]
  induction course with
  | start => exact ⟨[], .nothing⟩
  | wrote course writes ih =>
    rcases ih with ⟨log, before⟩
    exact ⟨log, own (course.wrote writes) before rfl (fun _ _ => rfl) rfl⟩
  | noted course ih =>
    rcases ih with ⟨log, before⟩
    exact ⟨log, own course.noted before rfl (fun _ _ => rfl) rfl⟩
  | remembered course plain fits ih =>
    rcases ih with ⟨log, before⟩
    refine ⟨log, own (course.remembered plain fits) before rfl (fun other different => ?_) rfl⟩
    rw [Context.get?_setRun, if_neg different]
  | opened course kind gone created ih =>
    rcases ih with ⟨log, before⟩
    refine ⟨log, own (course.opened kind gone created) before rfl (fun other different => ?_) rfl⟩
    rw [Context.get?_setRun, if_neg different]
  | @ticked _ _ context inner after target _ course enters ran _ _ ih =>
    rcases ih with ⟨log, before⟩
    have invokes := enters.invokes stands.found
    have notBelow : key = target ∨ ¬ setting.tree.MayReach inner.runs key target := by
      by_cases same : key = target
      · exact Or.inl same
      · refine Or.inr fun reaches => elsewhere course ?_
        exact (reaches.invoked stands.branches same invokes).of_framesIn enters.framesIn
    have grows := (framed.trans (course.grows stands.wellFormed local_kind)).trans enters.grows
    have inside := (befalling target inner (stands.wellFormed.closed _ _ invokes.leads)
      (Nat.lt_of_lt_of_le (ranking.descends _ _ invokes.leads) shallow)
      (course.ready_of_enters stands ranking shallow ready enters) grows notBelow).of_eq_ok ran
    rcases inside with ⟨more, inside⟩
    have reached : Befalls setting key start log inner :=
      before.spared (.of_states enters.framesIn enters.get?
        (by simp only [Context.visitsOf, enters.visits]))
    exact ⟨_, (reached.trans inside).spared (.of_states (.refl _) (fun _ => rfl) rfl)⟩
  | halted _ _ halts ih =>
    rcases ih with ⟨log, before⟩
    exact before.halts halts
  | served _ kind _ _ => exact absurd kind (local_kind _)

/-- A remote node invokes nothing, so its tick spares every node that is not above it. -/
theorem Standing.spares_of_remote {operation : RemoteOperation}
    (stands : Standing setting depth upper other) (kind : other.kind = .remote operation)
    (ready : start.Ready setting.tree upper) (different : key ≠ upper)
    (outside : ¬ setting.tree.MayReach start.runs key upper) :
    Ends (tickWithin setting (depth + 1) upper.node) start
      (fun _ after => start.Spares setting.tree key after) fun _ _ => True := by
  have fits := stands.wellFormed.fits _ _ stands.found
  have isNode : (setting.tree.node? upper.node).isSome := by simp [stands.found]
  have childless : other.children = [] := fits.no_child (by rw [kind]; rfl)
  have leadsNowhere : ∀ lower, ¬ setting.tree.Leads upper.node lower := by
    intro lower leads
    cases leads with
    | child found listed =>
      rw [stands.found, Option.some.injEq] at found
      simp [← found, childless] at listed
    | target found configured known =>
      rw [stands.found, Option.some.injEq] at found
      subst found
      have isReference := fits.kind_eq_reference_iff.2 ⟨_, configured⟩
      rw [kind] at isReference
      cases isReference
  refine ((behaves_tickWithin stands.wellFormed (depth + 1) upper start ready.atKey isNode
    ready.sound.fits).and (noting_tickWithin stands.wellFormed (depth + 1) upper start ready.atKey
      isNode ready.sound.fits)).mono ?_ fun _ _ _ => trivial
  rintro status after ⟨⟨place, -⟩, cause, inner, ⟨noted, visits, below⟩, noticed⟩
  refine .of_elsewhere place.framesIn ?_ ?_ different fun reaches =>
    outside (reaches.of_framesIn place.framesIn)
  · intro lower elsewhere
    apply place.states
    intro reaches
    rcases Relation.ReflTransGen.cases_head reaches with same | ⟨next, invokes, -⟩
    · exact elsewhere same.symm
    · exact leadsNowhere _ invokes.leads
  · have nothing : noted = [] := by
      rw [List.eq_nil_iff_forall_not_mem]
      intro visit isNoted
      rcases Relation.TransGen.head'_iff.1 (below visit isNoted) with ⟨next, leads, -⟩
      exact leadsNowhere _ leads
    simp [Context.visitsOf, noticed, visits, nothing, different.symm]

/-- Whatever is ticked, something happens to a node, unless what is ticked is below it. -/
theorem befalling_tickWithin (wellFormed : setting.tree.WellFormed)
    (branches : setting.tree.Branches) (ranking : setting.tree.Ranking rank) (key : RunKey)
    (depth : Nat) : Befalling setting rank key σ depth := by
  induction depth with
  | zero => exact fun target _ _ below => absurd below (Nat.not_lt_zero _)
  | succ depth ih =>
    intro target start isNode below ready framed place
    rcases Option.isSome_iff_exists.1 isNode with ⟨other, found⟩
    have shallow := Nat.le_of_lt_succ below
    have stands : Standing setting depth target other :=
      ⟨wellFormed, branches, found, rank, ranking, shallow⟩
    by_cases same : key = target
    · subst same
      unfold Ends
      split
      · rename_i status after ran
        let turn : PastTurn σ key :=
          ⟨setting, depth, other, start, status, after, stands, ready, framed, ran⟩
        exact ⟨[.turned turn], .turned turn rfl .nothing⟩
      · trivial
    · have outside := place.resolve_left same
      by_cases isRemote : ∃ operation, other.kind = .remote operation
      · rcases isRemote with ⟨operation, kind⟩
        refine (stands.spares_of_remote kind ready same outside).mono ?_ fun _ _ _ => trivial
        exact fun _ _ spares => ⟨[], Befalls.nothing.spared spares⟩
      · rw [not_exists] at isRemote
        refine (stands.turn ready).ends_tickWithin.mono ?_ fun _ _ _ => trivial
        intro status after concludes
        cases concludes with
        | running course settled =>
          rcases course.befalls stands ranking shallow isRemote ready framed same outside ih with
            ⟨log, before⟩
          exact ⟨log, before.spared (.of_states (.refl _) (fun _ => rfl)
            (Context.visitsOf_visit_of_ne same _ _))⟩
        | @ended _ _ context _ _ cause reports course ended caused halts =>
          rcases course.befalls stands ranking shallow isRemote ready framed same outside ih with
            ⟨log, before⟩
          have noted : Befalls setting key start log
              { context.visit ⟨target, status, cause⟩ with reports := reports } :=
            before.spared (.of_states (.refl _) (fun _ => rfl)
              (Context.visitsOf_visit_of_ne same _ _))
          exact noted.halts halts

/-- When a mission is ticked, something happens to each of its nodes. -/
theorem ends_tick_befalls (wellFormed : setting.tree.WellFormed)
    (branches : setting.tree.Branches) (key : RunKey)
    (ready : start.Ready setting.tree ⟨0, setting.tree.main⟩)
    (framed : RunStore.empty.Grows start.runs) :
    Ends (tick setting setting.tree.main) start
      (fun _ after => ∃ log, Befalls setting key start log after) fun _ _ => True := by
  rcases wellFormed.ranked with ⟨rank, ranking⟩
  refine befalling_tickWithin wellFormed branches ranking key setting.tree.depthLimit
    ⟨0, setting.tree.main⟩ start wellFormed.rooted
    (Nat.lt_succ_of_lt (ranking.bounded _ wellFormed.rooted)) ready framed ?_
  by_cases same : key = ⟨0, setting.tree.main⟩
  · exact Or.inl same
  · refine Or.inr ?_
    rintro ⟨later, framesIn, distinct, reaches⟩
    rcases reaches.eq_or_below with isMain | below
    · exact same isMain.symm
    · exact Tree.not_reachesBelow_main branches distinct below

end BehaviorTree
