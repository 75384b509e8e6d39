import BehaviorTree.Proofs.Engine.Activations

/-!
# Repeaters and retriers

A repeater starts its child again whenever it succeeds, and a retrier whenever it fails. Both
remember how often that was, and both are over when it was as often as they were told. A child that
is started again finds nothing in its subtree that an earlier start left. What was counted is put
out when it changes, and a repeater also puts out that nothing was counted yet.
-/

namespace BehaviorTree

/-- A node starts its child again when it reports `again`, and is over when it reports `stop`. -/
inductive NodeKind.Restarts : NodeKind → Status → Status → Prop where
  | repeater : Restarts .repeater .success .failure
  | retrier : Restarts .retrier .failure .success

/-- The output for what a node counts. -/
def NodeKind.counterPort : NodeKind → String
  | .repeater => "start_counter"
  | _ => "attempt"

theorem NodeKind.Restarts.differ {kind : NodeKind} {again stop : Status}
    (restarts : kind.Restarts again stop) : again ≠ .running ∧ stop ≠ .running ∧ again ≠ stop := by
  cases restarts <;> decide

namespace Configuration

/-- The child was started often enough. -/
def Enough : Configuration → Nat → Prop
  | .repeater maxStarts, count => 0 < maxStarts ∧ maxStarts ≤ .ofNat count
  | .retrier maxAttempts, count => maxAttempts ≤ .ofNat count
  | _, _ => False

/-- A node starts its child again when it reports `again`, until that makes `limit` times. The node
is over when the child reports `stop`. -/
inductive Restarts : Configuration → Status → Status → Int → Prop where
  | repeater {maxStarts : Int64} (limited : maxStarts ≠ 0) :
      Restarts (.repeater maxStarts) .success .failure maxStarts.toInt
  | retrier {maxAttempts : Int64} :
      Restarts (.retrier maxAttempts) .failure .success (max 1 maxAttempts.toInt)

theorem Restarts.restarts_kind {configuration : Configuration} {again stop : Status} {limit : Int}
    (restarts : configuration.Restarts again stop limit) :
    configuration.kind.Restarts again stop := by
  cases restarts
  · exact .repeater
  · exact .retrier

theorem Restarts.ne_no_starts {configuration : Configuration} {again stop : Status} {limit : Int}
    (restarts : configuration.Restarts again stop limit) : configuration ≠ .repeater 0 := by
  rintro rfl
  cases restarts with
  | repeater limited => exact limited rfl

theorem exists_repeater {configuration : Configuration} (kind : configuration.kind = .repeater) :
    ∃ maxStarts, configuration = .repeater maxStarts := by
  cases configuration <;> first | exact ⟨_, rfl⟩ | cases kind

theorem exists_retrier {configuration : Configuration} (kind : configuration.kind = .retrier) :
    ∃ maxAttempts, configuration = .retrier maxAttempts := by
  cases configuration <;> first | exact ⟨_, rfl⟩ | cases kind

end Configuration

section Numbers

variable {limit : Int64} {count : Nat}

theorem ofNat_succ : Int64.ofNat count + 1 = Int64.ofNat (count + 1) := by
  rw [Int64.ofNat_add]
  rfl

theorem toInt_ofNat_succ (below : (count : Int) < limit.toInt) :
    (Int64.ofNat (count + 1)).toInt = count + 1 := by
  have bound := limit.toInt_lt
  exact Int64.toInt_ofNat_of_lt (by omega)

/-- A repeater has enough exactly when the limit is reached. -/
theorem reached_repeater (below : 0 < limit.toInt → (count : Int) < limit.toInt) :
    (0 < limit ∧ limit ≤ Int64.ofNat (count + 1)) ↔ (count + 1 : Int) = limit.toInt := by
  rw [Int64.lt_iff_toInt_lt, Int64.le_iff_toInt_le, Int64.toInt_zero]
  constructor
  · rintro ⟨positive, reached⟩
    rw [toInt_ofNat_succ (below positive)] at reached
    have := below positive
    omega
  · intro reached
    have positive : 0 < limit.toInt := by omega
    rw [toInt_ofNat_succ (below positive)]
    omega

/-- A retrier tries at least once. -/
theorem reached_retrier (below : (count : Int) < max 1 limit.toInt) :
    limit ≤ Int64.ofNat (count + 1) ↔ (count + 1 : Int) = max 1 limit.toInt := by
  have bound := limit.toInt_lt
  have small : count + 1 < 2 ^ 63 := by omega
  rw [Int64.le_iff_toInt_le, Int64.toInt_ofNat_of_lt small]
  push_cast
  omega

/-- As long as the limit was not exceeded, it was often enough when the limit is reached. -/
theorem Configuration.Restarts.enough_iff {configuration : Configuration} {again stop : Status}
    {limit : Int} (restarts : configuration.Restarts again stop limit)
    (below : 0 < limit → (count : Int) < limit) :
    configuration.Enough (count + 1) ↔ (count + 1 : Int) = limit := by
  cases restarts with
  | repeater limited => exact reached_repeater below
  | retrier => exact reached_retrier (below (by omega))

end Numbers

/-- How often a node counted, by what it remembers. -/
def RunStore.Counted (runs : RunStore) (key : RunKey) (count : Nat) : Prop :=
  runs.get? key = none ∧ count = 0 ∨ runs.get? key = some (.counter (.ofNat count))

variable {σ : Type} [RemoteService σ] {setting : Setting} {depth count : Nat} {key : RunKey}
  {node : Node} {child : NodeIndex} {again stop status reported : Status} {limit : Int}
  {enough : Prop} {before inner last : Context σ} {configuration : Configuration}
  {turn : PastTurn σ key} {turns : List (PastTurn σ key)}

/-- The end of an attempt of a node that counts, once its child has reported. -/
inductive Context.Counts (key : RunKey) (node : Node) (again stop : Status) (enough : Prop)
    (count : Nat) (inner : Context σ) : Status → Status → Context σ → Prop where
  | waits : Counts key node again stop enough count inner .running .running
      (inner.setRun key (.counter (.ofNat count)))
  | stopped : Counts key node again stop enough count inner stop stop inner
  | reached (reached : enough) :
      Counts key node again stop enough count inner again again inner
  | again {blackboard : Blackboard} (more : ¬ enough)
      (published : ∀ name, node.outputs.get? node.kind.counterPort = some name →
        blackboard.get? inner.scope name = some (.int (.ofNat (count + 1)))) :
      Counts key node again stop enough count inner again .running
        ({ inner with blackboard := blackboard }.setRun key (.counter (.ofNat (count + 1))))

namespace Context.Counts

variable (counts : inner.Counts key node again stop enough count reported status last)
include counts

omit [RemoteService σ] in
theorem visits_eq : last.visits = inner.visits := by
  cases counts <;> rfl

omit [RemoteService σ] in
theorem stop_iff (differ : again ≠ .running ∧ stop ≠ .running ∧ again ≠ stop) :
    status = stop ↔ reported = stop := by
  rcases differ with ⟨-, settles, apart⟩
  cases counts <;> simp [settles.symm, apart]

omit [RemoteService σ] in
theorem again_iff (differ : again ≠ .running ∧ stop ≠ .running ∧ again ≠ stop) :
    status = again ↔ reported = again ∧ enough := by
  rcases differ with ⟨settles, -, apart⟩
  cases counts with
  | waits => simp [settles.symm]
  | stopped => simp [apart.symm]
  | reached reached => simp [reached]
  | again more => simp [settles.symm, more]

omit [RemoteService σ] in
/-- A node that goes on remembers what it counted. If that is more than before, it is not enough. -/
theorem of_running (differ : again ≠ .running ∧ stop ≠ .running ∧ again ≠ stop)
    (isRunning : status = .running) :
    reported ≠ stop ∧ (reported = again → ¬ enough) ∧
      last.runs.get? key =
        some (.counter (.ofNat (count + if reported = again then 1 else 0))) := by
  rcases differ with ⟨settles, stopSettles, apart⟩
  cases counts with
  | waits =>
    refine ⟨stopSettles.symm, fun impossible => absurd impossible settles.symm, ?_⟩
    rw [Context.get?_setRun, if_pos rfl, if_neg settles.symm, Nat.add_zero]
  | stopped => exact absurd isRunning stopSettles
  | reached => exact absurd isRunning settles
  | again more =>
    refine ⟨apart, fun _ => more, ?_⟩
    rw [Context.get?_setRun, if_pos rfl, if_pos rfl]

omit [RemoteService σ] in
/-- A child that has reported something final has left nothing, if the node goes on. -/
theorem vacant {tree : Tree} {rank : NodeIndex → Nat} {entry : Context σ}
    (ranking : tree.Ranking rank) (found : tree.node? key.node = some node)
    (listed : child ∈ node.children)
    (ticked : entry.TicksChild tree key node child reported inner) (settled : reported ≠ .running) :
    tree.Vacant last.runs (key.sibling child) := by
  have vacant := ticked.cleared settled
  cases counts with
  | waits => exact absurd rfl settled
  | stopped => exact vacant
  | reached => exact vacant
  | again => exact vacant_setRun ranking found listed vacant

end Context.Counts

/-- The context in which a node that counts ticks its child: at first a repeater puts out that
nothing was counted. -/
structure Context.Announces (tree : Tree) (key : RunKey) (node : Node) (before entry : Context σ) :
    Prop where
  ready : entry.Ready tree key
  elsewhere : ∃ blackboard, entry = { before with blackboard := blackboard }
  fresh : node.kind = .repeater → before.runs.get? key = none →
    ∀ name, node.outputs.get? node.kind.counterPort = some name →
      entry.blackboard.get? before.scope name = some (.int 0)
  later : before.runs.get? key ≠ none → entry = before

/-- A node that counts ticks its child, and counts what the child reports. -/
def Context.CountsChild (setting : Setting) (depth : Nat) (key : RunKey) (node : Node)
    (child : NodeIndex) (again stop : Status) (enough : Prop) (count : Nat) (entry : Context σ)
    (status : Status) (last : Context σ) : Prop :=
  ∃ reported inner, entry.TicksChild setting.tree key node child reported inner ∧
    outcome (tickWithin setting depth child) entry = (.ok reported, inner) ∧
    inner.Counts key node again stop enough count reported status last

section Steps

variable (stands : Standing setting depth key node) (ready : before.Ready setting.tree key)
  (counted : before.runs.Counted key count)
include stands ready counted

omit [RemoteService σ] in
theorem Standing.ends_startsOf (kind : node.kind = .repeater) :
    Ends (startsOf setting key) before
      (fun starts entry => starts = .ofNat count ∧ before.Announces setting.tree key node entry)
      Aborts := by
  simp only [startsOf, BehaviorTree.counted, ends_bind, ends_runStateOf]
  rcases counted with ⟨fresh, rfl⟩ | remembered
  · simp only [fresh]
    refine (stands.ends_writeOutput ready).bind ?_
    rintro _ entry ⟨blackboard, rfl, readyEntry, written⟩
    refine ⟨rfl, readyEntry, ⟨blackboard, rfl⟩, fun _ _ name mapped => ?_,
      fun later => absurd fresh later⟩
    rw [kind] at mapped
    exact written name mapped
  · simp only [remembered]
    exact ⟨rfl, ready, ⟨before.blackboard, rfl⟩, fun _ none => by simp [remembered] at none,
      fun _ => rfl⟩

omit [RemoteService σ] stands ready in
theorem ends_counted_of :
    Ends (BehaviorTree.counted key) before
      (fun counted entry => counted.getD 0 = .ofNat count ∧ entry = before) Aborts := by
  simp only [BehaviorTree.counted, ends_bind, ends_runStateOf]
  rcases counted with ⟨fresh, rfl⟩ | remembered
  · simp only [fresh]
    exact ⟨rfl, rfl⟩
  · simp only [remembered]
    exact ⟨rfl, rfl⟩

variable (listed : child ∈ node.children)
include listed

theorem Standing.ends_tickRepeater (kind : node.kind = .repeater) {maxStarts : Int64}
    (limited : maxStarts ≠ 0) :
    Ends (tickRepeater setting (tickWithin setting depth) key child maxStarts) before
      (fun status last => ∃ entry, outcome (startsOf setting key) before =
          (.ok (.ofNat count), entry) ∧ before.Announces setting.tree key node entry ∧
        entry.CountsChild setting depth key node child .success .failure
          ((Configuration.repeater maxStarts).Enough (count + 1)) count status last) Aborts := by
  have fits : ∀ count, (RunState.counter count).Fits node := fun _ => Or.inl kind
  have plain : ∀ count, (RunState.counter count).IsPlain := fun _ => trivial
  simp only [tickRepeater, if_neg limited]
  refine ((stands.ends_startsOf ready counted kind).and ends_outcome |>.mono
    (fun _ _ ends => ends) fun _ _ fails => fails.1).bind ?_
  rintro _ entry ⟨⟨rfl, announces⟩, started⟩
  refine (stands.ends_child announces.ready listed).bind ?_
  rintro reported inner ⟨ticked, ran⟩
  cases reported with
  | running =>
    refine (stands.ends_remember ticked.ready (plain _) (fits _)).bind ?_
    rintro _ last ⟨rfl, -⟩
    exact ⟨entry, started, announces, _, inner, ticked, ran, .waits⟩
  | failure => exact ⟨entry, started, announces, _, inner, ticked, ran, .stopped⟩
  | success =>
    simp only [ofNat_succ]
    split
    · rename_i reached
      exact ⟨entry, started, announces, _, inner, ticked, ran, .reached reached⟩
    · rename_i more
      refine (stands.ends_writeOutput ticked.ready).bind ?_
      rintro _ published ⟨blackboard, rfl, readyAgain, written⟩
      refine (stands.ends_remember readyAgain (plain _) (fits _)).bind ?_
      rintro _ last ⟨rfl, -⟩
      exact ⟨entry, started, announces, _, inner, ticked, ran, .again more (kind ▸ written)⟩

theorem Standing.ends_tickRetrier (kind : node.kind = .retrier) {maxAttempts : Int64} :
    Ends (tickRetrier setting (tickWithin setting depth) key child maxAttempts) before
      (fun status last => before.CountsChild setting depth key node child .failure .success
        ((Configuration.retrier maxAttempts).Enough (count + 1)) count status last) Aborts := by
  have fits : ∀ count, (RunState.counter count).Fits node := fun _ => Or.inr kind
  have plain : ∀ count, (RunState.counter count).IsPlain := fun _ => trivial
  unfold tickRetrier
  refine (ends_counted_of counted).bind ?_
  rintro failures _ ⟨same, rfl⟩
  rw [same]
  refine (stands.ends_child ready listed).bind ?_
  rintro reported inner ⟨ticked, ran⟩
  cases reported with
  | running =>
    refine (stands.ends_remember ticked.ready (plain _) (fits _)).bind ?_
    rintro _ last ⟨rfl, -⟩
    exact ⟨_, inner, ticked, ran, .waits⟩
  | success => exact ⟨_, inner, ticked, ran, .stopped⟩
  | failure =>
    simp only [ofNat_succ]
    split
    · rename_i reached
      exact ⟨_, inner, ticked, ran, .reached reached⟩
    · rename_i more
      refine (stands.ends_writeOutput ticked.ready).bind ?_
      rintro _ published ⟨blackboard, rfl, readyAgain, written⟩
      refine (stands.ends_remember readyAgain (plain _) (fits _)).bind ?_
      rintro _ last ⟨rfl, -⟩
      exact ⟨_, inner, ticked, ran, .again more (kind ▸ written)⟩

end Steps

namespace PastTurn

/-- The context in which a node that counts ticks its child in a turn. -/
def entry (turn : PastTurn σ key) : Context σ :=
  match turn.node.kind with
  | .repeater => (outcome (startsOf turn.setting key) turn.before).2
  | _ => turn.before

/-- The context that the tick of the only child leaves in a turn. -/
def exit (turn : PastTurn σ key) : Context σ :=
  (outcome (tickWithin turn.setting turn.depth (turn.node.children.headD 0)) turn.entry).2

/-- A turn of a node that counts: it ticks its child once, and counts what the child reports. -/
structure CountsOn (turn : PastTurn σ key) (again stop : Status) (enough : Prop) (count : Nat)
    (child : NodeIndex) (reported : Status) (last : Context σ) : Prop where
  only : turn.node.children = [child]
  ticks : turn.ticks = [(child, reported)]
  announces : turn.before.Announces turn.setting.tree key turn.node turn.entry
  ran : outcome (tickWithin turn.setting turn.depth child) turn.entry = (.ok reported, turn.exit)
  ticked : turn.entry.TicksChild turn.setting.tree key turn.node child reported turn.exit
  counts : turn.exit.Counts key turn.node again stop enough count reported turn.status last
  closes : last.Closes turn.setting.tree key turn.status turn.after

theorem only_child (turn : PastTurn σ key) (restarts : turn.node.kind.Restarts again stop) :
    ∃ child, turn.node.children = [child] := by
  refine turn.fits.one_child ?_
  generalize turn.node.kind = kind at restarts ⊢
  cases restarts <;> rfl

theorem CountsOn.of_countsChild (only : turn.node.children = [child])
    (counted : turn.entry.CountsChild turn.setting turn.depth key turn.node child again stop
      enough count turn.status last)
    (announces : turn.before.Announces turn.setting.tree key turn.node turn.entry)
    (closes : last.Closes turn.setting.tree key turn.status turn.after) :
    ∃ reported, turn.CountsOn again stop enough count child reported last := by
  rcases counted with ⟨reported, inner, ticked, ran, counts⟩
  have isExit : turn.exit = inner := by simp [exit, only, ran]
  subst isExit
  have sameTicks : last.childTicks key turn.node.children =
      turn.before.childTicks key turn.node.children ++ [(child, reported)] := by
    rcases announces.elsewhere with ⟨blackboard, entered⟩
    have noted := ticked.ticks
    rw [entered] at noted
    rw [Context.childTicks_congr counts.visits_eq]
    exact noted
  exact ⟨reported, only, ticks_eq closes sameTicks, announces, ran, ticked, counts, closes⟩

/-- Whatever a node is told in a turn, it counts on, unless it may not start its child. -/
theorem exists_countsOn (restarts : turn.node.kind.Restarts again stop)
    (effective : turn.node.effectiveConfiguration turn.before = .ok configuration)
    (starts : configuration ≠ .repeater 0) (counted : turn.before.runs.Counted key count) :
    ∃ child reported last,
      turn.CountsOn again stop (configuration.Enough (count + 1)) count child reported last := by
  rcases turn.only_child restarts with ⟨child, only⟩
  have listed : child ∈ turn.node.children := by simp [only]
  have placed : turn.node.children[0]? = some child := by simp [only]
  have sameKind := turn.fits.effective_kind effective
  generalize kind : turn.node.kind = nodeKind at restarts sameKind
  cases restarts with
  | repeater =>
    rcases Configuration.exists_repeater sameKind with ⟨maxStarts, rfl⟩
    have limited : maxStarts ≠ 0 := fun none => starts (none ▸ rfl)
    have ends : Ends (tickConfigured turn.setting (tickWithin turn.setting turn.depth) key
        turn.node (.repeater maxStarts)) turn.before _ Aborts :=
      ends_bind.2 ((Turn.ends_childAt placed).2
        (turn.stands.ends_tickRepeater turn.ready counted listed kind limited))
    rcases exists_closes effective ends with ⟨last, ⟨entry, started, announces, counts⟩, closes⟩
    have isEntry : turn.entry = entry := by simp only [PastTurn.entry, kind, started]
    rcases CountsOn.of_countsChild only (isEntry ▸ counts) (isEntry ▸ announces) closes with
      ⟨reported, countsOn⟩
    exact ⟨child, reported, last, countsOn⟩
  | retrier =>
    rcases Configuration.exists_retrier sameKind with ⟨maxAttempts, rfl⟩
    have ends : Ends (tickConfigured turn.setting (tickWithin turn.setting turn.depth) key
        turn.node (.retrier maxAttempts)) turn.before _ Aborts :=
      ends_bind.2 ((Turn.ends_childAt placed).2
        (turn.stands.ends_tickRetrier turn.ready counted listed kind))
    rcases exists_closes effective ends with ⟨last, counts, closes⟩
    have isEntry : turn.entry = turn.before := by simp only [PastTurn.entry, kind]
    have announces : turn.before.Announces turn.setting.tree key turn.node turn.entry := by
      refine ⟨isEntry ▸ turn.ready, ⟨turn.before.blackboard, isEntry⟩, ?_, fun _ => isEntry⟩
      intro isRepeater
      rw [kind] at isRepeater
      cases isRepeater
    rcases CountsOn.of_countsChild only (isEntry ▸ counts) announces closes with
      ⟨reported, countsOn⟩
    exact ⟨child, reported, last, countsOn⟩

/-- A repeater that may not start its child succeeds at once. -/
theorem of_no_starts
    (effective : turn.node.effectiveConfiguration turn.before = .ok (.repeater 0)) :
    turn.status = .success ∧ turn.ticks = [] := by
  have kind : turn.node.kind = .repeater := (turn.fits.effective_kind effective).symm
  have restarts : turn.node.kind.Restarts .success .failure := kind ▸ .repeater
  rcases turn.only_child restarts with ⟨child, only⟩
  have placed : turn.node.children[0]? = some child := by simp [only]
  have ends : Ends (tickConfigured turn.setting (tickWithin turn.setting turn.depth) key turn.node
      (.repeater 0)) turn.before (fun status last => status = .success ∧ last = turn.before)
      Aborts := by
    refine ends_bind.2 ((Turn.ends_childAt placed).2 ?_)
    simp only [tickRepeater, ↓reduceIte]
    exact ⟨rfl, rfl⟩
  rcases exists_closes effective ends with ⟨_, ⟨status, rfl⟩, closes⟩
  exact ⟨status, ticks_eq closes (List.append_nil _).symm⟩

/-- A node that is running after a turn has counted in it. -/
theorem exists_countsOn_of_running (restarts : turn.node.kind.Restarts again stop)
    (running : turn.status = .running) (counted : turn.before.runs.Counted key count) :
    ∃ enough child reported last, turn.CountsOn again stop enough count child reported last := by
  rcases turn.exists_effective running with ⟨configuration, effective⟩
  have starts : configuration ≠ .repeater 0 := by
    rintro rfl
    rw [(of_no_starts effective).1] at running
    cases running
  exact ⟨_, exists_countsOn restarts effective starts counted⟩

end PastTurn

/-- How often the children of a node reported a status in several turns. -/
def countOf (report : Status) (turns : List (PastTurn σ key)) : Nat :=
  (ticksOf turns).countP fun tick => tick.2 = report

theorem countOf_le_cons (report : Status) (turn : PastTurn σ key) (turns : List (PastTurn σ key)) :
    countOf report turns ≤ countOf report (turn :: turns) := by
  simp [countOf, List.countP_append]

theorem countOf_cons_of_ticks (ticks : turn.ticks = [(child, reported)]) :
    countOf again (turn :: turns) =
      countOf again turns + if reported = again then 1 else 0 := by
  simp [countOf, ticks, List.countP_append, List.countP_singleton]

/-- In every turn of an activation the node remembers how often its child was counted, whatever the
node was told meanwhile. -/
theorem Activation.counted (activation : Activation (turn :: turns))
    (restarts : turn.node.kind.Restarts again stop) :
    turn.before.runs.Counted key (countOf again turns) := by
  induction turns generalizing turn with
  | nil =>
    cases activation with
    | begins fresh => exact Or.inl ⟨fresh, rfl⟩
  | cons last turns ih =>
    cases activation with
    | goesOn activation running leaves =>
      have restartsBefore : last.node.kind.Restarts again stop := leaves.node_eq ▸ restarts
      rcases PastTurn.exists_countsOn_of_running restartsBefore running
        (ih activation restartsBefore) with ⟨_, child, reported, final, countsOn⟩
      have remembered := (countsOn.counts.of_running restarts.differ running).2.2
      rw [← countOf_cons_of_ticks countsOn.ticks, ← (countsOn.closes.of_running running).1]
        at remembered
      exact Or.inr (leaves.state _ remembered trivial)

section Limits

variable (activation : Activation (turn :: turns))
  (restarts : configuration.Restarts again stop limit) (fixed : turn.node.IsFixed configuration)
include activation restarts fixed

theorem Activation.exists_countsOn :
    ∃ child reported last, turn.CountsOn again stop
      (configuration.Enough (countOf again turns + 1)) (countOf again turns) child reported
      last := by
  have sameKind := turn.fits.configured _ fixed.configured
  have restartsKind : turn.node.kind.Restarts again stop := sameKind ▸ restarts.restarts_kind
  exact PastTurn.exists_countsOn restartsKind (fixed.effectiveConfiguration_eq _)
    restarts.ne_no_starts (activation.counted restartsKind)

/-- What was counted before a turn is not enough yet, and nothing has ended the activation. -/
theorem Activation.below_limit :
    (0 < limit → (countOf again turns : Int) < limit) ∧ ∀ tick ∈ ticksOf turns, tick.2 ≠ stop := by
  induction turns generalizing turn with
  | nil => exact ⟨fun positive => positive, by simp⟩
  | cons last turns ih =>
    cases activation with
    | goesOn activation running leaves =>
      have same := leaves.node_eq
      rcases ih activation (same ▸ fixed) with ⟨below, first⟩
      rcases activation.exists_countsOn restarts (same ▸ fixed) with
        ⟨child, reported, final, countsOn⟩
      rcases countsOn.counts.of_running restarts.restarts_kind.differ running with
        ⟨notStop, notEnough, -⟩
      rw [restarts.enough_iff below] at notEnough
      constructor
      · intro positive
        have before := below positive
        rw [countOf_cons_of_ticks countsOn.ticks]
        split
        · rename_i counted
          have unreached := notEnough counted
          push_cast
          omega
        · exact before
      · simp only [ticksOf_cons, countsOn.ticks, List.mem_append, List.mem_singleton]
        rintro tick (earlier | rfl)
        · exact first tick earlier
        · exact notStop

end Limits

/-- What a node that starts its child again does in the turns of an activation, up to the latest. -/
structure PastTurn.RestartsAfter (again stop : Status) (limit : Int) (turn : PastTurn σ key)
    (earlier : List (PastTurn σ key)) : Prop where
  /-- The child is ticked once. It ends the activation with its first `stop`, and with the `again`
  that reaches the limit. -/
  ticks : ∃ child reported, turn.node.children = [child] ∧ turn.ticks = [(child, reported)] ∧
    outcome (tickWithin turn.setting turn.depth child) turn.entry = (.ok reported, turn.exit) ∧
    (turn.status = stop ↔ reported = stop) ∧
    (turn.status = again ↔ reported = again ∧ (countOf again earlier + 1 : Int) = limit)
  goesOn : ∀ tick ∈ ticksOf earlier, tick.2 ≠ stop
  /-- A child that was not running is started with nothing in its subtree, as long as there are
  numbers left for frames: references that share a frame share run states. -/
  afresh : ∀ last turns child, earlier = last :: turns → turn.node.children = [child] →
    (child, .running) ∉ last.ticks → turn.entry.runs.frames.size < 2 ^ 32 →
    turn.setting.tree.Vacant turn.entry.runs (key.sibling child)

/-- A child that has reported something final left nothing until the next turn. -/
theorem PastTurn.CountsOn.vacant_later {last : PastTurn σ key} {final : Context σ}
    (countsOn : last.CountsOn again stop enough count child reported final)
    (running : last.status = .running)
    (leaves : last.Leaves turn.setting.tree turn.before.runs)
    (room : turn.before.runs.frames.size < 2 ^ 32) (settled : reported ≠ .running) :
    turn.setting.tree.Vacant turn.before.runs (key.sibling child) := by
  rcases last.stands.shallow with ⟨rank, ranking, -⟩
  have listed : child ∈ last.node.children := by simp [countsOn.only]
  have vacant := countsOn.counts.vacant ranking last.stands.found listed countsOn.ticked settled
  rw [← (countsOn.closes.of_running running).1, leaves.sameTree] at vacant
  exact leaves.vacant room (leaves.node_eq ▸ listed) vacant

/-- Whatever its child does, a node starts it again until it has reported enough. -/
theorem Activation.restarts (activation : Activation (turn :: turns))
    (restarts : configuration.Restarts again stop limit)
    (fixed : turn.node.IsFixed configuration) : turn.RestartsAfter again stop limit turns := by
  have differ := restarts.restarts_kind.differ
  rcases activation.below_limit restarts fixed with ⟨below, goesOn⟩
  rcases activation.exists_countsOn restarts fixed with ⟨child, reported, _, countsOn⟩
  have sameRuns : turn.entry.runs = turn.before.runs := by
    rcases countsOn.announces.elsewhere with ⟨blackboard, entered⟩
    rw [entered]
  have again_iff := countsOn.counts.again_iff differ
  rw [restarts.enough_iff below] at again_iff
  refine ⟨⟨child, reported, countsOn.only, countsOn.ticks, countsOn.ran,
    countsOn.counts.stop_iff differ, again_iff⟩, goesOn, ?_⟩
  rintro last turns other rfl only settled room
  rw [sameRuns] at room ⊢
  cases activation with
  | goesOn activation running leaves =>
    rcases activation.exists_countsOn restarts (leaves.node_eq ▸ fixed) with
      ⟨childToo, reported, final, countsOn⟩
    have sameChild : childToo = other := by
      have onlyToo := countsOn.only
      rw [leaves.node_eq, only, List.cons.injEq] at onlyToo
      exact onlyToo.1.symm
    subst sameChild
    refine countsOn.vacant_later running leaves room ?_
    rintro rfl
    simp [countsOn.ticks] at settled

end BehaviorTree
