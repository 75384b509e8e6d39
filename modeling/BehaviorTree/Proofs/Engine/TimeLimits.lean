import BehaviorTree.Proofs.Engine.Activations
import BehaviorTree.Proofs.Engine.ClientUse

/-!
# Time limits

A node may give its first child a limited time. Until when the child may run is settled in the first
turn of an activation, whatever the node is told later. A turn that comes too late halts the child
and ticks the other one in its place, if there is one. The first child is not ticked again in that
activation, even if the clock is set back. What it left is gone then: the run states in its subtree,
and the requests that were made there.
-/

namespace BehaviorTree

variable {σ : Type} [RemoteService σ] {setting : Setting} {depth : Nat} {key root : RunKey}
  {node : Node} {tree : Tree} {main child : NodeIndex} {fallback : Option NodeIndex}
  {deadline now duration : Duration} {timedOut : Bool} {status : Status}
  {before middle after last entry : Context σ} {turn : PastTurn σ key}
  {turns : List (PastTurn σ key)}

namespace Context

/-- Nothing of a subtree is left: nothing is remembered in it, and no request that was made in it is
outstanding. -/
structure Clears (tree : Tree) (root : RunKey) (before after : Context σ) : Prop where
  vacant : tree.Vacant after.runs root
  calls : ∀ lower handle, tree.Reaches before.runs root lower →
    before.runs.callAt lower = some handle → ¬ after.client.Holds handle

/-- A halt leaves nothing of a subtree. -/
theorem Halts.clears (halts : before.Halts tree [root] after) (sound : before.Sound tree) :
    before.Clears tree root after := by
  refine ⟨fun lower reaches => halts.cleared reaches, ?_⟩
  intro lower handle reaches made held
  rcases ((sound.halted halts).accounted.calls.used_iff handle).1 held with ⟨owner, owned⟩
  rcases halts with ⟨keys, rfl, reached⟩
  simp only [RunStore.callAt, get?_discardedAll] at owned
  split at owned
  · cases owned
  · rename_i spared
    -- A request that is still owned was made by the same node, which was halted.
    cases sound.accounted.calls.alone owner lower handle owned made
    exact spared ((reached lower).2 ⟨root, List.mem_singleton_self root, reaches⟩)

/-- What is gone does not come back: the client issues no handle twice. -/
theorem Clears.later (clears : before.Clears tree root middle) (sound : before.Sound tree)
    (first : before.client.Used middle.client) (used : middle.client.Used after.client)
    (vacant : tree.Vacant after.runs root) : before.Clears tree root after := by
  refine ⟨vacant, fun lower handle reaches made => ?_⟩
  have held := (sound.accounted.calls.used_iff handle).2 ⟨lower, made⟩
  have old := Nat.lt_of_lt_of_le (sound.accounted.numbered handle held) first.ages.next
  exact used.not_holds (clears.calls lower handle reaches made) old

theorem Closes.vacant (closes : last.Closes tree key status after)
    (vacant : tree.Vacant last.runs root) : tree.Vacant after.runs root := by
  intro lower reaches
  cases closes with
  | running => exact vacant lower reaches
  | ended isOver halts =>
    have reached : tree.Reaches last.runs root lower :=
      reaches.mono (.of_eq halts.samePlace.frames.symm)
    rcases halts with ⟨keys, rfl, -⟩
    have none : (last.visit ⟨key, status, none⟩).runs.get? lower = none := vacant lower reached
    rw [get?_discardedAll, none, ite_self]

theorem Closes.used (closes : last.Closes tree key status after) :
    last.client.Used after.client := by
  cases closes with
  | running => exact .unused
  | ended isOver halts => exact halts.used

end Context

omit [RemoteService σ] in
/-- A child leaves nothing in the subtree of another one in which nothing was. -/
theorem Standing.vacant_of_ticksChild (stands : Standing setting depth key node)
    (ready : entry.Ready setting.tree key) (listed : main ∈ node.children)
    (listedToo : child ∈ node.children) (different : main ≠ child)
    (ticked : entry.TicksChild setting.tree key node child status last)
    (distinct : last.runs.Distinct) (vacant : setting.tree.Vacant entry.runs (key.sibling main)) :
    setting.tree.Vacant last.runs (key.sibling main) := by
  rcases stands.shallow with ⟨rank, ranking, -⟩
  refine ready.housed.vacant ticked.outside.framesIn distinct vacant ?_
  intro lower reaches none
  rw [ticked.outside.states lower ?_, none]
  exact Tree.children_apart stands.branches distinct ranking stands.found listed listedToo different
    reaches

/-- The client is used in the tick of a child. -/
theorem Standing.used_of_child (stands : Standing setting depth key node)
    (ready : entry.Ready setting.tree key) (listed : child ∈ node.children)
    (ran : outcome (tickWithin setting depth child) entry = (.ok status, last)) :
    entry.client.Used last.client := by
  have isNode := stands.wellFormed.closed key.node child (.child stands.found listed)
  have used : Ends (tickWithin setting depth (key.sibling child).node) entry _ _ :=
    ends_tickWithin_used stands.wellFormed depth isNode ready.atKey ready.sound.fits
  exact used.of_eq_ok ran

theorem Configuration.exists_forDuration {configuration : Configuration}
    (kind : configuration.kind = .forDuration) :
    ∃ duration, configuration = .forDuration duration := by
  cases configuration <;> first | exact ⟨_, rfl⟩ | cases kind

/-- Until when the first child of a node may run, and whether that was over before, by what the node
remembers. -/
inductive RunStore.Limits (runs : RunStore) (key : RunKey) (now duration : Duration) :
    Duration → Bool → Prop where
  | begins {deadline : Duration} (fresh : runs.get? key = none)
      (settled : now.add? duration = some deadline) : Limits runs key now duration deadline false
  | goesOn {deadline : Duration} {timedOut : Bool}
      (remembered : runs.get? key = some (.forDuration deadline timedOut)) :
      Limits runs key now duration deadline timedOut

/-- The first child of a node has run out of time. Unless that was so before, nothing of it is left.
-/
structure Context.TimesOut (setting : Setting) (key : RunKey) (main : NodeIndex) (timedOut : Bool)
    (before after : Context σ) : Prop where
  ran : outcome (timeOut setting key main timedOut) before = (.ok (), after)
  ready : after.Ready setting.tree key
  visits : after.visits = before.visits
  used : before.client.Used after.client
  clears : timedOut = false → before.Clears setting.tree (key.sibling main) after

/-- The end of an attempt of a node whose first child may run until `deadline`. -/
inductive Context.Limited (setting : Setting) (depth : Nat) (key : RunKey) (node : Node)
    (main : NodeIndex) (fallback : Option NodeIndex) (deadline : Duration) (timedOut : Bool)
    (before : Context σ) : Status → Context σ → Prop where
  | inTime {status : Status} {last : Context σ} {blackboard : Blackboard}
      (early : ¬ (timedOut = true ∨ deadline ≤ setting.now))
      (ticked : ({ before with blackboard := blackboard }.setRun key
        (.forDuration deadline false)).TicksChild setting.tree key node main status last) :
      Limited setting depth key node main fallback deadline timedOut before status last
  | failed {last : Context σ} (late : timedOut = true ∨ deadline ≤ setting.now)
      (alone : fallback = none) (timesOut : before.TimesOut setting key main timedOut last) :
      Limited setting depth key node main fallback deadline timedOut before .failure last
  | fellBack {status : Status} {middle last : Context σ} {other : NodeIndex}
      (late : timedOut = true ∨ deadline ≤ setting.now) (given : fallback = some other)
      (timesOut : before.TimesOut setting key main timedOut middle)
      (ready : (middle.setRun key (.forDuration deadline true)).Ready setting.tree key)
      (ticked : (middle.setRun key (.forDuration deadline true)).TicksChild setting.tree key node
        other status last)
      (ran : outcome (tickWithin setting depth other)
        (middle.setRun key (.forDuration deadline true)) = (.ok status, last)) :
      Limited setting depth key node main fallback deadline timedOut before status last

/-- The first child has time left if it did not run out of time before and does not do so now. -/
theorem isEarly_iff : (!timedOut && decide (now < deadline)) = true ↔
    ¬ (timedOut = true ∨ deadline ≤ now) := by
  rw [Bool.and_eq_true, Bool.not_eq_true', decide_eq_true_eq, not_or, Bool.not_eq_true]
  exact and_congr_right fun _ => Nat.not_le.symm

section Steps

variable (stands : Standing setting depth key node) (ready : before.Ready setting.tree key)
include stands ready

omit [RemoteService σ] in
theorem Standing.ends_deadlineOf (kind : node.kind = .forDuration) :
    Ends (deadlineOf setting key duration) before
      (fun time entry => entry = before ∧
        before.runs.Limits key setting.now duration time.1 time.2) Aborts := by
  simp only [deadlineOf, ends_bind, ends_runStateOf]
  cases remembered : before.runs.get? key with
  | none =>
    cases settled : setting.now.add? duration with
    | none =>
      simp only [later, settled]
      exact ⟨_, rfl⟩
    | some deadline =>
      simp only [later, settled]
      exact ⟨rfl, .begins remembered settled⟩
  | some state =>
    rcases ready.sound.fits key state remembered with ⟨other, found, fits⟩
    rw [stands.found, Option.some.injEq] at found
    subst found
    cases state with
    | forDuration deadline timedOut => exact ⟨rfl, .goesOn remembered⟩
    | _ => simp [RunState.Fits, kind] at fits

theorem Standing.ends_timeOut (listed : main ∈ node.children) :
    Ends (timeOut setting key main timedOut) before
      (fun _ after => before.TimesOut setting key main timedOut after) Aborts := by
  have ends : Ends (timeOut setting key main timedOut) before
      (fun _ after => after.Ready setting.tree key ∧ after.visits = before.visits ∧
        before.client.Used after.client ∧
        (timedOut = false → before.Clears setting.tree (key.sibling main) after)) Aborts := by
    unfold timeOut
    split
    · rename_i again
      exact ⟨ready, rfl, .unused, fun first => absurd (again.symm.trans first) (by decide)⟩
    · refine (stands.ends_haltChild ready listed).bind ?_
      rintro _ halted ⟨halts, readyHalted⟩
      refine (stands.ends_writeOutput readyHalted).mono ?_ fun _ _ fails => fails
      rintro _ _ ⟨blackboard, rfl, readyWritten, -⟩
      have clears := halts.clears ready.sound
      exact ⟨readyWritten, halts.samePlace.visits, halts.used,
        fun _ => ⟨clears.vacant, clears.calls⟩⟩
  refine (ends.and ends_outcome).mono ?_ fun _ _ fails => fails.1
  rintro ⟨⟩ after ⟨⟨readyAfter, visits, used, clears⟩, ran⟩
  exact ⟨ran, readyAfter, visits, used, clears⟩

/-- A node ticks its first child before the deadline, and the other one from then on. -/
theorem Standing.ends_tickForDuration (kind : node.kind = .forDuration)
    (children : node.children = main :: fallback.toList) :
    Ends (tickForDuration setting (tickWithin setting depth) key node duration) before
      (fun status last => ∃ deadline timedOut,
        before.runs.Limits key setting.now duration deadline timedOut ∧
        before.Limited setting depth key node main fallback deadline timedOut status last)
      Aborts := by
  have placed : node.children[0]? = some main := by simp [children]
  have listed : main ∈ node.children := List.mem_of_getElem? placed
  have fits : ∀ deadline timedOut, (RunState.forDuration deadline timedOut).Fits node :=
    fun _ _ => kind
  have plain : ∀ deadline timedOut, (RunState.forDuration deadline timedOut).IsPlain :=
    fun _ _ => trivial
  unfold tickForDuration
  refine (stands.ends_deadlineOf ready kind).bind ?_
  rintro ⟨deadline, timedOut⟩ _ ⟨rfl, limits⟩
  dsimp only
  rw [ends_bind, Turn.ends_childAt placed]
  split
  · rename_i early
    have notLate := isEarly_iff.1 early
    obtain rfl : timedOut = false := by
      rw [← Bool.not_eq_true]
      exact fun again => notLate (Or.inl again)
    refine (stands.ends_writeOutput ready).bind ?_
    rintro _ written ⟨blackboard, rfl, readyWritten, -⟩
    refine (stands.ends_remember readyWritten (plain _ _) (fits _ _)).bind ?_
    rintro _ entry ⟨rfl, readyEntry⟩
    refine (stands.ends_child readyEntry listed).mono ?_ fun _ _ fails => fails
    exact fun status last ticked => ⟨deadline, false, limits, .inTime notLate ticked.1⟩
  · rename_i notEarly
    have late := not_not.1 (mt isEarly_iff.2 notEarly)
    refine (stands.ends_timeOut ready listed).bind ?_
    rintro _ middle timesOut
    cases fallback with
    | none =>
      have alone : node.children[1]? = none := by simp [children]
      simp only [alone]
      exact ⟨deadline, timedOut, limits, .failed late rfl timesOut⟩
    | some other =>
      have second : node.children[1]? = some other := by simp [children]
      simp only [second]
      refine (stands.ends_remember timesOut.ready (plain _ _) (fits _ _)).bind ?_
      rintro _ entry ⟨rfl, readyEntry⟩
      refine (stands.ends_child readyEntry (List.mem_of_getElem? second)).mono ?_
        fun _ _ fails => fails
      rintro status last ⟨ticked, ran⟩
      exact ⟨deadline, timedOut, limits, .fellBack late rfl timesOut readyEntry ticked ran⟩

end Steps

namespace PastTurn

/-- The node has its first child, and perhaps another one. -/
theorem exists_children (turn : PastTurn σ key) (kind : turn.node.kind = .forDuration) :
    ∃ main, ∃ fallback : Option NodeIndex, turn.node.children = main :: fallback.toList := by
  rcases turn.fits.one_or_two_children (by rw [kind]; rfl) with ⟨main, rest, children, atMostOne⟩
  cases rest with
  | nil => exact ⟨main, none, children⟩
  | cons other rest =>
    have noMore : rest = [] := List.length_eq_zero_iff.1 (by simpa using atMostOne)
    exact ⟨main, some other, by rw [children, noMore]; rfl⟩

/-- The children of the node are different. -/
theorem main_ne_fallback (children : turn.node.children = main :: fallback.toList)
    (given : fallback = some child) : main ≠ child := by
  have nodup := turn.stands.branches.children_nodup turn.stands.found
  rw [children, given] at nodup
  simpa using nodup

/-- A turn of a node whose first child may run until `deadline`. -/
structure Limits (turn : PastTurn σ key) (main : NodeIndex) (fallback : Option NodeIndex)
    (deadline : Duration) (timedOut : Bool) (last : Context σ) : Prop where
  children : turn.node.children = main :: fallback.toList
  limited : turn.before.Limited turn.setting turn.depth key turn.node main fallback deadline
    timedOut turn.status last
  closes : last.Closes turn.setting.tree key turn.status turn.after

theorem exists_limits (children : turn.node.children = main :: fallback.toList)
    (effective : turn.node.effectiveConfiguration turn.before = .ok (.forDuration duration)) :
    ∃ deadline timedOut last,
      turn.before.runs.Limits key turn.setting.now duration deadline timedOut ∧
      turn.Limits main fallback deadline timedOut last := by
  have kind : turn.node.kind = .forDuration := (turn.fits.effective_kind effective).symm
  have ends : Ends (tickConfigured turn.setting (tickWithin turn.setting turn.depth) key turn.node
      (.forDuration duration)) turn.before _ Aborts :=
    turn.stands.ends_tickForDuration turn.ready kind children
  rcases exists_closes effective ends with
    ⟨last, ⟨deadline, timedOut, remembered, limited⟩, closes⟩
  exact ⟨deadline, timedOut, last, remembered, children, limited, closes⟩

namespace Limits

variable (limits : turn.Limits main fallback deadline timedOut last)
include limits

/-- A node that is running remembers whether its first child has run out of time. -/
theorem of_running (running : turn.status = .running) :
    ∃ isOver, turn.after.runs.get? key = some (.forDuration deadline isOver) ∧
      (isOver = true ↔ timedOut = true ∨ deadline ≤ turn.setting.now) := by
  have limited := limits.limited
  rw [(limits.closes.of_running running).1]
  generalize turn.status = status at limited running
  cases limited with
  | inTime early ticked =>
    refine ⟨false, ?_, by simp [early]⟩
    have listed : main ∈ turn.node.children := by simp [limits.children]
    rw [turn.stands.get?_of_ticksChild listed ticked, Context.get?_setRun, if_pos rfl]
  | failed => cases running
  | @fellBack _ _ _ other late given _ _ ticked =>
    refine ⟨true, ?_, by simp [late]⟩
    have listed : other ∈ turn.node.children := by simp [limits.children, given]
    rw [turn.stands.get?_of_ticksChild listed ticked, Context.get?_setRun, if_pos rfl]

/-- Before the deadline the first child is ticked, and from then on the other one, or none. -/
theorem ticks_cases :
    ¬ (timedOut = true ∨ deadline ≤ turn.setting.now) ∧ turn.ticks = [(main, turn.status)] ∨
      (timedOut = true ∨ deadline ≤ turn.setting.now) ∧
        (∀ other, fallback = some other → turn.ticks = [(other, turn.status)]) ∧
        (fallback = none → turn.ticks = [] ∧ turn.status = .failure) := by
  have limited := limits.limited
  have closes := limits.closes
  generalize same : turn.status = status at limited closes ⊢
  cases limited with
  | inTime early ticked => exact Or.inl ⟨early, ticks_eq (same ▸ closes) ticked.ticks⟩
  | failed late alone timesOut =>
    refine Or.inr ⟨late, fun other given => ?_, fun _ => ⟨?_, rfl⟩⟩
    · rw [alone] at given
      cases given
    · refine ticks_eq (same ▸ closes) ?_
      rw [Context.childTicks_congr timesOut.visits, List.append_nil]
  | fellBack late given timesOut _ ticked =>
    refine Or.inr ⟨late, fun other givenToo => ?_, fun none => ?_⟩
    · rw [given, Option.some.injEq] at givenToo
      subst givenToo
      refine ticks_eq (same ▸ closes) ?_
      rw [ticked.ticks]
      exact congrArg (· ++ _) (Context.childTicks_congr timesOut.visits)
    · rw [none] at given
      cases given

end Limits

/-- The context in a turn once the first child has run out of time. -/
def late (turn : PastTurn σ key) (main : NodeIndex) : Context σ :=
  (outcome (timeOut turn.setting key main false) turn.before).2

/-- What becomes of the first child in the turn in which it runs out of time. -/
structure RunsOut (turn : PastTurn σ key) (main : NodeIndex) (fallback : Option NodeIndex)
    (deadline : Duration) : Prop where
  /-- Nothing of it is left when the other child is ticked. -/
  late : turn.before.Clears turn.setting.tree (key.sibling main) (turn.late main)
  ran : ∀ other, fallback = some other →
    (outcome (tickWithin turn.setting turn.depth other)
      ((turn.late main).setRun key (.forDuration deadline true))).1 = .ok turn.status
  /-- Nothing of it is left at the end of the turn, unless the other child shares a frame with it
  because there were no numbers left for frames. -/
  after : (fallback.isSome → turn.after.runs.frames.size < 2 ^ 32) →
    turn.before.Clears turn.setting.tree (key.sibling main) turn.after

theorem Limits.runsOut (limits : turn.Limits main fallback deadline false last)
    (reached : deadline ≤ turn.setting.now) : turn.RunsOut main fallback deadline := by
  have limited := limits.limited
  have closes := limits.closes
  have sound := turn.ready.sound
  generalize same : turn.status = status at limited closes
  cases limited with
  | inTime early => exact absurd (Or.inr reached) early
  | failed _ alone timesOut =>
    have isLate : turn.late main = last := by simp [PastTurn.late, timesOut.ran]
    have clears := timesOut.clears rfl
    refine ⟨isLate ▸ clears, fun other given => ?_, fun _ => ?_⟩
    · rw [alone] at given
      cases given
    · exact clears.later sound timesOut.used closes.used (closes.vacant clears.vacant)
  | @fellBack _ middle _ other _ given timesOut ready ticked ran =>
    have isLate : turn.late main = middle := by simp [PastTurn.late, timesOut.ran]
    have clears := timesOut.clears rfl
    rcases turn.stands.shallow with ⟨rank, ranking, -⟩
    have listed : main ∈ turn.node.children := by simp [limits.children]
    have listedToo : other ∈ turn.node.children := by simp [limits.children, given]
    have different := main_ne_fallback limits.children given
    refine ⟨isLate ▸ clears, fun otherToo givenToo => ?_, fun room => ?_⟩
    · rw [given, Option.some.injEq] at givenToo
      rw [isLate, ← givenToo, ran, same]
    · have distinct : last.runs.Distinct :=
        (turn.distinct_after (room (by simp [given]))).of_framesIn (.of_eq closes.frames_eq)
      have vacant := turn.stands.vacant_of_ticksChild ready listed listedToo different ticked
        distinct (Context.vacant_setRun ranking turn.stands.found listed clears.vacant)
      have used := turn.stands.used_of_child ready listedToo ran
      exact clears.later sound timesOut.used (used.trans closes.used) (closes.vacant vacant)

end PastTurn

/-- In every turn of an activation the deadline is that of the first turn, and the first child has
run out of time before if an earlier turn came too late. -/
theorem Activation.exists_limits (activation : Activation (turn :: turns))
    (children : turn.node.children = main :: fallback.toList) {told : Duration}
    (effective : turn.node.effectiveConfiguration turn.before = .ok (.forDuration told))
    {first : PastTurn σ key} (isFirst : (turn :: turns).getLast? = some first)
    (began : first.node.effectiveConfiguration first.before = .ok (.forDuration duration)) :
    ∃ deadline timedOut last, first.setting.now.add? duration = some deadline ∧
      (timedOut = true ↔ ∃ earlier ∈ turns, deadline ≤ earlier.setting.now) ∧
      turn.Limits main fallback deadline timedOut last := by
  induction turns generalizing turn told with
  | nil =>
    cases activation with
    | begins fresh =>
      cases isFirst
      rw [List.getLast_singleton, effective, Except.ok.injEq, Configuration.forDuration.injEq]
        at began
      subst began
      rcases PastTurn.exists_limits children effective with
        ⟨deadline, timedOut, last, remembered, limits⟩
      cases remembered with
      | begins _ settled => exact ⟨deadline, false, last, settled, by simp, limits⟩
      | goesOn remembered => rw [fresh] at remembered; cases remembered
  | cons previous turns ih =>
    cases activation with
    | goesOn activation running leaves =>
      rcases previous.exists_effective running with ⟨configuration, effectiveBefore⟩
      have kind : configuration.kind = .forDuration := by
        rw [previous.fits.effective_kind effectiveBefore, leaves.node_eq,
          ← turn.fits.effective_kind effective]
        rfl
      rcases Configuration.exists_forDuration kind with ⟨toldBefore, rfl⟩
      rcases ih activation (leaves.node_eq ▸ children) effectiveBefore
        (by simpa using isFirst) with ⟨deadline, timedOut, last, settled, over_iff, limits⟩
      rcases limits.of_running running with ⟨isOver, remembered, isOver_iff⟩
      have state := leaves.state _ remembered trivial
      rcases PastTurn.exists_limits children effective with
        ⟨deadlineToo, timedOutToo, lastToo, rememberedToo, limitsToo⟩
      cases rememberedToo with
      | begins fresh => rw [state] at fresh; cases fresh
      | goesOn rememberedToo =>
        rw [state, Option.some.injEq, RunState.forDuration.injEq] at rememberedToo
        rcases rememberedToo with ⟨rfl, rfl⟩
        refine ⟨deadline, isOver, lastToo, settled, ?_, limitsToo⟩
        rw [isOver_iff, over_iff, List.exists_mem_cons_iff]
        exact or_comm

theorem inTime_iff : (∀ turn ∈ turns, turn.setting.now < deadline) ↔
    ¬ ∃ turn ∈ turns, deadline ≤ turn.setting.now := by
  rw [not_exists]
  refine forall_congr' fun turn => ?_
  rw [not_and]
  exact imp_congr_right fun _ => Nat.not_le.symm

/-- What a node whose first child may run until `deadline` does in the turns of an activation, up to
the latest one. -/
structure PastTurn.LimitsAfter (main : NodeIndex) (fallback : Option NodeIndex)
    (deadline : Duration) (turn : PastTurn σ key) (earlier : List (PastTurn σ key)) : Prop where
  /-- The first child is ticked in the turns before the first one that is too late. -/
  main_iff : (∃ status, (main, status) ∈ turn.ticks) ↔
    ∀ other ∈ turn :: earlier, other.setting.now < deadline
  inTime : (∀ other ∈ turn :: earlier, other.setting.now < deadline) →
    turn.ticks = [(main, turn.status)]
  /-- From then on the other child is ticked, and if there is none the node fails. -/
  late : (∃ other ∈ turn :: earlier, deadline ≤ other.setting.now) →
    (∀ other, fallback = some other → turn.ticks = [(other, turn.status)]) ∧
      (fallback = none → turn.ticks = [] ∧ turn.status = .failure)
  runsOut : deadline ≤ turn.setting.now → (∀ other ∈ earlier, other.setting.now < deadline) →
    turn.RunsOut main fallback deadline

/-- Whatever a node is told and its children do, its first child has the time that the node was told
in the first turn. -/
theorem Activation.limits (activation : Activation (turn :: turns))
    (children : turn.node.children = main :: fallback.toList) {told : Duration}
    (effective : turn.node.effectiveConfiguration turn.before = .ok (.forDuration told))
    {first : PastTurn σ key} (isFirst : (turn :: turns).getLast? = some first)
    (began : first.node.effectiveConfiguration first.before = .ok (.forDuration duration)) :
    ∃ deadline, first.setting.now.add? duration = some deadline ∧
      turn.LimitsAfter main fallback deadline turns := by
  rcases activation.exists_limits children effective isFirst began with
    ⟨deadline, timedOut, last, settled, over_iff, limits⟩
  have late_iff : (∃ other ∈ turn :: turns, deadline ≤ other.setting.now) ↔
      timedOut = true ∨ deadline ≤ turn.setting.now := by
    rw [List.exists_mem_cons_iff, ← over_iff]
    exact or_comm
  refine ⟨deadline, settled, ?_⟩
  have runsOut : deadline ≤ turn.setting.now →
      (∀ other ∈ turns, other.setting.now < deadline) → turn.RunsOut main fallback deadline := by
    intro reached before
    have early : timedOut = false := by
      rw [← Bool.not_eq_true, over_iff]
      exact inTime_iff.1 before
    subst early
    exact limits.runsOut reached
  rcases limits.ticks_cases with ⟨early, ticks⟩ | ⟨late, fellBack, failed⟩
  · rw [← late_iff] at early
    refine ⟨?_, fun _ => ticks, fun late => absurd late early, runsOut⟩
    rw [inTime_iff, ticks]
    exact ⟨fun _ => early, fun _ => ⟨_, List.mem_singleton_self _⟩⟩
  · rw [← late_iff] at late
    refine ⟨?_, fun inTime => absurd late (inTime_iff.1 inTime), fun _ => ⟨fellBack, failed⟩,
      runsOut⟩
    rw [inTime_iff]
    refine ⟨fun ⟨status, ticked⟩ => ?_, fun early => absurd late early⟩
    cases given : fallback with
    | none =>
      rw [(failed given).1] at ticked
      cases ticked
    | some other =>
      rw [fellBack other given, List.mem_singleton, Prod.mk.injEq] at ticked
      exact absurd ticked.1 (PastTurn.main_ne_fallback children given)

end BehaviorTree
