import BehaviorTree.Proofs.Engine.Arrivals
import BehaviorTree.Proofs.Engine.Chronicle
import BehaviorTree.Proofs.Engine.ClientUse

/-!
# On the way to a node

When the engine arrives at a node, the nodes above it are in the middle of their turns. The context
in which it arrives is one that is entered on the course of the node that asks for the tick. So what
courses keep is kept on the way: nothing is amiss, services are used as ticks use them, and a request
that is still remembered is the one that was made.
-/

namespace BehaviorTree

variable {σ α : Type} [RemoteService σ] {setting : Setting} {depth : Nat} {key upper target : RunKey}
  {node : Node} {index upperIndex : NodeIndex} {path : List NodeIndex}
  {run trapped : NodeIndex → Tick σ Status} {failure : Failure EngineError}
  {rank : NodeIndex → Nat} {invocations : List (Invocation σ)} {seen running : List RunKey}
  {start context before after inner : Context σ}

/-- Ticks that are like other ones, though the tick of one node in one context fails. -/
structure Traps (run : NodeIndex → Tick σ Status) (index : NodeIndex) (inner : Context σ)
    (failure : Failure EngineError) (trapped : NodeIndex → Tick σ Status) : Prop where
  caught : (outcome (trapped index) inner).1 = .error failure
  elsewhere : ∀ indexToo innerToo, ¬ (indexToo = index ∧ innerToo = inner) →
    outcome (trapped indexToo) innerToo = outcome (run indexToo) innerToo

omit [RemoteService σ] in
theorem exists_traps (run : NodeIndex → Tick σ Status) (index : NodeIndex) (inner : Context σ)
    (failure : Failure EngineError) : ∃ trapped, Traps run index inner failure trapped := by
  classical
  refine ⟨fun other => ExceptT.mk fun place => if other = index ∧ place = inner
    then (.error failure, place) else outcome (run other) place, ?_, ?_⟩
  · exact congrArg Prod.fst (if_pos ⟨rfl, rfl⟩)
  · exact fun other place apart => if_neg apart

namespace Traps

variable (traps : Traps run index inner failure trapped)
include traps

omit [RemoteService σ] in
/-- A tick that has a status is not the one that fails. -/
theorem ran {other : NodeIndex} {status : Status}
    (ran : outcome (trapped other) context = (.ok status, after)) :
    outcome (run other) context = (.ok status, after) := by
  have apart : ¬ (other = index ∧ context = inner) := by
    rintro ⟨rfl, rfl⟩
    have caught := traps.caught
    rw [ran] at caught
    cases caught
  rw [← traps.elsewhere other context apart, ran]

omit [RemoteService σ] in
theorem behaves {tree : Tree} (behaves : Behaves tree run) : Behaves tree trapped := by
  intro target context atTarget isNode fits
  have behaved := behaves target context atTarget isNode fits
  unfold Ends
  split
  · rename_i status after ended
    exact behaved.of_eq_ok (traps.ran ended)
  · trivial

/-- A course on which no tick failed is the same with the other ticks. -/
theorem course {tree : Tree} {now : Duration}
    (course : Course tree now trapped key node start seen running context) :
    Course tree now run key node start seen running context := by
  induction course with
  | start => exact .start
  | wrote _ writes ih => exact ih.wrote writes
  | noted _ ih => exact ih.noted
  | remembered _ plain fits ih => exact ih.remembered plain fits
  | opened _ kind gone created ih => exact ih.opened kind gone created
  | ticked _ enters ended outside fits ih => exact ih.ticked enters (traps.ran ended) outside fits
  | halted _ listed halts ih => exact ih.halted listed halts
  | served _ kind serves ih => exact ih.served kind serves

/-- A node that asks for the tick that fails has no status. -/
theorem aborts {body : (NodeIndex → Tick σ Status) → Attempt σ α}
    (itinerary : Itinerary setting key node path body)
    (heeds : Heeds body run context index inner) :
    (outcome (body trapped) context).1 = .error (.abort failure) := by
  induction itinerary generalizing context with
  | own own => exact absurd heeds Heeds.not_of_still
  | @bind _ _ _ _ first next _ _ ih ihNext =>
    rw [outcome_bind]
    by_cases inFirst : Heeds first run context index inner
    · have failed := ih inFirst
      rcases ended : outcome (first trapped) context with ⟨error | result, middle⟩ <;>
        rw [ended] at failed <;> cases failed
      rfl
    · have same : outcome (first trapped) context = outcome (first run) context := by
        by_contra different
        exact inFirst ⟨trapped, traps.elsewhere, different⟩
      rcases heeds.bind with heeds | ⟨result, middle, ended, heeds⟩
      · exact absurd heeds inFirst
      · rw [same, ended]
        exact ihNext result heeds
  | tick =>
    rcases heeds.tick with ⟨rfl, rfl⟩
    change (outcome (Tick.attempt (trapped _)) context).1 = _
    rw [outcome_attempt, traps.caught]
    rfl
  | halt => exact absurd heeds Heeds.not_of_still
  | inScope scope _ ih =>
    rw [outcome_inScope]
    exact ih heeds.inScope
  | invoke =>
    rcases heeds.invoke with ⟨definition, parameters, known, isNode, filled, rfl⟩
    rw [outcome_tickReference known isNode]
    simp only [filled, traps.caught]
    rfl
  | among _ _ ih => exact ih heeds

end Traps

/-- The context in which a node is asked for is entered on the course of the node that asks. -/
theorem Asks.exists_enters (asks : Asks setting depth upper.node context index inner)
    (stands : Standing setting depth upper node) (ready : context.Ready setting.tree upper) :
    ∃ seen running place,
      setting.Course (tickWithin setting depth) upper node context seen running place ∧
        place.Enters setting.tree upper node ⟨inner.frame, index⟩ inner := by
  rcases stands.shallow with ⟨rank, ranking, shallow⟩
  have here : (⟨context.frame, upper.node⟩ : RunKey) = upper := by rw [ready.atKey]
  rcases asks.exists_heeds with ⟨other, found, heeds⟩
  cases found.symm.trans stands.found
  rw [here] at heeds
  rcases heeds.exists_itinerary stands.wellFormed stands.found with
    ⟨configuration, -, itinerary, heeds, same⟩
  -- Ticks of nodes in sound contexts do not recurse without bound, so that this failure is told
  -- apart from all others.
  rcases exists_traps (tickWithin setting depth) index inner (.crash .unboundedRecursion) with
    ⟨trapped, traps⟩
  have turn : Turn setting trapped upper node context :=
    ⟨traps.behaves (behaves_tickWithin stands.wellFormed depth), stands.wellFormed, stands.found,
      ready.atKey, ready.sound.fits⟩
  have attempted := turn.ends_attemptNode
  have aborts := traps.aborts itinerary heeds
  rw [← same trapped] at aborts
  unfold Ends at attempted
  rcases ended : outcome (attemptNode setting trapped upper node) context with
    ⟨fault | status, after⟩ <;> rw [ended] at attempted aborts <;> cases aborts
  cases attempted.1 with
  | overflow overflow => simp [Failure.IsOverflow] at overflow
  | @inner seen running place entered after target _ course enters ran =>
    by_cases arrived : target.node = index ∧ entered = inner
    · rcases arrived with ⟨rfl, rfl⟩
      have frame := enters.frame ((course.outside stands.found).frame.trans ready.atKey)
      exact ⟨seen, running, place, traps.course course, by rwa [frame]⟩
    · rw [traps.elsewhere _ _ arrived] at ran
      have leads := (enters.invokes stands.found).leads
      have entering := (traps.course course).ready_of_enters stands ranking shallow ready enters
      have sound := ends_tickWithin_sound stands.wellFormed ranking
        (stands.wellFormed.closed _ _ leads)
        (Nat.lt_of_lt_of_le (ranking.descends _ _ leads) shallow) entering.atKey entering.sound
        entering.anchored
      unfold Ends at sound
      rw [ran] at sound
      simp [Failure.IsOverflow] at sound

omit [RemoteService σ] in
/-- A node that invokes others uses no service. -/
theorem Context.Enters.local_kind {tree : Tree} (enters : context.Enters tree key node target inner)
    (fits : node.Fits) (operation : RemoteOperation) : node.kind ≠ .remote operation := by
  intro kind
  have childless : node.children = [] := fits.no_child (by rw [kind]; rfl)
  cases enters with
  | child listed => simp [childless] at listed
  | inScope listed held => simp [childless] at listed
  | inFrame parameters configured known =>
    have isReference := fits.kind_eq_reference_iff.2 ⟨_, configured⟩
    rw [kind] at isReference
    cases isReference

/-- What the engine finds at a node at which it arrives in the course of a tick: nothing is amiss,
and until then services were used as ticks use them. -/
structure Setting.Approach (setting : Setting) (rank : NodeIndex → Nat) (start : Context σ)
    (depth : Nat) (index : NodeIndex) (before : Context σ) : Prop where
  isNode : (setting.tree.node? index).isSome
  shallow : rank index < depth
  ready : before.Ready setting.tree ⟨before.frame, index⟩
  deals : start.Deals setting before

section Approaches

variable (wellFormed : setting.tree.WellFormed) (branches : setting.tree.Branches)
  (ranking : setting.tree.Ranking rank)
include wellFormed branches ranking

theorem Setting.Approach.next
    (approach : setting.Approach rank start (depth + 1) upperIndex context)
    (asks : Asks setting depth upperIndex context index inner) :
    setting.Approach rank start depth index inner := by
  rcases Option.isSome_iff_exists.1 approach.isNode with ⟨node, found⟩
  have shallow := Nat.le_of_lt_succ approach.shallow
  have ready := approach.ready
  have stands : Standing setting depth ⟨context.frame, upperIndex⟩ node :=
    ⟨wellFormed, branches, found, rank, ranking, shallow⟩
  have asked : Asks setting depth (⟨context.frame, upperIndex⟩ : RunKey).node context index inner :=
    asks
  rcases asked.exists_enters stands ready with ⟨seen, running, place, course, enters⟩
  have leads := (enters.invokes found).leads
  have deals := course.deals found (enters.local_kind (wellFormed.fits _ _ found)) wellFormed
    ready.atKey ready.sound.fits (dealing_tickWithin wellFormed depth)
  refine ⟨wellFormed.closed _ _ leads, Nat.lt_of_lt_of_le (ranking.descends _ _ leads) shallow,
    course.ready_of_enters stands ranking shallow ready enters, ?_⟩
  refine (approach.deals.trans deals).elsewhere enters.client fun key => ?_
  simp only [RunStore.remoteRun, enters.get?]

/-- Nothing is amiss at a node at which the engine arrives, if nothing was when the tick began. -/
theorem Ticks.approach (ticks : Ticks setting start invocations depth index before)
    (ready : start.Ready setting.tree ⟨start.frame, setting.tree.main⟩) :
    setting.Approach rank start depth index before := by
  induction ticks with
  | main =>
    have isNode := wellFormed.rooted
    exact ⟨isNode, Nat.lt_succ_of_lt (ranking.bounded _ isNode), ready, .nothing⟩
  | child ticks found ordinary asks ih => exact ih.next wellFormed branches ranking asks
  | target ticks found configured asks ih => exact ih.next wellFormed branches ranking asks

end Approaches

/-- A request that a node remembers when the engine arrives there is the one that the client waited
for when the tick began. -/
theorem Setting.Approach.get?_calls (approach : setting.Approach rank start depth index before)
    (sound : start.Sound setting.tree) {handle : CallHandle} {call : OutstandingCall}
    (outstanding : start.client.calls.get? handle = some call)
    (made : before.runs.callAt key = some handle) :
    before.client.calls.get? handle = some call := by
  have held := (approach.ready.sound.accounted.calls.used_iff handle).2 ⟨key, made⟩
  rcases Table.contains_iff.1 held with ⟨callToo, found⟩
  have old := sound.accounted.numbered handle (Table.contains_iff.2 ⟨call, outstanding⟩)
  have same := approach.deals.used.ages.old handle callToo found old
  rw [outstanding] at same
  rw [found, same]

end BehaviorTree
