import BehaviorTree.Proofs.Engine.Turn

/-!
# Kinds of nodes

The kinds of nodes are gone through once. Whatever a node does in its turn is a course, on which it
fails for a cause of its own, or has a status; and if it is running, it has settled.
-/

namespace BehaviorTree

variable {σ : Type} [RemoteService σ] {setting : Setting} {run : NodeIndex → Tick σ Status}
  {key : RunKey} {node : Node} {start context : Context σ} {seen running : List RunKey}

namespace Turn

omit [RemoteService σ] in
/-- A node that is no reference goes on with children that are current. -/
theorem goesOn_iff (turn : Turn setting run key node start) (ordinary : node.kind ≠ .reference)
    {runs : RunStore} {target : RunKey} :
    setting.tree.GoesOn runs key target ↔ ∃ position child,
      node.Current (runs.get? key) position ∧ node.children[position]? = some child ∧
        target = key.sibling child := by
  constructor
  · intro goesOn
    cases goesOn with
    | child found placed current =>
      rw [turn.found, Option.some.injEq] at found
      subst found
      exact ⟨_, _, current, placed, rfl⟩
    | target found configured framed known =>
      rw [turn.found, Option.some.injEq] at found
      subst found
      have isReference := (turn.wellFormed.fits _ _ turn.found).kind_eq_reference_iff.2
        ⟨_, configured⟩
      exact absurd isReference ordinary
  · rintro ⟨position, child, current, placed, rfl⟩
    exact .child turn.found placed current

omit [RemoteService σ] in
theorem goesOn_child_iff (turn : Turn setting run key node start)
    (kind : node.kind = .sequence ∨ node.kind = .selector) {runs : RunStore} {target : RunKey} :
    setting.tree.GoesOn runs key target ↔ ∃ position child, runs.get? key = some (.child position) ∧
      node.children[position]? = some child ∧ target = key.sibling child := by
  have current : ∀ position,
      node.Current (runs.get? key) position ↔ runs.get? key = some (.child position) := by
    intro position
    rcases kind with kind | kind <;> simp [Node.Current, kind]
  rw [turn.goesOn_iff (by rcases kind with kind | kind <;> rw [kind] <;> decide)]
  simp only [current]

theorem ends_forM_haltSibling (turn : Turn setting run key node start) (children : List NodeIndex)
    (listed : ∀ child ∈ children, child ∈ node.children)
    (course : setting.Course run key node start seen running context) :
    Ends (children.forM (haltSibling setting.tree key)) context
      (fun _ after => ∃ more, setting.Course run key node start more running after ∧
        (∀ target ∈ seen, target ∈ more) ∧ ∀ child ∈ children, key.sibling child ∈ more)
      (setting.Fails run key node start) := by
  induction children generalizing context seen with
  | nil => exact ⟨seen, course, fun _ listed => listed, by simp⟩
  | cons child rest ih =>
    rw [List.forM]
    refine (turn.ends_haltSibling course (listed child List.mem_cons_self)).bind ?_
    rintro _ middle ⟨halted, -⟩
    refine (ih (fun other later => listed other (List.mem_cons_of_mem _ later)) halted).mono ?_
      fun _ _ fails => fails
    rintro _ after ⟨more, courseAfter, kept, haltedRest⟩
    refine ⟨more, courseAfter, fun target old => kept target (List.mem_cons_of_mem _ old), ?_⟩
    intro other later
    rcases List.mem_cons.1 later with rfl | later
    · exact kept _ List.mem_cons_self
    · exact haltedRest other later

/-- The children after a position up to the one that ran last are halted. -/
theorem ends_handOver (turn : Turn setting run key node start) {previous : Option Nat}
    {position : Nat} (inside : ∀ last, previous = some last → last < node.children.length)
    (course : setting.Course run key node start seen running context) :
    Ends (handOver setting.tree key node.children previous position) context
      (fun _ after => ∃ more, setting.Course run key node start more running after ∧
        (∀ target ∈ seen, target ∈ more) ∧ ∀ last child, previous = some last → position < last →
          node.children[last]? = some child → key.sibling child ∈ more)
      (setting.Fails run key node start) := by
  unfold handOver
  split
  · rename_i last
    split
    · rename_i before
      unfold abandon
      rw [if_pos (inside last rfl)]
      refine (turn.ends_forM_haltSibling _ ?_ course).mono ?_ fun _ _ fails => fails
      · exact fun child listed => List.mem_of_mem_take (List.mem_of_mem_drop listed)
      · rintro _ after ⟨more, courseAfter, kept, halted⟩
        refine ⟨more, courseAfter, kept, ?_⟩
        rintro _ child ⟨⟩ _ placed
        apply halted
        -- The child that ran last is the last one of those that are halted.
        rw [List.mem_iff_getElem?]
        refine ⟨last - (position + 1), ?_⟩
        have offset : position + 1 + (last - (position + 1)) = last := by omega
        rw [List.getElem?_drop, offset, List.getElem?_take_of_lt (Nat.lt_succ_self last), placed]
    · rename_i notBefore
      refine ⟨seen, course, fun _ listed => listed, ?_⟩
      rintro _ child ⟨⟩ before
      exact absurd before notBefore
  · refine ⟨seen, course, fun _ listed => listed, ?_⟩
    intro last child impossible
    cases impossible

/-- Children are ticked from a position on. Those before it were ticked, from the first one. -/
theorem ends_tickFrom (turn : Turn setting run key node start)
    (kind : node.kind = .sequence ∨ node.kind = .selector) {previous : Option Nat}
    (remembered : ∀ position, start.runs.get? key = some (.child position) →
      previous = some position)
    (inside : ∀ last, previous = some last → last < node.children.length)
    {stopOn otherwise : Status} (ends : otherwise ≠ .running)
    {first position : Nat} (early : ∀ last, previous = some last → first ≤ last)
    (rest : List NodeIndex) (dropped : rest = node.children.drop position)
    (course : setting.Course run key node start seen [] context)
    (passed : ∀ index child, first ≤ index → index < position →
      node.children[index]? = some child → key.sibling child ∈ seen) :
    Ends (tickFrom setting.tree run key node.children previous stopOn otherwise position rest)
      context (setting.Finishes run key node start)
      (setting.Fails run key node start) := by
  induction rest generalizing context seen position with
  | nil => exact ⟨seen, [], course, fun impossible => absurd impossible ends⟩
  | cons child rest ih =>
    have placed : node.children[position]? = some child := by
      have head : (node.children.drop position)[0]? = some child := by rw [← dropped]; rfl
      simpa using head
    have restDropped : rest = node.children.drop (position + 1) := by
      have tail : (node.children.drop position).tail = rest := by rw [← dropped]; rfl
      rw [← tail, List.tail_drop]
    have passedNext : ∀ index other, first ≤ index → index < position + 1 →
        node.children[index]? = some other → key.sibling other ∈ key.sibling child :: seen := by
      intro index other late soon found
      rcases Nat.lt_or_eq_of_le (Nat.le_of_lt_succ soon) with before | rfl
      · exact List.mem_cons_of_mem _ (passed index other late before found)
      · rw [placed] at found
        cases found
        exact List.mem_cons_self
    unfold tickFrom
    refine (turn.ends_child course (List.mem_of_getElem? placed)).bind ?_
    rintro status middle ⟨ticked, -⟩
    by_cases isRunning : status = .running
    · rw [if_pos isRunning] at ticked
      simp only [if_pos isRunning]
      refine (turn.ends_handOver inside ticked).bind ?_
      rintro _ after ⟨more, handed, kept, halted⟩
      have fits : (RunState.child position).Fits node :=
        ⟨kind, (List.getElem?_eq_some_iff.1 placed).1⟩
      refine (ends_remember handed fits trivial).bind ?_
      rintro _ final ⟨rfl, finished⟩
      refine ⟨more, [key.sibling child], finished, fun _ => ⟨?_, ?_, ?_⟩⟩
      · -- The child that ran last was passed, or ran again, or handed over.
        intro target goesOn
        rcases (turn.goesOn_child_iff kind).1 goesOn with ⟨last, other, last_eq, found, rfl⟩
        have isPrevious := remembered last last_eq
        by_cases later : position < last
        · exact halted last other isPrevious later found
        · exact kept _ (passedNext last other (early last isPrevious)
            (Nat.lt_succ_of_le (Nat.le_of_not_lt later)) found)
      · intro target goesOn
        rcases (turn.goesOn_child_iff kind).1 goesOn with ⟨current, other, current_eq, found, rfl⟩
        rw [Context.get?_setRun, if_pos rfl] at current_eq
        cases current_eq
        rw [placed] at found
        cases found
        exact kept _ List.mem_cons_self
      · intro target listed
        rw [List.mem_singleton] at listed
        subst listed
        rw [turn.goesOn_child_iff kind]
        exact ⟨position, child, by rw [Context.get?_setRun, if_pos rfl], placed, rfl⟩
    · rw [if_neg isRunning] at ticked
      simp only [if_neg isRunning]
      split
      · rename_i stopped
        exact ⟨_, [], ticked, fun impossible => absurd impossible isRunning⟩
      · exact ih restDropped ticked passedNext

theorem ends_tickChildren (turn : Turn setting run key node start)
    (kind : node.kind = .sequence ∨ node.kind = .selector) {always : Bool}
    {stopOn otherwise : Status} (ends : otherwise ≠ .running) :
    Ends (tickChildren setting.tree run key node.children always stopOn otherwise) start
      (setting.Finishes run key node start) (setting.Fails run key node start) := by
  unfold tickChildren
  simp only [ends_bind, ends_runStateOf]
  have inside : ∀ position, start.runs.get? key = some (.child position) →
      position < node.children.length := fun position remembered =>
    (turn.fits_of_remembered remembered).2
  split
  · rename_i position remembered
    apply turn.ends_tickFrom kind _ _ ends _ _ rfl .start
    · intro index child late soon
      exact absurd soon (Nat.not_lt.2 late)
    · intro other same
      rw [remembered] at same
      cases same
      rfl
    · rintro last ⟨⟩
      exact inside position remembered
    · rintro last ⟨⟩
      split
      · exact Nat.zero_le _
      · exact Nat.le_refl _
  · rename_i other
    apply turn.ends_tickFrom kind _ _ ends _ _ rfl .start
    · intro index child late soon
      exact absurd soon (Nat.not_lt.2 late)
    · intro position remembered
      exact absurd remembered (other position)
    · intro last impossible
      cases impossible
    · intro last impossible
      cases impossible

/-- A node that always goes on with its only child has settled once it dealt with the child. -/
theorem finishes_of_child (turn : Turn setting run key node start)
    (course : setting.Course run key node start seen running context)
    (steady : ∀ state position, node.Current state position) (count : node.kind.childCount = .one)
    {child : NodeIndex} (listed : child ∈ node.children) (dealt : key.sibling child ∈ seen)
    (status : Status) : setting.Finishes run key node start status context := by
  refine ⟨seen, running, course, fun _ => turn.settled_of_steady course steady ?_⟩
  intro target invokes
  have ordinary : node.kind ≠ .reference := by
    intro kind
    rw [kind] at count
    cases count
  rcases (turn.invokes_iff ordinary _ _).1 invokes with ⟨other, otherListed, rfl⟩
  rcases (turn.wellFormed.fits _ _ turn.found).one_child count with ⟨only, onlyChild⟩
  rw [onlyChild, List.mem_singleton] at listed otherListed
  rwa [otherListed, ← listed]

omit [RemoteService σ] in
/-- The child at a position where a node has one. -/
theorem ends_childAt {position : Nat} {child : NodeIndex}
    (placed : node.children[position]? = some child) {after : NodeIndex → Context σ → Prop}
    {failed : Fault → Context σ → Prop} :
    Ends (childAt node key position) context after failed ↔ after child context := by
  unfold childAt
  rw [placed]
  exact Iff.rfl

omit [RemoteService σ] in
theorem ends_counted {after : Option Int64 → Context σ → Prop}
    {failed : Fault → Context σ → Prop} (ends : ∀ count, after count context) :
    Ends (counted key) context after failed := by
  unfold counted
  simp only [ends_bind, ends_runStateOf]
  split <;> exact ends _

theorem ends_startsOf (course : setting.Course run key node start seen running context) :
    Ends (startsOf setting key) context
      (fun _ after => setting.Course run key node start seen running after)
      (setting.Fails run key node start) := by
  unfold startsOf
  rw [ends_bind]
  apply ends_counted
  intro count
  split
  · exact course
  · refine (ends_writeOutput course).bind ?_
    exact fun _ after written => written.2

theorem ends_tickRepeater (turn : Turn setting run key node start) (kind : node.kind = .repeater)
    {child : NodeIndex} (listed : child ∈ node.children) (maxStarts : Int64) :
    Ends (tickRepeater setting run key child maxStarts) start
      (setting.Finishes run key node start) (setting.Fails run key node start) := by
  have steady : ∀ state position, node.Current state position := by
    simp [Node.Current, kind]
  have count : node.kind.childCount = .one := by rw [kind]; rfl
  have fits : ∀ number, (RunState.counter number).Fits node := fun _ => Or.inl kind
  unfold tickRepeater
  split
  · exact ⟨[], [], .start, fun impossible => by cases impossible⟩
  · refine (ends_startsOf .start).bind ?_
    intro starts context course
    refine (turn.ends_child course listed).bind ?_
    rintro status after ⟨ticked, -⟩
    split
    · dsimp only
      split
      · exact ⟨_, _, ticked, fun impossible => by cases impossible⟩
      · refine (ends_writeOutput ticked).bind ?_
        rintro _ middle ⟨-, written⟩
        refine (ends_remember written (fits _) trivial).bind ?_
        rintro _ final ⟨-, finished⟩
        exact turn.finishes_of_child finished steady count listed List.mem_cons_self _
    · refine (ends_remember ticked (fits _) trivial).bind ?_
      rintro _ final ⟨-, finished⟩
      exact turn.finishes_of_child finished steady count listed List.mem_cons_self _
    · exact ⟨_, _, ticked, fun impossible => by cases impossible⟩

theorem ends_tickRetrier (turn : Turn setting run key node start) (kind : node.kind = .retrier)
    {child : NodeIndex} (listed : child ∈ node.children) (maxAttempts : Int64) :
    Ends (tickRetrier setting run key child maxAttempts) start
      (setting.Finishes run key node start) (setting.Fails run key node start) := by
  have steady : ∀ state position, node.Current state position := by
    simp [Node.Current, kind]
  have count : node.kind.childCount = .one := by rw [kind]; rfl
  have fits : ∀ number, (RunState.counter number).Fits node := fun _ => Or.inr kind
  unfold tickRetrier
  rw [ends_bind]
  apply ends_counted
  intro failures
  refine (turn.ends_child .start listed).bind ?_
  rintro status after ⟨ticked, -⟩
  split
  · dsimp only
    split
    · exact ⟨_, _, ticked, fun impossible => by cases impossible⟩
    · refine (ends_writeOutput ticked).bind ?_
      rintro _ middle ⟨-, written⟩
      refine (ends_remember written (fits _) trivial).bind ?_
      rintro _ final ⟨-, finished⟩
      exact turn.finishes_of_child finished steady count listed List.mem_cons_self _
  · refine (ends_remember ticked (fits _) trivial).bind ?_
    rintro _ final ⟨-, finished⟩
    exact turn.finishes_of_child finished steady count listed List.mem_cons_self _
  · exact ⟨_, _, ticked, fun impossible => by cases impossible⟩

theorem ends_haltAfterPause (turn : Turn setting run key node start) {child : NodeIndex}
    (listed : child ∈ node.children)
    (course : setting.Course run key node start seen running context) :
    Ends (haltAfterPause setting key child) context
      (fun _ after => ∃ more, setting.Course run key node start more running after)
      (setting.Fails run key node start) := by
  unfold haltAfterPause
  simp only [ends_bind, ends_runStateOf]
  split
  · split
    · refine (turn.ends_haltSibling course listed).mono ?_ fun _ _ fails => fails
      exact fun _ after halted => ⟨_, halted.1⟩
    · exact ⟨seen, course⟩
  · exact ⟨seen, course⟩

theorem ends_tickRestartWhenPaused (turn : Turn setting run key node start)
    (kind : node.kind = .restartWhenPaused) :
    Ends (tickRestartWhenPaused setting run key node) start
      (setting.Finishes run key node start) (setting.Fails run key node start) := by
  have steady : ∀ state position, node.Current state position := by
    simp [Node.Current, kind]
  have count : node.kind.childCount = .one := by rw [kind]; rfl
  rcases (turn.wellFormed.fits _ _ turn.found).one_child count with ⟨child, only⟩
  have listed : child ∈ node.children := by simp [only]
  unfold tickRestartWhenPaused
  rw [ends_bind, ends_childAt (by rw [only]; rfl)]
  refine (turn.ends_haltAfterPause listed .start).bind ?_
  rintro _ context ⟨more, course⟩
  have fits : (RunState.epoch setting.pauses).Fits node := kind
  refine (ends_remember course fits trivial).bind ?_
  rintro _ middle ⟨-, remembered⟩
  refine (turn.ends_child remembered listed).mono ?_ fun _ _ fails => fails
  rintro status after ⟨ticked, -⟩
  exact turn.finishes_of_child ticked steady count listed List.mem_cons_self status

theorem ends_tickParallel (turn : Turn setting run key node start)
    (kind : node.kind = .simpleParallel) :
    Ends (tickParallel run key node) start
      (setting.Finishes run key node start) (setting.Fails run key node start) := by
  have steady : ∀ state position, node.Current state position := by
    simp [Node.Current, kind]
  rcases (turn.wellFormed.fits _ _ turn.found).two_children (by rw [kind]; rfl) with
    ⟨first, second, both⟩
  unfold tickParallel
  rw [ends_bind, ends_childAt (by rw [both]; rfl)]
  refine (turn.ends_child .start (by simp [both])).bind ?_
  rintro status middle ⟨tickedFirst, -⟩
  simp only [ends_bind, Attempt.ends_get]
  rw [ends_childAt (by rw [both]; rfl)]
  refine (turn.ends_child tickedFirst (by simp [both])).mono ?_ fun _ _ fails => fails
  rintro ignored after ⟨tickedBoth, -⟩
  have finishes : ∀ {context : Context σ} {running : List RunKey},
      setting.Course run key node start [key.sibling second, key.sibling first] running
        context → setting.Finishes run key node start status context := by
    intro context running course
    refine ⟨_, _, course, fun _ => turn.settled_of_steady course steady ?_⟩
    intro target invokes
    rcases (turn.invokes_iff (by rw [kind]; decide) _ _).1 invokes with ⟨child, listed, rfl⟩
    rw [both] at listed
    simp only [List.mem_cons, List.not_mem_nil, or_false] at listed
    rcases listed with rfl | rfl <;> simp
  split
  · exact finishes tickedBoth.noted
  · exact finishes tickedBoth

/-- The time of a child is what the node remembers, unless it just starts. -/
theorem ends_deadlineOf {duration : Duration} :
    Ends (deadlineOf setting key duration) context
      (fun time after => after = context ∧
        ∀ deadline timedOut, context.runs.get? key = some (.forDuration deadline timedOut) →
          timedOut = time.2)
      (setting.Fails run key node start) := by
  unfold deadlineOf
  simp only [ends_bind, ends_runStateOf]
  split
  · rename_i deadline timedOut remembered
    refine ⟨rfl, ?_⟩
    intro _ _ same
    rw [remembered] at same
    cases same
    rfl
  · rename_i other
    rw [ends_bind]
    apply ends_later
    intro time
    refine ⟨rfl, ?_⟩
    intro deadline timedOut remembered
    exact absurd remembered (other deadline timedOut)

theorem ends_timeOut (turn : Turn setting run key node start) {child : NodeIndex} {timedOut : Bool}
    (listed : child ∈ node.children)
    (course : setting.Course run key node start seen running context) :
    Ends (timeOut setting key child timedOut) context
      (fun _ after => ∃ more, setting.Course run key node start more running after ∧
        (timedOut = false → key.sibling child ∈ more))
      (setting.Fails run key node start) := by
  unfold timeOut
  split
  · rename_i already
    exact ⟨seen, course, fun impossible => by rw [already] at impossible; cases impossible⟩
  · refine (turn.ends_haltSibling course listed).bind ?_
    rintro _ middle ⟨halted, -⟩
    refine (ends_writeOutput halted).mono ?_ fun _ _ fails => fails
    rintro _ after ⟨-, written⟩
    exact ⟨_, written, fun _ => List.mem_cons_self⟩

omit [RemoteService σ] in
/-- A node with a limited time goes on with its child, or else with its other child. -/
theorem goesOn_forDuration_iff (turn : Turn setting run key node start)
    (kind : node.kind = .forDuration) {runs : RunStore} {target : RunKey} :
    setting.tree.GoesOn runs key target ↔ ∃ deadline timedOut child,
      runs.get? key = some (.forDuration deadline timedOut) ∧
        node.children[if timedOut then 1 else 0]? = some child ∧ target = key.sibling child := by
  rw [turn.goesOn_iff (by rw [kind]; decide)]
  simp only [Node.Current, kind]
  constructor
  · rintro ⟨position, child, ⟨deadline, timedOut, remembered, rfl⟩, placed, rfl⟩
    exact ⟨deadline, timedOut, child, remembered, placed, rfl⟩
  · rintro ⟨deadline, timedOut, child, remembered, placed, rfl⟩
    exact ⟨_, child, ⟨deadline, timedOut, remembered, rfl⟩, placed, rfl⟩

/-- A node with a limited time has settled when it ticked the child with which it goes on, and dealt
with the first child if it goes on with the other one. -/
theorem finishes_forDuration (turn : Turn setting run key node start)
    (kind : node.kind = .forDuration) {deadline : Duration} {earlier timedOut : Bool}
    {first child : NodeIndex} (placedFirst : node.children[0]? = some first)
    (placed : node.children[if timedOut then 1 else 0]? = some child)
    (remembered : ∀ deadline already,
      start.runs.get? key = some (.forDuration deadline already) → already = earlier)
    (dealt : earlier = false → key.sibling first ∈ key.sibling child :: seen)
    (ended : earlier = true → timedOut = true)
    {status : Status}
    (course : setting.Course run key node start (key.sibling child :: seen)
      (if status = .running then [key.sibling child] else []) context)
    (goesOn : context.runs.get? key = some (.forDuration deadline timedOut)) :
    setting.Finishes run key node start status context := by
  refine ⟨_, _, course, fun isRunning => ⟨?_, ?_, ?_⟩⟩
  · intro target before
    rcases (turn.goesOn_forDuration_iff kind).1 before with
      ⟨time, already, other, state, otherPlaced, rfl⟩
    have same := remembered time already state
    subst same
    cases already with
    | false =>
      simp only [Bool.false_eq_true, if_false, placedFirst, Option.some.injEq] at otherPlaced
      subst otherPlaced
      exact dealt rfl
    | true =>
      rw [ended rfl] at placed
      simp only [if_true] at placed otherPlaced
      rw [placed, Option.some.injEq] at otherPlaced
      subst otherPlaced
      exact List.mem_cons_self
  · intro target after
    rcases (turn.goesOn_forDuration_iff kind).1 after with
      ⟨time, already, other, state, otherPlaced, rfl⟩
    rw [goesOn] at state
    cases state
    rw [placed, Option.some.injEq] at otherPlaced
    subst otherPlaced
    exact List.mem_cons_self
  · intro target listed
    rw [if_pos isRunning, List.mem_singleton] at listed
    subst listed
    exact (turn.goesOn_forDuration_iff kind).2 ⟨deadline, timedOut, child, goesOn, placed, rfl⟩

theorem ends_tickForDuration (turn : Turn setting run key node start)
    (kind : node.kind = .forDuration) (duration : Duration) :
    Ends (tickForDuration setting run key node duration) start
      (setting.Finishes run key node start) (setting.Fails run key node start) := by
  rcases (turn.wellFormed.fits _ _ turn.found).one_or_two_children (by rw [kind]; rfl) with
    ⟨first, fallback, children, -⟩
  have placedFirst : node.children[0]? = some first := by rw [children]; rfl
  have listedFirst : first ∈ node.children := List.mem_of_getElem? placedFirst
  have fits : ∀ deadline timedOut, (RunState.forDuration deadline timedOut).Fits node :=
    fun _ _ => kind
  unfold tickForDuration
  refine ends_deadlineOf.bind ?_
  rintro ⟨deadline, timedOut⟩ _ ⟨rfl, remembered⟩
  dsimp only
  rw [ends_bind, ends_childAt placedFirst]
  split
  · rename_i inTime
    have notOut : timedOut = false := by
      simp only [Bool.and_eq_true, Bool.not_eq_true'] at inTime
      exact inTime.1
    subst notOut
    refine (ends_writeOutput .start).bind ?_
    rintro _ written ⟨-, courseWritten⟩
    refine (ends_remember courseWritten (fits _ _) trivial).bind ?_
    rintro _ middle ⟨rfl, courseMiddle⟩
    refine (turn.ends_child courseMiddle listedFirst).mono ?_ fun _ _ fails => fails
    rintro status after ⟨ticked, outside⟩
    have goesOn : after.runs.get? key = some (.forDuration deadline false) := by
      rw [turn.get?_of_outside listedFirst outside, Context.get?_setRun, if_pos rfl]
    have placed : node.children[if false then 1 else 0]? = some first := placedFirst
    exact turn.finishes_forDuration kind placedFirst placed remembered
      (fun _ => List.mem_cons_self) (fun ended => ended) ticked goesOn
  · refine (turn.ends_timeOut listedFirst .start).bind ?_
    rintro _ late ⟨more, courseLate, dealt⟩
    cases second : node.children[1]? with
    | none => exact ⟨_, _, courseLate, fun impossible => by cases impossible⟩
    | some other =>
      have listedSecond : other ∈ node.children := List.mem_of_getElem? second
      refine (ends_remember courseLate (fits _ _) trivial).bind ?_
      rintro _ middle ⟨rfl, courseMiddle⟩
      refine (turn.ends_child courseMiddle listedSecond).mono ?_ fun _ _ fails => fails
      rintro status after ⟨ticked, outside⟩
      have goesOn : after.runs.get? key = some (.forDuration deadline true) := by
        rw [turn.get?_of_outside listedSecond outside, Context.get?_setRun, if_pos rfl]
      have placed : node.children[if true then 1 else 0]? = some other := second
      exact turn.finishes_forDuration kind placedFirst placed remembered
        (fun early => List.mem_cons_of_mem _ (dealt early)) (fun _ => rfl) ticked goesOn

theorem ends_defineAll {scope : ScopeId} (assignments : List Assignment)
    (course : setting.Course run key node start seen running context)
    (held : context.runs.get? key = some (.scope scope)) :
    Ends (inScope scope (defineAll setting key.node assignments)) context
      (fun _ after => setting.Course run key node start seen running after ∧
        after.runs.get? key = some (.scope scope))
      (setting.Fails run key node start) := by
  rw [ends_inScope]
  induction assignments generalizing context with
  | nil => exact ⟨course, held⟩
  | cons assignment rest ih =>
    have lost : ∀ {cause : TickError},
        (context.blackboard.Rooted scope → ¬ cause.IsScopeGone) →
        setting.Fails run key node start (.node cause) context := by
      intro cause harmless
      apply fails_of_cause course
      exact fun gone => ⟨scope, Or.inr held, fun rooted => harmless rooted gone⟩
    unfold defineAll
    simp only [ends_bind, Attempt.ends_get, ends_bound, ends_accessed, Attempt.ends_set]
    split
    · split
      · rename_i value _ blackboard defined
        exact ih (course.wrote (Blackboard.writes_define defined)) held
      · rename_i cause undefined
        apply lost
        intro rooted
        rw [isScopeGone_blackboard]
        rintro rfl
        cases Blackboard.define_error_of_alive rooted.alive undefined
    · rename_i cause unbound
      apply lost
      intro rooted
      rw [isScopeGone_binding]
      let inner : Context σ := { context with scope := scope }
      have innerRooted : inner.blackboard.Rooted inner.scope := rooted
      exact failsOnly_value innerRooted _ _ unbound

theorem ends_openScope (kind : node.kind = .defineBlackboard)
    (course : setting.Course run key node start seen running context)
    (gone : ∀ scope, context.runs.get? key = some (.scope scope) →
      context.blackboard.isAlive scope = false) :
    Ends (openScope setting key node) context
      (fun scope after => setting.Course run key node start seen running after ∧
        after.runs.get? key = some (.scope scope))
      (setting.Fails run key node start) := by
  unfold openScope
  simp only [ends_bind, Attempt.ends_get, ends_accessed, Attempt.ends_set]
  split
  · rename_i created
    refine (ends_defineAll node.assignments (course.opened kind gone created) ?_).mono ?_
      fun _ _ fails => fails
    · rw [Context.get?_setRun, if_pos rfl]
    · exact fun _ after defined => defined
  · rename_i cause uncreated
    apply fails_of_access course
    intro rooted
    rcases Blackboard.exists_createScope rooted.alive with ⟨id, after, created⟩
    rw [created] at uncreated
    cases uncreated

theorem ends_scopeOf (kind : node.kind = .defineBlackboard)
    (course : setting.Course run key node start seen running context) :
    Ends (scopeOf setting key node) context
      (fun scope after => setting.Course run key node start seen running after ∧
        after.runs.get? key = some (.scope scope))
      (setting.Fails run key node start) := by
  unfold scopeOf
  simp only [ends_bind, ends_runStateOf]
  split
  · rename_i scope held
    rw [ends_bind, Attempt.ends_get]
    split
    · exact ⟨course, held⟩
    · rename_i dead
      apply ends_openScope kind course
      intro other same
      rw [held] at same
      cases same
      simpa using dead
  · rename_i other
    apply ends_openScope kind course
    intro scope held
    exact absurd held (other scope)

theorem ends_tickDefine (turn : Turn setting run key node start)
    (kind : node.kind = .defineBlackboard) :
    Ends (tickDefine setting run key node) start
      (setting.Finishes run key node start) (setting.Fails run key node start) := by
  have steady : ∀ state position, node.Current state position := by
    simp [Node.Current, kind]
  have count : node.kind.childCount = .one := by rw [kind]; rfl
  rcases (turn.wellFormed.fits _ _ turn.found).one_child count with ⟨child, only⟩
  have listed : child ∈ node.children := by simp [only]
  unfold tickDefine
  rw [ends_bind, ends_childAt (by rw [only]; rfl)]
  refine (ends_scopeOf kind .start).bind ?_
  rintro scope context ⟨course, held⟩
  rw [ends_inScope]
  refine (turn.ends_entered course (.inScope listed held)).mono ?_ ?_
  · rintro status after ⟨ticked, outside⟩
    have left : { after with scope := context.scope } = after.leave context := by
      unfold Context.leave
      rw [outside.frame, outside.parameters]
    rw [left]
    exact turn.finishes_of_child ticked steady count listed List.mem_cons_self status
  · exact fun fault after fails => fails _

theorem ends_tickReference (turn : Turn setting run key node start) {target : String}
    (configured : node.configuration = some (.reference target)) :
    Ends (tickReference setting run key node target) start
      (setting.Finishes run key node start) (setting.Fails run key node start) := by
  have fits := turn.wellFormed.fits _ _ turn.found
  have kind := fits.kind_eq_reference_iff.2 ⟨target, configured⟩
  have steady : ∀ state position, node.Current state position := by
    simp [Node.Current, kind]
  rcases turn.wellFormed.resolved _ _ _ turn.found configured with ⟨root, known⟩
  rcases Option.isSome_iff_exists.1
    (turn.wellFormed.closed _ _ (.target turn.found configured known)) with ⟨definition, isNode⟩
  unfold tickReference
  simp only [known, isNode, ends_bind, Attempt.ends_get]
  refine ends_bound_of .start (fun rooted => failsOnly_bindParameters rooted _ _) ?_
  intro parameters
  simp only [Attempt.ends_set, ends_inFrame]
  refine (turn.ends_entered .start (.inFrame parameters configured known)).mono ?_ ?_
  · rintro status after ⟨ticked, outside⟩
    have left : { after with frame := start.frame, parameters := after.parameters.tail } =
        after.leave start := by
      unfold Context.leave
      rw [outside.scope, outside.parameters, List.tail_cons]
    rw [left]
    refine ⟨_, _, ticked, fun _ => turn.settled_of_steady ticked steady ?_⟩
    intro lower invokes
    rcases (Tree.invokes_iff_of_reference fits turn.found configured known _ _).1 invokes with
      ⟨frame, framed, rfl⟩
    have sameFrame := outside.framesIn key _ (RunStore.frame?_frameFor start.runs key)
    have framedAfter : after.runs.frame? key = some frame := framed
    rw [sameFrame, Option.some.injEq] at framedAfter
    rw [framedAfter]
    exact List.mem_cons_self
  · exact fun fault after fails => fails _

end Turn

end BehaviorTree
