import BehaviorTree.Proofs.Engine.Own
import BehaviorTree.Proofs.Tree.WellFormed

/-!
# Routines of nodes

Whatever its kind is, what a node does is made of few things: steps of its own, ticks and halts of
its children, and for a reference the tick of its target. What they all keep is kept by every node,
so that the kinds of nodes need to be gone through only once. On the way a node ticks each of its
children at most once.
-/

namespace BehaviorTree

variable {σ α β : Type} [RemoteService σ]

/-- What a node does, given the ticks of other nodes. -/
inductive Routine (setting : Setting) (key : RunKey) (node : Node) :
    {α : Type} → ((NodeIndex → Tick σ Status) → Attempt σ α) → Prop where
  | own {α : Type} {action : Attempt σ α} (own : Own key action) :
      Routine setting key node fun _ => action
  | bind {α β : Type} {first : (NodeIndex → Tick σ Status) → Attempt σ α}
      {next : (NodeIndex → Tick σ Status) → α → Attempt σ β}
      (begins : Routine setting key node first)
      (goesOn : ∀ result, Routine setting key node fun run => next run result) :
      Routine setting key node fun run => first run >>= next run
  | tick {child : NodeIndex} (listed : child ∈ node.children) :
      Routine setting key node fun run => liftM (run child)
  | halt {child : NodeIndex} (listed : child ∈ node.children) :
      Routine setting key node fun _ => haltSibling setting.tree key child
  | inScope {α : Type} {body : (NodeIndex → Tick σ Status) → Attempt σ α} (scope : ScopeId)
      (inner : Routine setting key node body) :
      Routine setting key node fun run => inScope scope (body run)
  /-- The target of a reference is ticked in a frame of its own. -/
  | invoke {target : String} (configured : node.configuration = some (.reference target)) :
      Routine setting key node fun run => tickReference setting run key node target

/-- What a node does, given the ticks of other nodes, with the nodes that it may tick on the way, one
after the other. -/
inductive Itinerary (setting : Setting) (key : RunKey) (node : Node) :
    {α : Type} → List NodeIndex → ((NodeIndex → Tick σ Status) → Attempt σ α) → Prop where
  | own {α : Type} {action : Attempt σ α} (own : Own key action) :
      Itinerary setting key node [] fun _ => action
  | bind {α β : Type} {stops more : List NodeIndex}
      {first : (NodeIndex → Tick σ Status) → Attempt σ α}
      {next : (NodeIndex → Tick σ Status) → α → Attempt σ β}
      (begins : Itinerary setting key node stops first)
      (goesOn : ∀ result, Itinerary setting key node more fun run => next run result) :
      Itinerary setting key node (stops ++ more) fun run => first run >>= next run
  | tick {child : NodeIndex} (listed : child ∈ node.children) :
      Itinerary setting key node [child] fun run => liftM (run child)
  | halt {child : NodeIndex} (listed : child ∈ node.children) :
      Itinerary setting key node [] fun _ => haltSibling setting.tree key child
  | inScope {α : Type} {stops : List NodeIndex}
      {body : (NodeIndex → Tick σ Status) → Attempt σ α} (scope : ScopeId)
      (inner : Itinerary setting key node stops body) :
      Itinerary setting key node stops fun run => inScope scope (body run)
  /-- The target of a reference is ticked in a frame of its own. -/
  | invoke {target : String} (configured : node.configuration = some (.reference target)) :
      Itinerary setting key node (setting.tree.lookup target).toList fun run =>
        tickReference setting run key node target
  /-- Not all stops need to be made. -/
  | among {α : Type} {stops more : List NodeIndex}
      {body : (NodeIndex → Tick σ Status) → Attempt σ α}
      (inner : Itinerary setting key node stops body) (sublist : stops.Sublist more) :
      Itinerary setting key node more body

variable {setting : Setting} {key : RunKey} {node : Node} {path : List NodeIndex}

namespace Itinerary

theorem routine {body : (NodeIndex → Tick σ Status) → Attempt σ α}
    (itinerary : Itinerary setting key node path body) : Routine setting key node body := by
  induction itinerary with
  | own own => exact .own own
  | bind _ _ begins goesOn => exact .bind begins goesOn
  | tick listed => exact .tick listed
  | halt listed => exact .halt listed
  | inScope scope _ ih => exact .inScope scope ih
  | invoke configured => exact .invoke configured
  | among _ _ ih => exact ih

/-- A node that ticks nothing may do so whatever its stops are. -/
theorem still {action : Attempt σ α} (own : Own key action) :
    Itinerary setting key node path fun _ : NodeIndex → Tick σ Status => action :=
  .among (.own own) (List.nil_sublist _)

/-- A child is ticked, which is one of the stops. -/
theorem stop {child : NodeIndex} (listed : child ∈ node.children) :
    Itinerary setting key node node.children fun run : NodeIndex → Tick σ Status =>
      (liftM (run child) : Attempt σ Status) :=
  .among (.tick listed) (List.singleton_sublist.2 listed)

theorem look (read : Context σ → α)
    (next : (NodeIndex → Tick σ Status) → α → Attempt σ β)
    (same : ∀ context states, read (context.withStates states) = read context)
    (goesOn : ∀ value, Itinerary setting key node path fun run => next run value) :
    Itinerary setting key node path fun run =>
      get >>= fun context => next run (read context) := by
  have looks : Itinerary setting key node [] fun _ : NodeIndex → Tick σ Status =>
      (do return read (← get) : Attempt σ α) := .own (.look read pure same .pure)
  have regrouped : (fun run => get >>= fun context => next run (read context)) =
      fun run => (do return read (← get) : Attempt σ α) >>= next run := rfl
  rw [regrouped]
  exact .bind looks goesOn

end Itinerary

theorem itinerary_childAt {position : Nat}
    {next : (NodeIndex → Tick σ Status) → NodeIndex → Attempt σ α}
    (goesOn : ∀ child, node.children[position]? = some child →
      Itinerary setting key node path fun run => next run child) :
    Itinerary setting key node path fun run => childAt node key position >>= next run := by
  unfold childAt
  split
  · rename_i child found
    exact goesOn child found
  · exact .still (.throw _)

theorem itinerary_abandon (first last : Nat) :
    Itinerary setting key node [] fun _ : NodeIndex → Tick σ Status =>
      abandon setting.tree key node.children first last := by
  have each : ∀ children : List NodeIndex, (∀ child ∈ children, child ∈ node.children) →
      Itinerary setting key node [] fun _ : NodeIndex → Tick σ Status =>
        children.forM (haltSibling setting.tree key) := by
    intro children listed
    induction children with
    | nil => exact .own (.pure _)
    | cons child rest ih =>
      rw [List.forall_mem_cons] at listed
      exact .bind (.halt listed.1) fun _ => ih listed.2
  unfold abandon
  split
  · exact each _ fun child listed => List.mem_of_mem_take (List.mem_of_mem_drop listed)
  · exact .own (.throw _)

theorem itinerary_handOver (previous : Option Nat) (position : Nat) :
    Itinerary setting key node [] fun _ : NodeIndex → Tick σ Status =>
      handOver setting.tree key node.children previous position := by
  unfold handOver
  split
  · split
    · exact itinerary_abandon _ _
    · exact .own (.pure _)
  · exact .own (.pure _)

theorem itinerary_tickFrom (previous : Option Nat) (stopOn otherwise : Status) (position : Nat)
    {children : List NodeIndex} (listed : ∀ child ∈ children, child ∈ node.children) :
    Itinerary setting key node children fun run : NodeIndex → Tick σ Status =>
      tickFrom setting.tree run key node.children previous stopOn otherwise position children := by
  induction children generalizing position with
  | nil => exact .own (.pure _)
  | cons child rest ih =>
    rw [List.forall_mem_cons] at listed
    refine .bind (.tick listed.1) fun status => ?_
    split
    · exact .among (.bind (itinerary_handOver _ _) fun _ =>
        .own (.bind (.remember _) fun _ => .pure _)) (List.nil_sublist _)
    · split
      · exact .still (.pure _)
      · exact ih _ listed.2

theorem itinerary_tickChildren (always : Bool) (stopOn otherwise : Status) :
    Itinerary setting key node node.children fun run : NodeIndex → Tick σ Status =>
      tickChildren setting.tree run key node.children always stopOn otherwise := by
  have drops : ∀ previous first, Itinerary setting key node node.children
      fun run : NodeIndex → Tick σ Status => tickFrom setting.tree run key node.children previous
        stopOn otherwise first (node.children.drop first) := fun previous first =>
    .among (itinerary_tickFrom previous stopOn otherwise first fun _ => List.mem_of_mem_drop)
      (List.drop_sublist _ _)
  refine .bind (.own .runStateOf) fun state => ?_
  rcases state with _ | state
  · exact drops _ _
  · cases state <;> exact drops _ _

theorem itinerary_tickRepeater {child : NodeIndex} (listed : child ∈ node.children)
    (maxStarts : Int64) :
    Itinerary setting key node node.children fun run : NodeIndex → Tick σ Status =>
      tickRepeater setting run key child maxStarts := by
  unfold tickRepeater
  split
  · exact .still (.pure _)
  · refine .among (.bind (.own own_startsOf) fun starts => .bind (.tick listed) fun status =>
      .own ?_) (List.singleton_sublist.2 listed)
    cases status with
    | success =>
      dsimp only
      split
      · exact .pure _
      · exact .bind (.writeOutput _ _) fun _ => .bind (.remember _) fun _ => .pure _
    | running => exact .bind (.remember _) fun _ => .pure _
    | failure => exact .pure _

theorem itinerary_tickRetrier {child : NodeIndex} (listed : child ∈ node.children)
    (maxAttempts : Int64) :
    Itinerary setting key node node.children fun run : NodeIndex → Tick σ Status =>
      tickRetrier setting run key child maxAttempts := by
  refine .among (.bind (.own own_counted) fun failures => .bind (.tick listed) fun status =>
    .own ?_) (List.singleton_sublist.2 listed)
  cases status with
  | failure =>
    dsimp only
    split
    · exact .pure _
    · exact .bind (.writeOutput _ _) fun _ => .bind (.remember _) fun _ => .pure _
  | running => exact .bind (.remember _) fun _ => .pure _
  | success => exact .pure _

theorem itinerary_timeOut {child : NodeIndex} (listed : child ∈ node.children) (timedOut : Bool) :
    Itinerary setting key node [] fun _ : NodeIndex → Tick σ Status =>
      timeOut setting key child timedOut := by
  unfold timeOut
  split
  · exact .own (.pure _)
  · exact .bind (.halt listed) fun _ => .own (.writeOutput _ _)

theorem itinerary_tickForDuration (duration : Duration) :
    Itinerary setting key node node.children fun run : NodeIndex → Tick σ Status =>
      tickForDuration setting run key node duration := by
  refine .bind (.own (own_deadlineOf _)) fun (deadline, timedOut) => ?_
  refine itinerary_childAt fun child found => ?_
  have listed := List.mem_of_getElem? found
  dsimp only
  split
  · exact .bind (.own (.writeOutput _ _)) fun _ => .bind (.own (.remember _)) fun _ => .stop listed
  · refine .bind (itinerary_timeOut listed _) fun _ => ?_
    split
    · exact .still (.pure _)
    · rename_i found
      exact .bind (.own (.remember _)) fun _ => .stop (List.mem_of_getElem? found)

/-- The second child of a parallel node is ticked, and the innermost node is as it was if the first
child is over. -/
theorem itinerary_tickSecond (status : Status) (innermost : Option RunKey) :
    Itinerary setting key node (node.children.drop 1) fun run : NodeIndex → Tick σ Status => (do
      let _ ← run (← childAt node key 1)
      if status ≠ .running then
        modify fun context => { context with innermost := innermost }
      return status : Attempt σ Status) := by
  have restored : Own key (modify fun context : Context σ =>
      { context with innermost := innermost } : Attempt σ PUnit) := by
    rintro alike place - older newer ⟨here, states, rfl, kin⟩
    exact .done ⟨rfl, here, states, rfl, kin⟩
  refine itinerary_childAt fun child found => ?_
  have later : child ∈ node.children.drop 1 := by
    refine List.mem_of_getElem? (i := 0) ?_
    rw [List.getElem?_drop, found]
  refine .among (.bind (.tick (List.mem_of_getElem? found)) fun _ => .own ?_)
    (List.singleton_sublist.2 later)
  dsimp only
  split
  · exact .bind restored fun _ => .pure _
  · exact .pure _

theorem itinerary_tickParallel :
    Itinerary setting key node node.children fun run : NodeIndex → Tick σ Status =>
      tickParallel run key node := by
  refine itinerary_childAt fun first found => ?_
  have children : [first] ++ node.children.drop 1 = node.children := by
    cases listed : node.children with
    | nil => simp [listed] at found
    | cons other rest =>
      rw [listed, List.getElem?_cons_zero, Option.some.injEq] at found
      simp [found]
  rw [← children]
  refine .bind (.tick (List.mem_of_getElem? found)) fun status => ?_
  exact .look (fun context : Context σ => context.innermost) _ (fun _ _ => rfl)
    (itinerary_tickSecond status)

theorem itinerary_haltAfterPause {child : NodeIndex} (listed : child ∈ node.children) :
    Itinerary setting key node [] fun _ : NodeIndex → Tick σ Status =>
      haltAfterPause setting key child := by
  refine .bind (.own .runStateOf) fun state => ?_
  rcases state with _ | state
  · exact .own (.pure _)
  · cases state with
    | epoch pauses =>
      dsimp only
      split
      · exact .halt listed
      · exact .own (.pure _)
    | _ => exact .own (.pure _)

theorem itinerary_tickRestartWhenPaused :
    Itinerary setting key node node.children fun run : NodeIndex → Tick σ Status =>
      tickRestartWhenPaused setting run key node := by
  refine itinerary_childAt fun child found => ?_
  have listed := List.mem_of_getElem? found
  refine .bind (itinerary_haltAfterPause listed) fun _ => ?_
  exact .bind (.own (.remember _)) fun _ => .stop listed

theorem itinerary_tickDefine :
    Itinerary setting key node node.children fun run : NodeIndex → Tick σ Status =>
      tickDefine setting run key node := by
  refine itinerary_childAt fun child found => .bind (.own own_scopeOf) fun scope => ?_
  exact .inScope scope (.stop (List.mem_of_getElem? found))

/-- What a node may tick in a turn. -/
def Configuration.stops (tree : Tree) (node : Node) : Configuration → List NodeIndex
  | .reference target => (tree.lookup target).toList
  | _ => node.children

/-- Every kind of node ticks what it invokes in order. -/
theorem itinerary_tickConfigured {configuration : Configuration}
    (reference : ∀ target, configuration = .reference target →
      node.configuration = some (.reference target)) :
    Itinerary setting key node (configuration.stops setting.tree node)
      fun run : NodeIndex → Tick σ Status => tickConfigured setting run key node configuration := by
  cases configuration with
  | sequence always => exact itinerary_tickChildren _ _ _
  | selector always => exact itinerary_tickChildren _ _ _
  | repeater maxStarts =>
    exact itinerary_childAt fun child found =>
      itinerary_tickRepeater (List.mem_of_getElem? found) _
  | retrier maxAttempts =>
    exact itinerary_childAt fun child found =>
      itinerary_tickRetrier (List.mem_of_getElem? found) _
  | forDuration duration => exact itinerary_tickForDuration duration
  | simpleParallel => exact itinerary_tickParallel
  | condition condition => exact .still (own_tickCondition condition)
  | restartWhenPaused => exact itinerary_tickRestartWhenPaused
  | defineBlackboard => exact itinerary_tickDefine
  | setBlackboard => exact .still own_tickSet
  | formatBlackboard name format =>
    refine .look (fun context : Context σ => context.blackboard.format context.scope format)
      (fun _ result => (do
        let text ← accessed result
        writeVariable setting key.node name (.string text)
        return .success : Attempt σ Status)) (fun _ _ => rfl)
      fun result => .still (.bind (.accessed _) fun text => ?_)
    exact .bind (.writeVariable _ _) fun _ => .pure _
  | dateToBlackboard name format =>
    exact .still (.bind (.bound _) fun text => .bind (.writeVariable _ _) fun _ => .pure _)
  | sleep duration => exact .still (.bind (own_wakeUpTime _) fun _ => .pure _)
  | constantResult status => exact .still (.pure _)
  | reference target => exact .invoke (reference target rfl)
  | remote remote => exact .still (own_tickRemote remote)

/-- Every kind of node has a routine. -/
theorem routine_tickConfigured {configuration : Configuration}
    (reference : ∀ target, configuration = .reference target →
      node.configuration = some (.reference target)) :
    Routine setting key node fun run : NodeIndex → Tick σ Status =>
      tickConfigured setting run key node configuration :=
  (itinerary_tickConfigured reference).routine

end BehaviorTree
