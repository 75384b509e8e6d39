import BehaviorTree.Proofs.Engine.Resources

/-!
# Ticks of sound contexts

A node that is ticked in a sound context leaves a sound one. It is ticked in the scope of a node
above, which stays where it is while the node has its turn, and so the node never misses a scope.
What the root holds otherwise than before was written at the time of the tick. A tick has a status
unless a number does not fit; that nodes are nested too deeply never happens, because what a node
invokes has a lower rank.
-/

namespace BehaviorTree

variable {σ : Type} {tree : Tree} {now : Duration} {rank : NodeIndex → Nat}
  {run : NodeIndex → Tick σ Status} {key target : RunKey} {node : Node}
  {start context inner after : Context σ} {seen running : List RunKey}

namespace Context

/-- The scope in which a node is ticked stays where it is during the turn of the node. -/
theorem Anchored.of_outside (anchored : start.Anchored tree key) (ranking : tree.Ranking rank)
    (outside : start.Outside tree key context) : context.Anchored tree key := by
  rcases anchored with isRoot | ⟨above, stored, below⟩
  · exact Or.inl (outside.scope.trans isRoot)
  · refine Or.inr ⟨above, ?_, below.mono outside.framesIn⟩
    unfold RunStore.scopeAt at stored ⊢
    rw [outside.states above (below.not_reaches ranking), outside.scope, stored]

/-- What a node invokes is ticked in the scope of the node, or in that of a node above. -/
theorem Enters.anchored (enters : context.Enters tree key node target inner)
    (found : tree.node? key.node = some node) (anchored : context.Anchored tree key) :
    inner.Anchored tree target := by
  have invokes := enters.invokes found
  have framesIn := enters.framesIn
  have stays : inner.scope = context.scope → inner.Anchored tree target := by
    intro same
    rcases anchored with isRoot | ⟨above, stored, below⟩
    · exact Or.inl (same.trans isRoot)
    · refine Or.inr ⟨above, ?_, (below.mono framesIn).then invokes.reaches⟩
      unfold RunStore.scopeAt at stored ⊢
      rw [enters.get?, same, stored]
  cases enters with
  | child listed => exact stays rfl
  | inScope listed held =>
    refine Or.inr ⟨key, ?_, invokes.reachesBelow⟩
    unfold RunStore.scopeAt
    rw [held]
    rfl
  | inFrame parameters configured known => exact stays rfl

theorem Enters.sound (enters : context.Enters tree key node target inner)
    (sound : context.Sound tree) : inner.Sound tree := by
  have sameScopes : ∀ other, inner.runs.scopeAt other = context.runs.scopeAt other := by
    intro other
    unfold RunStore.scopeAt
    rw [enters.get?]
  have sameCalls : ∀ other, inner.runs.callAt other = context.runs.callAt other := by
    intro other
    unfold RunStore.callAt
    rw [enters.get?]
  refine ⟨?_, ?_, ?_, ?_⟩
  · rw [enters.blackboard, enters.client]
    exact sound.accounted.of_runs sameScopes sameCalls
  · rw [enters.blackboard]
    exact sound.nested.of_scopeAt enters.framesIn sameScopes
  · intro other state remembered
    rw [enters.get?] at remembered
    exact sound.fits other state remembered
  · rw [enters.visits]
    exact sound.calm

theorem Sound.rooted (sound : context.Sound tree) (anchored : context.Anchored tree key)
    {scope : ScopeId} (used : scope = context.scope ∨ context.runs.get? key = some (.scope scope)) :
    context.blackboard.Rooted scope := by
  apply sound.accounted.rooted sound.nested
  rcases used with rfl | held
  · rcases anchored with isRoot | ⟨above, stored, -⟩
    · exact Or.inl isRoot
    · exact Or.inr ⟨above, stored⟩
  · refine Or.inr ⟨key, ?_⟩
    unfold RunStore.scopeAt
    rw [held]
    rfl

/-- A context is sound, and what its root holds otherwise than before was written at a time. -/
structure Advances (tree : Tree) (now : Duration) (before after : Context σ) : Prop where
  sound : after.Sound tree
  stamped : Blackboard.Stamped now before.blackboard after.blackboard

theorem Advances.of_same_root (advances : start.Advances tree now context)
    (sound : after.Sound tree)
    (same : ∀ name, after.blackboard.rootBinding? name = context.blackboard.rootBinding? name) :
    start.Advances tree now after :=
  ⟨sound, advances.stamped.trans (.of_eq same)⟩

/-- A context stays sound when the status of a node is noted. -/
theorem Sound.visited (sound : context.Sound tree) {status : Status} {cause : Option TickError}
    (harmless : ∀ error, cause = some error → ¬ error.IsScopeGone) :
    (context.visit ⟨key, status, cause⟩).Sound tree := by
  refine ⟨sound.accounted, sound.nested, sound.fits, ?_⟩
  intro visit listed error caused
  rcases List.mem_cons.1 listed with rfl | earlier
  · exact harmless error caused
  · exact sound.calm visit earlier error caused

end Context

/-- Ticks of what a node invokes keep contexts sound, and they fail only if a number does not
fit. -/
def KeepsSound (tree : Tree) (now : Duration) (key : RunKey) (run : NodeIndex → Tick σ Status) :
    Prop :=
  ∀ (target : RunKey) (context : Context σ), tree.Leads key.node target.node →
    context.frame = target.frame → context.Sound tree → context.Anchored tree target →
    Ends (run target.node) context (fun _ after => context.Advances tree now after)
      fun failure _ => failure.IsOverflow

variable [RemoteService σ]

/-- A node that has its turn in a sound context is in a sound context all along its course, in the
scope in which it was ticked. -/
theorem Course.advances (course : Course tree now run key node start seen running context)
    (found : tree.node? key.node = some node) (ranking : tree.Ranking rank)
    (atKey : start.frame = key.frame) (sound : start.Sound tree)
    (anchored : start.Anchored tree key) (keeps : KeepsSound tree now key run) :
    start.Advances tree now context := by
  induction course with
  | start => exact ⟨sound, .of_eq fun _ => rfl⟩
  | wrote _ writes ih =>
    exact ⟨ih.sound.wrote writes.toSameScopes, ih.stamped.trans writes.stamped⟩
  | noted _ ih =>
    have here := ih.sound
    exact ⟨⟨here.accounted, here.nested, here.fits, here.calm⟩, ih.stamped⟩
  | remembered _ plain fits ih => exact ⟨ih.sound.remembered found plain fits, ih.stamped⟩
  | opened course kind gone created ih =>
    have here := anchored.of_outside ranking (course.outside found)
    exact ih.of_same_root (ih.sound.opened here found kind gone created)
      (ih.sound.accounted.arena.rootBinding?_createScope created)
  | ticked course enters ran _ _ ih =>
    have outside := course.outside found
    have here := anchored.of_outside ranking outside
    have ticked := keeps _ _ (enters.invokes found).leads
      (enters.frame (outside.frame.trans atKey)) (enters.sound ih.sound)
      (enters.anchored found here)
    unfold Ends at ticked
    rw [ran] at ticked
    have stamped := ticked.stamped
    rw [enters.blackboard] at stamped
    have after := ticked.sound
    exact ⟨⟨after.accounted, after.nested, after.fits, after.calm⟩, ih.stamped.trans stamped⟩
  | halted _ _ halts ih => exact ih.of_same_root (ih.sound.halted halts) halts.rootBinding?
  | served _ kind serves ih =>
    exact ⟨ih.sound.served found kind serves, ih.stamped.trans serves.writes.stamped⟩

/-- A node that is stopped in a sound context did not miss a scope, and nothing is wrong with the
tree. -/
theorem Stops.harmless {fault : Fault} (stops : Stops tree now run key node start fault)
    (found : tree.node? key.node = some node) (ranking : tree.Ranking rank)
    (atKey : start.frame = key.frame) (sound : start.Sound tree)
    (anchored : start.Anchored tree key) (keeps : KeepsSound tree now key run) :
    match fault with
    | .node cause => ¬ cause.IsScopeGone
    | .abort failure => failure.IsOverflow := by
  cases stops with
  | failed harmless => exact harmless
  | unrooted course used unrooted =>
    have soundHere := (course.advances found ranking atKey sound anchored keeps).sound
    have anchoredHere := anchored.of_outside ranking (course.outside found)
    exact absurd (soundHere.rooted anchoredHere used) unrooted
  | overflow overflow => exact overflow
  | inner course enters ran =>
    have outside := course.outside found
    have soundHere := (course.advances found ranking atKey sound anchored keeps).sound
    have anchoredHere := anchored.of_outside ranking outside
    have ticked := keeps _ _ (enters.invokes found).leads
      (enters.frame (outside.frame.trans atKey)) (enters.sound soundHere)
      (enters.anchored found anchoredHere)
    unfold Ends at ticked
    rwa [ran] at ticked

/-- A node that concludes its course leaves a sound context. -/
theorem Concludes.advances {status : Status}
    (concludes : Concludes tree now run key node start status after)
    (found : tree.node? key.node = some node) (ranking : tree.Ranking rank)
    (atKey : start.frame = key.frame) (sound : start.Sound tree)
    (anchored : start.Anchored tree key) (keeps : KeepsSound tree now key run) :
    start.Advances tree now after := by
  cases concludes with
  | @running _ _ context _ course settled =>
    have advances := course.advances found ranking atKey sound anchored keeps
    have visited : (context.visit ⟨key, .running, none⟩).Sound tree :=
      advances.sound.visited fun _ none => by cases none
    exact ⟨⟨visited.accounted, visited.nested, visited.fits, visited.calm⟩, advances.stamped⟩
  | @ended _ _ context _ status cause reports course ended caused halts =>
    have advances := course.advances found ranking atKey sound anchored keeps
    have visited : (context.visit ⟨key, status, cause⟩).Sound tree := by
      apply advances.sound.visited
      intro error isCause
      exact (caused error isCause).harmless found ranking atKey sound anchored keeps
    have reported : Context.Sound tree
        { context.visit ⟨key, status, cause⟩ with reports := reports } :=
      ⟨visited.accounted, visited.nested, visited.fits, visited.calm⟩
    exact advances.of_same_root (reported.halted halts) halts.rootBinding?

variable {setting : Setting}

/-- A node that is ticked in a sound context leaves a sound one. -/
theorem ends_tickWithin_sound (wellFormed : setting.tree.WellFormed)
    (ranking : setting.tree.Ranking rank) {depth : Nat}
    (isNode : (setting.tree.node? key.node).isSome) (shallow : rank key.node < depth)
    (atKey : start.frame = key.frame) (sound : start.Sound setting.tree)
    (anchored : start.Anchored setting.tree key) :
    Ends (tickWithin setting depth key.node) start
      (fun _ after => start.Advances setting.tree setting.now after)
      fun failure _ => failure.IsOverflow := by
  induction depth generalizing key start with
  | zero => exact absurd shallow (Nat.not_lt_zero _)
  | succ depth ih =>
    rcases Option.isSome_iff_exists.1 isNode with ⟨node, found⟩
    have keeps : KeepsSound setting.tree setting.now key (tickWithin (σ := σ) setting depth) := by
      intro target context leads atTarget soundTarget anchoredTarget
      have descends := ranking.descends _ _ leads
      exact ih (wellFormed.closed _ _ leads)
        (Nat.lt_of_lt_of_le descends (Nat.le_of_lt_succ shallow)) atTarget soundTarget
        anchoredTarget
    have turn : Turn setting (tickWithin setting depth) key node start :=
      ⟨behaves_tickWithin wellFormed depth, wellFormed, found, atKey, sound.fits⟩
    refine turn.ends_tickWithin.mono ?_ ?_
    · exact fun status after concludes =>
        concludes.advances found ranking atKey sound anchored keeps
    · exact fun failure after stops => stops.harmless found ranking atKey sound anchored keeps

variable (key) in
/-- A node of a well-formed tree that is ticked in a sound context leaves a sound one, and it has a
status unless a number does not fit. -/
theorem ends_tick_sound (wellFormed : setting.tree.WellFormed)
    (isNode : (setting.tree.node? key.node).isSome) (atKey : start.frame = key.frame)
    (sound : start.Sound setting.tree) (anchored : start.Anchored setting.tree key) :
    Ends (tick setting key.node) start
      (fun _ after => start.Advances setting.tree setting.now after)
      fun failure _ => failure.IsOverflow := by
  rcases wellFormed.ranked with ⟨rank, ranking⟩
  exact ends_tickWithin_sound wellFormed ranking isNode
    (Nat.lt_succ_of_lt (ranking.bounded _ isNode)) atKey sound anchored

end BehaviorTree
