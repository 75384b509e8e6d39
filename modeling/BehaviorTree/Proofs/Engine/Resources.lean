import BehaviorTree.Proofs.Engine.Tick

/-!
# Requests and scopes of nodes

Every request of the client and every nested scope of the blackboard belongs to the run state of
exactly one node. Whatever a node does, it does to the run states and to the outside at once: it
trades what it held for something new or for nothing. A scope lies in the root or in the scope of a
node further up, so a scope that a node uses is there as long as the node is.
-/

namespace BehaviorTree

/-- Things that are in use are exactly those that are held, and each has one holder. -/
structure Owned {ι α : Type} (used : α → Prop) (held : ι → Option α) : Prop where
  used_iff : ∀ thing, used thing ↔ ∃ holder, held holder = some thing
  alone : ∀ one other thing, held one = some thing → held other = some thing → one = other

section Owned

variable {ι α : Type} {used usedAfter : α → Prop} {held heldAfter : ι → Option α}

theorem Owned.congr (owned : Owned used held) (sameUse : ∀ thing, usedAfter thing ↔ used thing)
    (sameHolders : ∀ holder, heldAfter holder = held holder) : Owned usedAfter heldAfter := by
  constructor
  · intro thing
    simp only [sameUse, sameHolders, owned.used_iff]
  · intro one other thing
    rw [sameHolders, sameHolders]
    exact owned.alone one other thing

theorem Owned.of_none (unused : ∀ thing, ¬ used thing) (nothing : ∀ holder, held holder = none) :
    Owned used held := by
  constructor
  · intro thing
    simp [unused, nothing]
  · intro one other thing heldOne
    rw [nothing] at heldOne
    cases heldOne

/-- A holder trades what it held for something that is not in use, or for nothing. -/
theorem Owned.trade (owned : Owned used held) (here : ι)
    (elsewhere : ∀ other, other ≠ here → heldAfter other = held other)
    (traded : ∀ thing, usedAfter thing ↔
      (used thing ∧ held here ≠ some thing) ∨ heldAfter here = some thing)
    (fresh : ∀ thing, heldAfter here = some thing → held here = some thing ∨ ¬ used thing) :
    Owned usedAfter heldAfter := by
  -- What is held after the trade elsewhere was not held by the one who trades.
  have apart : ∀ other thing, other ≠ here → held other = some thing →
      heldAfter here ≠ some thing := by
    intro other thing different heldOther newHere
    rcases fresh thing newHere with heldHere | unused
    · exact different (owned.alone other here thing heldOther heldHere)
    · exact unused ((owned.used_iff thing).2 ⟨other, heldOther⟩)
  constructor
  · intro thing
    rw [traded, owned.used_iff]
    constructor
    · rintro (⟨⟨holder, holds⟩, kept⟩ | new)
      · have different : holder ≠ here := by
          rintro rfl
          exact kept holds
        exact ⟨holder, by rw [elsewhere holder different, holds]⟩
      · exact ⟨here, new⟩
    · rintro ⟨holder, holds⟩
      by_cases same : holder = here
      · exact Or.inr (same ▸ holds)
      · rw [elsewhere holder same] at holds
        refine Or.inl ⟨⟨holder, holds⟩, ?_⟩
        exact fun heldHere => same (owned.alone holder here thing holds heldHere)
  · intro one other thing heldOne heldOther
    by_cases isOne : one = here
    · by_cases isOther : other = here
      · rw [isOne, isOther]
      · rw [elsewhere other isOther] at heldOther
        rw [isOne] at heldOne
        exact absurd heldOne (apart other thing isOther heldOther)
    · rw [elsewhere one isOne] at heldOne
      by_cases isOther : other = here
      · rw [isOther] at heldOther
        exact absurd heldOther (apart one thing isOne heldOne)
      · rw [elsewhere other isOther] at heldOther
        exact owned.alone one other thing heldOne heldOther

end Owned

variable {σ : Type}

/-- Requests and nested scopes are those of run states. -/
structure Accounted (blackboard : Blackboard) (runs : RunStore) (client : Client σ) : Prop where
  arena : blackboard.Arena
  numbered : client.Numbered
  calls : Owned client.Holds runs.callAt
  scopes : Owned (fun id => blackboard.isAlive id = true ∧ id ≠ .root) runs.scopeAt

/-- The scope around the scope of a node is the root or that of a node above. -/
def Nested (tree : Tree) (blackboard : Blackboard) (runs : RunStore) : Prop :=
  ∀ key id outer, runs.scopeAt key = some id → blackboard.parent? id = some (some outer) →
    outer = .root ∨ ∃ above, runs.scopeAt above = some outer ∧ tree.ReachesBelow runs above key

namespace Context

/-- Nothing is leaked or lost in a context, and no node ever missed a scope. -/
structure Sound (tree : Tree) (context : Context σ) : Prop where
  accounted : Accounted context.blackboard context.runs context.client
  nested : Nested tree context.blackboard context.runs
  fits : context.runs.Fits tree
  calm : ∀ visit ∈ context.visits, ∀ cause, visit.cause = some cause → ¬ cause.IsScopeGone

/-- A node is ticked in the root or in the scope of a node above. -/
def Anchored (tree : Tree) (key : RunKey) (context : Context σ) : Prop :=
  context.scope = .root ∨
    ∃ above, context.runs.scopeAt above = some context.scope ∧
      tree.ReachesBelow context.runs above key

end Context

variable {tree : Tree} {now : Duration} {run : NodeIndex → Tick σ Status} {key target : RunKey}
  {node : Node} {start context inner after : Context σ} {seen running : List RunKey}
  {blackboard : Blackboard}
  {runs : RunStore} {client : Client σ}

theorem Accounted.isAlive_of_scopeAt (accounted : Accounted blackboard runs client) {id : ScopeId}
    (stored : runs.scopeAt key = some id) : blackboard.isAlive id = true :=
  ((accounted.scopes.used_iff id).2 ⟨key, stored⟩).1

/-- The scope of a node does not stand in the slot of the root. -/
theorem Accounted.slot_ne_zero (accounted : Accounted blackboard runs client) {id : ScopeId}
    (stored : runs.scopeAt key = some id) : id.slot ≠ 0 := by
  have used := (accounted.scopes.used_iff id).2 ⟨key, stored⟩
  exact fun first => used.2 (accounted.arena.eq_root used.1 first)

theorem Accounted.rooted (accounted : Accounted blackboard runs client)
    (nested : Nested tree blackboard runs) {id : ScopeId}
    (known : id = .root ∨ ∃ key, runs.scopeAt key = some id) : blackboard.Rooted id := by
  have alive : ∀ id, (id = .root ∨ ∃ key, runs.scopeAt key = some id) →
      blackboard.isAlive id = true := by
    rintro id (rfl | ⟨key, stored⟩)
    · exact Blackboard.isAlive_iff.2 ⟨none, accounted.arena.parent?_root⟩
    · exact accounted.isAlive_of_scopeAt stored
  refine ⟨alive id known, ?_⟩
  intro inner outer around
  have notRoot : inner ≠ .root := by
    rintro rfl
    rw [accounted.arena.parent?_root] at around
    cases around
  have used : blackboard.isAlive inner = true ∧ inner ≠ .root :=
    ⟨Blackboard.isAlive_iff.2 ⟨_, around⟩, notRoot⟩
  rcases (accounted.scopes.used_iff inner).1 used with ⟨key, stored⟩
  rcases nested key inner outer stored around with isRoot | ⟨above, storedAbove, -⟩
  · exact alive outer (Or.inl isRoot)
  · exact alive outer (Or.inr ⟨above, storedAbove⟩)

theorem Accounted.of_sameScopes (accounted : Accounted blackboard runs client)
    {other : Blackboard} (same : blackboard.SameScopes other) : Accounted other runs client := by
  refine ⟨same.arena accounted.arena, accounted.numbered, accounted.calls, ?_⟩
  refine accounted.scopes.congr ?_ fun _ => rfl
  intro id
  rw [same.isAlive_eq]

theorem Nested.of_sameScopes (nested : Nested tree blackboard runs) {other : Blackboard}
    (same : blackboard.SameScopes other) : Nested tree other runs := by
  intro key id outer stored around
  rw [same.parents] at around
  exact nested key id outer stored around

/-- Nested scopes stay where they are when the run states that hold them do. -/
theorem Nested.of_scopeAt (nested : Nested tree blackboard runs) {later : RunStore}
    (framesIn : runs.FramesIn later) (same : ∀ key, later.scopeAt key = runs.scopeAt key) :
    Nested tree blackboard later := by
  intro key id outer stored around
  rw [same] at stored
  rcases nested key id outer stored around with isRoot | ⟨above, storedAbove, below⟩
  · exact Or.inl isRoot
  · exact Or.inr ⟨above, by rw [same, storedAbove], below.mono framesIn⟩

theorem scopeAt_setRun {state : RunState} {other : RunKey} :
    (context.setRun key state).runs.scopeAt other =
      if other = key then state.scope? else context.runs.scopeAt other := by
  unfold RunStore.scopeAt
  rw [Context.get?_setRun]
  split <;> rfl

theorem callAt_setRun {state : RunState} {other : RunKey} :
    (context.setRun key state).runs.callAt other =
      if other = key then state.call? else context.runs.callAt other := by
  unfold RunStore.callAt
  rw [Context.get?_setRun]
  split <;> rfl

theorem RunState.IsPlain.scope?_eq {state : RunState} (plain : state.IsPlain) :
    state.scope? = none := by
  cases state <;> first | rfl | exact plain.elim

theorem RunState.IsPlain.call?_eq {state : RunState} (plain : state.IsPlain) :
    state.call? = none := by
  cases state <;> first | rfl | exact plain.elim

/-- Nodes of a kind that remembers something plain remember nothing else. -/
theorem RunState.IsPlain.of_fits {state other : RunState} (plain : state.IsPlain)
    (fits : state.Fits node) (otherFits : other.Fits node) : other.IsPlain := by
  cases other with
  | scope id => cases state <;> simp_all [Fits, IsPlain]
  | remote remote =>
    rcases otherFits with ⟨operation, kind⟩
    cases state <;> simp_all [Fits, IsPlain]
  | _ => trivial

theorem RunStore.Fits.holds_nothing (fits : runs.Fits tree)
    (found : tree.node? key.node = some node) {state : RunState} (fitting : state.Fits node)
    (plain : state.IsPlain) : runs.scopeAt key = none ∧ runs.callAt key = none := by
  unfold RunStore.scopeAt RunStore.callAt
  cases remembered : runs.get? key with
  | none => exact ⟨rfl, rfl⟩
  | some earlier =>
    rcases fits key earlier remembered with ⟨other, foundOther, fitsEarlier⟩
    rw [found, Option.some.injEq] at foundOther
    subst foundOther
    have plainEarlier := plain.of_fits fitting fitsEarlier
    exact ⟨plainEarlier.scope?_eq, plainEarlier.call?_eq⟩

/-- Run states that hold the same account for the same. -/
theorem Accounted.of_runs (accounted : Accounted blackboard runs client) {later : RunStore}
    (sameScopes : ∀ key, later.scopeAt key = runs.scopeAt key)
    (sameCalls : ∀ key, later.callAt key = runs.callAt key) :
    Accounted blackboard later client :=
  ⟨accounted.arena, accounted.numbered, accounted.calls.congr (fun _ => Iff.rfl) sameCalls,
    accounted.scopes.congr (fun _ => Iff.rfl) sameScopes⟩

namespace Context.Sound

theorem wrote (sound : context.Sound tree) {blackboard : Blackboard}
    (same : context.blackboard.SameScopes blackboard) :
    Context.Sound tree { context with blackboard := blackboard } :=
  ⟨sound.accounted.of_sameScopes same, sound.nested.of_sameScopes same, sound.fits, sound.calm⟩

theorem remembered (sound : context.Sound tree) (found : tree.node? key.node = some node)
    {state : RunState} (plain : state.IsPlain) (fitting : state.Fits node) :
    (context.setRun key state).Sound tree := by
  rcases sound.fits.holds_nothing found fitting plain with ⟨noScope, noCall⟩
  have sameScopes : ∀ other,
      (context.setRun key state).runs.scopeAt other = context.runs.scopeAt other := by
    intro other
    rw [scopeAt_setRun]
    split
    · rename_i here
      rw [plain.scope?_eq, here, noScope]
    · rfl
  have sameCalls : ∀ other,
      (context.setRun key state).runs.callAt other = context.runs.callAt other := by
    intro other
    rw [callAt_setRun]
    split
    · rename_i here
      rw [plain.call?_eq, here, noCall]
    · rfl
  exact ⟨sound.accounted.of_runs sameScopes sameCalls,
    sound.nested.of_scopeAt (.of_eq rfl) sameScopes, sound.fits.setRun found fitting, sound.calm⟩

/-- A node whose scope is gone remembers nothing, since scopes that are held are not gone. -/
theorem get?_eq_none_of_gone (sound : context.Sound tree) (found : tree.node? key.node = some node)
    (kind : node.kind = .defineBlackboard)
    (gone : ∀ scope, context.runs.get? key = some (.scope scope) →
      context.blackboard.isAlive scope = false) : context.runs.get? key = none := by
  cases remembered : context.runs.get? key with
  | none => rfl
  | some state =>
    rcases sound.fits key state remembered with ⟨other, foundOther, fits⟩
    rw [found, Option.some.injEq] at foundOther
    subst foundOther
    cases state with
    | scope earlier =>
      have stored : context.runs.scopeAt key = some earlier := by
        simp [RunStore.scopeAt, remembered, RunState.scope?]
      have alive := sound.accounted.isAlive_of_scopeAt stored
      rw [gone earlier remembered] at alive
      cases alive
    | _ => simp [RunState.Fits, kind] at fits

end Context.Sound

/-- A node that remembered nothing comes to hold a new scope inside of that of the engine. -/
structure Context.Opens (key : RunKey) (scope : ScopeId) (before after : Context σ) : Prop where
  arena : after.blackboard.Arena
  notRoot : scope ≠ .root
  dead : before.blackboard.isAlive scope = false
  parents : ∀ id, after.blackboard.parent? id =
    if id = scope then some (some before.scope) else before.blackboard.parent? id
  nothing : before.runs.get? key = none
  states : ∀ other, after.runs.get? other =
    if other = key then some (.scope scope) else before.runs.get? other
  frames : before.runs.FramesIn after.runs
  client : after.client = before.client

namespace Context

theorem Sound.opens (sound : context.Sound tree) (found : tree.node? key.node = some node)
    (kind : node.kind = .defineBlackboard) {scope : ScopeId} {blackboard : Blackboard}
    (gone : ∀ scope, context.runs.get? key = some (.scope scope) →
      context.blackboard.isAlive scope = false)
    (created : context.blackboard.createScope context.scope = .ok (scope, blackboard)) :
    context.Opens key scope
      ({ context with blackboard := blackboard }.setRun key (.scope scope)) := by
  have created := sound.accounted.arena.created created
  refine ⟨created.arena, ?_, Blackboard.isAlive_eq_false_iff.2 created.fresh, created.parents,
    sound.get?_eq_none_of_gone found kind gone, fun _ => get?_setRun, .of_eq rfl, rfl⟩
  rintro rfl
  exact created.nested rfl

namespace Opens

variable {scope : ScopeId}

theorem scopeAt (opens : context.Opens key scope after) (other : RunKey) :
    after.runs.scopeAt other = if other = key then some scope else context.runs.scopeAt other := by
  unfold RunStore.scopeAt
  rw [opens.states]
  split <;> rfl

theorem callAt (opens : context.Opens key scope after) (other : RunKey) :
    after.runs.callAt other = context.runs.callAt other := by
  unfold RunStore.callAt
  rw [opens.states]
  split
  · rename_i here
    rw [here, opens.nothing]
    rfl
  · rfl

theorem scopeAt_of_held (opens : context.Opens key scope after) {other : RunKey} {held : ScopeId}
    (stored : context.runs.scopeAt other = some held) : after.runs.scopeAt other = some held := by
  rw [opens.scopeAt, if_neg, stored]
  rintro rfl
  rw [RunStore.scopeAt, opens.nothing] at stored
  cases stored

theorem accounted (opens : context.Opens key scope after)
    (accounted : Accounted context.blackboard context.runs context.client) :
    Accounted after.blackboard after.runs after.client := by
  have noScope : context.runs.scopeAt key = none := by rw [RunStore.scopeAt, opens.nothing]; rfl
  refine ⟨opens.arena, opens.client ▸ accounted.numbered,
    accounted.calls.congr (by simp [opens.client]) opens.callAt, ?_⟩
  apply accounted.scopes.trade key
  · intro other different
    rw [opens.scopeAt, if_neg different]
  · intro id
    rw [opens.scopeAt, if_pos rfl, noScope, Blackboard.isAlive_eq_isSome, opens.parents,
      Blackboard.isAlive_eq_isSome]
    by_cases same : id = scope
    · simp [same, opens.notRoot]
    · simp [same, Ne.symm same]
  · intro id new
    rw [opens.scopeAt, if_pos rfl, Option.some.injEq] at new
    subst new
    exact Or.inr fun used => by simp [opens.dead] at used

/-- The new scope lies in that of the engine, which is the root or that of a node above. -/
theorem nested (opens : context.Opens key scope after)
    (accounted : Accounted context.blackboard context.runs context.client)
    (nested : Nested tree context.blackboard context.runs)
    (anchored : context.Anchored tree key) : Nested tree after.blackboard after.runs := by
  intro other id outer stored around
  rw [opens.scopeAt] at stored
  rw [opens.parents] at around
  by_cases here : other = key
  · subst here
    rw [if_pos rfl, Option.some.injEq] at stored
    rw [if_pos stored.symm, Option.some.injEq, Option.some.injEq] at around
    subst around
    rcases anchored with isRoot | ⟨above, storedAbove, below⟩
    · exact Or.inl isRoot
    · exact Or.inr ⟨above, opens.scopeAt_of_held storedAbove, below.mono opens.frames⟩
  · rw [if_neg here] at stored
    have different : id ≠ scope := by
      rintro rfl
      have alive := accounted.isAlive_of_scopeAt stored
      rw [opens.dead] at alive
      cases alive
    rw [if_neg different] at around
    rcases nested other id outer stored around with isRoot | ⟨above, storedAbove, below⟩
    · exact Or.inl isRoot
    · exact Or.inr ⟨above, opens.scopeAt_of_held storedAbove, below.mono opens.frames⟩

end Opens

namespace Sound

/-- A node that opens a scope comes to hold it, inside of the scope of a node above. -/
theorem opened (sound : context.Sound tree) (anchored : context.Anchored tree key)
    (found : tree.node? key.node = some node) (kind : node.kind = .defineBlackboard)
    {scope : ScopeId} {blackboard : Blackboard}
    (gone : ∀ scope, context.runs.get? key = some (.scope scope) →
      context.blackboard.isAlive scope = false)
    (created : context.blackboard.createScope context.scope = .ok (scope, blackboard)) :
    ({ context with blackboard := blackboard }.setRun key (.scope scope)).Sound tree := by
  have opens := sound.opens found kind gone created
  have before : RunStore.Fits { context with blackboard := blackboard }.runs tree := sound.fits
  exact ⟨opens.accounted sound.accounted, opens.nested sound.accounted sound.nested anchored,
    before.setRun found kind, sound.calm⟩

/-- A remote node deals with its request and with nothing else. -/
theorem served (sound : context.Sound tree) (found : tree.node? key.node = some node)
    {operation : RemoteOperation} (kind : node.kind = .remote operation)
    (serves : context.Serves now key after) : after.Sound tree := by
  have noScope : context.runs.scopeAt key = none := by
    unfold RunStore.scopeAt
    cases remembered : context.runs.get? key with
    | none => rfl
    | some state =>
      rcases sound.fits key state remembered with ⟨other, foundOther, fits⟩
      rw [found, Option.some.injEq] at foundOther
      subst foundOther
      cases state <;> first | rfl | simp [RunState.Fits, kind] at fits
  have noScopeAfter : after.runs.scopeAt key = none := by
    unfold RunStore.scopeAt
    cases remembered : after.runs.get? key with
    | none => rfl
    | some state =>
      rcases serves.here state remembered with ⟨remote, rfl⟩
      rfl
  have sameScopes : ∀ other, after.runs.scopeAt other = context.runs.scopeAt other := by
    intro other
    by_cases here : other = key
    · rw [here, noScope, noScopeAfter]
    · unfold RunStore.scopeAt
      rw [serves.elsewhere other here]
  have trades := serves.trades sound.accounted.numbered fun handle held =>
    (sound.accounted.calls.used_iff handle).2 ⟨key, held⟩
  have accounted := sound.accounted.of_sameScopes serves.writes.toSameScopes
  refine ⟨⟨accounted.arena, trades.numbered, ?_, ?_⟩, ?_, ?_, ?_⟩
  · refine sound.accounted.calls.trade key ?_ trades.holds trades.fresh
    intro other different
    unfold RunStore.callAt
    rw [serves.elsewhere other different]
  · exact accounted.scopes.congr (fun _ => Iff.rfl) sameScopes
  · exact (sound.nested.of_sameScopes serves.writes.toSameScopes).of_scopeAt
      (.of_eq serves.place.frames) sameScopes
  · intro other state remembered
    by_cases here : other = key
    · subst here
      rcases serves.here state remembered with ⟨remote, rfl⟩
      exact ⟨node, found, operation, kind⟩
    · rw [serves.elsewhere other here] at remembered
      exact sound.fits other state remembered
  · rw [serves.place.visits]
    exact sound.calm

end Sound

end Context

variable [RemoteService σ]

theorem scopeAt_discarded {other : RunKey} :
    (context.discarded key).runs.scopeAt other =
      if other = key then none else context.runs.scopeAt other := by
  unfold RunStore.scopeAt
  rw [Context.get?_discarded]
  split <;> rfl

theorem callAt_discarded {other : RunKey} :
    (context.discarded key).runs.callAt other =
      if other = key then none else context.runs.callAt other := by
  unfold RunStore.callAt
  rw [Context.get?_discarded]
  split <;> rfl

theorem RunState.rootBinding?_release (state : RunState) (blackboard : Blackboard)
    (client : Client σ) (name : String) :
    (state.release blackboard client).1.rootBinding? name = blackboard.rootBinding? name := by
  cases state with
  | scope id => exact Blackboard.rootBinding?_destroyScope name
  | remote run => cases held : run.call <;> simp [release, RunState.call?, held]
  | _ => rfl

theorem rootBinding?_discarded (key : RunKey) (name : String) :
    (context.discarded key).blackboard.rootBinding? name =
      context.blackboard.rootBinding? name := by
  unfold Context.discarded
  split
  · exact RunState.rootBinding?_release _ _ _ name
  · rfl

/-- Variables of the root stay as they are when nodes are halted. -/
theorem Context.Halts.rootBinding? {roots : List RunKey} (halts : context.Halts tree roots after)
    (name : String) :
    after.blackboard.rootBinding? name = context.blackboard.rootBinding? name := by
  rcases halts with ⟨keys, rfl, -⟩
  unfold Context.discardedAll
  induction keys generalizing context with
  | nil => rfl
  | cons first rest ih => exact ih.trans (rootBinding?_discarded first name)

/-- What a run state holds is freed when it is discarded, and nothing else. -/
structure Context.Frees (key : RunKey) (before after : Context σ) : Prop where
  arena : after.blackboard.Arena
  numbered : after.client.Numbered
  parents : ∀ id, after.blackboard.parent? id =
    if before.runs.scopeAt key = some id then none else before.blackboard.parent? id
  holds : ∀ handle, after.client.Holds handle ↔
    before.client.Holds handle ∧ before.runs.callAt key ≠ some handle

theorem Accounted.frees
    (accounted : Accounted context.blackboard context.runs context.client) (key : RunKey) :
    context.Frees key (context.discarded key) := by
  have unchanged : context.runs.scopeAt key = none → context.runs.callAt key = none →
      ∀ {after : Context σ}, after.blackboard = context.blackboard →
        after.client = context.client → context.Frees key after := by
    intro noScope noCall after board client
    refine ⟨board ▸ accounted.arena, client ▸ accounted.numbered, ?_, ?_⟩
    · simp [noScope, board]
    · simp [noCall, client]
  unfold Context.discarded
  cases remembered : context.runs.get? key with
  | none =>
    apply unchanged _ _ rfl rfl
    · simp [RunStore.scopeAt, remembered]
    · simp [RunStore.callAt, remembered]
  | some state =>
    have scopeHere : context.runs.scopeAt key = state.scope? := by
      simp [RunStore.scopeAt, remembered]
    have callHere : context.runs.callAt key = state.call? := by
      simp [RunStore.callAt, remembered]
    cases state with
    | scope id =>
      have destroyed := accounted.arena.destroyed (accounted.slot_ne_zero scopeHere)
      refine ⟨destroyed.arena, accounted.numbered, ?_, ?_⟩
      · intro other
        rw [scopeHere]
        refine (destroyed.parents other).trans ?_
        simp [RunState.scope?, eq_comm]
      · simp [callHere, RunState.call?, Context.release, RunState.release]
    | remote remote =>
      cases held : remote.call with
      | none =>
        apply unchanged scopeHere (callHere.trans held)
        · simp [Context.release, RunState.release, RunState.call?, held]
        · simp [Context.release, RunState.release, RunState.call?, held]
      | some handle =>
        have retires := Client.retires_cancel context.client handle
        have callSome : context.runs.callAt key = some handle := callHere.trans held
        refine ⟨?_, ?_, ?_, ?_⟩
        · simpa [Context.release, RunState.release, RunState.call?, held] using accounted.arena
        · simpa [Context.release, RunState.release, RunState.call?, held] using
            retires.numbered accounted.numbered
        · simp [Context.release, RunState.release, RunState.call?, held, scopeHere,
            RunState.scope?]
        · intro other
          simpa [Context.release, RunState.release, RunState.call?, held, callSome, eq_comm] using
            retires.holds other
    | _ => exact unchanged scopeHere callHere rfl rfl

theorem Accounted.discarded
    (accounted : Accounted context.blackboard context.runs context.client) (key : RunKey) :
    Accounted (context.discarded key).blackboard (context.discarded key).runs
      (context.discarded key).client := by
  have frees := accounted.frees key
  refine ⟨frees.arena, frees.numbered, ?_, ?_⟩
  · apply accounted.calls.trade key
    · intro other different
      rw [callAt_discarded, if_neg different]
    · intro handle
      rw [callAt_discarded, if_pos rfl, frees.holds]
      simp
    · intro handle impossible
      rw [callAt_discarded, if_pos rfl] at impossible
      cases impossible
  · apply accounted.scopes.trade key
    · intro other different
      rw [scopeAt_discarded, if_neg different]
    · intro id
      rw [scopeAt_discarded, if_pos rfl, Blackboard.isAlive_eq_isSome, frees.parents,
        Blackboard.isAlive_eq_isSome]
      by_cases same : context.runs.scopeAt key = some id <;> simp [same]
    · intro id impossible
      rw [scopeAt_discarded, if_pos rfl] at impossible
      cases impossible

/-- When run states are discarded, requests and scopes still belong to nodes, and scopes that are
left have the same parents. -/
theorem Accounted.discardedAll (keys : List RunKey)
    (accounted : Accounted context.blackboard context.runs context.client) :
    Accounted (context.discardedAll keys).blackboard (context.discardedAll keys).runs
        (context.discardedAll keys).client ∧
      ∀ id outer, (context.discardedAll keys).blackboard.parent? id = some outer →
        context.blackboard.parent? id = some outer := by
  unfold Context.discardedAll
  induction keys generalizing context with
  | nil => exact ⟨accounted, fun _ _ => id⟩
  | cons first rest ih =>
    rcases ih (accounted.discarded first) with ⟨kept, parents⟩
    refine ⟨kept, ?_⟩
    intro id outer around
    have earlier := parents id outer around
    rw [(accounted.frees first).parents] at earlier
    split at earlier
    · cases earlier
    · exact earlier

/-- Scopes that are left after a node was halted do not lie in a scope that was destroyed. -/
theorem Context.Sound.halted (sound : context.Sound tree) {root : RunKey}
    (halts : context.Halts tree [root] after) : after.Sound tree := by
  have fits := halts.fits sound.fits
  rcases halts with ⟨keys, rfl, reached⟩
  rcases sound.accounted.discardedAll keys with ⟨accounted, parents⟩
  have same : context.SamePlace (context.discardedAll keys) := samePlace_discardedAll
  have scopes : ∀ other, (context.discardedAll keys).runs.scopeAt other =
      if other ∈ keys then none else context.runs.scopeAt other := by
    intro other
    unfold RunStore.scopeAt
    rw [get?_discardedAll]
    split <;> rfl
  refine ⟨accounted, ?_, fits, by rw [same.visits]; exact sound.calm⟩
  intro other id outer stored around
  rw [scopes] at stored
  split at stored
  · cases stored
  · rename_i left
    rcases sound.nested other id outer stored (parents id _ around) with
      isRoot | ⟨above, storedAbove, below⟩
    · exact Or.inl isRoot
    · refine Or.inr ⟨above, ?_, below.mono (.of_eq same.frames)⟩
      rw [scopes, if_neg, storedAbove]
      intro halted
      apply left
      rw [reached] at halted ⊢
      rcases halted with ⟨top, isTop, reaches⟩
      exact ⟨top, isTop, reaches.trans below.reaches⟩

end BehaviorTree
