import BehaviorTree.Proofs.Blackboard.Bindings
import BehaviorTree.Proofs.Engine.Activations
import BehaviorTree.Proofs.Engine.Invocations

/-!
# Assignments of variables

A node that sets variables reads all sources first, then it checks that all targets are defined, and
then it writes. The checks look at the same scopes as the writes: a write defines nothing and hides
nothing, so a variable that was found by the checks is found by the writes, at the same place. So
either all variables are set, each to the value that its last source had before the tick, or the
node fails with a report and no variable changes.
-/

namespace BehaviorTree

variable {σ : Type}

/-- The assignment that counts among those of a variable. -/
def Node.assignmentOf? (node : Node) (name : String) : Option Assignment :=
  node.assignments.reverse.find? fun assignment => assignment.name = name

namespace Context

/-- What a node assigns to a variable, if the source has a value. -/
def assigned? (context : Context σ) (setting : Setting) (index : NodeIndex) (node : Node)
    (name : String) : Option Entry :=
  (node.assignmentOf? name).bind fun assignment =>
    (context.value assignment.source).toOption.map fun value => ⟨value, setting.now, some index⟩

/-- Why the assignments of a node are not made. -/
inductive Refuses (context : Context σ) (assignments : List Assignment) : TickError → Prop where
  | unreadable {assignment : Assignment} {cause : BindingError} (listed : assignment ∈ assignments)
      (failed : context.value assignment.source = .error cause) :
      Refuses context assignments (.binding cause)
  | undefined {assignment : Assignment}
      (readable : ∀ other ∈ assignments, ∃ value, context.value other.source = .ok value)
      (listed : assignment ∈ assignments)
      (missing : ∀ owner entry,
        ¬ context.blackboard.Nearest assignment.name context.scope owner entry) :
      Refuses context assignments (.blackboard (.undefinedVariable assignment.name))

/-- The turn of a node that sets variables. -/
inductive SetsVariables (setting : Setting) (key : RunKey) (node : Node) (before : Context σ) :
    Status → Context σ → Prop where
  | set {blackboard : Blackboard}
      (readable : ∀ assignment ∈ node.assignments,
        ∃ value, before.value assignment.source = .ok value)
      (assigns : before.blackboard.Assigns before.scope (before.assigned? setting key.node node)
        blackboard) :
      SetsVariables setting key node before .success
        (({ before with blackboard := blackboard } : Context σ).visit ⟨key, .success, none⟩)
  | refused {cause : TickError} (refuses : before.Refuses node.assignments cause) :
      SetsVariables setting key node before .failure
        ((before.report setting key.node node cause).visit ⟨key, .failure, some cause⟩)

end Context

variable {setting : Setting} {key : RunKey} {node : Node} {start context : Context σ}

/-- What variables with values are set to at a time by a node. -/
def entriesOf (now : Duration) (index : NodeIndex) (values : Table String Value) (name : String) :
    Option Entry :=
  (values.get? name).map fun value => ⟨value, now, some index⟩

theorem entriesOf_insert (now : Duration) (index : NodeIndex) (values : Table String Value)
    (name : String) (value : Value) :
    entriesOf now index (values.insert name value) =
      Function.update (entriesOf now index values) name (some ⟨value, now, some index⟩) := by
  funext other
  rw [entriesOf, Table.get?_insert, Function.update_apply]
  split <;> rfl

theorem ends_checkDefined (values : List (String × Value)) :
    Ends (values.forM fun (name, _) =>
        match start.blackboard.entry start.scope name with
        | .ok _ => (pure () : Attempt σ Unit)
        | .error _ => failNode (.blackboard (.undefinedVariable name))) start
      (fun _ after => after = start ∧
        ∀ pair ∈ values, ∃ entry, start.blackboard.entry start.scope pair.1 = .ok entry)
      (fun fault after => after = start ∧ ∃ pair ∈ values,
        (∀ entry, start.blackboard.entry start.scope pair.1 ≠ .ok entry) ∧
          fault = .node (.blackboard (.undefinedVariable pair.1))) := by
  induction values with
  | nil => exact ⟨rfl, by simp⟩
  | cons pair rest ih =>
    rcases pair with ⟨name, value⟩
    rw [List.forM, ends_bind]
    dsimp only
    cases found : start.blackboard.entry start.scope name with
    | ok entry =>
      refine ih.mono ?_ ?_
      · rintro _ after ⟨same, others⟩
        exact ⟨same, List.forall_mem_cons.2 ⟨⟨entry, found⟩, others⟩⟩
      · rintro fault after ⟨same, pair, listed, fails⟩
        exact ⟨same, pair, List.mem_cons_of_mem _ listed, fails⟩
    | error cause =>
      exact ⟨rfl, (name, value), List.mem_cons_self, fun entry => by simp [found], rfl⟩

/-- Variables that are defined can be written one after the other. Of several values for a variable
the last one stays. -/
theorem ends_writeAll (arena : start.blackboard.Arena) (values : List (String × Value))
    (defined : ∀ pair ∈ values, ∃ owner entry,
      start.blackboard.Nearest pair.1 start.scope owner entry)
    {written : Table String Value} {blackboard : Blackboard}
    (assigns : start.blackboard.Assigns start.scope (entriesOf setting.now key.node written)
      blackboard) :
    Ends (values.forM fun (name, value) => writeVariable setting key.node name value)
      { start with blackboard := blackboard }
      (fun _ after => ∃ last, after = { start with blackboard := last } ∧
        start.blackboard.Assigns start.scope (entriesOf setting.now key.node
          (values.foldl (fun table pair => table.insert pair.1 pair.2) written)) last)
      fun _ _ => False := by
  induction values generalizing written blackboard with
  | nil => exact ⟨blackboard, rfl, assigns⟩
  | cons pair rest ih =>
    rcases pair with ⟨name, value⟩
    rw [List.forall_mem_cons] at defined
    rcases defined.1 with ⟨owner, previous, nearest⟩
    rcases assigns.exists_write arena nearest ⟨value, setting.now, some key.node⟩ with
      ⟨next, wrote⟩
    have further := assigns.write wrote
    rw [← entriesOf_insert] at further
    rw [List.forM]
    simp only [writeVariable, ends_bind, Attempt.ends_get, ends_accessed, Attempt.ends_set, wrote]
    exact ih defined.2 further

/-- The sources of assignments are read, or one of them cannot be. -/
theorem evaluate_cases (context : Context σ) (assignments : List Assignment) :
    match assignments.mapM fun assignment =>
      (context.value assignment.source).map fun value => (assignment.name, value) with
    | .ok values => values.map Prod.fst = assignments.map Assignment.name ∧
        ∀ assignment ∈ assignments, ∃ value, context.value assignment.source = .ok value
    | .error cause =>
      ∃ assignment ∈ assignments, context.value assignment.source = .error cause := by
  induction assignments with
  | nil => exact ⟨rfl, nofun⟩
  | cons first rest ih =>
    rw [List.mapM_cons]
    cases evaluated : context.value first.source with
    | error cause => exact ⟨first, List.mem_cons_self, evaluated⟩
    | ok value =>
      revert ih
      cases rest.mapM fun assignment =>
          (context.value assignment.source).map fun value => (assignment.name, value) with
      | error cause =>
        rintro ⟨assignment, listed, failed⟩
        exact ⟨assignment, List.mem_cons_of_mem _ listed, failed⟩
      | ok values =>
        rintro ⟨names, readable⟩
        exact ⟨congrArg (first.name :: ·) names,
          List.forall_mem_cons.2 ⟨⟨value, evaluated⟩, readable⟩⟩

/-- Of the sources for a variable the last one counts. -/
theorem entriesOf_eq_assigned? {values : List (String × Value)}
    (evaluated : (node.assignments.mapM fun assignment =>
      (context.value assignment.source).map fun value => (assignment.name, value)) = .ok values) :
    entriesOf setting.now key.node (.ofList values) =
      context.assigned? setting key.node node := by
  funext name
  have counts := Table.get?_ofList_of_mapM evaluated name
  unfold entriesOf Context.assigned? Node.assignmentOf?
  split at counts
  · rename_i absent
    rw [absent, counts]
    rfl
  · rename_i assignment last
    rcases counts with ⟨value, read, held⟩
    rw [last, held, Option.bind_some, read]
    rfl

/-- All variables are set, or nothing is. -/
theorem ends_tickSet (arena : start.blackboard.Arena) :
    Ends (tickSet setting key node) start
      (fun status last => status = .success ∧ ∃ blackboard,
        last = { start with blackboard := blackboard } ∧
        (∀ assignment ∈ node.assignments,
          ∃ value, start.value assignment.source = .ok value) ∧
        start.blackboard.Assigns start.scope (start.assigned? setting key.node node) blackboard)
      (fun fault last => last = start ∧
        ∃ cause, fault = .node cause ∧ start.Refuses node.assignments cause) := by
  have evaluated := evaluate_cases start node.assignments
  unfold tickSet
  simp only [ends_bind, Attempt.ends_get, ends_bound, true_and]
  split at evaluated
  · rename_i values read
    rcases evaluated with ⟨names, readable⟩
    rw [read]
    dsimp only
    -- The pairs to be written have the names of the assignments.
    have target : ∀ pair ∈ values, ∃ assignment ∈ node.assignments,
        assignment.name = pair.1 := by
      intro pair listed
      have named : pair.1 ∈ node.assignments.map Assignment.name :=
        names ▸ List.mem_map_of_mem listed
      exact List.mem_map.1 named
    refine (ends_checkDefined values).mono ?_ ?_
    · rintro _ middle ⟨same, found⟩
      rw [same]
      have defined : ∀ pair ∈ values, ∃ owner entry,
          start.blackboard.Nearest pair.1 start.scope owner entry := by
        intro pair listed
        rcases found pair listed with ⟨entry, held⟩
        rcases arena.entry_eq_ok_iff.1 held with ⟨owner, nearest⟩
        exact ⟨owner, entry, nearest⟩
      have nothing : start.blackboard.Assigns start.scope
          (entriesOf setting.now key.node .empty) start.blackboard :=
        .refl start.blackboard start.scope
      refine (ends_writeAll arena values defined nothing).mono ?_
        fun _ _ impossible => impossible.elim
      rintro _ _ ⟨blackboard, rfl, assigns⟩
      refine ⟨rfl, blackboard, rfl, readable, ?_⟩
      rw [← entriesOf_eq_assigned? read]
      exact assigns
    · rintro fault last ⟨same, pair, listed, missing, rfl⟩
      rcases target pair listed with ⟨assignment, given, named⟩
      refine ⟨same, _, rfl, named ▸ .undefined readable given fun owner entry nearest => ?_⟩
      exact missing entry (arena.entry_eq_ok_iff.2 ⟨owner, named ▸ nearest⟩)
  · rename_i cause unreadable
    rcases evaluated with ⟨assignment, listed, failed⟩
    rw [unreadable]
    exact ⟨_, rfl, .unreadable listed failed⟩

section Turns

variable [RemoteService σ] {tree : Tree} {after : Context σ}

/-- A node that remembers nothing and invokes nothing is halted without any effect. -/
theorem Context.Halts.eq_of_nothing (halts : context.Halts tree [key] after)
    (alone : ∀ lower, ¬ tree.Invokes context.runs key lower)
    (nothing : context.runs.get? key = none) : after = context := by
  rcases halts with ⟨keys, rfl, reached⟩
  have only : ∀ other ∈ keys, other = key := by
    intro other listed
    rcases (reached other).1 listed with ⟨root, isRoot, reaches⟩
    rw [List.mem_singleton.1 isRoot] at reaches
    rcases Relation.ReflTransGen.cases_head reaches with same | ⟨lower, invokes, -⟩
    · exact same.symm
    · exact absurd invokes (alone lower)
  clear reached
  induction keys with
  | nil => rfl
  | cons first rest ih =>
    rw [List.forall_mem_cons] at only
    have untouched : context.discarded first = context := by
      rw [only.1, discarded, nothing]
    rw [discardedAll, List.foldl_cons, untouched]
    exact ih only.2

theorem Standing.ends_setsVariables {depth : Nat} (stands : Standing setting depth key node)
    (ready : start.Ready setting.tree key) (fixed : node.IsFixed .setBlackboard) :
    Ends (tickWithin setting (depth + 1) key.node) start
      (fun status after => start.SetsVariables setting key node status after)
      fun _ _ => False := by
  have isNode : (setting.tree.node? key.node).isSome := by simp [stands.found]
  have fits := stands.wellFormed.fits _ _ stands.found
  have kind : node.kind = .setBlackboard := (fits.configured _ fixed.configured).symm
  have here : (⟨start.frame, key.node⟩ : RunKey) = key := by rw [ready.atKey]
  have nothing : start.runs.get? key = none := by
    cases remembered : start.runs.get? key with
    | none => rfl
    | some state =>
      rcases ready.sound.fits key state remembered with ⟨other, found, fits⟩
      rw [stands.found, Option.some.injEq] at found
      subst found
      cases state <;> simp [RunState.Fits, kind] at fits
  have attempted : Ends (attemptNode setting (tickWithin setting depth) key node) start _ _ :=
    (ends_attemptNode (fixed.effectiveConfiguration_eq start)).2
      (ends_tickSet ready.sound.accounted.arena)
  have settled : Ends (settleAttempt setting key node
      (attemptNode setting (tickWithin setting depth) key node)) start
      (fun status noted => start.SetsVariables setting key node status noted)
      fun _ _ => False := by
    unfold Ends at attempted ⊢
    rw [outcome_settleAttempt]
    revert attempted
    rcases outcome (attemptNode setting (tickWithin setting depth) key node) start with
      ⟨(cause | failure) | status, last⟩
    · rintro ⟨rfl, cause, ⟨⟩, refuses⟩
      exact .refused refuses
    · rintro ⟨-, cause, ⟨⟩, -⟩
    · rintro ⟨rfl, blackboard, rfl, readable, assigns⟩
      exact .set readable assigns
  simp only [tickWithin, stands.found, ends_bind, BehaviorTree.ends_get, here]
  refine settled.mono ?_ fun _ _ impossible => impossible.elim
  intro status noted sets
  have same : status ≠ .running ∧ noted.runs = start.runs := by
    cases sets <;> exact ⟨by decide, rfl⟩
  unfold concludeNode
  rw [if_neg same.1]
  refine (ends_halt stands.wellFormed isNode noted).mono ?_ fun _ _ impossible => impossible.elim
  intro _ after halts
  have ordinary : ∀ target, node.configuration ≠ some (.reference target) := by
    intro target configured
    rw [fixed.configured] at configured
    cases configured
  have alone : ∀ lower, ¬ setting.tree.Invokes noted.runs key lower := by
    intro lower invokes
    rcases (Tree.invokes_iff_of_ordinary stands.found ordinary _ _).1 invokes with
      ⟨child, listed, -⟩
    rw [fits.no_child (by rw [kind]; rfl)] at listed
    cases listed
  rw [halts.eq_of_nothing alone (by rw [same.2, nothing])]
  exact sets

end Turns

end BehaviorTree
