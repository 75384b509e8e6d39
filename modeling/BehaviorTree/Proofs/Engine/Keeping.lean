import BehaviorTree.Engine.Halt
import BehaviorTree.Proofs.Engine.Outcome
import Mathlib.Order.Defs.Unbundled

/-!
# What actions keep

An action keeps a relation if the state that it leaves, with a result or with an error, is related
to the one in which it starts. If nothing changes that relates a state to itself, and a sequence of
changes counts as one, then what every action of a sequence keeps is kept by the sequence.
-/

namespace BehaviorTree

variable {ε α β ς σ : Type}

/-- Whatever becomes of an action, what it leaves is related to what there was. -/
def Keeping (related : ς → ς → Prop) (action : ExceptT ε (StateM ς) α) : Prop :=
  ∀ state, related state (outcome action state).2

namespace Keeping

variable {related : ς → ς → Prop} {action : ExceptT ε (StateM ς) α} {state : ς}

theorem ends (keeping : Keeping related action) (state : ς) :
    Ends action state (fun _ next => related state next) fun _ next => related state next := by
  have kept := keeping state
  unfold Ends
  revert kept
  rcases outcome action state with ⟨error | result, next⟩ <;> exact id

theorem of_ends (ends : ∀ state,
    Ends action state (fun _ next => related state next) fun _ next => related state next) :
    Keeping related action := by
  intro state
  have kept := ends state
  unfold Ends at kept
  revert kept
  rcases outcome action state with ⟨error | result, next⟩ <;> exact id

/-- What an action keeps is related to whatever its start is related to. -/
theorem endsAfter [IsTrans ς related] {begun : ς} (keeping : Keeping related action)
    (before : related begun state) :
    Ends action state (fun _ next => related begun next) fun _ next => related begun next :=
  (keeping.ends state).mono (fun _ _ kept => IsTrans.trans _ _ _ before kept)
    fun _ _ kept => IsTrans.trans _ _ _ before kept

section Steps

variable [Std.Refl related] [IsTrans ς related]

omit [IsTrans ς related] in
theorem pure (value : α) : Keeping related (pure value : ExceptT ε (StateM ς) α) :=
  fun state => refl state

omit [IsTrans ς related] in
theorem throw (error : ε) : Keeping related (throw error : ExceptT ε (StateM ς) α) :=
  fun state => refl state

omit [IsTrans ς related] in
theorem get : Keeping related (get : ExceptT ε (StateM ς) ς) := fun state => refl state

omit [Std.Refl related] in
theorem bind {next : α → ExceptT ε (StateM ς) β} (begins : Keeping related action)
    (goesOn : ∀ result, Keeping related (next result)) : Keeping related (action >>= next) := by
  intro state
  have kept := begins state
  rw [outcome_bind]
  revert kept
  rcases outcome action state with ⟨error | result, middle⟩
  · exact id
  · exact fun kept => IsTrans.trans _ _ _ kept (goesOn result middle)

theorem forM (items : List β) {body : β → ExceptT ε (StateM ς) PUnit}
    (each : ∀ item ∈ items, Keeping related (body item)) : Keeping related (items.forM body) := by
  induction items with
  | nil => exact pure _
  | cons item rest ih =>
    rw [List.forall_mem_cons] at each
    exact bind each.1 fun _ => ih each.2

end Steps

theorem attempt {related : Context σ → Context σ → Prop} {action : Tick σ α}
    (keeping : Keeping related action) : Keeping related (Tick.attempt action) := by
  intro context
  rw [outcome_attempt]
  exact keeping context

/-- Halts keep what is kept whenever the run state of a node is forgotten. -/
theorem haltWithin [RemoteService σ] {related : Context σ → Context σ → Prop} [Std.Refl related]
    [IsTrans (Context σ) related] (discards : ∀ key, Keeping related (discard key : Tick σ Unit))
    (tree : Tree) (depth : Nat) (key : RunKey) :
    Keeping related (BehaviorTree.haltWithin tree depth key : Tick σ Unit) := by
  induction depth generalizing key with
  | zero => exact .throw _
  | succ depth ih =>
    unfold BehaviorTree.haltWithin
    split
    · refine .bind (discards key) fun _ => ?_
      split
      · refine .bind .get fun context => ?_
        split
        · exact .pure _
        · split
          · exact ih _
          · exact .throw _
      · exact .forM _ fun child _ => ih _
    · exact .throw _

end Keeping

end BehaviorTree
