import BehaviorTree.Proofs.Blackboard.Bindings
import BehaviorTree.Proofs.Blackboard.Sessions
import BehaviorTree.Proofs.Table

/-!
# Visible variables

The variables that are visible from a scope are collected on the walk outwards on which a single
one is searched for. Both stop at the same scopes: where a search fails because a scope is gone, the
collection ends with what it has. So a variable is listed exactly if it is found, with the entry
that is found, and it is listed once.
-/

namespace BehaviorTree

namespace Blackboard

variable {blackboard : Blackboard} {id : ScopeId} {name : String} {entry : Entry}

theorem mem_visible_iff :
    (name, entry) ∈ (blackboard.visible id).entries ↔ blackboard.entry id name = .ok entry := by
  rw [Table.mem_entries_iff, get?_visible]
  cases blackboard.entry id name <;> simp [Except.toOption]

theorem Arena.mem_collectVisible_enough_iff (arena : blackboard.Arena) (extra : Nat) :
    (name, entry) ∈ blackboard.collectVisible [] (blackboard.slots.length + extra) (some id) ↔
      (name, entry) ∈ (blackboard.visible id).entries := by
  let farther : Table String Entry :=
    ⟨blackboard.collectVisible [] (blackboard.slots.length + extra) (some id),
      blackboard.nodup_collectVisible (by simp) _ _⟩
  change (name, entry) ∈ farther.entries ↔ _
  rw [Table.mem_entries_iff, Table.mem_entries_iff, ← arena.lookUp_collectVisible_enough id name
    extra]
  rfl

end Blackboard

namespace ScopeSession

open Blackboard

/-- After any session and for any handle, good or not, the visible variables are those that are
found, each with the entry that is found and listed once: that of the nearest definition. No
more of them are collected through any number of further scopes, and as long as no slot is torn down
2^32 times, walks outwards end by themselves. -/
theorem visible_variables_are_those_found (operations : List ScopeOperation) (id : ScopeId) :
    let last := (start.run operations).2.blackboard
    (last.visible id).keys.Nodup ∧
      (∀ name entry, (name, entry) ∈ (last.visible id).entries ↔
        last.entry id name = .ok entry) ∧
      (∀ name entry, last.entry id name = .ok entry ↔
        ∃ owner, last.Nearest name id owner entry) ∧
      (∀ extra name entry,
        (name, entry) ∈ last.collectVisible [] (last.slots.length + extra) (some id) ↔
          (name, entry) ∈ (last.visible id).entries) ∧
      ((∀ index, start.teardowns index operations < 2 ^ 32) →
        WellFounded fun outer inner => last.parent? inner = some (some outer)) := by
  intro last
  have arena : last.Arena := arena_run empty_arena operations
  refine ⟨(last.visible id).nodup, ?_, ?_, ?_, ?_⟩
  · intro name entry
    exact mem_visible_iff
  · intro name entry
    exact arena.entry_eq_ok_iff
  · intro extra name entry
    exact arena.mem_collectVisible_enough_iff extra
  · intro spared
    exact (refines_start.run (spared_start spared)).2.wellFounded

/-- A variable hides another one from the scope inside, until the scope of both is destroyed. -/
def orphaning : List ScopeOperation :=
  [.ask 0 .create, .ask 1 .create, .ask 0 (.define "battery" ⟨.int 20, .zero, none⟩),
    .ask 1 (.define "battery" ⟨.int 80, .zero, none⟩),
    .ask 2 (.define "speed" ⟨.int 3, .zero, none⟩), .ask 1 .destroy]

/-- A scope whose parent is gone still lists its own variables, and a search for another one fails
there. -/
theorem orphan_lists_own_variables :
    let last := (start.run orphaning).2.blackboard
    ((∀ index, start.teardowns index orphaning < 2 ^ 32) ∧
      last.entry ⟨2, 0⟩ "speed" = .ok ⟨.int 3, .zero, none⟩ ∧
      last.entry ⟨2, 0⟩ "battery" = .error .scopeGone) ∧
    ("speed", ⟨.int 3, .zero, none⟩) ∈ (last.visible ⟨2, 0⟩).entries ∧
      (∀ entry, ("battery", entry) ∉ (last.visible ⟨2, 0⟩).entries) ∧
      WellFounded fun outer inner => last.parent? inner = some (some outer) := by
  intro last
  have speed : last.entry ⟨2, 0⟩ "speed" = .ok ⟨.int 3, .zero, none⟩ := rfl
  have battery : last.entry ⟨2, 0⟩ "battery" = .error .scopeGone := rfl
  have spared : ∀ index, start.teardowns index orphaning < 2 ^ 32 := by
    intro index
    have few : orphaning.length < 2 ^ 32 := by decide
    exact Nat.lt_of_le_of_lt (teardowns_le_length start index orphaning) few
  obtain ⟨-, listed, -, -, ends⟩ := visible_variables_are_those_found orphaning ⟨2, 0⟩
  refine ⟨⟨spared, speed, battery⟩, (listed _ _).2 speed, ?_, ends spared⟩
  intro entry there
  have found := (listed _ _).1 there
  rw [battery] at found
  cases found

end ScopeSession

end BehaviorTree
