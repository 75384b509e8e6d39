import BehaviorTree.Table
import Mathlib.Data.List.Nodup

/-!
# Entries of tables

The look-up of a table decides which entries, keys and values it lists.
-/

namespace BehaviorTree

namespace Table

variable {κ ν ω : Type} [DecidableEq κ]

/-- The entries of a table are the keys with their values. -/
theorem mem_entries_iff {table : Table κ ν} {key : κ} {value : ν} :
    (key, value) ∈ table.entries ↔ table.get? key = some value := by
  constructor
  · intro listed
    cases found : table.entries.find? fun entry => entry.1 = key with
    | none =>
      have missing := List.find?_eq_none.1 found (key, value) listed
      simp at missing
    | some entry =>
      have atKey : entry.1 = key := by simpa using List.find?_some found
      have member := List.mem_of_find?_eq_some found
      have same : entry = (key, value) :=
        List.inj_on_of_nodup_map table.nodup member listed atKey
      simp [get?, found, same]
  · intro found
    simp only [get?, Option.map_eq_some_iff] at found
    obtain ⟨entry, located, rfl⟩ := found
    have atKey : entry.1 = key := by simpa using List.find?_some located
    rw [← atKey]
    exact List.mem_of_find?_eq_some located

/-- The keys of a table are those that have a value. -/
theorem mem_keys_iff {table : Table κ ν} {key : κ} :
    key ∈ table.keys ↔ ∃ value, table.get? key = some value := by
  simp [keys, ← mem_entries_iff]

/-- The values of a table are those of its keys. -/
theorem mem_values_iff {table : Table κ ν} {value : ν} :
    value ∈ table.values ↔ ∃ key, table.get? key = some value := by
  simp [values, ← mem_entries_iff]

/-- Whether a table contains a key is told by the look-up. -/
theorem contains_iff {table : Table κ ν} {key : κ} :
    table.contains key = true ↔ ∃ value, table.get? key = some value := by
  simp [contains, Option.isSome_iff_exists]

@[simp]
theorem get?_mapValues (table : Table κ ν) (change : ν → ω) (key : κ) :
    (table.mapValues change).get? key = (table.get? key).map change := by
  simp only [get?, mapValues, List.find?_map, Option.map_map]
  rfl

@[simp]
theorem get?_insert_self (table : Table κ ν) (key : κ) (value : ν) :
    (table.insert key value).get? key = some value := by
  simp [get?_insert]

@[simp]
theorem get?_erase_self (table : Table κ ν) (key : κ) : (table.erase key).get? key = none := by
  simp [get?_erase]

theorem get?_insert_of_ne {table : Table κ ν} {key other : κ} {value : ν}
    (different : other ≠ key) : (table.insert key value).get? other = table.get? other := by
  simp [get?_insert, different]

theorem get?_erase_of_ne {table : Table κ ν} {key other : κ} (different : other ≠ key) :
    (table.erase key).get? other = table.get? other := by
  simp [get?_erase, different]

theorem size_insert_of_get?_eq_none {table : Table κ ν} {key : κ} (absent : table.get? key = none)
    (value : ν) : (table.insert key value).size = table.size + 1 := by
  rw [insert, dif_neg (get?_eq_none_iff.1 absent)]
  simp [size]

theorem mapValues_insert (table : Table κ ν) (change : ν → ω) (key : κ) (value : ν) :
    (table.insert key value).mapValues change =
      (table.mapValues change).insert key (change value) := by
  have keys : (table.mapValues change).keys = table.keys := by
    simp [Table.keys, mapValues, Function.comp_def]
  unfold insert
  by_cases present : key ∈ table.keys
  · rw [dif_pos present, dif_pos (keys ▸ present)]
    simp only [mapValues, mk.injEq, List.map_map]
    apply List.map_congr_left
    intro entry _
    simp only [Function.comp_apply]
    split <;> rfl
  · rw [dif_neg present, dif_neg (keys ▸ present)]
    simp [mapValues]

theorem mapValues_erase (table : Table κ ν) (change : ν → ω) (key : κ) :
    (table.erase key).mapValues change = (table.mapValues change).erase key := by
  simp only [erase, filter, mapValues, mk.injEq, List.filter_map]
  rfl

/-- One table has the entries of the other one, under other keys. -/
def Rekeys (change : κ → κ) (first second : Table κ ν) : Prop :=
  first.entries = second.entries.map fun entry => (change entry.1, entry.2)

namespace Rekeys

variable {change : κ → κ} {first second : Table κ ν}

omit [DecidableEq κ] in
theorem keys_eq (rekeys : Rekeys change first second) : first.keys = second.keys.map change := by
  simp [keys, show first.entries = _ from rekeys, Function.comp_def]

theorem get?_eq (rekeys : Rekeys change first second) (injective : Function.Injective change)
    (key : κ) : first.get? (change key) = second.get? key := by
  simp only [get?, show first.entries = _ from rekeys, List.find?_map, Option.map_map,
    Function.comp_def, injective.eq_iff]

theorem erase (rekeys : Rekeys change first second) (injective : Function.Injective change)
    (key : κ) : Rekeys change (first.erase (change key)) (second.erase key) := by
  simp only [Rekeys, Table.erase, filter, show first.entries = _ from rekeys, List.filter_map,
    Function.comp_def, ne_eq, injective.eq_iff]

theorem insert (rekeys : Rekeys change first second) (injective : Function.Injective change)
    (key : κ) (value : ν) :
    Rekeys change (first.insert (change key) value) (second.insert key value) := by
  have member : change key ∈ first.keys ↔ key ∈ second.keys := by
    rw [rekeys.keys_eq, List.mem_map_of_injective injective]
  unfold Table.insert
  by_cases present : key ∈ second.keys
  · rw [dif_pos present, dif_pos (member.2 present)]
    simp only [Rekeys, show first.entries = _ from rekeys, List.map_map]
    apply List.map_congr_left
    intro entry _
    simp only [Function.comp_apply, injective.eq_iff]
    split <;> rfl
  · rw [dif_neg present, dif_neg fun listed => present (member.1 listed)]
    simp [Rekeys, show first.entries = _ from rekeys]

end Rekeys

end Table

end BehaviorTree
