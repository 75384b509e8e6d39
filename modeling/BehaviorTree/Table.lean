/-!
# Tables

A table maps keys to values. It is a list of entries in which no key stands twice, in the order
in which the keys were first inserted. What a table means is its `get?`; `get?_empty`,
`get?_insert` and `get?_erase` say what the operations do to it.
-/

namespace BehaviorTree

/-- A finite map from keys to values. -/
structure Table (κ ν : Type) where
  /-- The keys with their values, in the order in which the keys were first inserted. -/
  entries : List (κ × ν)
  nodup : (entries.map Prod.fst).Nodup

namespace Table

variable {κ ν : Type}

def empty : Table κ ν := ⟨[], List.nodup_nil⟩

instance : Inhabited (Table κ ν) := ⟨empty⟩

def keys (table : Table κ ν) : List κ := table.entries.map Prod.fst

def values (table : Table κ ν) : List ν := table.entries.map Prod.snd

def size (table : Table κ ν) : Nat := table.entries.length

def isEmpty (table : Table κ ν) : Bool := table.entries.isEmpty

/-- The table with every value replaced by what a function makes of it. -/
def mapValues {ω : Type} (table : Table κ ν) (change : ν → ω) : Table κ ω where
  entries := table.entries.map fun entry => (entry.1, change entry.2)
  nodup := by simpa [Function.comp_def] using table.nodup

def filter (table : Table κ ν) (keep : κ → ν → Bool) : Table κ ν where
  entries := table.entries.filter fun entry => keep entry.1 entry.2
  nodup := (List.filter_sublist.map Prod.fst).nodup table.nodup

variable [DecidableEq κ]

def get? (table : Table κ ν) (key : κ) : Option ν :=
  (table.entries.find? fun entry => entry.1 = key).map Prod.snd

def contains (table : Table κ ν) (key : κ) : Bool :=
  (table.get? key).isSome

def erase (table : Table κ ν) (key : κ) : Table κ ν :=
  table.filter fun other _ => other ≠ key

/-- The table with a value for a key. A key that has a value keeps its place. -/
def insert (table : Table κ ν) (key : κ) (value : ν) : Table κ ν :=
  if present : key ∈ table.keys then
    { entries := table.entries.map fun entry => if entry.1 = key then (key, value) else entry
      nodup := by
        have same :
            (table.entries.map fun entry => if entry.1 = key then (key, value) else entry).map
              Prod.fst = table.entries.map Prod.fst := by
          rw [List.map_map]
          apply List.map_congr_left
          intro entry _
          by_cases equal : entry.1 = key <;> simp [equal]
        rw [same]
        exact table.nodup }
  else
    { entries := table.entries ++ [(key, value)]
      nodup := by
        have absent : key ∉ table.entries.map Prod.fst := present
        simp only [List.map_append, List.map_cons, List.map_nil]
        rw [List.nodup_append]
        refine ⟨table.nodup, by simp, ?_⟩
        intro left left_mem right right_mem equal
        simp only [List.mem_singleton] at right_mem
        subst right_mem
        exact absent (equal ▸ left_mem) }

/-- The table of a list of entries. Of the entries with the same key the last one counts. -/
def ofList (entries : List (κ × ν)) : Table κ ν :=
  entries.foldl (fun table entry => table.insert entry.1 entry.2) empty

@[simp]
theorem get?_empty (key : κ) : (empty : Table κ ν).get? key = none := rfl

/-- A key has a value exactly if it is among the keys. -/
theorem get?_eq_none_iff {table : Table κ ν} {key : κ} :
    table.get? key = none ↔ key ∉ table.keys := by
  simp only [get?, keys, Option.map_eq_none_iff, List.find?_eq_none, decide_eq_true_eq,
    List.mem_map, not_exists, not_and]

theorem get?_insert (table : Table κ ν) (key other : κ) (value : ν) :
    (table.insert key value).get? other = if other = key then some value else table.get? other := by
  unfold insert
  split
  · rename_i present
    have replaced : ∀ entries : List (κ × ν),
        ((entries.map fun entry => if entry.1 = key then (key, value) else entry).find?
            fun entry => entry.1 = other).map Prod.snd =
          if other = key then
            if key ∈ entries.map Prod.fst then some value else none
          else (entries.find? fun entry => entry.1 = other).map Prod.snd := by
      intro entries
      induction entries with
      | nil => simp
      | cons first rest ih =>
        simp only [List.map_cons, List.find?_cons, List.mem_cons]
        by_cases atKey : first.1 = key <;> by_cases atOther : first.1 = other <;> grind
    simp only [get?]
    rw [replaced]
    have member : key ∈ table.entries.map Prod.fst := present
    simp [member]
  · rename_i absent
    simp only [get?, List.find?_append]
    by_cases same : other = key
    · subst same
      have missing : table.entries.find? (fun entry => decide (entry.1 = other)) = none := by
        simpa [get?] using get?_eq_none_iff.2 absent
      simp [missing]
    · have different : key ≠ other := fun equal => same equal.symm
      simp [same, different]

theorem get?_erase (table : Table κ ν) (key other : κ) :
    (table.erase key).get? other = if other = key then none else table.get? other := by
  simp only [erase, filter, get?, List.find?_filter]
  split
  · rename_i same
    subst same
    simp
  · rename_i different
    congr 2
    funext entry
    by_cases found : entry.1 = other
    · simp [found, different]
    · simp [found]

end Table

/-- Adds a name to an increasing list of names, unless it is in the list. -/
def insertName (name : String) : List String → List String
  | [] => [name]
  | first :: rest =>
    if name < first then name :: first :: rest
    else if name = first then first :: rest
    else first :: insertName name rest

def sortedNames (names : List String) : List String :=
  names.foldr insertName []

end BehaviorTree
