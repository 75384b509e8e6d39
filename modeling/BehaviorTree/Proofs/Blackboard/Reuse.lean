import BehaviorTree.Engine.Context
import BehaviorTree.Proofs.Blackboard.Slots
import BehaviorTree.Proofs.Blackboard.Walks
import BehaviorTree.Proofs.Blackboard.Writes

/-!
# Reuse of a blackboard

A blackboard on which only the root is left goes on in slots that were used before, with handles
that a new blackboard would not return. A new blackboard on which the same is done follows it
handle by handle: the handles of the one are told by those of the other, and whatever is read
through a handle is the same.
-/

namespace BehaviorTree

/-- Two results have the same error, or values that are related. -/
inductive Matches {ε α β : Type} (related : α → β → Prop) : Except ε α → Except ε β → Prop where
  | ok {first : α} {second : β} (values : related first second) :
      Matches related (.ok first) (.ok second)
  | error (cause : ε) : Matches related (.error cause) (.error cause)

theorem Matches.map {ε α β γ δ : Type} {related : α → β → Prop} {relatedNext : γ → δ → Prop}
    {first : Except ε α} {second : Except ε β} {firstNext : α → γ} {secondNext : β → δ}
    (fit : Matches related first second)
    (next : ∀ one other, related one other → relatedNext (firstNext one) (secondNext other)) :
    Matches relatedNext (first.map firstNext) (second.map secondNext) := by
  cases fit with
  | ok values => exact .ok (next _ _ values)
  | error cause => exact .error cause

theorem Matches.imp {ε α β : Type} {related stronger : α → β → Prop} {first : Except ε α}
    {second : Except ε β} (fit : Matches related first second)
    (also : ∀ one other, first = .ok one → second = .ok other → related one other →
      stronger one other) : Matches stronger first second := by
  cases fit with
  | ok values => exact .ok (also _ _ rfl rfl values)
  | error cause => exact .error cause

namespace Blackboard

section Ground

variable (ground : Blackboard)

/-- The slot in which a used blackboard has what a new one has in slot number `index`. Slots are
taken from the free ones first, and then from the end. -/
def place : (index : Nat) → Nat
  | 0 => 0
  | index + 1 => ground.free[index]?.getD (ground.slots.length + (index - ground.free.length))

/-- How often a slot was used before. -/
def shift (index : Nat) : UInt32 :=
  (ground.slots[ground.place index]?.map ScopeSlot.generation).getD 0

/-- The handle on a used blackboard of what has the handle `id` on a new one. -/
def handle (id : ScopeId) : ScopeId :=
  ⟨ground.place id.slot, id.generation + ground.shift id.slot⟩

variable {ground}

theorem place_inside {index : Nat} (inside : index < ground.free.length) :
    ground.place (index + 1) = ground.free[index] := by
  simp only [place, List.getElem?_eq_getElem inside, Option.getD_some]

theorem place_beyond {index : Nat} (beyond : ground.free.length ≤ index) :
    ground.place (index + 1) = ground.slots.length + (index - ground.free.length) := by
  simp only [place, List.getElem?_eq_none beyond, Option.getD_none]

theorem Arena.length_pos (arena : ground.Arena) : 0 < ground.slots.length := by
  rcases arena.root with ⟨bindings, slot⟩
  exact (List.getElem?_eq_some_iff.1 slot).1

theorem Arena.place_lt (arena : ground.Arena) {index : Nat} (inside : index < ground.free.length) :
    ground.place (index + 1) < ground.slots.length := by
  rw [place_inside inside]
  rcases arena.vacant _ (List.getElem_mem inside) with ⟨-, generation, slot⟩
  exact (List.getElem?_eq_some_iff.1 slot).1

theorem Arena.place_ne_zero (arena : ground.Arena) (index : Nat) :
    ground.place (index + 1) ≠ 0 := by
  rcases Nat.lt_or_ge index ground.free.length with inside | beyond
  · rw [place_inside inside]
    exact (arena.vacant _ (List.getElem_mem inside)).1
  · have positive := arena.length_pos
    rw [place_beyond beyond]
    omega

theorem Arena.place_injective (arena : ground.Arena) : Function.Injective ground.place := by
  intro first second same
  cases first with
  | zero =>
    cases second with
    | zero => rfl
    | succ second => exact absurd same.symm (arena.place_ne_zero second)
  | succ first =>
    cases second with
    | zero => exact absurd same (arena.place_ne_zero first)
    | succ second =>
      rw [Nat.succ_inj]
      rcases Nat.lt_or_ge first ground.free.length with inside | beyond <;>
        rcases Nat.lt_or_ge second ground.free.length with otherInside | otherBeyond
      · rw [place_inside inside, place_inside otherInside] at same
        exact (arena.nodup.getElem_inj_iff).1 same
      · have low := arena.place_lt inside
        rw [same, place_beyond otherBeyond] at low
        omega
      · have low := arena.place_lt otherInside
        rw [← same, place_beyond beyond] at low
        omega
      · rw [place_beyond beyond, place_beyond otherBeyond] at same
        omega

theorem Arena.place_eq_zero_iff (arena : ground.Arena) {index : Nat} :
    ground.place index = 0 ↔ index = 0 := arena.place_injective.eq_iff' rfl

theorem Arena.handle_injective (arena : ground.Arena) : Function.Injective ground.handle := by
  rintro ⟨first, generation⟩ ⟨second, other⟩ same
  simp only [handle, ScopeId.mk.injEq] at same
  have here := arena.place_injective same.1
  subst here
  rw [UInt32.add_left_inj] at same
  rw [same.2]

theorem Arena.handle_root (arena : ground.Arena) : ground.handle .root = .root := by
  rcases arena.root with ⟨bindings, slot⟩
  simp [handle, ScopeId.root, place, shift, slot]

end Ground

theorem createScope_of_free {blackboard : Blackboard} {parent : ScopeId} {index : Nat}
    {rest : List Nat} (alive : blackboard.isAlive parent = true)
    (isFree : blackboard.free = index :: rest) :
    blackboard.createScope parent =
      let generation := (blackboard.slots[index]?.map ScopeSlot.generation).getD 0
      .ok (⟨index, generation⟩,
        { (blackboard.setSlot index ⟨generation, some ⟨some parent, .empty⟩⟩) with
          free := rest }) := by
  simp only [createScope, alive, isFree, ↓reduceIte]

theorem createScope_of_full {blackboard : Blackboard} {parent : ScopeId}
    (alive : blackboard.isAlive parent = true) (full : blackboard.free = []) :
    blackboard.createScope parent =
      .ok (⟨blackboard.slots.length, 0⟩,
        { blackboard with slots := blackboard.slots ++ [⟨0, some ⟨some parent, .empty⟩⟩] }) := by
  simp only [createScope, alive, full, ↓reduceIte]

/-- A used blackboard has what a new one has, under handles of its own. -/
structure Mirrors (ground older newer : Blackboard) : Prop where
  groundArena : ground.Arena
  olderArena : older.Arena
  newerArena : newer.Arena
  views : ∀ id, older.view (ground.handle id) =
    (newer.view id).map fun (outer, values) => (outer.map ground.handle, values)
  generations : ∀ index, older.slots[ground.place index]?.map ScopeSlot.generation =
    match newer.slots[index]? with
    | some slot => some (slot.generation + ground.shift index)
    | none => ground.slots[ground.place index]?.map ScopeSlot.generation
  length : older.slots.length =
    ground.slots.length + (newer.slots.length - 1 - ground.free.length)
  free : older.free = newer.free.map ground.place ++ ground.free.drop (newer.slots.length - 1)

/-- A new blackboard with variables in its root. -/
def ofRoot (bindings : Table String Entry) : Blackboard := ⟨[⟨0, some ⟨none, bindings⟩⟩], []⟩

theorem scope?_ofRoot (bindings : Table String Entry) (id : ScopeId) :
    (ofRoot bindings).scope? id = if id = .root then some ⟨none, bindings⟩ else none := by
  rcases id with ⟨index, generation⟩
  cases index with
  | zero => simp [scope?, ofRoot, ScopeId.root, eq_comm]
  | succ index => simp [scope?, ofRoot, ScopeId.root]

theorem arena_ofRoot (bindings : Table String Entry) : (ofRoot bindings).Arena := by
  refine ⟨⟨bindings, rfl⟩, ?_, ?_⟩ <;> simp [ofRoot]

/-- A blackboard on which only the root is left mirrors a new one with the same variables. -/
theorem Arena.mirrors_ofRoot {ground : Blackboard} (arena : ground.Arena)
    (alone : ∀ id, ground.isAlive id = true → id = .root) {bindings : Table String Entry}
    (same : ∀ name, ground.rootBinding? name = bindings.get? name) :
    ground.Mirrors ground (ofRoot bindings) := by
  rcases arena.root with ⟨held, rootSlot⟩
  have root : ground.scope? .root = some ⟨none, held⟩ := scope?_eq_some_iff.2 rootSlot
  refine ⟨arena, arena, arena_ofRoot bindings, ?_, ?_, ?_, ?_⟩
  · intro id
    unfold view
    rw [scope?_ofRoot]
    split
    · rename_i isRoot
      have values : held.get? = bindings.get? := by
        funext name
        simpa only [rootBinding?, root, Option.bind_some] using same name
      simp only [isRoot, arena.handle_root, root, values, Option.map_some, Option.map_none]
    · rename_i nested
      have gone : ground.scope? (ground.handle id) = none := by
        by_contra present
        have alive := alone (ground.handle id) (Option.isSome_iff_ne_none.2 present)
        rw [← arena.handle_root] at alive
        exact nested (arena.handle_injective alive)
      rw [gone]
      rfl
  · intro index
    cases index with
    | zero => simp [ofRoot, place, shift, rootSlot]
    | succ index => simp [ofRoot]
  · simp [ofRoot]
  · simp [ofRoot]

namespace Mirrors

variable {ground older newer after next : Blackboard} {id : ScopeId}

theorem isAlive_eq (mirrors : ground.Mirrors older newer) (id : ScopeId) :
    older.isAlive (ground.handle id) = newer.isAlive id := by
  rw [isAlive_eq_isSome_view, isAlive_eq_isSome_view, mirrors.views, Option.isSome_map]

/-- A handle is good for scopes on both blackboards or on neither. -/
theorem scope?_cases (mirrors : ground.Mirrors older newer) (id : ScopeId) :
    match newer.scope? id with
    | none => older.scope? (ground.handle id) = none
    | some scope => ∃ other, older.scope? (ground.handle id) = some other ∧
        other.parent = scope.parent.map ground.handle ∧
        other.bindings.get? = scope.bindings.get? := by
  have same := mirrors.views id
  unfold view at same
  cases found : newer.scope? id with
  | none => simpa [found] using same
  | some scope => simpa [found] using same

/-- Scopes that are created at the same time on both blackboards have handles that belong together,
and stay alike. -/
theorem of_created (mirrors : ground.Mirrors older newer) {parent : ScopeId}
    (createdOlder : older.createScope (ground.handle parent) = .ok (ground.handle id, after))
    (created : newer.createScope parent = .ok (id, next))
    (length : after.slots.length =
      ground.slots.length + (next.slots.length - 1 - ground.free.length))
    (free : after.free = next.free.map ground.place ++ ground.free.drop (next.slots.length - 1)) :
    ground.Mirrors after next := by
  have replacesOlder := (replaces_createScope mirrors.olderArena createdOlder).1
  have replaces := (replaces_createScope mirrors.newerArena created).1
  refine ⟨mirrors.groundArena, (mirrors.olderArena.created createdOlder).arena,
    (mirrors.newerArena.created created).arena, ?_, ?_, length, free⟩
  · intro other
    rw [view_createScope mirrors.olderArena createdOlder,
      view_createScope mirrors.newerArena created]
    by_cases same : other = id
    · simp [same]
    · rw [if_neg same, if_neg fun equal => same (mirrors.groundArena.handle_injective equal),
        mirrors.views]
  · intro index
    rw [replacesOlder, replaces]
    by_cases same : index = id.slot
    · subst same
      simp [handle]
    · have apart : ground.place index ≠ (ground.handle id).slot :=
        fun equal => same (mirrors.groundArena.place_injective equal)
      rw [if_neg same, if_neg apart, mirrors.generations]

/-- A scope is created on both blackboards, under handles that belong together. -/
def CreatesAlike (ground older newer : Blackboard) (parent : ScopeId) : Prop :=
  ∃ id after next, older.createScope (ground.handle parent) = .ok (ground.handle id, after) ∧
    newer.createScope parent = .ok (id, next) ∧ ground.Mirrors after next

section Created

variable {parent : ScopeId} (mirrors : ground.Mirrors older newer)
  (present : newer.isAlive parent = true)
include mirrors present

/-- Both take the slot that was left last. -/
theorem createsAlike_of_free {index : Nat} {rest : List Nat} (isFree : newer.free = index :: rest) :
    CreatesAlike ground older newer parent := by
  rcases mirrors.newerArena.vacant index (by simp [isFree]) with ⟨-, generation, vacant⟩
  have number := mirrors.generations index
  rw [vacant] at number
  have alive := (mirrors.isAlive_eq parent).trans present
  have olderFree := mirrors.free
  rw [isFree, List.map_cons, List.cons_append] at olderFree
  have created := createScope_of_free present isFree
  have createdOlder := createScope_of_free alive olderFree
  simp only [vacant, Option.map_some, Option.getD_some] at created
  simp only [number, Option.getD_some] at createdOlder
  refine ⟨⟨index, generation⟩, _, _, createdOlder, created,
    mirrors.of_created createdOlder created ?_ ?_⟩
  · simpa [setSlot] using mirrors.length
  · simp [setSlot]

omit present in
/-- The handle on the used blackboard of what takes a slot that the new one does not have yet. -/
theorem handle_next : ground.handle ⟨newer.slots.length, 0⟩ =
    ⟨ground.place newer.slots.length,
      (older.slots[ground.place newer.slots.length]?.map ScopeSlot.generation).getD 0⟩ := by
  have same := mirrors.generations newer.slots.length
  rw [List.getElem?_eq_none (Nat.le_refl _)] at same
  simp only [handle, shift, same, UInt32.zero_add]

/-- The new one is enlarged, and the used one takes a slot that it has left. -/
theorem createsAlike_of_full_of_lt (isFull : newer.free = [])
    (inside : newer.slots.length - 1 < ground.free.length) :
    CreatesAlike ground older newer parent := by
  have before := Nat.sub_add_cancel mirrors.newerArena.length_pos
  have taken := place_inside inside
  rw [before] at taken
  have alive := (mirrors.isAlive_eq parent).trans present
  have olderFree := mirrors.free
  rw [isFull, List.map_nil, List.nil_append, List.drop_eq_getElem_cons inside, ← taken,
    before] at olderFree
  have created := createScope_of_full present isFull
  have createdOlder := createScope_of_free alive olderFree
  simp only [← mirrors.handle_next] at createdOlder
  refine ⟨_, _, _, createdOlder, created, mirrors.of_created createdOlder created ?_ ?_⟩
  · have same := mirrors.length
    simp only [setSlot, List.length_set, List.length_append, List.length_singleton]
    omega
  · simp [isFull]

/-- Both are enlarged, since no slot is left. -/
theorem createsAlike_of_full_of_le (isFull : newer.free = [])
    (beyond : ground.free.length ≤ newer.slots.length - 1) :
    CreatesAlike ground older newer parent := by
  have before := Nat.sub_add_cancel mirrors.newerArena.length_pos
  have taken := place_beyond beyond
  rw [before, ← mirrors.length] at taken
  have alive := (mirrors.isAlive_eq parent).trans present
  have olderFree := mirrors.free
  rw [isFull, List.map_nil, List.nil_append, List.drop_eq_nil_of_le beyond] at olderFree
  have here : ground.handle ⟨newer.slots.length, 0⟩ = ⟨older.slots.length, 0⟩ := by
    rw [mirrors.handle_next, taken, List.getElem?_eq_none (Nat.le_refl _)]
    rfl
  have created := createScope_of_full present isFull
  have createdOlder := createScope_of_full alive olderFree
  rw [← here] at createdOlder
  refine ⟨_, _, _, createdOlder, created, mirrors.of_created createdOlder created ?_ ?_⟩
  · have same := mirrors.length
    simp only [List.length_append, List.length_singleton]
    omega
  · simp only [olderFree, isFull, List.map_nil, List.nil_append, List.length_append,
      List.length_singleton]
    rw [List.drop_eq_nil_of_le (by omega)]

theorem createsAlike : CreatesAlike ground older newer parent := by
  cases isFree : newer.free with
  | cons index rest => exact mirrors.createsAlike_of_free present isFree
  | nil =>
    rcases Nat.lt_or_ge (newer.slots.length - 1) ground.free.length with inside | beyond
    · exact mirrors.createsAlike_of_full_of_lt present isFree inside
    · exact mirrors.createsAlike_of_full_of_le present isFree beyond

end Created

theorem createScope (mirrors : ground.Mirrors older newer) (parent : ScopeId) :
    Matches (fun first second => first.1 = ground.handle second.1 ∧
        ground.Mirrors first.2 second.2)
      (older.createScope (ground.handle parent)) (newer.createScope parent) := by
  cases present : newer.isAlive parent with
  | false =>
    have gone := (mirrors.isAlive_eq parent).trans present
    simp only [Blackboard.createScope, gone, present]
    exact .error _
  | true =>
    rcases mirrors.createsAlike present with ⟨id, after, next, createdOlder, created, alike⟩
    rw [createdOlder, created]
    exact .ok ⟨rfl, alike⟩

theorem destroyScope (mirrors : ground.Mirrors older newer) (id : ScopeId) :
    ground.Mirrors (older.destroyScope (ground.handle id)).2 (newer.destroyScope id).2 := by
  have alive := mirrors.isAlive_eq id
  have first : (ground.handle id).slot = 0 ↔ id.slot = 0 := mirrors.groundArena.place_eq_zero_iff
  by_cases kept : id.slot = 0 ∨ newer.isAlive id = false
  · simp only [Blackboard.destroyScope, first, alive, kept, ↓reduceIte]
    exact mirrors
  · have keptOlder :
        ¬ ((ground.handle id).slot = 0 ∨ older.isAlive (ground.handle id) = false) := by
      rw [first, alive]
      exact kept
    rw [not_or, Bool.not_eq_false] at kept keptOlder
    have tears := tearsDown_destroyScope kept.2 kept.1
    have tearsOlder := tearsDown_destroyScope keptOlder.2 keptOlder.1
    refine ⟨mirrors.groundArena, (mirrors.olderArena.destroyed keptOlder.1).arena,
      (mirrors.newerArena.destroyed kept.1).arena, ?_, ?_, ?_, ?_⟩
    · intro other
      have place : (ground.handle other).slot = (ground.handle id).slot ↔ other.slot = id.slot :=
        mirrors.groundArena.place_injective.eq_iff
      simp only [tears.view_eq, tearsOlder.view_eq, List.mem_singleton, place]
      split
      · rfl
      · exact mirrors.views other
    · intro index
      have place : ground.place index = (ground.handle id).slot ↔ index = id.slot :=
        mirrors.groundArena.place_injective.eq_iff
      have same := mirrors.generations index
      rw [tears, tearsOlder]
      simp only [List.mem_singleton, place]
      split
      · rename_i here
        subst here
        rw [isAlive, Option.isSome_iff_exists] at kept keptOlder
        rcases kept.2 with ⟨scope, found⟩
        rcases keptOlder.2 with ⟨other, foundOlder⟩
        have slot := scope?_eq_some_iff.1 found
        have olderSlot := scope?_eq_some_iff.1 foundOlder
        simp only [handle] at olderSlot
        simp only [slot, olderSlot, Option.map_some, ScopeSlot.tearDown, Option.isSome_some,
          ↓reduceIte, Option.some.injEq]
        ac_rfl
      · exact same
    · simpa [Blackboard.destroyScope, kept, keptOlder, setSlot] using mirrors.length
    · simp only [Blackboard.destroyScope, kept, keptOlder, setSlot, Bool.true_eq_false, or_self,
        ↓reduceIte]
      simp [handle, mirrors.free]

theorem findDefinition (mirrors : ground.Mirrors older newer) (name : String) (fuel : Nat)
    (id : ScopeId) :
    older.findDefinition name fuel (ground.handle id) =
      (newer.findDefinition name fuel id).map fun (owner, entry) =>
        (ground.handle owner, entry) := by
  induction fuel generalizing id with
  | zero => rfl
  | succ fuel ih =>
    have alike := mirrors.scope?_cases id
    cases found : newer.scope? id with
    | none =>
      rw [found] at alike
      simp only [Blackboard.findDefinition, found, alike]
      rfl
    | some scope =>
      rw [found] at alike
      rcases alike with ⟨other, foundOlder, parents, values⟩
      simp only [Blackboard.findDefinition, found, foundOlder, parents, values]
      cases scope.bindings.get? name with
      | some entry => rfl
      | none =>
        cases scope.parent with
        | none => rfl
        | some outer => exact ih outer

theorem length_le (mirrors : ground.Mirrors older newer) :
    newer.slots.length ≤ older.slots.length := by
  -- The free slots are told apart from each other and from the root.
  have fewer : ground.free.length ≤ ground.slots.length - 1 := by
    have inside : ground.free ⊆ List.range' 1 (ground.slots.length - 1) := by
      intro index listed
      rcases mirrors.groundArena.vacant index listed with ⟨nonzero, generation, slot⟩
      have bound := (List.getElem?_eq_some_iff.1 slot).1
      rw [List.mem_range'_1]
      omega
    have bound := (mirrors.groundArena.nodup.subperm inside).length_le
    rwa [List.length_range'] at bound
  have positive := mirrors.groundArena.length_pos
  have length := mirrors.length
  omega

theorem definition (mirrors : ground.Mirrors older newer) (id : ScopeId)
    (name : String) :
    older.definition (ground.handle id) name =
      (newer.definition id name).map fun (owner, entry) => (ground.handle owner, entry) := by
  obtain ⟨extra, longer⟩ := Nat.exists_eq_add_of_le (mirrors.length_le)
  rw [Blackboard.definition, mirrors.findDefinition, longer,
    mirrors.newerArena.findDefinition_enough]

theorem entry_eq (mirrors : ground.Mirrors older newer) (id : ScopeId)
    (name : String) : older.entry (ground.handle id) name = newer.entry id name := by
  rw [Blackboard.entry, Blackboard.entry, mirrors.definition]
  cases newer.definition id name <;> rfl

theorem resolve_eq (mirrors : ground.Mirrors older newer) (id : ScopeId)
    (path : String) (freshness : Freshness) (now : Duration) :
    older.resolve (ground.handle id) path freshness now = newer.resolve id path freshness now := by
  simp only [Blackboard.resolve, mirrors.entry_eq]

theorem resolveValue_eq (mirrors : ground.Mirrors older newer) (id : ScopeId)
    (path : String) : older.resolveValue (ground.handle id) path = newer.resolveValue id path := by
  simp only [Blackboard.resolveValue, mirrors.entry_eq]

theorem format_eq (mirrors : ground.Mirrors older newer) (id : ScopeId)
    (template : String) : older.format (ground.handle id) template = newer.format id template := by
  simp only [Blackboard.format, mirrors.resolveValue_eq]

theorem setBindings (mirrors : ground.Mirrors older newer) {scope other : Scope}
    (found : newer.scope? id = some scope)
    (foundOlder : older.scope? (ground.handle id) = some other) (name : String) (entry : Entry) :
    ground.Mirrors (older.setBindings (ground.handle id) (other.bindings.insert name entry))
      (newer.setBindings id (scope.bindings.insert name entry)) := by
  have replaces := replaces_setBindings found (scope.bindings.insert name entry)
  have replacesOlder := replaces_setBindings foundOlder (other.bindings.insert name entry)
  refine ⟨mirrors.groundArena, (sameScopes_setBindings _).arena mirrors.olderArena,
    (sameScopes_setBindings _).arena mirrors.newerArena, ?_, ?_, ?_, ?_⟩
  · intro handle
    rw [view_setBindings found, view_setBindings foundOlder, mirrors.views, mirrors.views]
    by_cases same : handle = id
    · subst same
      cases newer.view handle <;> simp
    · rw [if_neg same, if_neg fun equal => same (mirrors.groundArena.handle_injective equal)]
  · intro index
    rw [replaces, replacesOlder]
    by_cases same : index = id.slot
    · subst same
      simp [handle]
    · have apart : ground.place index ≠ (ground.handle id).slot :=
        fun equal => same (mirrors.groundArena.place_injective equal)
      rw [if_neg same, if_neg apart, mirrors.generations]
  · simpa [Blackboard.setBindings, found, foundOlder, setSlot] using mirrors.length
  · simpa [Blackboard.setBindings, found, foundOlder, setSlot] using mirrors.free

theorem define (mirrors : ground.Mirrors older newer) (id : ScopeId) (name : String)
    (entry : Entry) :
    Matches ground.Mirrors (older.define (ground.handle id) name entry)
      (newer.define id name entry) := by
  have alike := mirrors.scope?_cases id
  cases found : newer.scope? id with
  | none =>
    rw [found] at alike
    simp only [Blackboard.define, found, alike]
    exact .error _
  | some scope =>
    rw [found] at alike
    rcases alike with ⟨other, foundOlder, -, values⟩
    have bound : other.bindings.contains name = scope.bindings.contains name := by
      simp only [Table.contains, values]
    simp only [Blackboard.define, found, foundOlder, bound]
    split
    · exact .error _
    · exact .ok (mirrors.setBindings found foundOlder name entry)

theorem write (mirrors : ground.Mirrors older newer) (id : ScopeId) (name : String)
    (entry : Entry) :
    Matches ground.Mirrors (older.write (ground.handle id) name entry)
      (newer.write id name entry) := by
  unfold Blackboard.write
  rw [mirrors.definition]
  cases newer.definition id name with
  | error cause => cases cause <;> exact .error _
  | ok result =>
    have alike := mirrors.scope?_cases result.1
    simp only [Except.map]
    cases found : newer.scope? result.1 with
    | none =>
      rw [found] at alike
      simp only [alike]
      exact .error _
    | some scope =>
      rw [found] at alike
      rcases alike with ⟨other, foundOlder, -, -⟩
      simp only [foundOlder]
      exact .ok (mirrors.setBindings found foundOlder name entry)

/-- An output is written to a variable on both blackboards, or defines it on both. -/
theorem outputTo (mirrors : ground.Mirrors older newer) (id : ScopeId) (name : String)
    (entry : Entry) :
    Matches ground.Mirrors (BehaviorTree.outputTo older (ground.handle id) name entry)
      (BehaviorTree.outputTo newer id name entry) := by
  have written := mirrors.write id name entry
  unfold BehaviorTree.outputTo
  revert written
  generalize older.write (ground.handle id) name entry = first
  generalize newer.write id name entry = second
  intro written
  cases written with
  | ok values => exact .ok values
  | error cause =>
    cases cause with
    | undefinedVariable other => exact mirrors.define id name entry
    | _ => exact .error _

end Mirrors

end Blackboard

end BehaviorTree
