import BehaviorTree.Table
import BehaviorTree.Template
import BehaviorTree.Value.Field

/-!
# The blackboard

Variables live in scopes. A scope has a parent, and a variable is looked up from the inside
outwards, so that inner definitions hide outer ones. The scopes stand in slots that are used
again after a scope is destroyed; the handle of a scope carries the generation of its slot, which
changes whenever a scope in it is destroyed. The root scope stands in the first slot and is never
destroyed.
-/

namespace BehaviorTree

/-- The position of a node in its tree. -/
abbrev NodeIndex := Nat

/-- The handle of a scope. -/
structure ScopeId where
  /-- The number of the slot. There are never more slots than there ever were scopes. -/
  slot : Nat
  /-- The generation of the slot for which the handle is good. -/
  generation : UInt32
deriving DecidableEq

def ScopeId.root : ScopeId := ⟨0, 0⟩

instance : Inhabited ScopeId := ⟨.root⟩

structure Entry where
  value : Value
  /-- The mission time of the last write. -/
  writtenAt : Duration
  /-- The node that wrote last, unless it was none. -/
  writer : Option NodeIndex

/-- What a reader does with a value that is too old for it. -/
inductive StalenessPolicy where
  | readAnyway
  | blockUntilFresh
  | failIfStale
deriving DecidableEq, Inhabited

namespace StalenessPolicy

def ofText? : String → Option StalenessPolicy
  | "read_anyway" => some readAnyway
  | "block_until_fresh" => some blockUntilFresh
  | "fail_if_stale" => some failIfStale
  | _ => none

end StalenessPolicy

/-- How old a value may be. -/
structure Freshness where
  /-- What happens to a value that is too old. -/
  policy : StalenessPolicy
  /-- The greatest age of a fresh value. Without it every value is fresh. -/
  maxAge : Option Duration

def Freshness.any : Freshness := ⟨.readAnyway, none⟩

/-- The result of reading a variable. -/
inductive Lookup where
  | value (value : Value)
  /-- The value is too old, and the reader has to wait. -/
  | blocked

/-- A set of variables, and the scope around it. -/
structure Scope where
  /-- The enclosing scope, which only the root does not have. -/
  parent : Option ScopeId
  bindings : Table String Entry

/-- A place for a scope. -/
structure ScopeSlot where
  /-- The number of scopes that were destroyed in this slot. -/
  generation : UInt32
  /-- The scope in the slot, if it is in use. -/
  scope : Option Scope

structure Blackboard where
  /-- The slots of all scopes, the root in front. -/
  slots : List ScopeSlot
  /-- The slots that are not in use, the one that was left last in front. -/
  free : List Nat

namespace Blackboard

/-- The blackboard with an empty root scope. -/
def empty : Blackboard := ⟨[⟨0, some ⟨none, .empty⟩⟩], []⟩

instance : Inhabited Blackboard := ⟨empty⟩

/-- The scope that a handle is good for. -/
def scope? (blackboard : Blackboard) (id : ScopeId) : Option Scope :=
  match blackboard.slots[id.slot]? with
  | some slot => if slot.generation = id.generation then slot.scope else none
  | none => none

/-- Whether a handle is good for a scope. -/
def isAlive (blackboard : Blackboard) (id : ScopeId) : Bool :=
  (blackboard.scope? id).isSome

/-- The blackboard with another content in one slot. -/
def setSlot (blackboard : Blackboard) (index : Nat) (slot : ScopeSlot) : Blackboard :=
  { blackboard with slots := blackboard.slots.set index slot }

/-- The blackboard with other variables in a scope. -/
def setBindings (blackboard : Blackboard) (id : ScopeId) (bindings : Table String Entry) :
    Blackboard :=
  match blackboard.scope? id with
  | some scope =>
    blackboard.setSlot id.slot ⟨id.generation, some { scope with bindings := bindings }⟩
  | none => blackboard

/-- A new scope inside of another one. It takes the slot that was left last. -/
def createScope (blackboard : Blackboard) (parent : ScopeId) :
    Except BlackboardError (ScopeId × Blackboard) :=
  if blackboard.isAlive parent then
    let scope : Scope := ⟨some parent, .empty⟩
    match blackboard.free with
    | index :: free =>
      let generation := (blackboard.slots[index]?.map ScopeSlot.generation).getD 0
      .ok (⟨index, generation⟩,
        { (blackboard.setSlot index ⟨generation, some scope⟩) with free := free })
    | [] =>
      .ok (⟨blackboard.slots.length, 0⟩,
        { blackboard with slots := blackboard.slots ++ [⟨0, some scope⟩] })
  else .error .scopeGone

/-- Destroys a scope with its variables, and tells whether there was one. The root survives. -/
def destroyScope (blackboard : Blackboard) (id : ScopeId) : Bool × Blackboard :=
  if id.slot = 0 ∨ blackboard.isAlive id = false then (false, blackboard)
  else
    (true,
      { (blackboard.setSlot id.slot ⟨id.generation + 1, none⟩) with
        free := id.slot :: blackboard.free })

def destroySlot (blackboard : Blackboard) (index : Nat) : Blackboard :=
  match blackboard.slots[index]? with
  | some slot => (blackboard.destroyScope ⟨index, slot.generation⟩).2
  | none => blackboard

def clearNestedScopes (blackboard : Blackboard) : Blackboard :=
  (List.range' 1 (blackboard.slots.length - 1)).foldl destroySlot blackboard

def define (blackboard : Blackboard) (id : ScopeId) (name : String) (entry : Entry) :
    Except BlackboardError Blackboard :=
  match blackboard.scope? id with
  | none => .error .scopeGone
  | some scope =>
    if scope.bindings.contains name then .error (.duplicateDefinition name)
    else .ok (blackboard.setBindings id (scope.bindings.insert name entry))

/-- The innermost scope that defines a variable, searched outwards from a scope through at most
`fuel` scopes. -/
def findDefinition (blackboard : Blackboard) (name : String) :
    (fuel : Nat) → ScopeId → Except BlackboardError (ScopeId × Entry)
  | 0, _ => .error (.notFound name)
  | fuel + 1, id =>
    match blackboard.scope? id with
    | none => .error .scopeGone
    | some scope =>
      match scope.bindings.get? name, scope.parent with
      | some entry, _ => .ok (id, entry)
      | none, some parent => findDefinition blackboard name fuel parent
      | none, none => .error (.notFound name)

/-- The innermost scope around a scope that defines a variable. A walk outwards meets no slot
twice, because a parent is older than the scopes in it. -/
def definition (blackboard : Blackboard) (id : ScopeId) (name : String) :
    Except BlackboardError (ScopeId × Entry) :=
  blackboard.findDefinition name blackboard.slots.length id

/-- What the nearest definition of a variable holds. -/
def entry (blackboard : Blackboard) (id : ScopeId) (name : String) :
    Except BlackboardError Entry :=
  (blackboard.definition id name).map Prod.snd

/-- The value of the nearest definition of a variable. -/
def get? (blackboard : Blackboard) (id : ScopeId) (name : String) : Option Value :=
  match blackboard.entry id name with
  | .ok entry => some entry.value
  | .error _ => none

/-- Changes the nearest definition of a variable. -/
def write (blackboard : Blackboard) (id : ScopeId) (name : String) (entry : Entry) :
    Except BlackboardError Blackboard :=
  match blackboard.definition id name with
  | .ok (owner, _) =>
    match blackboard.scope? owner with
    | some scope => .ok (blackboard.setBindings owner (scope.bindings.insert name entry))
    | none => .error .scopeGone
  | .error (.notFound name) => .error (.undefinedVariable name)
  | .error error => .error error

/-- The name and the segments of a path. -/
def splitPath (path : String) : String × List String :=
  match splitAt '.' path with
  | name :: segments => (name, segments)
  | [] => ("", [])

/-- The value at the end of a path that starts in an entry. -/
def followPath (name : String) (segments : List String) (entry : Entry) :
    Except BlackboardError Value :=
  (entry.value.field segments).mapError fun position =>
    .invalidPath name (segments[position]?.getD "")

/-- The value at a path, if the variable is fresh. The age of a field is that of its variable. -/
def resolve (blackboard : Blackboard) (id : ScopeId) (path : String) (freshness : Freshness)
    (now : Duration) : Except BlackboardError Lookup := do
  let (name, segments) := splitPath path
  let entry ← blackboard.entry id name
  let age := now.since entry.writtenAt
  let fresh := (followPath name segments entry).map Lookup.value
  match freshness.maxAge with
  | none => fresh
  | some maxAge =>
    if maxAge < age then
      match freshness.policy with
      | .readAnyway => fresh
      | .blockUntilFresh => return .blocked
      | .failIfStale => throw (.staleValue name age maxAge)
    else fresh

/-- The value at a path, however old. -/
def resolveValue (blackboard : Blackboard) (id : ScopeId) (path : String) :
    Except BlackboardError Value := do
  let (name, segments) := splitPath path
  let entry ← blackboard.entry id name
  followPath name segments entry

/-- The text of a template whose placeholders are paths of variables. -/
def format (blackboard : Blackboard) (id : ScopeId) (template : String) :
    Except BlackboardError String :=
  let lookup (path : String) : ExceptT BlackboardError Id Value :=
    .mk (blackboard.resolveValue id path)
  (Template.render template lookup).run

/-- The variables that were seen, and another one unless one of its name was seen. -/
def see (seen : List (String × Entry)) (found : String × Entry) : List (String × Entry) :=
  if seen.any fun other => other.1 = found.1 then seen else seen ++ [found]

/-- Adds the variables that no inner scope hides, walking outwards from a scope through at most
`fuel` scopes. -/
def collectVisible (blackboard : Blackboard) (seen : List (String × Entry)) :
    (fuel : Nat) → Option ScopeId → List (String × Entry)
  | 0, _ => seen
  | fuel + 1, id =>
    match id.bind blackboard.scope? with
    | none => seen
    | some scope =>
      collectVisible blackboard (scope.bindings.entries.foldl see seen) fuel scope.parent

/-- No name is seen twice. -/
theorem nodup_see {seen : List (String × Entry)} (once : (seen.map Prod.fst).Nodup)
    (found : String × Entry) : ((see seen found).map Prod.fst).Nodup := by
  unfold see
  split
  · exact once
  · rename_i unseen
    rw [List.map_append, List.nodup_append]
    refine ⟨once, by simp, ?_⟩
    rintro name listed other single rfl
    rcases List.mem_map.1 listed with ⟨entry, inside, named⟩
    simp only [List.map_cons, List.map_nil, List.mem_singleton] at single
    exact unseen (List.any_eq_true.2 ⟨entry, inside, by simp [named, single]⟩)

theorem nodup_foldl_see {seen : List (String × Entry)} (once : (seen.map Prod.fst).Nodup)
    (bindings : List (String × Entry)) : ((bindings.foldl see seen).map Prod.fst).Nodup := by
  induction bindings generalizing seen with
  | nil => exact once
  | cons first rest ih => exact ih (nodup_see once first)

theorem nodup_collectVisible {seen : List (String × Entry)} (blackboard : Blackboard)
    (once : (seen.map Prod.fst).Nodup) (fuel : Nat) (id : Option ScopeId) :
    ((blackboard.collectVisible seen fuel id).map Prod.fst).Nodup := by
  induction fuel generalizing seen id with
  | zero => exact once
  | succ fuel ih =>
    unfold collectVisible
    split
    · exact once
    · exact ih (nodup_foldl_see once _) _

/-- The variables that are visible from a scope, inner definitions hiding outer ones. -/
def visible (blackboard : Blackboard) (id : ScopeId) : Table String Entry :=
  ⟨blackboard.collectVisible [] blackboard.slots.length (some id),
    blackboard.nodup_collectVisible (by simp) _ _⟩

end Blackboard

end BehaviorTree
