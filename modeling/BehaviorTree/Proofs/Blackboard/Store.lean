import BehaviorTree.Blackboard.Basic
import Mathlib.Logic.Function.Basic

/-!
# Stores of scopes

A store is what a blackboard stands for. Its scopes are numbered in the order in which they are
created, and a number is never used again. A scope that is destroyed loses its variables but keeps
its number, so that a walk outwards can tell that it is gone. Such walks lead to smaller numbers,
and so they end.

What is done with a blackboard is recorded in a session, which refers to the handles that were
returned by the order in which they were. The same can be done with a store.
-/

namespace BehaviorTree

/-- Scopes that are told apart by numbers, the root being number zero. -/
structure ScopeStore where
  /-- The number of scopes that were ever created. -/
  count : Nat
  parent : Nat → Option Nat
  /-- The variables of every scope that was created and not destroyed. -/
  content : Nat → Option (String → Option Entry)
  older : ∀ {inner outer}, parent inner = some outer → outer < inner
  unborn : ∀ {number}, count ≤ number → content number = none

namespace ScopeStore

/-- The store with an empty root scope. -/
def empty : ScopeStore where
  count := 1
  parent _ := none
  content number := if number = 0 then some fun _ => none else none
  older impossible := by cases impossible
  unborn created := by simp [Nat.ne_of_gt created]

variable (store : ScopeStore)

theorem lt_count_of_content {number : Nat} {values : String → Option Entry}
    (there : store.content number = some values) : number < store.count := by
  by_contra beyond
  rw [store.unborn (by omega)] at there
  cases there

/-- The store with a new scope inside of another one. -/
def create (outer : Nat) : Except BlackboardError (Nat × ScopeStore) :=
  match there : store.content outer with
  | none => .error .scopeGone
  | some _ =>
    .ok (store.count,
      { count := store.count + 1
        parent := Function.update store.parent store.count (some outer)
        content := Function.update store.content store.count (some fun _ => none)
        older := by
          intro inner around inside
          rw [Function.update_apply] at inside
          split at inside
          · rename_i new
            cases inside
            rw [new]
            exact store.lt_count_of_content there
          · exact store.older inside
        unborn := by
          intro number beyond
          rw [Function.update_apply, if_neg (by omega)]
          exact store.unborn (by omega) })

theorem create_eq_ok {outer : Nat} {values : String → Option Entry}
    (there : store.content outer = some values) :
    ∃ next, store.create outer = .ok (store.count, next) ∧ next.count = store.count + 1 ∧
      next.parent = Function.update store.parent store.count (some outer) ∧
      next.content = Function.update store.content store.count (some fun _ => none) := by
  simp only [create]
  split
  · rename_i gone
    rw [there] at gone
    cases gone
  · exact ⟨_, rfl, rfl, rfl, rfl⟩

theorem create_eq_error {outer : Nat} (gone : store.content outer = none) :
    store.create outer = .error .scopeGone := by
  simp only [create]
  split
  · rfl
  · rename_i there
    rw [gone] at there
    cases there

/-- Destroys a scope, and tells whether there was one. The root survives. -/
def destroy (number : Nat) : Bool × ScopeStore :=
  if number = 0 ∨ (store.content number).isNone then (false, store)
  else
    (true,
      { store with
        content := Function.update store.content number none
        unborn := by
          intro other beyond
          rw [Function.update_apply]
          split
          · rfl
          · exact store.unborn beyond })

def clear : ScopeStore :=
  { store with
    content := fun number => if number = 0 then store.content number else none
    unborn := by
      intro number beyond
      split
      · exact store.unborn beyond
      · rfl }

/-- The store with another value of a variable in one scope, if there is such a scope. -/
def put (number : Nat) (name : String) (entry : Entry) : ScopeStore :=
  { store with
    content := Function.update store.content number
      ((store.content number).map fun values => Function.update values name (some entry))
    unborn := by
      intro other beyond
      rw [Function.update_apply]
      split
      · rename_i same
        rw [← same, store.unborn beyond]
        rfl
      · exact store.unborn beyond }

def define (number : Nat) (name : String) (entry : Entry) : Except BlackboardError ScopeStore :=
  match store.content number with
  | none => .error .scopeGone
  | some values =>
    if (values name).isSome then .error (.duplicateDefinition name)
    else .ok (store.put number name entry)

/-- The nearest scope that defines a variable, on the walk outwards from a scope. -/
def find (name : String) (number : Nat) : Except BlackboardError (Nat × Entry) :=
  match store.content number with
  | none => .error .scopeGone
  | some values =>
    match values name, inside : store.parent number with
    | some entry, _ => .ok (number, entry)
    | none, some outer =>
      have := store.older inside
      find name outer
    | none, none => .error (.notFound name)
termination_by number

theorem find_eq (name : String) (number : Nat) :
    store.find name number =
      match store.content number with
      | none => .error .scopeGone
      | some values =>
        match values name, store.parent number with
        | some entry, _ => .ok (number, entry)
        | none, some outer => store.find name outer
        | none, none => .error (.notFound name) := by
  rw [find]
  cases store.content number with
  | none => rfl
  | some values =>
    dsimp only
    split <;> simp_all

theorem content_of_find {number owner : Nat} {name : String} {entry : Entry}
    (found : store.find name number = .ok (owner, entry)) :
    ∃ values, store.content owner = some values := by
  induction number using Nat.strongRecOn with
  | ind number ih =>
    rw [find_eq] at found
    split at found
    · cases found
    · rename_i values there
      split at found
      · cases found
        exact ⟨values, there⟩
      · rename_i outer _ inside
        exact ih outer (store.older inside) found
      · cases found

def entry (number : Nat) (name : String) : Except BlackboardError Entry :=
  (store.find name number).map Prod.snd

/-- Changes the nearest definition of a variable. -/
def write (number : Nat) (name : String) (entry : Entry) : Except BlackboardError ScopeStore :=
  match store.find name number with
  | .ok (owner, _) => .ok (store.put owner name entry)
  | .error (.notFound name) => .error (.undefinedVariable name)
  | .error error => .error error

def visible (number : Nat) (name : String) : Option Entry := (store.entry number name).toOption

end ScopeStore

/-- The value at a path that starts in an entry, if it is fresh. -/
def Entry.resolve (entry : Entry) (path : String) (freshness : Freshness) (now : Duration) :
    Except BlackboardError Lookup :=
  let (name, segments) := Blackboard.splitPath path
  let age := now.since entry.writtenAt
  let fresh := (Blackboard.followPath name segments entry).map Lookup.value
  match freshness.maxAge with
  | none => fresh
  | some maxAge =>
    if maxAge < age then
      match freshness.policy with
      | .readAnyway => fresh
      | .blockUntilFresh => .ok .blocked
      | .failIfStale => .error (.staleValue name age maxAge)
    else fresh

theorem Blackboard.resolve_eq (blackboard : Blackboard) (id : ScopeId) (path : String)
    (freshness : Freshness) (now : Duration) :
    blackboard.resolve id path freshness now =
      (blackboard.entry id (splitPath path).1).bind fun entry =>
        entry.resolve path freshness now := rfl

/-- What is asked of a scope. -/
inductive ScopeRequest where
  | create
  | destroy
  | define (name : String) (entry : Entry)
  | write (name : String) (entry : Entry)
  | entry (name : String)
  | resolve (path : String) (freshness : Freshness) (now : Duration)
  | visible

/-- What is done in a session. Scopes are numbered in the order in which their handles were
returned. -/
inductive ScopeOperation where
  | clear
  | ask (number : Nat) (request : ScopeRequest)

/-- What is observed in a session. -/
inductive ScopeAnswer where
  | created (result : Except BlackboardError Nat)
  | destroyed (existed : Bool)
  | changed (result : Except BlackboardError Unit)
  | entry (result : Except BlackboardError Entry)
  | resolved (result : Except BlackboardError Lookup)
  | visible (entries : String → Option Entry)
  /-- No scope with such a number was ever created. -/
  | unknown

def Blackboard.isOccupied (blackboard : Blackboard) (index : Nat) : Bool :=
  (blackboard.slots[index]?.bind ScopeSlot.scope).isSome

/-- One if the scope in a slot was torn down, and zero if not. -/
def Blackboard.teardown (before after : Blackboard) (index : Nat) : Nat :=
  if before.isOccupied index && !after.isOccupied index then 1 else 0

/-- A blackboard with all handles that it ever returned. -/
structure ScopeSession where
  blackboard : Blackboard
  handles : List ScopeId

namespace ScopeSession

def start : ScopeSession := ⟨.empty, [.root]⟩

def answer (session : ScopeSession) (id : ScopeId) : ScopeRequest → ScopeAnswer × ScopeSession
  | .create =>
    match session.blackboard.createScope id with
    | .ok (new, blackboard) =>
      (.created (.ok session.handles.length), ⟨blackboard, session.handles ++ [new]⟩)
    | .error error => (.created (.error error), session)
  | .destroy =>
    let (existed, blackboard) := session.blackboard.destroyScope id
    (.destroyed existed, { session with blackboard := blackboard })
  | .define name entry =>
    match session.blackboard.define id name entry with
    | .ok blackboard => (.changed (.ok ()), { session with blackboard := blackboard })
    | .error error => (.changed (.error error), session)
  | .write name entry =>
    match session.blackboard.write id name entry with
    | .ok blackboard => (.changed (.ok ()), { session with blackboard := blackboard })
    | .error error => (.changed (.error error), session)
  | .entry name => (.entry (session.blackboard.entry id name), session)
  | .resolve path freshness now =>
    (.resolved (session.blackboard.resolve id path freshness now), session)
  | .visible => (.visible (session.blackboard.visible id).get?, session)

def step (session : ScopeSession) : ScopeOperation → ScopeAnswer × ScopeSession
  | .clear =>
    (.changed (.ok ()), { session with blackboard := session.blackboard.clearNestedScopes })
  | .ask number request =>
    match session.handles[number]? with
    | none => (.unknown, session)
    | some id => session.answer id request

/-- The answers to operations, and the session after them. -/
def run (session : ScopeSession) : List ScopeOperation → List ScopeAnswer × ScopeSession
  | [] => ([], session)
  | operation :: rest =>
    let (answer, next) := session.step operation
    let (answers, last) := next.run rest
    (answer :: answers, last)

/-- How often a scope in a slot is torn down. -/
def teardowns (session : ScopeSession) (index : Nat) : List ScopeOperation → Nat
  | [] => 0
  | operation :: rest =>
    let next := (session.step operation).2
    session.blackboard.teardown next.blackboard index + next.teardowns index rest

end ScopeSession

namespace ScopeStore

def answer (store : ScopeStore) (number : Nat) : ScopeRequest → ScopeAnswer × ScopeStore
  | .create =>
    match store.create number with
    | .ok (new, next) => (.created (.ok new), next)
    | .error error => (.created (.error error), store)
  | .destroy =>
    let (existed, next) := store.destroy number
    (.destroyed existed, next)
  | .define name entry =>
    match store.define number name entry with
    | .ok next => (.changed (.ok ()), next)
    | .error error => (.changed (.error error), store)
  | .write name entry =>
    match store.write number name entry with
    | .ok next => (.changed (.ok ()), next)
    | .error error => (.changed (.error error), store)
  | .entry name => (.entry (store.entry number name), store)
  | .resolve path freshness now =>
    (.resolved ((store.entry number (Blackboard.splitPath path).1).bind fun entry =>
      entry.resolve path freshness now), store)
  | .visible => (.visible (store.visible number), store)

def step (store : ScopeStore) : ScopeOperation → ScopeAnswer × ScopeStore
  | .clear => (.changed (.ok ()), store.clear)
  | .ask number request =>
    if number < store.count then store.answer number request else (.unknown, store)

def run (store : ScopeStore) : List ScopeOperation → List ScopeAnswer × ScopeStore
  | [] => ([], store)
  | operation :: rest =>
    let (answer, next) := store.step operation
    let (answers, last) := next.run rest
    (answer :: answers, last)

end ScopeStore

end BehaviorTree
