import BehaviorTree.Lease.Provider
import BehaviorTree.Table

/-!
# Holders of leases

A holder keeps the leases of one mission, each filed under the resource for which it was asked
for. Resources are acquired all or none, renewed together and given back together, always in the
order of their names. The provider is passed to every operation, and its next state is returned.
-/

namespace BehaviorTree

/-- A lease that is filed under a resource or owner that it does not name. -/
structure LeaseFault where
  filedUnder : String
  lease : Lease
deriving DecidableEq

def LeaseFault.text (fault : LeaseFault) : String :=
  s!"lease filed under {quoted fault.filedUnder} is {quoted fault.lease.resource} " ++
    s!"owned by {quoted fault.lease.owner}"

/-- The leases that an owner holds. -/
structure LeaseHolder where
  owner : String
  /-- The leases by the resources for which they were asked for. -/
  held : Table String Lease

namespace LeaseHolder

def empty (owner : String) : LeaseHolder := ⟨owner, .empty⟩

/-- The resources that are held, in the order of their names. -/
def resources (holder : LeaseHolder) : List String := sortedNames holder.held.keys

def isHeld (holder : LeaseHolder) (resource : String) : Bool := holder.held.contains resource

def missing (holder : LeaseHolder) (required : List String) : List String :=
  required.filter fun resource => !holder.isHeld resource

def text (holder : LeaseHolder) : String :=
  s!"LeaseSet \x7b owner: {quoted holder.owner}, held: {quotedList holder.resources} \x7d"

variable {π : Type} [LeaseProvider π]

/-- Asks for resources one after the other, until one is refused. The leases that were given come
with the first refusal, if there is one. -/
def request (owner : String) (provider : π) :
    (resources : List String) → (List Lease × Option LeaseError) × π
  | [] => (([], none), provider)
  | resource :: resources =>
    match LeaseProvider.acquire provider resource owner with
    | (.error error, provider) => (([], some error), provider)
    | (.ok lease, provider) =>
      let ((leases, refusal), provider) := request owner provider resources
      ((lease :: leases, refusal), provider)

def file (holder : LeaseHolder) (lease : Lease) : LeaseHolder :=
  { holder with held := holder.held.insert lease.resource lease }

/-- Acquires the resources of a list that are not held. If one is refused, those that were given
are released again and nothing changes. -/
def acquireAll (holder : LeaseHolder) (provider : π) (required : List String) :
    Except LeaseError LeaseHolder × π :=
  match request holder.owner provider (holder.missing required) with
  | ((leases, none), provider) => (.ok (leases.foldl file holder), provider)
  | ((leases, some error), provider) => (.error error, leases.foldl LeaseProvider.release provider)

/-- Renews the lease that is filed under a resource. One that cannot be kept is dropped and asked
for again, and the refusal of that is returned. -/
def retain (holder : LeaseHolder) (provider : π) (resource : String) :
    Except LeaseFault (Option LeaseError × LeaseHolder) × π :=
  match holder.held.get? resource with
  | none => (.ok (none, holder), provider)
  | some lease =>
    if lease.resource ≠ resource ∨ lease.owner ≠ holder.owner then
      (.error ⟨resource, lease⟩, provider)
    else
      match LeaseProvider.retain provider lease with
      | (.ok _, provider) => (.ok (none, holder), provider)
      | (.error _, provider) =>
        let dropped := { holder with held := holder.held.erase resource }
        match LeaseProvider.acquire provider resource holder.owner with
        | (.ok lease, provider) =>
          (.ok (none, { dropped with held := dropped.held.insert resource lease }), provider)
        | (.error error, provider) => (.ok (some error, dropped), provider)

/-- Renews the leases on resources. The refusals are collected, but a lease that is filed wrongly
ends the renewal. -/
def retainEach (holder : LeaseHolder) (provider : π) :
    (resources : List String) → Except LeaseFault (List LeaseError) × LeaseHolder × π
  | [] => (.ok [], holder, provider)
  | resource :: resources =>
    match holder.retain provider resource with
    | (.error fault, provider) => (.error fault, holder, provider)
    | (.ok (refusal, holder), provider) =>
      let (refusals, holder, provider) := retainEach holder provider resources
      (refusals.map (refusal.toList ++ ·), holder, provider)

def retainAll (holder : LeaseHolder) (provider : π) :
    Except LeaseFault (List LeaseError) × LeaseHolder × π :=
  holder.retainEach provider holder.resources

def releaseAll (holder : LeaseHolder) (provider : π) : LeaseHolder × π :=
  (empty holder.owner,
    (holder.resources.filterMap holder.held.get?).foldl LeaseProvider.release provider)

end LeaseHolder

end BehaviorTree
