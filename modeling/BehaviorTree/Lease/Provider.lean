import BehaviorTree.Text.Quoted

/-!
# Leases

A lease is the right to use a resource. Leases are given by a provider, which may refuse a
resource, and which may no longer know a lease that it gave.
-/

namespace BehaviorTree

/-- The right of an owner to use a resource. -/
structure Lease where
  resource : String
  owner : String
  /-- A number by which leases of the same resource are told apart. -/
  sequence : UInt64
deriving DecidableEq, Inhabited

/-- Why a lease cannot be had or kept. -/
inductive LeaseError where
  | unavailable (resource holder : String)
  | revoked (resource : String)
  | notHeld (resource : String)

/-- A name for the cause of an error, by which programs tell errors apart. -/
def LeaseError.code : LeaseError → String
  | unavailable _ _ => "Unavailable"
  | revoked _ => "Revoked"
  | notHeld _ => "NotHeld"

def LeaseError.message : LeaseError → String
  | unavailable resource holder =>
    s!"Lease for resource {quoted resource} is held by {quoted holder}"
  | revoked resource => s!"Lease for resource {quoted resource} was revoked"
  | notHeld resource => s!"Lease for resource {quoted resource} is not held"

/-- An authority over resources, whose state is `π`. -/
class LeaseProvider (π : Type) where
  acquire : π → (resource owner : String) → Except LeaseError Lease × π
  retain : π → Lease → Except LeaseError Unit × π
  release : π → Lease → π

instance {π ρ : Type} [LeaseProvider π] [LeaseProvider ρ] : LeaseProvider (π ⊕ ρ) where
  acquire provider resource owner :=
    match provider with
    | .inl left => (LeaseProvider.acquire left resource owner).map id .inl
    | .inr right => (LeaseProvider.acquire right resource owner).map id .inr
  retain provider lease :=
    match provider with
    | .inl left => (LeaseProvider.retain left lease).map id .inl
    | .inr right => (LeaseProvider.retain right lease).map id .inr
  release provider lease :=
    match provider with
    | .inl left => .inl (LeaseProvider.release left lease)
    | .inr right => .inr (LeaseProvider.release right lease)

end BehaviorTree
