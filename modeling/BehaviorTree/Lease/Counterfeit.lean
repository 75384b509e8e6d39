import BehaviorTree.Lease.Provider

/-!
# Counterfeit leases

A provider that never refuses a resource but keeps no account of it. It may put a wrong owner or a
wrong resource on its leases, which a holder that files them has to notice. Every lease has to be
asked for again as soon as it is to be renewed.
-/

namespace BehaviorTree

/-- A provider of leases that are worth nothing. -/
inductive CounterfeitLeases where
  | wrongOwner
  | wrongResource
  | unaltered
deriving DecidableEq

namespace CounterfeitLeases

def disguise (name : String) : String := "bogus-" ++ name

def issue (provider : CounterfeitLeases) (resource owner : String) : Lease :=
  match provider with
  | wrongOwner => ⟨resource, disguise owner, 1⟩
  | wrongResource => ⟨disguise resource, owner, 1⟩
  | unaltered => ⟨resource, owner, 1⟩

end CounterfeitLeases

instance : LeaseProvider CounterfeitLeases where
  acquire provider resource owner := (.ok (provider.issue resource owner), provider)
  retain provider lease := (.error (.notHeld lease.resource), provider)
  release provider _ := provider

end BehaviorTree
