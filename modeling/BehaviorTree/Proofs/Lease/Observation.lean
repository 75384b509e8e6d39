import BehaviorTree.Proofs.Lease.Holder

/-!
# Providers that are observed

A holder does nothing with its provider but to acquire, retain and release leases. So whatever these
three preserve is preserved by everything that a holder does. And a provider that also takes notes
gives every holder the same leases as one that does not.
-/

namespace BehaviorTree

namespace LeaseProvider

variable {π ρ : Type} [LeaseProvider π] [LeaseProvider ρ]

/-- What is true of a provider remains true whatever it is asked for. -/
structure Keeps (holds : π → Prop) : Prop where
  acquire : ∀ provider resource owner, holds provider →
    holds (LeaseProvider.acquire provider resource owner).2
  retain : ∀ provider lease, holds provider → holds (LeaseProvider.retain provider lease).2
  release : ∀ provider lease, holds provider → holds (LeaseProvider.release provider lease)

/-- A provider answers as before when part of its state is forgotten. -/
structure Forgets (forget : π → ρ) : Prop where
  acquire : ∀ provider resource owner, LeaseProvider.acquire (forget provider) resource owner =
    (LeaseProvider.acquire provider resource owner).map id forget
  retain : ∀ provider lease, LeaseProvider.retain (forget provider) lease =
    (LeaseProvider.retain provider lease).map id forget
  release : ∀ provider lease, LeaseProvider.release (forget provider) lease =
    forget (LeaseProvider.release provider lease)

end LeaseProvider

namespace LeaseHolder

variable {π ρ : Type} [LeaseProvider π] [LeaseProvider ρ] {provider : π} {owner resource : String}
  {holder : LeaseHolder} {resources required : List String} {leases : List Lease}

section Keeping

variable {holds : π → Prop} (keeps : LeaseProvider.Keeps holds)

include keeps

theorem keeps_request (held : holds provider) : holds (request owner provider resources).2 := by
  induction resources generalizing provider with
  | nil => exact held
  | cons first rest ih =>
    have kept := keeps.acquire provider first owner held
    revert kept
    simp only [request]
    rcases LeaseProvider.acquire provider first owner with ⟨cause | lease, later⟩
    · exact id
    · exact ih

theorem keeps_foldl_release (held : holds provider) :
    holds (leases.foldl LeaseProvider.release provider) := by
  induction leases generalizing provider with
  | nil => exact held
  | cons lease rest ih => exact ih (keeps.release provider lease held)

theorem keeps_acquireAll (held : holds provider) :
    holds (holder.acquireAll provider required).2 := by
  have kept : holds (request holder.owner provider (holder.missing required)).2 :=
    keeps_request keeps held
  revert kept
  simp only [acquireAll]
  rcases request holder.owner provider (holder.missing required) with ⟨⟨leases, _ | cause⟩, later⟩
  · exact id
  · exact keeps_foldl_release keeps

theorem keeps_retain (held : holds provider) : holds (holder.retain provider resource).2 := by
  simp only [retain]
  cases holder.held.get? resource with
  | none => exact held
  | some lease =>
    dsimp only
    split
    · exact held
    · have kept := keeps.retain provider lease held
      revert kept
      rcases LeaseProvider.retain provider lease with ⟨cause | done, middle⟩
      · intro kept
        have asked := keeps.acquire middle resource holder.owner kept
        revert asked
        dsimp only
        rcases LeaseProvider.acquire middle resource holder.owner with ⟨refusal | fresh, later⟩
        · exact id
        · exact id
      · exact id

theorem keeps_retainEach (held : holds provider) :
    holds (holder.retainEach provider resources).2.2 := by
  induction resources generalizing holder provider with
  | nil => exact held
  | cons first rest ih =>
    have kept : holds (holder.retain provider first).2 := keeps_retain keeps held
    revert kept
    simp only [retainEach]
    rcases holder.retain provider first with ⟨fault | ⟨refusal, next⟩, later⟩
    · exact id
    · exact ih

theorem keeps_retainAll (held : holds provider) : holds (holder.retainAll provider).2.2 :=
  keeps_retainEach keeps held

theorem keeps_releaseAll (held : holds provider) : holds (holder.releaseAll provider).2 :=
  keeps_foldl_release keeps held

end Keeping

section Forgetting

variable {forget : π → ρ} (forgets : LeaseProvider.Forgets forget)

include forgets

theorem request_forget : request owner (forget provider) resources =
    (request owner provider resources).map id forget := by
  induction resources generalizing provider with
  | nil => rfl
  | cons first rest ih =>
    simp only [request, forgets.acquire]
    rcases LeaseProvider.acquire provider first owner with ⟨cause | lease, later⟩
    · rfl
    · simp only [Prod.map_apply, Prod.map_fst, Prod.map_snd, id_eq, ih]

theorem foldl_release_forget : leases.foldl LeaseProvider.release (forget provider) =
    forget (leases.foldl LeaseProvider.release provider) :=
  List.foldl_hom forget forgets.release

theorem acquireAll_forget : holder.acquireAll (forget provider) required =
    (holder.acquireAll provider required).map id forget := by
  simp only [acquireAll, request_forget forgets]
  rcases request holder.owner provider (holder.missing required) with ⟨⟨leases, _ | cause⟩, later⟩
  · rfl
  · simp only [Prod.map_apply, id_eq, foldl_release_forget forgets]

theorem retain_forget : holder.retain (forget provider) resource =
    (holder.retain provider resource).map id forget := by
  simp only [retain]
  cases holder.held.get? resource with
  | none => rfl
  | some lease =>
    dsimp only
    split
    · rfl
    · rw [forgets.retain]
      rcases LeaseProvider.retain provider lease with ⟨cause | done, middle⟩
      · simp only [Prod.map_apply, id_eq, forgets.acquire]
        rcases LeaseProvider.acquire middle resource holder.owner with ⟨refusal | fresh, later⟩
        · rfl
        · rfl
      · rfl

theorem retainEach_forget : holder.retainEach (forget provider) resources =
    (holder.retainEach provider resources).map id (Prod.map id forget) := by
  induction resources generalizing holder provider with
  | nil => rfl
  | cons first rest ih =>
    simp only [retainEach, retain_forget forgets]
    rcases holder.retain provider first with ⟨fault | ⟨refusal, next⟩, later⟩
    · rfl
    · simp only [Prod.map_apply, Prod.map_fst, Prod.map_snd, id_eq, ih]

theorem retainAll_forget : holder.retainAll (forget provider) =
    (holder.retainAll provider).map id (Prod.map id forget) :=
  retainEach_forget forgets

theorem releaseAll_forget : holder.releaseAll (forget provider) =
    (holder.releaseAll provider).map id forget := by
  simp only [releaseAll, foldl_release_forget forgets, Prod.map_apply, id_eq]

end Forgetting

end LeaseHolder

end BehaviorTree
