import BehaviorTree.Lease.Counterfeit
import BehaviorTree.Proofs.Lease.Registry

/-!
# Where leases are filed

A holder asks its provider for one resource after the other, and files every lease that it is given
under the resource that the lease names. Whether it then holds all that it asked for is up to the
names that the provider puts on its leases. If these are the resources that were asked for, an
acquisition secures what is required, provided that the leases from before are labelled, too.
-/

namespace BehaviorTree

namespace LeaseHolder

section Labels

variable {holder next : LeaseHolder} {resource : String} {lease : Lease}

/-- The lease that is filed under a resource names that resource. -/
def IsLabelled (holder : LeaseHolder) (resource : String) : Prop :=
  ∀ lease, holder.held.get? resource = some lease → lease.resource = resource

/-- None of the resources of a list is missing, and the leases filed under them name them. -/
def Secures (holder : LeaseHolder) (required : List String) : Prop :=
  holder.missing required = [] ∧ ∀ resource ∈ required, holder.IsLabelled resource

theorem isLabelled_empty {owner : String} : (empty owner).IsLabelled resource := nofun

theorem secures_iff {required : List String} : holder.Secures required ↔
    ∀ resource ∈ required,
      ∃ lease, holder.held.get? resource = some lease ∧ lease.resource = resource := by
  constructor
  · rintro ⟨nothing, labelled⟩ resource needed
    have held : holder.isHeld resource = true := by
      by_contra vacant
      have lacking := mem_missing.2 ⟨needed, Bool.eq_false_iff.2 vacant⟩
      rw [nothing] at lacking
      cases lacking
    rcases isHeld_iff.1 held with ⟨lease, found⟩
    exact ⟨lease, found, labelled resource needed lease found⟩
  · intro held
    refine ⟨List.eq_nil_iff_forall_not_mem.2 fun resource lacking => ?_, ?_⟩
    · rcases mem_missing.1 lacking with ⟨needed, vacant⟩
      rcases held resource needed with ⟨lease, found, -⟩
      rw [isHeld_iff.2 ⟨lease, found⟩] at vacant
      cases vacant
    · intro resource needed lease found
      rcases held resource needed with ⟨named, same, label⟩
      rw [found, Option.some.injEq] at same
      exact same ▸ label

theorem isLabelled_file (labelled : holder.IsLabelled resource) :
    (holder.file lease).IsLabelled resource := by
  intro filed found
  simp only [file, Table.get?_insert] at found
  split at found
  · rename_i same
    cases found
    exact same.symm
  · exact labelled filed found

/-- Of several leases on a resource the last one is filed. -/
theorem get?_foldl_file_eq (leases : List Lease) (resource : String) :
    (leases.foldl file holder).held.get? resource =
      (leases.reverse.find? fun lease => lease.resource = resource).or
        (holder.held.get? resource) := by
  induction leases generalizing holder with
  | nil => rfl
  | cons lease rest ih =>
    have filed : (holder.file lease).held.get? resource =
        ([lease].find? fun lease => lease.resource = resource).or (holder.held.get? resource) := by
      by_cases same : lease.resource = resource
      · simp [file, same]
      · simp [file, same, Table.get?_insert_of_ne (Ne.symm same)]
    rw [List.foldl_cons, ih, filed, List.reverse_cons, List.find?_append, Option.or_assoc]

theorem isLabelled_foldl_file (leases : List Lease) (labelled : holder.IsLabelled resource) :
    (leases.foldl file holder).IsLabelled resource := by
  induction leases generalizing holder with
  | nil => exact labelled
  | cons lease rest ih => exact ih (isLabelled_file labelled)

end Labels

section Acquisition

variable {π : Type} [LeaseProvider π] {holder next : LeaseHolder} {provider later : π}
  {required : List String} {resource : String}

/-- The leases that a provider gives when a holder asks for what it lacks. -/
def granted (holder : LeaseHolder) (provider : π) (required : List String) : List Lease :=
  (request holder.owner provider (holder.missing required)).1.1

theorem eq_of_acquireAll (granted : holder.acquireAll provider required = (.ok next, later)) :
    next = (holder.granted provider required).foldl file holder := by
  simp only [acquireAll] at granted
  split at granted
  · rename_i leases last asked
    cases granted
    simp only [LeaseHolder.granted, asked]
  · cases granted

theorem isLabelled_of_acquireAll
    (granted : holder.acquireAll provider required = (.ok next, later))
    (labelled : holder.IsLabelled resource) : next.IsLabelled resource := by
  rw [eq_of_acquireAll granted]
  exact isLabelled_foldl_file _ labelled

/-- After an acquisition a resource is held under its own name exactly if the provider has given a
lease that names it, or there was one already. -/
theorem secures_iff_of_acquireAll
    (granted : holder.acquireAll provider required = (.ok next, later)) :
    next.Secures required ↔ ∀ resource ∈ required,
      (∃ lease ∈ holder.granted provider required, lease.resource = resource) ∨
        ∃ lease, holder.held.get? resource = some lease ∧ lease.resource = resource := by
  rw [eq_of_acquireAll granted, secures_iff]
  refine forall₂_congr fun resource _ => ?_
  rw [get?_foldl_file_eq]
  cases found : (holder.granted provider required).reverse.find? fun lease =>
      lease.resource = resource with
  | some lease =>
    have listed := List.mem_reverse.1 (List.mem_of_find?_eq_some found)
    have label : lease.resource = resource := by simpa using List.find?_some found
    exact iff_of_true ⟨lease, rfl, label⟩ (Or.inl ⟨lease, listed, label⟩)
  | none =>
    have unnamed : ¬ ∃ lease ∈ holder.granted provider required, lease.resource = resource := by
      simpa using found
    rw [Option.none_or, or_iff_right unnamed]

theorem secures_of_acquireAll (names : LeaseProvider.NamesResources π)
    (granted : holder.acquireAll provider required = (.ok next, later))
    (labelled : ∀ resource ∈ required, holder.IsLabelled resource) : next.Secures required := by
  refine ⟨List.eq_nil_iff_forall_not_mem.2 fun resource lacking => ?_, ?_⟩
  · rcases mem_missing.1 lacking with ⟨needed, vacant⟩
    rw [isHeld_of_acquireAll names granted needed] at vacant
    cases vacant
  · exact fun resource needed => isLabelled_of_acquireAll granted (labelled resource needed)

/-- An acquisition secures what is required exactly as far as the leases that are given name it.
It fails to do so only with a provider that puts other names on its leases. -/
theorem acquireAll_secures (granted : holder.acquireAll provider required = (.ok next, later)) :
    (next.Secures required ↔ ∀ resource ∈ required,
      (∃ lease ∈ holder.granted provider required, lease.resource = resource) ∨
        ∃ lease, holder.held.get? resource = some lease ∧ lease.resource = resource) ∧
    (LeaseProvider.NamesResources π → (∀ resource ∈ required, holder.IsLabelled resource) →
      next.Secures required) :=
  ⟨secures_iff_of_acquireAll granted, fun names => secures_of_acquireAll names granted⟩

theorem registry_secures : ∃ next later,
    (empty "mission").acquireAll LeaseRegistry.empty ["body", "ptz"] = (.ok next, later) ∧
      next.Secures ["body", "ptz"] := by
  have granted : (empty "mission").acquireAll LeaseRegistry.empty ["body", "ptz"] = (.ok _, _) :=
    rfl
  refine ⟨_, _, granted, (acquireAll_secures granted).2 LeaseRegistry.namesResources ?_⟩
  exact fun _ _ => isLabelled_empty

/-- A lease that names another resource is filed under that one, and the resource that was asked for
is missing. After a renewal a lease is filed under a name that it does not have, and an acquisition
takes it for granted. -/
theorem counterfeits_secure_nothing :
    (∃ next, (empty "mission").acquireAll CounterfeitLeases.wrongResource ["body"] =
        (.ok next, .wrongResource) ∧
      next.missing ["body"] = ["body"] ∧ ¬ next.Secures ["body"]) ∧
    ∃ first second next,
      (empty "mission").acquireAll CounterfeitLeases.wrongResource ["body"] =
        (.ok first, .wrongResource) ∧
      first.retainAll CounterfeitLeases.wrongResource = (.ok [], second, .wrongResource) ∧
      second.acquireAll CounterfeitLeases.wrongResource ["bogus-body"] =
        (.ok next, .wrongResource) ∧
      next.missing ["bogus-body"] = [] ∧ ¬ next.IsLabelled "bogus-body" := by
  refine ⟨⟨_, rfl, rfl, fun secures => ?_⟩, _, _, _, rfl, rfl, rfl, rfl, fun labelled => ?_⟩
  · exact absurd secures.1 (by decide)
  · exact absurd (labelled ⟨"bogus-bogus-body", "mission", 1⟩ rfl) (by decide)

end Acquisition

end LeaseHolder

end BehaviorTree
