import BehaviorTree.Lease.Holder
import BehaviorTree.Proofs.Table
import Mathlib.Tactic.Common

/-!
# Holders of leases and their providers

Whatever a provider does, a holder only comes to hold a resource by asking for it. The renewal of
its leases takes one resource after the other, and it loses those whose lease the provider neither
keeps nor replaces when their turn comes. Everything that a holder does with its provider is a
sequence of such dealings.
-/

namespace BehaviorTree

theorem mem_insertName {name other : String} {names : List String} :
    other ∈ insertName name names ↔ other = name ∨ other ∈ names := by
  induction names with
  | nil => simp [insertName]
  | cons first rest ih =>
    simp only [insertName]
    split
    · simp
    · split <;> grind

theorem mem_sortedNames {name : String} {names : List String} :
    name ∈ sortedNames names ↔ name ∈ names := by
  simp only [sortedNames]
  induction names with
  | nil => simp
  | cons first rest ih => simp [mem_insertName, ih]

theorem nodup_insertName {name : String} {names : List String} (fresh : name ∉ names)
    (nodup : names.Nodup) : (insertName name names).Nodup := by
  induction names with
  | nil => simp [insertName]
  | cons first rest ih =>
    simp only [List.mem_cons, not_or] at fresh
    rw [List.nodup_cons] at nodup
    simp only [insertName]
    split
    · exact List.nodup_cons.2 ⟨by simp [fresh], List.nodup_cons.2 nodup⟩
    · rw [if_neg fresh.1, List.nodup_cons, mem_insertName]
      exact ⟨by simp [nodup.1, Ne.symm fresh.1], ih fresh.2 nodup.2⟩

theorem nodup_sortedNames {names : List String} (nodup : names.Nodup) :
    (sortedNames names).Nodup := by
  induction names with
  | nil => exact List.nodup_nil
  | cons first rest ih =>
    rw [List.nodup_cons] at nodup
    exact nodup_insertName (fun listed => nodup.1 (mem_sortedNames.1 listed)) (ih nodup.2)

/-- The leases that a provider gives name the resource that was asked for. -/
def LeaseProvider.NamesResources (π : Type) [LeaseProvider π] : Prop :=
  ∀ (provider later : π) (resource owner : String) (lease : Lease),
    LeaseProvider.acquire provider resource owner = (.ok lease, later) → lease.resource = resource

namespace LeaseHolder

section Holdings

variable {holder next : LeaseHolder} {resource other : String} {lease : Lease}

theorem isHeld_iff : holder.isHeld resource = true ↔
    ∃ lease, holder.held.get? resource = some lease :=
  Table.contains_iff

theorem mem_resources : resource ∈ holder.resources ↔ holder.isHeld resource = true := by
  simp only [resources, mem_sortedNames, Table.mem_keys_iff, isHeld_iff]

theorem mem_missing {required : List String} : resource ∈ holder.missing required ↔
    resource ∈ required ∧ holder.isHeld resource = false := by
  simp [missing]

theorem isHeld_file : (holder.file lease).isHeld other = true ↔
    other = lease.resource ∨ holder.isHeld other = true := by
  by_cases same : other = lease.resource
  · simp [isHeld, file, Table.contains, same]
  · simp [isHeld, file, Table.contains, Table.get?_insert_of_ne same, same]

theorem isHeld_foldl_file {leases : List Lease} : (leases.foldl file holder).isHeld other = true ↔
    (∃ lease ∈ leases, lease.resource = other) ∨ holder.isHeld other = true := by
  induction leases generalizing holder with
  | nil => simp
  | cons lease rest ih =>
    simp only [List.foldl_cons, ih, isHeld_file, List.exists_mem_cons_iff, @eq_comm _ other]
    rw [or_left_comm, or_assoc]

end Holdings

variable {π : Type} [LeaseProvider π] {holder next : LeaseHolder} {provider later : π}
  {resource other : String}

theorem exists_lease_of_request (names : LeaseProvider.NamesResources π) {owner : String}
    {resources : List String} {leases : List Lease}
    (granted : request owner provider resources = ((leases, none), later))
    (asked : resource ∈ resources) : ∃ lease ∈ leases, lease.resource = resource := by
  induction resources generalizing provider leases with
  | nil => simp at asked
  | cons first rest ih =>
    simp only [request] at granted
    split at granted
    · simp at granted
    · rename_i lease middle given
      cases others : request owner middle rest with
      | mk outcome last =>
        rcases outcome with ⟨more, refusal⟩
        simp only [others, Prod.mk.injEq] at granted
        rcases granted with ⟨⟨rfl, rfl⟩, rfl⟩
        rcases List.mem_cons.1 asked with rfl | asked
        · exact ⟨lease, List.mem_cons_self, names _ _ _ _ _ given⟩
        · rcases ih others asked with ⟨found, listed, named⟩
          exact ⟨found, List.mem_cons_of_mem _ listed, named⟩

/-- Everything that is required is held after it was acquired. -/
theorem isHeld_of_acquireAll (names : LeaseProvider.NamesResources π) {required : List String}
    (granted : holder.acquireAll provider required = (.ok next, later))
    (needed : resource ∈ required) : next.isHeld resource = true := by
  simp only [acquireAll] at granted
  split at granted
  · rename_i leases last asked
    simp only [Prod.mk.injEq, Except.ok.injEq] at granted
    rcases granted with ⟨rfl, rfl⟩
    apply isHeld_foldl_file.2
    cases held : holder.isHeld resource with
    | true => exact Or.inr rfl
    | false =>
      exact Or.inl (exists_lease_of_request names asked (mem_missing.2 ⟨needed, held⟩))
  · simp at granted

/-- A provider neither keeps the lease on a resource nor gives another one. -/
def IsRefused (holder : LeaseHolder) (provider : π) (resource : String) : Prop :=
  ∃ lease lost refusal later, holder.held.get? resource = some lease ∧
    lease.resource = resource ∧ lease.owner = holder.owner ∧
    LeaseProvider.retain provider lease = (.error lost, later) ∧
    (LeaseProvider.acquire later resource holder.owner).1 = .error refusal

/-- A resource of a list is refused when its turn comes in the renewal of the list. -/
def LosesAmong (holder : LeaseHolder) (provider : π) (resources : List String)
    (resource : String) : Prop :=
  ∃ earlier rest refusals reached asked, resources = earlier ++ resource :: rest ∧
    holder.retainEach provider earlier = (.ok refusals, reached, asked) ∧
    reached.IsRefused asked resource

/-- The renewal of all leases loses a resource. -/
def Loses (holder : LeaseHolder) (provider : π) (resource : String) : Prop :=
  holder.LosesAmong provider holder.resources resource

theorem isHeld_retain {refusal : Option LeaseError}
    (renewed : holder.retain provider resource = (.ok (refusal, next), later)) :
    next.isHeld other = true ↔
      holder.isHeld other = true ∧ ¬ (other = resource ∧ holder.IsRefused provider resource) := by
  simp only [retain] at renewed
  cases held : holder.held.get? resource with
  | none =>
    simp only [held, Prod.mk.injEq, Except.ok.injEq] at renewed
    rcases renewed with ⟨⟨-, rfl⟩, -⟩
    have open_turn : ¬ holder.IsRefused provider resource := by
      rintro ⟨lease, lost, refusal, last, found, -⟩
      simp [held] at found
    simp [open_turn]
  | some lease =>
    simp only [held] at renewed
    split at renewed
    · simp at renewed
    · rename_i filed
      rw [not_or, not_not, not_not] at filed
      split at renewed
      · rename_i kept
        simp only [Prod.mk.injEq, Except.ok.injEq] at renewed
        rcases renewed with ⟨⟨-, rfl⟩, -⟩
        have open_turn : ¬ holder.IsRefused provider resource := by
          rintro ⟨found, lost, refusal, last, same, -, -, refused, -⟩
          rw [held, Option.some.injEq] at same
          subst same
          rw [kept] at refused
          simp at refused
        simp [open_turn]
      · rename_i lost middle refused
        split at renewed
        · rename_i fresh last given
          simp only [Prod.mk.injEq, Except.ok.injEq] at renewed
          rcases renewed with ⟨⟨-, rfl⟩, -⟩
          have open_turn : ¬ holder.IsRefused provider resource := by
            rintro ⟨found, cause, refusal, last, same, -, -, again, denied⟩
            rw [held, Option.some.injEq] at same
            subst same
            rw [refused] at again
            simp only [Prod.mk.injEq, Except.error.injEq] at again
            rcases again with ⟨rfl, rfl⟩
            rw [given] at denied
            simp at denied
          by_cases same : other = resource
          · subst same
            simp [isHeld, Table.contains, held, open_turn]
          · simp [isHeld, Table.contains, Table.get?_insert_of_ne same,
              Table.get?_erase_of_ne same, same]
        · rename_i refusal last denied
          simp only [Prod.mk.injEq, Except.ok.injEq] at renewed
          rcases renewed with ⟨⟨-, rfl⟩, -⟩
          have refusedHere : holder.IsRefused provider resource :=
            ⟨lease, lost, refusal, middle, held, filed.1, filed.2, refused, by rw [denied]⟩
          by_cases same : other = resource
          · subst same
            simp [isHeld, Table.contains, refusedHere]
          · simp [isHeld, Table.contains, Table.get?_erase_of_ne same, same]

/-- The first resource of a list has its turn, and then the others have theirs. -/
theorem losesAmong_cons {first : String} {rest : List String} {refusal : Option LeaseError}
    (renewed : holder.retain provider first = (.ok (refusal, next), later)) :
    holder.LosesAmong provider (first :: rest) resource ↔
      (resource = first ∧ holder.IsRefused provider first) ∨
        next.LosesAmong later rest resource := by
  constructor
  · rintro ⟨earlier, others, refusals, reached, asked, split, walked, refused⟩
    cases earlier with
    | nil =>
      simp only [List.nil_append, List.cons.injEq] at split
      rcases split with ⟨rfl, rfl⟩
      simp only [retainEach, Prod.mk.injEq] at walked
      rcases walked with ⟨-, rfl, rfl⟩
      exact Or.inl ⟨rfl, refused⟩
    | cons head earlier =>
      simp only [List.cons_append, List.cons.injEq] at split
      rcases split with ⟨rfl, rfl⟩
      simp only [retainEach, renewed] at walked
      cases others' : next.retainEach later earlier with
      | mk outcome after =>
        rcases after with ⟨last, end_state⟩
        rw [others'] at walked
        cases outcome with
        | error fault => simp [Except.map] at walked
        | ok more =>
          simp only [Except.map, Prod.mk.injEq] at walked
          rcases walked with ⟨-, rfl, rfl⟩
          exact Or.inr ⟨earlier, others, more, last, end_state, rfl, others', refused⟩
  · rintro (⟨rfl, refused⟩ | ⟨earlier, others, refusals, reached, asked, rfl, walked, refused⟩)
    · exact ⟨[], rest, [], holder, provider, rfl, rfl, refused⟩
    · refine ⟨first :: earlier, others, refusal.toList ++ refusals, reached, asked, rfl, ?_, refused⟩
      simp [retainEach, renewed, walked, Except.map]

theorem isHeld_retainEach (holder : LeaseHolder) (provider : π) (resources : List String)
    (resource : String) :
    (holder.retainEach provider resources).2.1.isHeld resource = true ↔
      holder.isHeld resource = true ∧ ¬ holder.LosesAmong provider resources resource := by
  induction resources generalizing holder provider with
  | nil => simp [retainEach, LosesAmong]
  | cons first rest ih =>
    rcases turn : holder.retain provider first with ⟨fault | ⟨refusal, next⟩, later⟩
    · have nothing : ¬ holder.LosesAmong provider (first :: rest) resource := by
        rintro ⟨earlier, others, refusals, reached, asked, split, walked, refused⟩
        cases earlier with
        | nil =>
          simp only [List.nil_append, List.cons.injEq] at split
          rcases split with ⟨rfl, rfl⟩
          simp only [retainEach, Prod.mk.injEq] at walked
          rcases walked with ⟨-, rfl, rfl⟩
          rcases refused with ⟨lease, lost, refusal, last, held, named, owned, refused, denied⟩
          simp only [retain, held, named, owned] at turn
          simp only [ne_eq, not_true_eq_false, or_self, ↓reduceIte, refused] at turn
          split at turn <;> simp at turn
        | cons head earlier =>
          simp only [List.cons_append, List.cons.injEq] at split
          rcases split with ⟨rfl, rfl⟩
          simp [retainEach, turn] at walked
      simp [retainEach, turn, nothing]
    · simp only [retainEach, turn, ih next later, isHeld_retain turn, losesAmong_cons turn]
      by_cases same : resource = first
      · simp only [same, true_and, not_or]
        rw [and_assoc]
      · simp [same]

/-- After a renewal everything is held that was held before and was not lost. -/
theorem isHeld_retainAll (holder : LeaseHolder) (provider : π) (resource : String) :
    (holder.retainAll provider).2.1.isHeld resource = true ↔
      holder.isHeld resource = true ∧ ¬ holder.Loses provider resource :=
  holder.isHeld_retainEach provider holder.resources resource

/-- The lease that is filed under a resource names another resource or another owner. -/
def Misfiled (holder : LeaseHolder) (resource : String) : Prop :=
  ∃ lease, holder.held.get? resource = some lease ∧
    (lease.resource ≠ resource ∨ lease.owner ≠ holder.owner)

omit [LeaseProvider π] in
theorem Misfiled.congr (misfiled : holder.Misfiled resource) (owner : next.owner = holder.owner)
    (same : next.held.get? resource = holder.held.get? resource) : next.Misfiled resource := by
  rcases misfiled with ⟨lease, held, wrong⟩
  exact ⟨lease, same.trans held, owner ▸ wrong⟩

/-- A fault in the renewal of one lease tells which lease is filed wrongly. -/
theorem retain_eq_error {fault : LeaseFault}
    (renewed : holder.retain provider resource = (.error fault, later)) :
    holder.held.get? fault.filedUnder = some fault.lease ∧ fault.filedUnder = resource ∧
      holder.Misfiled resource := by
  simp only [retain] at renewed
  split at renewed
  · cases renewed
  · rename_i lease held
    split at renewed
    · rename_i wrong
      cases renewed
      exact ⟨held, rfl, lease, held, wrong⟩
    · split at renewed
      · cases renewed
      · split at renewed <;> cases renewed

/-- The renewal of one lease concerns no other one, and finds the lease filed correctly. -/
theorem retain_eq_ok {refusal : Option LeaseError}
    (renewed : holder.retain provider resource = (.ok (refusal, next), later)) :
    next.owner = holder.owner ∧ ¬ holder.Misfiled resource ∧
      ∀ other, other ≠ resource → next.held.get? other = holder.held.get? other := by
  simp only [retain] at renewed
  split at renewed
  · rename_i vacant
    cases renewed
    refine ⟨rfl, ?_, fun _ _ => rfl⟩
    rintro ⟨lease, held, -⟩
    rw [vacant] at held
    cases held
  · rename_i lease held
    split at renewed
    · cases renewed
    · rename_i filed
      have correct : ¬ holder.Misfiled resource := by
        rintro ⟨found, same, wrong⟩
        rw [held, Option.some.injEq] at same
        exact filed (same ▸ wrong)
      split at renewed
      · cases renewed
        exact ⟨rfl, correct, fun _ _ => rfl⟩
      · split at renewed
        · cases renewed
          refine ⟨rfl, correct, fun other different => ?_⟩
          rw [Table.get?_insert_of_ne different, Table.get?_erase_of_ne different]
        · cases renewed
          exact ⟨rfl, correct, fun other different => Table.get?_erase_of_ne different⟩

/-- A renewal that ends with a fault leaves the lease filed as it was. -/
theorem retainEach_eq_error {resources : List String} {fault : LeaseFault}
    (renewed : holder.retainEach provider resources = (.error fault, next, later)) :
    next.held.get? fault.filedUnder = some fault.lease := by
  induction resources generalizing holder provider with
  | nil => cases renewed
  | cons first rest ih =>
    simp only [retainEach] at renewed
    split at renewed
    · rename_i wrong
      cases renewed
      exact (retain_eq_error wrong).1
    · rename_i refusal kept middle turn
      rcases others : kept.retainEach middle rest with ⟨fault | refusals, reached, asked⟩
      · rw [others] at renewed
        cases renewed
        exact ih others
      · rw [others] at renewed
        cases renewed

/-- The turns of other leases neither cause nor repair a wrong file. -/
theorem retainEach_faults_iff {resources : List String} (nodup : resources.Nodup) :
    (∃ fault, (holder.retainEach provider resources).1 = .error fault) ↔
      ∃ resource ∈ resources, holder.Misfiled resource := by
  induction resources generalizing holder provider with
  | nil => simp [retainEach]
  | cons first rest ih =>
    rw [List.nodup_cons] at nodup
    rcases turn : holder.retain provider first with ⟨fault | ⟨refusal, kept⟩, middle⟩
    · have wrong := retain_eq_error turn
      simp only [retainEach, turn]
      exact ⟨fun _ => ⟨first, List.mem_cons_self, wrong.2.2⟩, fun _ => ⟨fault, rfl⟩⟩
    · rcases retain_eq_ok turn with ⟨owner, correct, others⟩
      have same : ∀ resource ∈ rest, kept.Misfiled resource ↔ holder.Misfiled resource := by
        intro resource listed
        have kept := others resource fun isFirst => nodup.1 (isFirst ▸ listed)
        exact ⟨fun wrong => wrong.congr owner.symm kept.symm, fun wrong => wrong.congr owner kept⟩
      have step : (∃ fault, (holder.retainEach provider (first :: rest)).1 = .error fault) ↔
          ∃ fault, (kept.retainEach middle rest).1 = .error fault := by
        simp only [retainEach, turn]
        cases (kept.retainEach middle rest).1 <;> simp [Except.map]
      rw [step, ih nodup.2]
      simp only [List.exists_mem_cons_iff, correct, false_or]
      exact exists_congr fun resource => and_congr_right fun listed => same resource listed

/-- A renewal ends with a fault exactly if a lease is filed wrongly when it begins. -/
theorem retainAll_faults_iff (holder : LeaseHolder) (provider : π) :
    (∃ fault, (holder.retainAll provider).1 = .error fault) ↔
      ∃ resource, holder.Misfiled resource := by
  have nodup : holder.resources.Nodup := nodup_sortedNames holder.held.nodup
  rw [retainAll, retainEach_faults_iff nodup]
  constructor
  · rintro ⟨resource, -, misfiled⟩
    exact ⟨resource, misfiled⟩
  · rintro ⟨resource, lease, held, wrong⟩
    exact ⟨resource, mem_resources.2 (isHeld_iff.2 ⟨lease, held⟩), lease, held, wrong⟩

end LeaseHolder

end BehaviorTree
