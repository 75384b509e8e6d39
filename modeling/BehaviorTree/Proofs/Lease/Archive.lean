import BehaviorTree.Proofs.Lease.Observation
import BehaviorTree.Proofs.Lease.Registry

/-!
# What the registry remembers

An archive is a registry that also writes down what happened to it: which leases it gave, which
were given back, and which resources were revoked. It gives the same leases as the registry alone.
A lease stands from the moment at which it is given until it is given back, or its resource is given
again or revoked. The registry, which knows no more than an owner and a number for a resource, takes
a lease for good exactly if it stands, as long as the numbers last.
-/

namespace BehaviorTree

/-- Something that happens to a registry and decides which leases are good. -/
inductive LeaseEvent where
  | acquired (lease : Lease)
  | released (lease : Lease)
  | revoked (resource : String)
deriving DecidableEq

namespace LeaseEvent

/-- A lease is not good after an event: its resource was given again or revoked, or the lease was
given back. -/
def Ends (lease : Lease) : LeaseEvent → Prop
  | acquired other => other.resource = lease.resource
  | released other => other = lease
  | revoked resource => resource = lease.resource

def isAcquired : LeaseEvent → Bool
  | acquired _ => true
  | released _ => false
  | revoked _ => false

end LeaseEvent

/-- A provider from which resources can be taken back, whoever has the leases on them. -/
class RevocableProvider (π : Type) extends LeaseProvider π where
  revoke : π → (resource : String) → π

instance : RevocableProvider LeaseRegistry where
  revoke := LeaseRegistry.revoke

/-- A registry with an account of what happened to it. -/
structure LeaseArchive where
  registry : LeaseRegistry
  /-- What has happened, the latest first. -/
  events : List LeaseEvent

namespace LeaseRegistry

variable {registry : LeaseRegistry} {resource owner : String} {lease other : Lease}

theorem isCurrent_give : (registry.give resource owner).2.isCurrent lease = true ↔
    (registry.give resource owner).1 = lease ∨
      registry.isCurrent lease = true ∧ resource ≠ lease.resource := by
  rcases lease with ⟨place, holder, number⟩
  simp only [isCurrent_iff, give, Table.get?_insert, Lease.mk.injEq]
  by_cases same : place = resource
  · simp [same]
  · simp [same, Ne.symm same]

theorem isCurrent_revoke : (registry.revoke resource).isCurrent lease = true ↔
    registry.isCurrent lease = true ∧ resource ≠ lease.resource := by
  simp only [isCurrent_iff, revoke, Table.get?_erase]
  by_cases same : lease.resource = resource
  · simp [same]
  · simp [same, Ne.symm same]

theorem isCurrent_release : (registry.release other).isCurrent lease = true ↔
    registry.isCurrent lease = true ∧ other ≠ lease := by
  cases current : registry.isCurrent other with
  | false =>
    rw [release, if_neg (by simp [current]), iff_self_and]
    rintro good rfl
    rw [current] at good
    cases good
  | true =>
    rw [release, if_pos current, isCurrent_revoke]
    refine and_congr_right fun good => not_congr ⟨fun same => ?_, fun same => same ▸ rfl⟩
    -- Two leases of a resource that are good have the same owner and number.
    rcases other with ⟨place, holder, number⟩
    rcases lease with ⟨_, owner, sequence⟩
    obtain rfl : place = _ := same
    rw [isCurrent_iff] at current good
    rw [current] at good
    cases good
    rfl

end LeaseRegistry

namespace LeaseArchive

def empty : LeaseArchive := ⟨.empty, []⟩

def acquire (archive : LeaseArchive) (resource owner : String) :
    Except LeaseError Lease × LeaseArchive :=
  match archive.registry.acquire resource owner with
  | (.ok lease, registry) => (.ok lease, ⟨registry, .acquired lease :: archive.events⟩)
  | (.error cause, registry) => (.error cause, ⟨registry, archive.events⟩)

def release (archive : LeaseArchive) (lease : Lease) : LeaseArchive :=
  ⟨archive.registry.release lease, .released lease :: archive.events⟩

def revoke (archive : LeaseArchive) (resource : String) : LeaseArchive :=
  ⟨archive.registry.revoke resource, .revoked resource :: archive.events⟩

instance : RevocableProvider LeaseArchive where
  acquire := acquire
  retain archive lease := (archive.registry.retain lease, archive)
  release := release
  revoke := revoke

theorem forgets : LeaseProvider.Forgets registry := by
  refine ⟨?_, fun _ _ => rfl, fun _ _ => rfl⟩
  intro archive resource owner
  simp only [LeaseProvider.acquire, acquire]
  rcases archive.registry.acquire resource owner with ⟨cause | lease, later⟩
  · rfl
  · rfl

def acquisitions (events : List LeaseEvent) : Nat := events.countP LeaseEvent.isAcquired

/-- The leases are numbered in the order in which they were given, starting with one. -/
def IsNumbered (events : List LeaseEvent) : Prop :=
  ∀ later lease earlier, events = later ++ .acquired lease :: earlier →
    lease.sequence = .ofNat (acquisitions earlier + 1)

/-- A lease was given, and nothing that happened since has ended it. -/
def Stands (lease : Lease) (events : List LeaseEvent) : Prop :=
  ∃ later earlier, events = later ++ .acquired lease :: earlier ∧
    ∀ event ∈ later, ¬ event.Ends lease

section Events

variable {lease other : Lease} {event : LeaseEvent} {events later earlier rest before :
  List LeaseEvent}

@[simp]
theorem acquisitions_acquired :
    acquisitions (.acquired lease :: events) = acquisitions events + 1 :=
  List.countP_cons_of_pos rfl

@[simp]
theorem acquisitions_released : acquisitions (.released lease :: events) = acquisitions events :=
  List.countP_cons_of_neg Bool.false_ne_true

@[simp]
theorem acquisitions_revoked {resource : String} :
    acquisitions (.revoked resource :: events) = acquisitions events :=
  List.countP_cons_of_neg Bool.false_ne_true

theorem acquisitions_append :
    acquisitions (later ++ earlier) = acquisitions later + acquisitions earlier :=
  List.countP_append

theorem isNumbered_cons : IsNumbered (event :: events) ↔
    (∀ lease, event = .acquired lease → lease.sequence = .ofNat (acquisitions events + 1)) ∧
      IsNumbered events := by
  constructor
  · intro numbered
    constructor
    · rintro lease rfl
      exact numbered [] lease events rfl
    · rintro later lease earlier rfl
      exact numbered (event :: later) lease earlier rfl
  · rintro ⟨first, numbered⟩ later lease earlier split
    cases later with
    | nil =>
      rw [List.nil_append, List.cons.injEq] at split
      rcases split with ⟨rfl, rfl⟩
      exact first lease rfl
    | cons head later =>
      rw [List.cons_append, List.cons.injEq] at split
      exact numbered later lease earlier split.2

theorem not_stands_nil : ¬ Stands lease [] := by
  rintro ⟨later, earlier, split, -⟩
  simp at split

theorem stands_cons : Stands lease (event :: events) ↔
    event = .acquired lease ∨ Stands lease events ∧ ¬ event.Ends lease := by
  constructor
  · rintro ⟨later, earlier, split, stands⟩
    rcases List.cons_eq_append_iff.1 split with ⟨rfl, given⟩ | ⟨rest, rfl, -⟩
    · rw [List.cons.injEq] at given
      exact Or.inl given.1.symm
    · rw [List.forall_mem_cons] at stands
      rw [List.cons_append, List.cons.injEq] at split
      exact Or.inr ⟨⟨rest, earlier, split.2, stands.2⟩, stands.1⟩
  · rintro (rfl | ⟨⟨later, earlier, rfl, stands⟩, goesOn⟩)
    · exact ⟨[], events, rfl, nofun⟩
    · exact ⟨event :: later, earlier, rfl, List.forall_mem_cons.2 ⟨goesOn, stands⟩⟩

/-- The count of what was acquired before tells one acquisition from all others. -/
theorem place_unique
    (same : later ++ .acquired lease :: earlier = rest ++ .acquired other :: before)
    (count : acquisitions earlier = acquisitions before) : later = rest ∧ earlier = before := by
  induction later generalizing rest with
  | nil =>
    cases rest with
    | nil =>
      simp only [List.nil_append, List.cons.injEq] at same
      exact ⟨rfl, same.2⟩
    | cons first rest =>
      simp only [List.nil_append, List.cons_append, List.cons.injEq] at same
      simp only [same.2, acquisitions_append, acquisitions_acquired] at count
      omega
  | cons first later ih =>
    cases rest with
    | nil =>
      simp only [List.nil_append, List.cons_append, List.cons.injEq] at same
      simp only [← same.2, acquisitions_append, acquisitions_acquired] at count
      omega
    | cons head rest =>
      simp only [List.cons_append, List.cons.injEq] at same
      rcases ih same.2 with ⟨rfl, rfl⟩
      exact ⟨by rw [same.1], rfl⟩

end Events

/-- The registry knows how many leases it has given, and which of them stand. -/
structure IsSound (archive : LeaseArchive) : Prop where
  counted : archive.registry.sequence = .ofNat (acquisitions archive.events)
  numbered : IsNumbered archive.events
  faithful : ∀ lease, archive.registry.isCurrent lease = true ↔ Stands lease archive.events

variable {archive : LeaseArchive} {lease : Lease} {resource owner : String}
  {later earlier : List LeaseEvent}

theorem isSound_empty : empty.IsSound := by
  refine ⟨rfl, by simp [IsNumbered, empty], fun lease => ?_⟩
  simp [empty, LeaseRegistry.empty, LeaseRegistry.isCurrent, not_stands_nil]

theorem IsSound.acquire (sound : archive.IsSound) (resource owner : String) :
    (archive.acquire resource owner).2.IsSound := by
  simp only [LeaseArchive.acquire]
  rcases asked : archive.registry.acquire resource owner with ⟨cause | lease, later⟩
  · rw [LeaseRegistry.acquire_eq_error asked]
    exact sound
  · have given := (LeaseRegistry.acquire_eq_ok asked).1
    have good : ∀ other, later.isCurrent other = true ↔ lease = other ∨
        archive.registry.isCurrent other = true ∧ resource ≠ other.resource := by
      intro other
      rw [← (Prod.mk.inj given).1, ← (Prod.mk.inj given).2]
      exact LeaseRegistry.isCurrent_give
    simp only [LeaseRegistry.give, Prod.mk.injEq] at given
    rcases given with ⟨rfl, rfl⟩
    have next : archive.registry.sequence + 1 = .ofNat (acquisitions archive.events + 1) := by
      rw [sound.counted, UInt64.ofNat_add]
      rfl
    refine ⟨by rw [acquisitions_acquired, next], isNumbered_cons.2 ⟨?_, sound.numbered⟩, ?_⟩
    · rintro other ⟨⟩
      exact next
    · intro other
      rw [good, stands_cons, sound.faithful, LeaseEvent.acquired.injEq]
      rfl

theorem IsSound.release (sound : archive.IsSound) (lease : Lease) :
    (archive.release lease).IsSound := by
  refine ⟨?_, isNumbered_cons.2 ⟨nofun, sound.numbered⟩, ?_⟩
  · rw [LeaseArchive.release, acquisitions_released, ← sound.counted]
    simp only [LeaseRegistry.release]
    split <;> rfl
  · intro other
    simp only [LeaseArchive.release, LeaseRegistry.isCurrent_release, stands_cons, sound.faithful,
      reduceCtorEq, false_or]
    rfl

theorem IsSound.revoke (sound : archive.IsSound) (resource : String) :
    (archive.revoke resource).IsSound := by
  refine ⟨?_, isNumbered_cons.2 ⟨nofun, sound.numbered⟩, ?_⟩
  · rw [LeaseArchive.revoke, acquisitions_revoked, ← sound.counted]
    rfl
  · intro other
    simp only [LeaseArchive.revoke, LeaseRegistry.isCurrent_revoke, stands_cons, sound.faithful,
      reduceCtorEq, false_or]
    rfl

theorem keeps_isSound : LeaseProvider.Keeps IsSound :=
  ⟨fun _ resource owner sound => sound.acquire resource owner, fun _ _ sound => sound,
    fun _ lease sound => sound.release lease⟩

/-- Among fewer acquisitions than there are numbers every lease is given once. -/
theorem IsSound.stands_iff (sound : archive.IsSound)
    (few : acquisitions archive.events < UInt64.size)
    (given : archive.events = later ++ .acquired lease :: earlier) :
    Stands lease archive.events ↔ ∀ event ∈ later, ¬ event.Ends lease := by
  constructor
  · rintro ⟨rest, before, alsoGiven, stands⟩
    have count : acquisitions earlier = acquisitions before := by
      have number := sound.numbered later lease earlier given
      have bound := congrArg acquisitions given
      have alsoBound := congrArg acquisitions alsoGiven
      rw [acquisitions_append, acquisitions_acquired] at bound alsoBound
      rw [sound.numbered rest lease before alsoGiven, ← UInt64.toNat_inj,
        UInt64.toNat_ofNat_of_lt' (by omega), UInt64.toNat_ofNat_of_lt' (by omega)] at number
      omega
    rw [(place_unique (given.symm.trans alsoGiven) count).1]
    exact stands
  · exact fun stands => ⟨later, earlier, given, stands⟩

theorem IsSound.retain_iff (sound : archive.IsSound)
    (few : acquisitions archive.events < UInt64.size)
    (given : archive.events = later ++ .acquired lease :: earlier) :
    archive.registry.retain lease = .ok () ↔ ∀ event ∈ later, ¬ event.Ends lease := by
  rw [LeaseRegistry.retain_eq_ok_iff, sound.faithful, sound.stands_iff few given]

/-- A lease that has ended cannot be given back any more. -/
theorem IsSound.release_eq (sound : archive.IsSound)
    (few : acquisitions archive.events < UInt64.size)
    (given : archive.events = later ++ .acquired lease :: earlier)
    (ended : ∃ event ∈ later, event.Ends lease) :
    archive.registry.release lease = archive.registry := by
  rw [LeaseRegistry.release, if_neg]
  rw [sound.faithful, sound.stands_iff few given]
  rcases ended with ⟨event, listed, ends⟩
  exact fun stands => stands event listed ends

end LeaseArchive

end BehaviorTree
