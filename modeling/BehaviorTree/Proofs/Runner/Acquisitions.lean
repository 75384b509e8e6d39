import BehaviorTree.Proofs.Runner.Contest
import BehaviorTree.Proofs.Runner.LeasedTicks

/-!
# Acquisitions that are refused

A holder may have leases that are no longer good, as resources can be revoked at any time. But if
nobody else has its owner, then it has the leases of all that is registered under the name of this
owner. What it is given on the way to a refusal was free before, and giving it back leaves the
registry as it was. So an acquisition that is refused changes nothing, and a mission that cannot be
played remains as it is.
-/

namespace BehaviorTree

variable {σ : Type}

/-- A mission that cannot be played has no tree, or is refused a resource. -/
theorem Runner.play_eq_error {π : Type} [RemoteService σ] [LeaseProvider π] {runner : Runner σ}
    {now : Duration} {provider later : π} {cause : MissionError}
    (refused : runner.play now provider = (.error cause, later)) :
    later = provider ∨ ∃ tree denial, runner.tree = some tree ∧
      runner.leases.acquireAll provider tree.leaseResources = (.error denial, later) := by
  simp only [play] at refused
  split at refused
  · cases refused
    exact Or.inl rfl
  · rename_i tree loaded
    split at refused
    · cases refused
    · split at refused
      · rename_i denied
        cases refused
        exact Or.inr ⟨tree, _, loaded, denied⟩
      · cases refused

namespace Contest

/-- The owners of those who are present. -/
def owners (contest : Contest σ) : List String :=
  contest.parties.filterMap fun party => party.map fun present => present.leases.owner

/-- Whatever is registered belongs to somebody who is present and has the lease of it. -/
structure Accounted (contest : Contest σ) : Prop where
  tidy : ∀ index party, contest.party? index = some party → party.leases.IsTidy
  accounts : ∀ index party, contest.party? index = some party →
    party.leases.AccountsFor contest.registry
  owned : ∀ resource owner sequence,
    contest.registry.holders.get? resource = some (owner, sequence) →
    ∃ index party, contest.party? index = some party ∧ party.leases.owner = owner

section Parties

variable {contest : Contest σ} {index other : Nat} {party rival : Party σ}

theorem owner_ne_of_lt (differ : contest.owners.Nodup) (present : contest.party? index = some party)
    (alsoPresent : contest.party? other = some rival) (before : index < other) :
    party.leases.owner ≠ rival.leases.owner := by
  simp only [party?, Option.join_eq_some_iff, List.getElem?_eq_some_iff] at present alsoPresent
  rcases present with ⟨inside, found⟩
  rcases alsoPresent with ⟨alsoInside, alsoFound⟩
  have apart := List.pairwise_iff_getElem.1 (List.pairwise_filterMap.1 differ)
  have unequal := apart index other inside alsoInside before
  simpa only [found, alsoFound, Option.map_some, Option.some.injEq, forall_eq'] using unequal

theorem eq_of_owner_eq (differ : contest.owners.Nodup) (present : contest.party? index = some party)
    (alsoPresent : contest.party? other = some rival)
    (same : party.leases.owner = rival.leases.owner) : index = other := by
  rcases Nat.lt_trichotomy index other with before | equal | behind
  · exact absurd same (owner_ne_of_lt differ present alsoPresent before)
  · exact equal
  · exact absurd same.symm (owner_ne_of_lt differ alsoPresent present behind)

theorem party?_append_of_present (present : contest.party? index = some party)
    (new : Option (Party σ)) :
    (⟨contest.parties ++ [new], contest.registry⟩ : Contest σ).party? index = some party := by
  have inside := lt_length_of_party? present
  simpa [party?, List.getElem?_append_left inside] using present

theorem set_of_party? (present : contest.party? index = some party) :
    contest.parties.set index (some party) = contest.parties := by
  simp only [party?, Option.join_eq_some_iff, List.getElem?_eq_some_iff] at present
  rcases present with ⟨inside, found⟩
  rw [← found, List.set_getElem_self]

theorem owners_set_sublist {actor : Party σ} {next : Option (Party σ)} {later : LeaseRegistry}
    (acts : contest.party? index = some actor)
    (same : ∀ party, next = some party → party.leases.owner = actor.leases.owner) :
    (⟨contest.parties.set index next, later⟩ : Contest σ).owners.Sublist contest.owners := by
  have inside := lt_length_of_party? acts
  simp only [party?, List.getElem?_eq_getElem inside, Option.join_some] at acts
  have split : contest.parties =
      contest.parties.take index ++ some actor :: contest.parties.drop (index + 1) := by
    rw [← acts, List.getElem_cons_drop, List.take_append_drop]
  simp only [owners, List.set_eq_take_cons_drop next inside]
  conv => rhs; rw [split]
  rw [List.filterMap_append, List.filterMap_append]
  refine (List.Sublist.refl _).append ?_
  cases next with
  | none => exact List.sublist_cons_self _ _
  | some party => simp [same party rfl]

theorem accounted_opening : (opening .empty : Contest σ).Accounted := by
  refine ⟨?_, ?_, ?_⟩ <;> simp [opening, party?, LeaseRegistry.empty]

theorem Accounted.revoke (accounted : contest.Accounted) (resource : String) :
    ({ contest with registry := contest.registry.revoke resource } : Contest σ).Accounted := by
  refine ⟨accounted.tidy, ?_, ?_⟩
  · exact fun index party present => (accounted.accounts index party present).revoke resource
  · intro place owner sequence found
    simp only [LeaseRegistry.revoke, Table.get?_erase] at found
    split at found
    · cases found
    · exact accounted.owned place owner sequence found

/-- Somebody comes with a name that nobody has, and so nothing is registered under it. -/
theorem Accounted.come (accounted : contest.Accounted) {new : Party σ} {owner : String}
    (fresh : new.leases = .empty owner)
    (differ : (⟨contest.parties ++ [some new], contest.registry⟩ : Contest σ).owners.Nodup) :
    (⟨contest.parties ++ [some new], contest.registry⟩ : Contest σ).Accounted := by
  refine ⟨?_, ?_, ?_⟩
  · intro index party present
    rcases party?_append_cases present with present | rfl
    · exact accounted.tidy index party present
    · rw [fresh]
      exact LeaseHolder.isTidy_empty
  · intro index party present
    rcases party?_append_cases present with before | rfl
    · exact accounted.accounts index party before
    · -- Whoever has the resource has the same name, and so it is nobody else.
      intro resource sequence found
      rcases accounted.owned resource _ sequence found with ⟨other, rival, before, same⟩
      have alsoPresent := party?_append_of_present before (some party)
      have equal := eq_of_owner_eq differ alsoPresent present same
      subst equal
      rw [present, Option.some.injEq] at alsoPresent
      subst alsoPresent
      exact accounted.accounts other party before resource sequence found
  · intro resource owner sequence found
    rcases accounted.owned resource owner sequence found with ⟨index, party, present, same⟩
    exact ⟨index, party, party?_append_of_present present _, same⟩

/-- Somebody acts, and accounts for what is registered under the name afterwards. -/
theorem Accounted.act (accounted : contest.Accounted) (differ : contest.owners.Nodup)
    {actor : Party σ} {next : Option (Party σ)} {later : LeaseRegistry}
    (acts : contest.party? index = some actor)
    (trades : actor.leases.Trades contest.registry
      ((next.map Party.leases).getD (.empty actor.leases.owner)) later) :
    (⟨contest.parties.set index next, later⟩ : Contest σ).Accounted := by
  have tidy := accounted.tidy index actor acts
  have settled := trades.accounts tidy (accounted.accounts index actor acts)
  have spares := trades.spares tidy
  have inside := lt_length_of_party? acts
  have others : ∀ other party, other ≠ index → contest.party? other = some party →
      party.leases.owner ≠ actor.leases.owner := by
    intro other party different present same
    exact different (eq_of_owner_eq differ present acts same)
  refine ⟨?_, ?_, ?_⟩
  · intro other party present
    rw [party?_set inside] at present
    split at present
    · have kept := trades.tidy tidy
      rwa [present] at kept
    · exact accounted.tidy other party present
  · intro other party present
    rw [party?_set inside] at present
    split at present
    · rwa [present] at settled
    · rename_i different
      exact (accounted.accounts other party present).of_spares
        (others other party different present) spares
  · intro resource owner sequence found
    by_cases own : owner = actor.leases.owner
    · -- Who leaves does not leave anything registered behind.
      cases next with
      | none =>
        rcases settled resource sequence (own ▸ found) with ⟨lease, held, -⟩
        cases held
      | some party =>
        refine ⟨index, party, ?_, trades.owner.trans own.symm⟩
        rw [party?_set inside, if_pos rfl]
    · rcases accounted.owned resource owner sequence ((spares _ _ _ own).1 found) with
        ⟨other, party, present, same⟩
      refine ⟨other, party, ?_, same⟩
      rw [party?_set inside, if_neg, present]
      rintro rfl
      rw [acts, Option.some.injEq] at present
      exact own (present ▸ same.symm)

end Parties

end Contest

/-- A move of somebody who takes part in a contest, or the revocation of a resource. -/
inductive Incident (σ : Type) where
  | moved (move : Move σ)
  | revoked (resource : String)

/-- The owner of whoever comes. -/
def Incident.newcomer? : Incident σ → Option String
  | .moved (.enter owner) => some owner
  | .moved (.employ config) => some config.leaseOwner
  | .moved (.act _ _) => none
  | .revoked _ => none

def Command.play : Command σ := ⟨.play, nofun⟩

namespace Contest

variable [RemoteService σ]

def undergo (contest : Contest σ) : Incident σ → Except Crash (Contest σ)
  | .moved move => contest.step move
  | .revoked resource => .ok { contest with registry := contest.registry.revoke resource }

def undergoAll (contest : Contest σ) (incidents : List (Incident σ)) :
    Except Crash (Contest σ) :=
  incidents.foldlM undergo contest

/-- At every moment those who are present have different owners. -/
def OwnersDiffer (incidents : List (Incident σ)) : Prop :=
  ∀ earlier moment, earlier <+: incidents → (opening .empty).undergoAll earlier = .ok moment →
    moment.owners.Nodup

/-- A move leaves everybody who takes part as they are, and every resource with its holder. -/
def UnmovedBy (contest : Contest σ) (move : Move σ) : Prop :=
  ∃ after, contest.step move = .ok after ∧ after.parties = contest.parties ∧
    ∀ resource, after.registry.holders.get? resource = contest.registry.holders.get? resource

variable {contest after : Contest σ} {incident : Incident σ} {incidents : List (Incident σ)}
  {index : Nat}

theorem Accounted.undergo (accounted : contest.Accounted) (differ : contest.owners.Nodup)
    (happened : contest.undergo incident = .ok after) (stillDiffer : after.owners.Nodup) :
    after.Accounted := by
  cases incident with
  | revoked resource =>
    cases happened
    exact accounted.revoke resource
  | moved move =>
    rcases step_cases happened with rfl | ⟨new, owner, fresh, rfl⟩ |
      ⟨acting, actor, next, acts, trades, same⟩
    · exact accounted
    · exact accounted.come fresh stillDiffer
    · rw [same]
      exact accounted.act differ acts trades

theorem undergoAll_snoc_eq_ok : contest.undergoAll (incidents ++ [incident]) = .ok after ↔
    ∃ middle, contest.undergoAll incidents = .ok middle ∧ middle.undergo incident = .ok after := by
  simp only [undergoAll, List.foldlM_append, List.foldlM_cons, List.foldlM_nil]
  cases List.foldlM undergo contest incidents with
  | ok middle =>
    cases last : middle.undergo incident <;>
      simp [last, bind, Except.bind, pure, Except.pure]
  | error cause => simp [bind, Except.bind]

theorem accounted_undergoAll (differ : OwnersDiffer incidents)
    (happened : (opening .empty).undergoAll incidents = .ok contest) : contest.Accounted := by
  induction incidents using List.reverseRecOn generalizing contest with
  | nil =>
    cases happened
    exact accounted_opening
  | append_singleton incidents incident ih =>
    have before : OwnersDiffer incidents := fun earlier moment first =>
      differ earlier moment (first.trans (List.prefix_append _ _))
    rcases undergoAll_snoc_eq_ok.1 happened with ⟨middle, reached, last⟩
    exact (ih before reached).undergo (before _ _ List.prefix_rfl reached) last
      (differ _ _ List.prefix_rfl happened)

theorem owners_undergo (happened : contest.undergo incident = .ok after) :
    after.owners.Sublist (contest.owners ++ incident.newcomer?.toList) := by
  match incident with
  | .moved (.enter owner) =>
    cases happened
    simp [owners, Incident.newcomer?, Party.leases, LeaseHolder.empty]
  | .moved (.employ config) =>
    cases happened
    simp [owners, Incident.newcomer?, Party.leases, Runner.create, LeaseHolder.empty]
  | .moved (.act index action) =>
    rw [Incident.newcomer?, Option.toList_none, List.append_nil]
    simp only [undergo, step] at happened
    split at happened
    · cases happened
      exact List.Sublist.refl _
    · rename_i actor acts
      simp only [map_eq_ok] at happened
      rcases happened with ⟨⟨next, later⟩, acted, rfl⟩
      refine owners_set_sublist acts ?_
      rintro party rfl
      exact (Party.trades_act acted).owner
  | .revoked resource =>
    cases happened
    simp [Incident.newcomer?, owners]

/-- Who is present has come at some time. -/
theorem owners_sublist (happened : (opening .empty).undergoAll incidents = .ok contest) :
    contest.owners.Sublist (incidents.filterMap Incident.newcomer?) := by
  induction incidents using List.reverseRecOn generalizing contest with
  | nil =>
    cases happened
    exact List.nil_sublist _
  | append_singleton incidents incident ih =>
    rcases undergoAll_snoc_eq_ok.1 happened with ⟨middle, reached, last⟩
    have newcomers : [incident].filterMap Incident.newcomer? = incident.newcomer?.toList := by
      cases found : incident.newcomer? <;> simp [found]
    rw [List.filterMap_append, newcomers]
    exact (owners_undergo last).trans ((ih reached).append (List.Sublist.refl _))

/-- Owners always differ if no name comes twice. -/
theorem ownersDiffer_of_nodup (differ : (incidents.filterMap Incident.newcomer?).Nodup) :
    OwnersDiffer incidents :=
  fun _ _ first reached =>
    (owners_sublist reached).nodup ((first.sublist.filterMap _).nodup differ)

theorem unmovedBy_acquire {holder : LeaseHolder} {required : List String} {cause : LeaseError}
    (accounted : contest.Accounted) (present : contest.party? index = some (.single holder))
    (denied : (holder.acquireAll contest.registry required).1 = .error cause) :
    contest.UnmovedBy (.act index (.acquire required)) := by
  rcases refused : holder.acquireAll contest.registry required with ⟨outcome, later⟩
  obtain rfl : outcome = .error cause := by simpa [refused] using denied
  refine ⟨⟨contest.parties, later⟩, ?_, rfl, ?_⟩
  · simp only [step, present, Party.act, refused, Except.map, set_of_party? present]
  · exact (accounted.accounts index _ present).get?_of_refused refused

theorem unmovedBy_play {runner : Runner σ} {now : Duration} {cause : MissionError}
    (accounted : contest.Accounted) (present : contest.party? index = some (.mission runner))
    (denied : (runner.play now contest.registry).1 = .error cause) :
    contest.UnmovedBy (.act index (.follow now .play)) := by
  rcases refused : runner.play now contest.registry with ⟨outcome, later⟩
  obtain rfl : outcome = .error cause := by simpa [refused] using denied
  refine ⟨⟨contest.parties, later⟩, ?_, rfl, ?_⟩
  · simp only [step, present, Party.act, Command.play, Site.perform, refused, Except.map,
      set_of_party? present]
  · rcases Runner.play_eq_error refused with rfl | ⟨tree, cause, -, denied⟩
    · exact fun _ => rfl
    · exact (accounted.accounts index _ present).get?_of_refused denied

/-- An acquisition gives everything that is required. Or it is refused because another owner has
something that is missing, and nothing changes, and neither does it when a mission cannot be
played. -/
theorem acquires_all_or_nothing (incidents : List (Incident σ))
    (differ : OwnersDiffer incidents) :
    match (opening .empty).undergoAll incidents with
    | .error _ => True
    | .ok contest =>
      (∀ index party required, contest.party? index = some party →
        match party.leases.acquireAll contest.registry required with
        | (.ok next, _) => ∀ resource ∈ required, next.isHeld resource = true
        | (.error _, later) =>
          (∃ resource ∈ party.leases.missing required,
            ¬ contest.registry.Concedes party.leases.owner resource) ∧
          ∀ resource,
            later.holders.get? resource = contest.registry.holders.get? resource) ∧
      (∀ index holder required cause, contest.party? index = some (.single holder) →
        (holder.acquireAll contest.registry required).1 = .error cause →
        contest.UnmovedBy (.act index (.acquire required))) ∧
      ∀ index runner now cause, contest.party? index = some (.mission runner) →
        (runner.play now contest.registry).1 = .error cause →
        contest.UnmovedBy (.act index (.follow now .play)) := by
  cases happened : (opening .empty : Contest σ).undergoAll incidents with
  | error cause => trivial
  | ok contest =>
    have accounted := accounted_undergoAll differ happened
    refine ⟨?_, ?_, ?_⟩
    · intro index party required present
      rcases asked : party.leases.acquireAll contest.registry required with
        ⟨cause | next, later⟩
      · have refused : ¬ ∃ next,
            (party.leases.acquireAll contest.registry required).1 = .ok next := by simp [asked]
        rw [LeaseHolder.acquireAll_granted_iff] at refused
        push Not at refused
        exact ⟨refused, (accounted.accounts index party present).get?_of_refused asked⟩
      · exact fun resource needed =>
          LeaseHolder.isHeld_of_acquireAll LeaseRegistry.namesResources asked needed
    · exact fun index holder required cause present denied =>
        unmovedBy_acquire accounted present denied
    · exact fun index runner now cause present denied => unmovedBy_play accounted present denied

/-- A robot takes pictures on its way. -/
def survey : MissionSource :=
  ⟨[⟨"main", [], .node "NavigateRoute" none
    [⟨.input, "waypoint_ids", .constant (.string "hall,dock")⟩,
      ⟨.input, "leases", .constant (.string "body,ptz")⟩] []⟩]⟩

set_option maxRecDepth 100000 in
def surveyTree : AcceptedTree where
  source := survey
  tree := (Tree.ofSource survey).toOption.getD default
  accepted := by cbv

/-- An operator holds the camera. The body of the robot, which is revoked, is free. -/
def occupation : List (Incident ScriptedService) :=
  [.moved (.enter "operator"), .moved (.enter "guest"), .moved (.employ .standard),
    .moved (.act 0 (.acquire ["body", "ptz"])), .revoked "body",
    .moved (.act 2 (.follow .zero ⟨.load surveyTree, nofun⟩))]

def afterOccupation : Contest ScriptedService :=
  ((opening .empty).undergoAll occupation).toOption.getD (opening .empty)

/-- The mission that waits for the robot. -/
def surveyor : Runner ScriptedService :=
  ((Runner.create .standard .empty).load afterOccupation.registry surveyTree.tree).1

set_option maxRecDepth 100000 in
/-- The guest and the mission are given the body before the camera is refused. -/
theorem unmovedBy_after_occupation :
    (opening .empty).undergoAll occupation = .ok afterOccupation ∧ OwnersDiffer occupation ∧
      (LeaseHolder.request "guest" afterOccupation.registry ["body", "ptz"]).1.1 =
        [⟨"body", "guest", 3⟩] ∧
      afterOccupation.UnmovedBy (.act 1 (.acquire ["body", "ptz"])) ∧
      afterOccupation.UnmovedBy (.act 2 (.follow .zero .play)) := by
  have differ : OwnersDiffer occupation := ownersDiffer_of_nodup (by decide)
  -- One evaluation of the contest shows everything.
  obtain ⟨happened, given, guest, refused, mission, waits⟩ :
      (opening .empty).undergoAll occupation = .ok afterOccupation ∧
        (LeaseHolder.request "guest" afterOccupation.registry ["body", "ptz"]).1.1 =
          [⟨"body", "guest", 3⟩] ∧
        afterOccupation.party? 1 = some (.single (.empty "guest")) ∧
        ((LeaseHolder.empty "guest").acquireAll afterOccupation.registry ["body", "ptz"]).1 =
          .error (.unavailable "ptz" "operator") ∧
        afterOccupation.party? 2 = some (.mission surveyor) ∧
        (surveyor.play .zero afterOccupation.registry).1 =
          .error (.lease (.unavailable "ptz" "operator")) := by
    cbv
  have nothing := acquires_all_or_nothing occupation differ
  rw [happened] at nothing
  exact ⟨happened, differ, given, nothing.2.1 1 _ _ _ guest refused,
    nothing.2.2 2 _ .zero _ mission waits⟩

end Contest

end BehaviorTree
