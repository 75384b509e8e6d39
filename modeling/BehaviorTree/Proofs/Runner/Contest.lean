import BehaviorTree.Proofs.Lease.Registry
import BehaviorTree.Proofs.Runner.Leases
import BehaviorTree.Remote.Script

/-!
# Contests for leases

Any number of holders and runners share one registry of leases. They come and go, and take turns in
any order. The registry knows them by the names of their owners only: those who use the same name
are given the same resource, and all others never hold a resource together.
-/

namespace BehaviorTree

/-- Somebody who holds leases. -/
inductive Party (σ : Type) where
  | single (holder : LeaseHolder)
  | mission (runner : Runner σ)

/-- What a runner is told to do, other than by those who change its provider. -/
structure Command (σ : Type) where
  operation : Operation σ LeaseRegistry
  own : ∀ change, operation ≠ .compete change

/-- What a party does: a holder acquires, renews or releases, and a runner follows commands. -/
inductive Action (σ : Type) where
  | acquire (required : List String)
  | renew
  | release
  | follow (now : Duration) (command : Command σ)
  | leave

/-- What happens in a contest. -/
inductive Move (σ : Type) where
  | enter (owner : String)
  | employ (config : MissionConfig)
  | act (index : Nat) (action : Action σ)

/-- Those who take part, in the order in which they came, and the registry that they share. -/
structure Contest (σ : Type) where
  /-- Who has left is none. -/
  parties : List (Option (Party σ))
  registry : LeaseRegistry

variable {σ : Type}

namespace Party

def leases : Party σ → LeaseHolder
  | .single holder => holder
  | .mission runner => runner.leases

variable [RemoteService σ]

/-- The party after an action, unless it leaves. What a party cannot do changes nothing. -/
def act (party : Party σ) (registry : LeaseRegistry) (action : Action σ) :
    Except Crash (Option (Party σ) × LeaseRegistry) :=
  match party, action with
  | .single holder, .acquire required =>
    match holder.acquireAll registry required with
    | (.ok next, later) => .ok (some (.single next), later)
    | (.error _, later) => .ok (some party, later)
  | .single holder, .renew =>
    let (_, next, later) := holder.retainAll registry
    .ok (some (.single next), later)
  | .single holder, .release =>
    let (next, later) := holder.releaseAll registry
    .ok (some (.single next), later)
  | .single holder, .leave => .ok (none, (holder.releaseAll registry).2)
  | .mission runner, .follow now command =>
    ((⟨runner, registry⟩ : Site σ LeaseRegistry).perform now command.operation).map fun site =>
      (some (.mission site.runner), site.provider)
  | .mission runner, .leave => .ok (none, (runner.close registry).2)
  | _, _ => .ok (some party, registry)

end Party

namespace Contest

def opening (registry : LeaseRegistry) : Contest σ := ⟨[], registry⟩

def party? (contest : Contest σ) (index : Nat) : Option (Party σ) := contest.parties[index]?.join

def Holds (contest : Contest σ) (index : Nat) (resource : String) : Prop :=
  ∃ party, contest.party? index = some party ∧ party.leases.isHeld resource = true

/-- A party has the same owner as another one. -/
def SharesName (contest : Contest σ) (index : Nat) : Prop :=
  ∃ party other rival, contest.party? index = some party ∧ other ≠ index ∧
    contest.party? other = some rival ∧ rival.leases.owner = party.leases.owner

variable [RemoteService σ]

def step (contest : Contest σ) : Move σ → Except Crash (Contest σ)
  | .enter owner =>
    .ok { contest with parties := contest.parties ++ [some (.single (.empty owner))] }
  | .employ config =>
    .ok { contest with parties := contest.parties ++ [some (.mission (.create config .empty))] }
  | .act index action =>
    match contest.party? index with
    | none => .ok contest
    | some party => (party.act contest.registry action).map fun (party, registry) =>
        ⟨contest.parties.set index party, registry⟩

def follow (contest : Contest σ) (moves : List (Move σ)) : Except Crash (Contest σ) :=
  moves.foldlM step contest

end Contest

section Actions

variable [RemoteService σ] {registry later : LeaseRegistry}

omit [RemoteService σ] in
/-- Without others, a runner does with its leases what a holder may do. -/
theorem Site.Leasing.trades {site after : Site σ LeaseRegistry}
    {operation : Operation σ LeaseRegistry} (leasing : site.Leasing operation after)
    (own : ∀ change, operation ≠ .compete change) :
    site.runner.leases.Trades site.provider after.runner.leases after.provider := by
  cases leasing with
  | kept leases provider plays quiet =>
    rw [leases, provider]
    exact .refl
  | competed change => exact absurd rfl (own change)
  | released released notPlaying =>
    rw [Prod.mk.injEq] at released
    rw [released.1, released.2]
    exact LeaseHolder.trades_releaseAll
  | @acquired tree after waiting loaded same granted =>
    have trades := site.runner.leases.trades_acquireAll site.provider tree.leaseResources
    rwa [granted] at trades
  | @refused tree cause later waiting denied =>
    have trades := site.runner.leases.trades_acquireAll site.provider tree.leaseResources
    rwa [denied] at trades
  | renewed playing renewed tree =>
    rw [Prod.mk.injEq] at renewed
    rw [renewed.1, renewed.2]
    exact LeaseHolder.trades_retainAll
  | ended renewed released notPlaying =>
    rw [Prod.mk.injEq] at renewed released
    rw [released.1, released.2, renewed.1, renewed.2]
    exact LeaseHolder.trades_retainAll.trans LeaseHolder.trades_releaseAll

/-- Whatever a party does, it trades with the registry. Who leaves keeps nothing. -/
theorem Party.trades_act {party : Party σ} {action : Action σ} {next : Option (Party σ)}
    (acted : party.act registry action = .ok (next, later)) :
    party.leases.Trades registry
      ((next.map Party.leases).getD (.empty party.leases.owner)) later := by
  simp only [act] at acted
  split at acted
  · rename_i holder required
    have trades := holder.trades_acquireAll registry required
    split at acted
    · rename_i granted
      cases acted
      rwa [granted] at trades
    · rename_i denied
      cases acted
      rwa [denied] at trades
  · cases acted
    exact LeaseHolder.trades_retainAll
  · cases acted
    exact LeaseHolder.trades_releaseAll
  · cases acted
    exact LeaseHolder.trades_releaseAll
  · rename_i runner now command
    simp only [map_eq_ok, Prod.mk.injEq] at acted
    rcases acted with ⟨site, performed, rfl, rfl⟩
    exact (Site.leasing_perform performed).trades command.own
  · cases acted
    exact LeaseHolder.trades_releaseAll
  · cases acted
    exact .refl

end Actions

namespace Contest

section Parties

variable {contest : Contest σ} {index other : Nat} {party next : Option (Party σ)}

theorem party?_append_cases {new found : Party σ} {registry : LeaseRegistry}
    (listed : (⟨contest.parties ++ [some new], registry⟩ : Contest σ).party? index = some found) :
    contest.party? index = some found ∨ found = new := by
  simp only [party?] at listed ⊢
  rcases Nat.lt_trichotomy index contest.parties.length with inside | same | outside
  · rw [List.getElem?_append_left inside] at listed
    exact Or.inl listed
  · subst same
    simp only [List.getElem?_concat_length, Option.join_some, Option.some.injEq] at listed
    exact Or.inr listed.symm
  · rw [List.getElem?_eq_none (by simp; omega)] at listed
    cases listed

theorem lt_length_of_party? {found : Party σ} (listed : contest.party? index = some found) :
    index < contest.parties.length := by
  by_contra outside
  rw [party?, List.getElem?_eq_none (by omega)] at listed
  cases listed

theorem party?_set {registry : LeaseRegistry} (inside : index < contest.parties.length) :
    (⟨contest.parties.set index next, registry⟩ : Contest σ).party? other =
      if other = index then next else contest.party? other := by
  by_cases same : other = index
  · simp [party?, same, inside]
  · simp [party?, same, List.getElem?_set_ne fun equal => same equal.symm]

end Parties

variable [RemoteService σ] {registry : LeaseRegistry} {contest after : Contest σ}
  {move : Move σ} {moves : List (Move σ)} {index : Nat} {party : Party σ}

/-- A move changes nothing, or somebody comes with nothing, or one party acts. -/
theorem step_cases (stepped : contest.step move = .ok after) :
    after = contest ∨
    (∃ new owner, new.leases = .empty owner ∧
      after = { contest with parties := contest.parties ++ [some new] }) ∨
    ∃ index actor next, contest.party? index = some actor ∧
      actor.leases.Trades contest.registry
        ((next.map Party.leases).getD (.empty actor.leases.owner)) after.registry ∧
      after = ⟨contest.parties.set index next, after.registry⟩ := by
  cases move with
  | enter owner =>
    cases stepped
    exact Or.inr (Or.inl ⟨.single (.empty owner), owner, rfl, rfl⟩)
  | employ config =>
    cases stepped
    exact Or.inr (Or.inl ⟨.mission (.create config .empty), config.leaseOwner, rfl, rfl⟩)
  | act index action =>
    simp only [step] at stepped
    split at stepped
    · cases stepped
      exact Or.inl rfl
    · rename_i actor present
      simp only [map_eq_ok] at stepped
      rcases stepped with ⟨⟨next, later⟩, acted, rfl⟩
      exact Or.inr (Or.inr ⟨index, actor, next, present, Party.trades_act acted, rfl⟩)

theorem follow_snoc_eq_ok : contest.follow (moves ++ [move]) = .ok after ↔
    ∃ middle, contest.follow moves = .ok middle ∧ middle.step move = .ok after := by
  simp only [follow, List.foldlM_append, List.foldlM_cons, List.foldlM_nil]
  cases List.foldlM step contest moves with
  | ok middle => simp [bind, Except.bind, pure, Except.pure]; cases middle.step move <;> simp
  | error cause => simp [bind, Except.bind]

theorem tidy_follow (followed : (opening registry).follow moves = .ok contest)
    (present : contest.party? index = some party) : party.leases.IsTidy := by
  induction moves using List.reverseRecOn generalizing contest index party with
  | nil =>
    cases followed
    simp [party?, opening] at present
  | append_singleton moves move ih =>
    rcases follow_snoc_eq_ok.1 followed with ⟨before, reached, stepped⟩
    rcases step_cases stepped with rfl | ⟨new, owner, fresh, rfl⟩ |
      ⟨acting, actor, next, acts, trades, same⟩
    · exact ih reached present
    · rcases party?_append_cases present with present | rfl
      · exact ih reached present
      · rw [fresh]
        exact LeaseHolder.isTidy_empty
    · rw [same, party?_set (lt_length_of_party? acts)] at present
      split at present
      · have tidy := trades.tidy (ih reached acts)
        rwa [present] at tidy
      · exact ih reached present

/-- At some moment a party had the same owner as another one. -/
def HasShared (registry : LeaseRegistry) (moves : List (Move σ)) (index : Nat) : Prop :=
  ∃ earlier later moment, moves = earlier ++ later ∧
    (opening registry).follow earlier = .ok moment ∧ moment.SharesName index

/-- All leases of a party are good if it never had the same owner as another one. -/
theorem isGood_of_not_hasShared (followed : (opening registry).follow moves = .ok contest)
    (present : contest.party? index = some party) (alone : ¬ HasShared registry moves index) :
    party.leases.IsGood contest.registry := by
  induction moves using List.reverseRecOn generalizing contest party with
  | nil =>
    cases followed
    simp [party?, opening] at present
  | append_singleton moves move ih =>
    rcases follow_snoc_eq_ok.1 followed with ⟨before, reached, stepped⟩
    have still : ¬ HasShared registry moves index := by
      rintro ⟨earlier, later, moment, rfl, met, shares⟩
      exact alone ⟨earlier, later ++ [move], moment, by simp, met, shares⟩
    have goodBefore : ∀ {party}, before.party? index = some party →
        party.leases.IsGood before.registry := fun present => ih reached present still
    rcases step_cases stepped with rfl | ⟨new, owner, fresh, rfl⟩ |
      ⟨acting, actor, next, acts, trades, same⟩
    · exact goodBefore present
    · rcases party?_append_cases present with present | rfl
      · exact goodBefore present
      · rw [fresh]
        exact LeaseHolder.isGood_empty
    · rw [same, party?_set (lt_length_of_party? acts)] at present
      split at present
      · rename_i self
        subst self
        have good := trades.good (tidy_follow reached acts) (goodBefore acts)
        rwa [present] at good
      · rename_i different
        have apart : party.leases.owner ≠ actor.leases.owner := by
          intro sameName
          exact alone ⟨moves, [move], before, rfl, reached, party, acting, actor, present,
            fun equal => different equal.symm, acts, sameName.symm⟩
        exact (goodBefore present).of_spares apart (trades.spares (tidy_follow reached acts))

/-- Two parties never hold a resource at the same time, unless one of them had the same owner as
another party at some moment. -/
theorem held_apart_unless_name_shared (registry : LeaseRegistry) (moves : List (Move σ)) :
    match (opening registry).follow moves with
    | .error _ => True
    | .ok contest => ∀ first second resource, first ≠ second → contest.Holds first resource →
        contest.Holds second resource →
        HasShared registry moves first ∨ HasShared registry moves second := by
  cases followed : (opening registry).follow moves with
  | error cause => trivial
  | ok contest =>
    rintro first second resource different ⟨one, isOne, held⟩ ⟨two, isTwo, alsoHeld⟩
    by_contra apart
    rw [not_or] at apart
    rcases LeaseHolder.isHeld_iff.1 held with ⟨lease, filed⟩
    rcases LeaseHolder.isHeld_iff.1 alsoHeld with ⟨rival, alsoFiled⟩
    have good := isGood_of_not_hasShared followed isOne apart.1 resource lease filed
    have alsoGood := isGood_of_not_hasShared followed isTwo apart.2 resource rival alsoFiled
    rw [good, Option.some.injEq, Prod.mk.injEq] at alsoGood
    exact apart.1 ⟨moves, [], contest, by simp, followed, one, second, two, isOne,
      different.symm, isTwo, alsoGood.1.symm⟩

/-- A holder with the same owner as the one to whom a resource was given is given it, too. Nobody who
holds the resource loses it. -/
theorem holds_of_shared_name {holder : LeaseHolder} {first second : Nat} {resource : String}
    (apart : first ≠ second) (holds : contest.Holds first resource)
    (present : contest.party? second = some (.single holder))
    (given : contest.registry.holder? resource = some holder.owner) :
    ∃ after, contest.step (.act second (.acquire [resource])) = .ok after ∧
      after.Holds first resource ∧ after.Holds second resource := by
  have concedes : ∀ needed ∈ holder.missing [resource],
      contest.registry.Concedes holder.owner needed := by
    intro needed missing other sequence registered
    obtain rfl := List.mem_singleton.1 (LeaseHolder.mem_missing.1 missing).1
    rw [LeaseRegistry.holder?, registered] at given
    exact Option.some.inj given
  rcases LeaseHolder.acquireAll_granted_iff.2 concedes with ⟨next, granted⟩
  rcases acquired : holder.acquireAll contest.registry [resource] with ⟨result, later⟩
  rw [acquired] at granted
  cases granted
  have inside := lt_length_of_party? present
  refine ⟨⟨contest.parties.set second (some (.single next)), later⟩, ?_, ?_, ?_⟩
  · simp only [step, present, Party.act, acquired]
    rfl
  · rcases holds with ⟨party, isParty, held⟩
    exact ⟨party, by rw [party?_set inside, if_neg apart, isParty], held⟩
  · refine ⟨.single next, by rw [party?_set inside, if_pos rfl], ?_⟩
    exact LeaseHolder.isHeld_of_acquireAll LeaseRegistry.namesResources acquired
      (List.mem_singleton_self resource)

/-- Two holders that call themselves as runners do by default, and the second one acquires what the
first one holds. -/
def sharing : List (Move ScriptedService) :=
  [.enter MissionConfig.standard.leaseOwner, .enter MissionConfig.standard.leaseOwner,
    .act 0 (.acquire ["body"]), .act 1 (.acquire ["body"])]

theorem held_together :
    ∃ contest : Contest ScriptedService, (opening .empty).follow sharing = .ok contest ∧
      contest.Holds 0 "body" ∧ contest.Holds 1 "body" := by
  refine ⟨_, rfl, ⟨_, rfl, ?_⟩, ⟨_, rfl, ?_⟩⟩ <;> decide

end Contest

end BehaviorTree
