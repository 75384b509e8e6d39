import BehaviorTree.Proofs.Engine.RemoteReply

/-!
# Accounts of retries

What happens to a remote node is kept in a log, the latest event in front. The log says how many
requests the node tried in vain in its current activation, and how many polls of its current request
were lost in a row. The counters of the node say the same, although they are kept otherwise: a
request is counted when it is made, and no longer when a stop gives it up.
-/

namespace BehaviorTree

/-- What happens to a remote node. -/
inductive RemoteEvent where
  /-- The node was halted, or the mission was started over. -/
  | ended
  /-- The mission was stopped, which gives up the request of the node. -/
  | stopped
  | turned (reply : RemoteReply) (visit : Visit)

namespace RemoteEvent

/-- An activation is over when its node is, or when the node is not running after its turn. -/
def endsActivation : RemoteEvent → Bool
  | ended => true
  | stopped => false
  | turned _ visit => visit.status ≠ .running

def isFailedTry : RemoteEvent → Bool
  | turned reply _ => reply.isFailedTry
  | _ => false

def isLostPoll : RemoteEvent → Bool
  | turned reply _ => reply = .unreachable
  | _ => false

end RemoteEvent

/-- The events of a node, the latest in front. -/
abbrev RemoteLog := List RemoteEvent

namespace RemoteLog

/-- The events of the activation that goes on at the end of a log. -/
def ongoing (log : RemoteLog) : RemoteLog := log.takeWhile fun event => !event.endsActivation

/-- How many requests could not be made or took too long. -/
def failedTries (log : RemoteLog) : Nat := log.countP RemoteEvent.isFailedTry

/-- How many polls were lost in a row, up to the last event. A stop ends the row, for the next poll
is one of another request. -/
def lostPolls (log : RemoteLog) : Nat := (log.takeWhile RemoteEvent.isLostPoll).length

variable {reply : RemoteReply} {visit : Visit} {log : RemoteLog}

theorem ongoing_turned : ongoing (.turned reply visit :: log) =
    if visit.status = .running then .turned reply visit :: ongoing log else [] := by
  by_cases running : visit.status = .running <;>
    simp [ongoing, RemoteEvent.endsActivation, running]

theorem failedTries_turned : failedTries (.turned reply visit :: log) =
    failedTries log + if reply.isFailedTry then 1 else 0 := by
  simp only [failedTries, List.countP_cons]
  rfl

theorem lostPolls_turned : lostPolls (.turned reply visit :: log) =
    if reply = .unreachable then lostPolls log + 1 else 0 := by
  by_cases lost : reply = .unreachable <;>
    simp [lostPolls, RemoteEvent.isLostPoll, lost]

end RemoteLog

/-- The node failed because it tried as often as it may. -/
def Visit.GaveUp (visit : Visit) : Prop :=
  ∃ error attempts, visit.cause = some (.remoteCall error attempts)

/-- What a node reports that comes to a result. -/
def Visit.ofResult (key : RunKey) : Except TickError Status → Visit
  | .ok status => ⟨key, status, none⟩
  | .error cause => ⟨key, .failure, some cause⟩

theorem Visit.not_gaveUp_of_ok (key : RunKey) {status : Status} :
    ¬ (Visit.ofResult key (.ok status)).GaveUp := by
  rintro ⟨error, attempts, ⟨⟩⟩

/-- On its turn a node gives up exactly if the events of its activation, with the turn as the last
one, are as many failures as it may have. -/
structure RemoteLog.Warrants (retry : RetryPolicy) (reply : RemoteReply) (visit : Visit)
    (activation : RemoteLog) : Prop where
  starting : visit.GaveUp ∧ reply.isFailedTry = true ↔
    activation.failedTries = max 1 retry.start.toNat
  polling : visit.GaveUp ∧ reply = .unreachable ↔ activation.lostPolls = max 1 retry.poll.toNat
  /-- There is no other reason to give up, and the failures are reported as they are. -/
  attempts : ∀ error attempts, visit.cause = some (.remoteCall error attempts) →
    reply.isFailedTry = true ∧ attempts = activation.failedTries ∨
      reply = .unreachable ∧ attempts = activation.lostPolls

/-- A node that did not give up still has failures left. -/
theorem RemoteLog.Warrants.of_calm {retry : RetryPolicy} {reply : RemoteReply} {visit : Visit}
    {activation : RemoteLog} (calm : ¬ visit.GaveUp)
    (tries : activation.failedTries < max 1 retry.start.toNat)
    (polls : activation.lostPolls < max 1 retry.poll.toNat) :
    Warrants retry reply visit activation :=
  ⟨⟨fun gaveUp => absurd gaveUp.1 calm, fun most => absurd most tries.ne⟩,
    ⟨fun gaveUp => absurd gaveUp.1 calm, fun most => absurd most polls.ne⟩,
    fun error attempts gaveUp => absurd ⟨error, attempts, gaveUp⟩ calm⟩

/-- All turns in a log are warranted by what happened before in the same activation. -/
def RemoteLog.IsExact (retry : RetryPolicy) (log : RemoteLog) : Prop :=
  ∀ reply visit earlier, .turned reply visit :: earlier <:+ log →
    Warrants retry reply visit (.turned reply visit :: RemoteLog.ongoing earlier)

namespace RemoteRun

/-- What a node remembers agrees with the events of its activation, after which it may try again:
the requests that were made are those tried in vain and the one that the node has. -/
structure Tallies (run : RemoteRun) (retry : RetryPolicy) (activation : RemoteLog) : Prop where
  starts : run.starts = activation.failedTries + if run.call.isSome then 1 else 0
  held : run.call.isSome → run.pollFailures = activation.lostPolls
  idle : run.call = none → activation.lostPolls = 0
  triesLeft : activation.failedTries < max 1 retry.start.toNat
  pollsLeft : activation.lostPolls < max 1 retry.poll.toNat

variable {run after : RemoteRun} {retry : RetryPolicy} {activation : RemoteLog}
  {reply : RemoteReply} {result : Except TickError Status}

/-- A node that begins remembers nothing. -/
theorem tallies_initial (retry : RetryPolicy) : RemoteRun.initial.Tallies retry [] := by
  refine ⟨rfl, (fun none => by cases none), fun _ => rfl, ?_, ?_⟩
  · exact Nat.lt_of_lt_of_le Nat.zero_lt_one (Nat.le_max_left _ _)
  · exact Nat.lt_of_lt_of_le Nat.zero_lt_one (Nat.le_max_left _ _)

theorem Tallies.tries_eq (tallies : run.Tallies retry activation) :
    run.tries = activation.failedTries + 1 := by
  have starts := tallies.starts
  cases held : run.call <;> simpa [tries, held] using starts

theorem Tallies.losses_eq (tallies : run.Tallies retry activation) :
    run.losses = activation.lostPolls := by
  cases held : run.call with
  | none => simp [losses, held, tallies.idle held]
  | some call => simpa [losses, held] using tallies.held (by simp [held])

variable {error : RemoteError} {key : RunKey}

theorem Tallies.triedInVain (tallies : run.Tallies retry activation)
    (failed : reply.isFailedTry = true) (idle : after.call = none)
    (starts : after.starts = run.tries) (more : run.tries < retry.start.toNat) (visit : Visit) :
    after.Tallies retry (.turned reply visit :: activation) := by
  have pollsLeft := tallies.pollsLeft
  have asked : reply ≠ .unreachable := by
    rintro rfl
    cases failed
  simp only [tallies.tries_eq] at starts more
  refine ⟨?_, ?_, ?_, ?_, ?_⟩
  · simp [RemoteLog.failedTries_turned, failed, starts, idle]
  · simp [idle]
  · simp [RemoteLog.lostPolls_turned, asked]
  · simp only [RemoteLog.failedTries_turned, failed, ↓reduceIte]
    omega
  · simp only [RemoteLog.lostPolls_turned, asked, ↓reduceIte]
    omega

theorem Tallies.lost (tallies : run.Tallies retry activation) (holds : after.call.isSome)
    (starts : after.starts = run.tries) (losses : after.pollFailures = run.losses + 1)
    (more : run.losses + 1 < retry.poll.toNat) (visit : Visit) :
    after.Tallies retry (.turned .unreachable visit :: activation) := by
  have triesLeft := tallies.triesLeft
  simp only [tallies.tries_eq] at starts
  simp only [tallies.losses_eq] at losses more
  refine ⟨?_, ?_, ?_, triesLeft, ?_⟩
  · simp [RemoteLog.failedTries_turned, RemoteReply.isFailedTry, starts, holds]
  · simp [RemoteLog.lostPolls_turned, losses]
  · exact fun idle => by simp [idle] at holds
  · simp only [RemoteLog.lostPolls_turned, ↓reduceIte]
    omega

theorem Tallies.answered (tallies : run.Tallies retry activation) (holds : after.call.isSome)
    (starts : after.starts = run.tries) (losses : after.pollFailures = 0) (visit : Visit) :
    after.Tallies retry (.turned .answered visit :: activation) := by
  have pollsLeft := tallies.pollsLeft
  simp only [tallies.tries_eq] at starts
  refine ⟨?_, fun _ => losses, fun _ => rfl, tallies.triesLeft, ?_⟩
  · simp [RemoteLog.failedTries_turned, RemoteReply.isFailedTry, starts, holds]
  · exact Nat.zero_lt_of_lt pollsLeft

/-- A node that gives up after a request that was tried in vain had one try left. -/
theorem Tallies.warrants_last_try (tallies : run.Tallies retry activation)
    (failed : reply.isFailedTry = true) (enough : ¬ run.tries < retry.start.toNat) :
    RemoteLog.Warrants retry reply (.ofResult key (.error (.remoteCall error run.tries)))
      (.turned reply (.ofResult key (.error (.remoteCall error run.tries))) :: activation) := by
  have triesLeft := tallies.triesLeft
  have asked : reply ≠ .unreachable := by
    rintro rfl
    cases failed
  simp only [tallies.tries_eq] at enough ⊢
  refine ⟨?_, ?_, ?_⟩
  · simp only [RemoteLog.failedTries_turned, failed, ↓reduceIte, and_true]
    exact ⟨fun _ => by omega, fun _ => ⟨error, _, rfl⟩⟩
  · simp only [RemoteLog.lostPolls_turned, asked, ↓reduceIte, and_false, false_iff]
    omega
  · rintro _ _ ⟨⟩
    simp [RemoteLog.failedTries_turned, failed]

/-- A node that gives up after a poll that was lost could lose one more. -/
theorem Tallies.warrants_last_poll (tallies : run.Tallies retry activation)
    (enough : ¬ run.losses + 1 < retry.poll.toNat) :
    RemoteLog.Warrants retry .unreachable
      (.ofResult key (.error (.remoteCall error (run.losses + 1))))
      (.turned .unreachable (.ofResult key (.error (.remoteCall error (run.losses + 1)))) ::
        activation) := by
  have triesLeft := tallies.triesLeft
  have pollsLeft := tallies.pollsLeft
  simp only [tallies.losses_eq] at enough ⊢
  refine ⟨?_, ?_, ?_⟩
  · simp only [RemoteLog.failedTries_turned, RemoteReply.isFailedTry, Bool.false_eq_true,
      ↓reduceIte, and_false, false_iff]
    omega
  · simp only [RemoteLog.lostPolls_turned, ↓reduceIte, and_true]
    exact ⟨fun _ => by omega, fun _ => ⟨error, _, rfl⟩⟩
  · rintro _ _ ⟨⟩
    simp [RemoteLog.lostPolls_turned]

/-- A node that is over for another reason had failures left. -/
theorem Tallies.warrants_end (tallies : run.Tallies retry activation)
    (blameless : reply = .unasked ∨ reply = .answered)
    (other : ∀ error attempts, result ≠ .error (.remoteCall error attempts)) :
    RemoteLog.Warrants retry reply (.ofResult key result)
      (.turned reply (.ofResult key result) :: activation) := by
  have calm : ¬ (Visit.ofResult key result).GaveUp := by
    rintro ⟨error, attempts, gaveUp⟩
    cases result with
    | ok status => cases gaveUp
    | error cause =>
      cases gaveUp
      exact other error attempts rfl
  refine .of_calm calm ?_ ?_
  · rcases blameless with rfl | rfl <;> exact tallies.triesLeft
  · rcases blameless with rfl | rfl <;> exact Nat.zero_lt_of_lt tallies.pollsLeft

/-- A turn of a node is warranted, and a node that is running afterwards has kept account of it. -/
theorem Tallies.turned (tallies : run.Tallies retry activation)
    (meets : run.Meets retry reply result after) (key : RunKey) :
    let turn : RemoteEvent := .turned reply (.ofResult key result)
    RemoteLog.Warrants retry reply (.ofResult key result) (turn :: activation) ∧
      (result = .ok .running → after.Tallies retry (turn :: activation)) := by
  -- A node that is running has failures left, so it suffices that it kept account.
  have running : ∀ {visit}, visit = Visit.ofResult key (.ok .running) →
      after.Tallies retry (.turned reply visit :: activation) →
      RemoteLog.Warrants retry reply visit (.turned reply visit :: activation) := by
    rintro _ rfl kept
    exact .of_calm (Visit.not_gaveUp_of_ok key) kept.triesLeft kept.pollsLeft
  dsimp only
  cases meets with
  | triedInVain error failed idle starts =>
    simp only [tryAgain]
    split
    · rename_i more
      have kept := tallies.triedInVain failed idle starts more
      exact ⟨running rfl (kept _), fun _ => kept _⟩
    · rename_i enough
      exact ⟨tallies.warrants_last_try failed enough, by simp⟩
  | lost error holds starts losses =>
    simp only [tryAgain]
    split
    · rename_i more
      have kept := tallies.lost holds starts losses more
      exact ⟨running rfl (kept _), fun _ => kept _⟩
    · rename_i enough
      exact ⟨tallies.warrants_last_poll enough, by simp⟩
  | goesOn holds starts losses =>
    have kept := tallies.answered holds starts losses
    exact ⟨running rfl (kept _), fun _ => kept _⟩
  | finished blameless ended other =>
    exact ⟨tallies.warrants_end blameless other, fun isRunning => absurd isRunning ended⟩

/-- A request that a stop gives up does not count. -/
theorem Tallies.detached (tallies : run.Tallies retry activation)
    (detached : (RunState.remote run).detach = .remote after) :
    after.Tallies retry (.stopped :: activation) := by
  have starts := tallies.starts
  have pollsLeft : RemoteLog.lostPolls (.stopped :: activation) < max 1 retry.poll.toNat :=
    Nat.zero_lt_of_lt tallies.pollsLeft
  cases held : run.call with
  | none =>
    simp only [RunState.detach, held, RunState.remote.injEq] at detached
    subst detached
    exact ⟨starts, by simp [held], fun _ => rfl, tallies.triesLeft, pollsLeft⟩
  | some call =>
    simp only [RunState.detach, held, RunState.remote.injEq] at detached
    subst detached
    refine ⟨?_, by simp, fun _ => rfl, tallies.triesLeft, pollsLeft⟩
    have counted : run.starts = activation.failedTries + 1 := by simpa [held] using starts
    have forgotten : run.starts - 1 = activation.failedTries := by omega
    exact forgotten

/-- All turns until now were warranted, and the node has kept account of its activation. -/
structure Accounted (run : RemoteRun) (retry : RetryPolicy) (log : RemoteLog) : Prop where
  tallies : run.Tallies retry log.ongoing
  exact : log.IsExact retry

variable {log : RemoteLog}

theorem accounted_initial (retry : RetryPolicy) : RemoteRun.initial.Accounted retry [] :=
  ⟨tallies_initial retry, fun _ _ _ suffix => by cases List.suffix_nil.1 suffix⟩

/-- A node that is over begins afresh. -/
theorem Accounted.ended (accounted : run.Accounted retry log) :
    RemoteRun.initial.Accounted retry (.ended :: log) := by
  refine ⟨tallies_initial retry, ?_⟩
  intro reply visit earlier suffix
  rcases List.suffix_cons_iff.1 suffix with same | suffix
  · cases same
  · exact accounted.exact reply visit earlier suffix

theorem Accounted.stopped (accounted : run.Accounted retry log)
    (detached : (RunState.remote run).detach = .remote after) :
    after.Accounted retry (.stopped :: log) := by
  refine ⟨accounted.tallies.detached detached, ?_⟩
  intro reply visit earlier suffix
  rcases List.suffix_cons_iff.1 suffix with same | suffix
  · cases same
  · exact accounted.exact reply visit earlier suffix

/-- After a turn a node that is running remembers what it met, and any other one begins afresh. -/
theorem Accounted.turned (accounted : run.Accounted retry log)
    (meets : run.Meets retry reply result after) (key : RunKey) {next : RemoteRun}
    (goesOn : result = .ok .running → next = after)
    (afresh : result ≠ .ok .running → next = .initial) :
    next.Accounted retry (.turned reply (.ofResult key result) :: log) := by
  rcases accounted.tallies.turned meets key with ⟨warrants, kept⟩
  refine ⟨?_, ?_⟩
  · simp only [RemoteLog.ongoing_turned]
    by_cases running : result = .ok .running
    · have isRunning : (Visit.ofResult key result).status = .running := by
        simp [running, Visit.ofResult]
      simp only [goesOn running, isRunning, ↓reduceIte]
      exact kept running
    · have ended : (Visit.ofResult key result).status ≠ .running := by
        cases result with
        | ok status => simpa [Visit.ofResult] using running
        | error cause => simp [Visit.ofResult]
      simp only [afresh running, ended, ↓reduceIte]
      exact tallies_initial retry
  · intro otherReply visit earlier suffix
    rcases List.suffix_cons_iff.1 suffix with same | suffix
    · cases same
      exact warrants
    · exact accounted.exact otherReply visit earlier suffix

end RemoteRun

end BehaviorTree
