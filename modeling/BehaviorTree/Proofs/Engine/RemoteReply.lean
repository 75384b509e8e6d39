import BehaviorTree.Proofs.Engine.RemoteNode

/-!
# Replies to remote nodes

On its turn a remote node opens a session, makes a request unless it has one, and polls it. What it
meets on the way is its reply. The reply decides how the node goes on: whether a request was tried
in vain, whether a poll was lost, and whether the node may try again.
-/

namespace BehaviorTree

variable {σ α : Type}

/-- What a remote node meets on its turn. -/
inductive RemoteReply where
  /-- The service is not asked, for want of a configuration or a session. -/
  | unasked
  /-- A request could not be made. -/
  | unmade
  /-- The request takes too long. -/
  | timedOut
  /-- The service could not be asked how the request is going. -/
  | unreachable
  | answered
deriving DecidableEq

namespace RemoteReply

/-- A request was tried in vain. -/
def isFailedTry : RemoteReply → Bool
  | unmade | timedOut => true
  | _ => false

def ofPoll : Except (Failure RemoteError) CallStatus → RemoteReply
  | .ok _ => answered
  | .error (.error (.timeout _ _)) => timedOut
  | .error (.error _) => unreachable
  | .error (.crash _) => unasked

end RemoteReply

/-- What a remote node meets that remembers `run`. -/
def RemoteRun.reply [RemoteService σ] (run : RemoteRun) (setting : Setting) (node : Node)
    (remote : RemoteConfiguration) (client : Client σ) : RemoteReply :=
  let (opened, client) :=
    if run.session then (.ok (), client) else client.ensureSession remote.service remote.host
  match opened, run.call with
  | .error _, _ => .unasked
  | .ok _, some call => .ofPoll (client.poll call setting.now).1
  | .ok _, none =>
    let request : RemoteRequest :=
      ⟨remote.operation, remote.service, remote.host, node.label, remote.request⟩
    match client.start request (remote.timeout.or setting.config.defaultTimeout) setting.now with
    | (.ok call, client) => .ofPoll (client.poll call setting.now).1
    | (.error (.error _), _) => .unmade
    | (.error (.crash _), _) => .unasked

/-- The status of a node that may try again, or its failure if it tried as often as it may. -/
def tryAgain (error : RemoteError) (attempts : Nat) (limit : UInt32) : Except TickError Status :=
  if attempts < limit.toNat then .ok .running else .error (.remoteCall error attempts)

namespace RemoteRun

/-- How many requests were made, with the one that the node makes unless it has one. -/
def tries (run : RemoteRun) : Nat := if run.call.isSome then run.starts else run.starts + 1

/-- How many polls of the request failed in a row until now. -/
def losses (run : RemoteRun) : Nat := if run.call.isSome then run.pollFailures else 0

/-- What a node comes to that meets a reply, and what it remembers then. -/
inductive Meets (retry : RetryPolicy) (run : RemoteRun) :
    RemoteReply → Except TickError Status → RemoteRun → Prop where
  | triedInVain {reply : RemoteReply} {after : RemoteRun} (error : RemoteError)
      (failed : reply.isFailedTry = true) (idle : after.call = none)
      (starts : after.starts = run.tries) :
      Meets retry run reply (tryAgain error run.tries retry.start) after
  | lost {after : RemoteRun} (error : RemoteError) (holds : after.call.isSome)
      (starts : after.starts = run.tries) (losses : after.pollFailures = run.losses + 1) :
      Meets retry run .unreachable (tryAgain error (run.losses + 1) retry.poll) after
  | goesOn {after : RemoteRun} (holds : after.call.isSome) (starts : after.starts = run.tries)
      (losses : after.pollFailures = 0) : Meets retry run .answered (.ok .running) after
  /-- The node is over, but not for having tried too often. -/
  | finished {reply : RemoteReply} {result : Except TickError Status} {after : RemoteRun}
      (blameless : reply = .unasked ∨ reply = .answered) (ended : result ≠ .ok .running)
      (other : ∀ error attempts, result ≠ .error (.remoteCall error attempts)) :
      Meets retry run reply result after

variable {retry : RetryPolicy} {run other after : RemoteRun} {reply : RemoteReply}
  {result : Except TickError Status}

/-- What a node comes to depends on its request and its counters only. -/
theorem Meets.congr (meets : run.Meets retry reply result after) (tries : other.tries = run.tries)
    (losses : other.losses = run.losses) : other.Meets retry reply result after := by
  cases meets with
  | triedInVain error failed idle starts =>
    rw [← tries] at starts ⊢
    exact .triedInVain error failed idle starts
  | lost error holds starts failures =>
    rw [← tries] at starts
    rw [← losses] at failures ⊢
    exact .lost error holds starts failures
  | goesOn holds starts failures => exact .goesOn holds (by rw [starts, tries]) failures
  | finished blameless ended other => exact .finished blameless ended other

end RemoteRun

namespace RemoteStep

/-- A remote node comes to a result, unless the program crashes. -/
def ComesTo (action : RemoteStep σ Status) (run : RemoteRun) (context : Context σ)
    (expected : Except TickError Status → RemoteRun → Prop) : Prop :=
  Ends action run context (fun status after _ => expected (.ok status) after)
    fun fault after _ => ∀ cause, fault = .node cause → expected (.error cause) after

variable {run asking : RemoteRun} {context : Context σ} {setting : Setting} {key : RunKey}
  {node : Node} {remote : RemoteConfiguration} {retry : RetryPolicy} {call : CallHandle}
  {expected : Except TickError Status → RemoteRun → Prop}

theorem ComesTo.mono {action : RemoteStep σ Status}
    {weaker : Except TickError Status → RemoteRun → Prop}
    (comesTo : ComesTo action run context expected)
    (ofExpected : ∀ result after, expected result after → weaker result after) :
    ComesTo action run context weaker := by
  simp only [ComesTo, Ends] at comesTo ⊢
  split
  · rename_i found
    simp only [found] at comesTo
    exact ofExpected _ _ comesTo
  · rename_i found
    simp only [found] at comesTo
    exact fun cause isCause => ofExpected _ _ (comesTo cause isCause)

theorem comesTo_get {next : RemoteRun → RemoteStep σ Status} :
    ComesTo (get >>= next) run context expected ↔ ComesTo (next run) run context expected :=
  Iff.rfl

theorem comesTo_update {change : RemoteRun → RemoteRun} {next : Unit → RemoteStep σ Status} :
    ComesTo (update change >>= next) run context expected ↔
      ComesTo (next ()) (change run) context expected :=
  Iff.rfl

theorem comesTo_useClient {operation : Client σ → α × Client σ} {next : α → RemoteStep σ Status} :
    ComesTo (useClient operation >>= next) run context expected ↔
      ComesTo (next (operation context.client).1) run
        { context with client := (operation context.client).2 } expected :=
  Iff.rfl

theorem comesTo_throw {cause : TickError} (failed : expected (.error cause) run) :
    ComesTo (throw (.node cause)) run context expected := by
  rintro _ ⟨⟩
  exact failed

theorem comesTo_crash {cause : Crash} :
    ComesTo (throw (.abort (.crash cause))) run context expected := by
  rintro _ ⟨⟩

theorem comesTo_retryOr {error : RemoteError} {attempts : Nat} {limit : UInt32}
    (tried : expected (tryAgain error attempts limit) run) :
    ComesTo (retryOr error attempts limit) run context expected := by
  simp only [retryOr]
  split
  · rename_i more
    simp only [tryAgain, more, ↓reduceIte] at tried
    exact tried
  · rename_i enough
    simp only [tryAgain, enough, ↓reduceIte] at tried
    exact comesTo_throw tried

/-- An output is written before the node comes to a status, or else the node fails. -/
theorem comesTo_writeOutput {port : String} {value : Value} {status : Status}
    (written : expected (.ok status) run)
    (unwritten : ∀ cause, expected (.error (.blackboard cause)) run) :
    ComesTo (do ofAttempt (writeOutput setting key.node port value); return status) run context
      expected := by
  simp only [ComesTo, ends_bind, ends_ofAttempt, writeOutput]
  split
  · exact written
  · simp only [BehaviorTree.ends_bind, Attempt.ends_get, ends_accessed, Attempt.ends_set]
    split
    · exact written
    · rintro cause ⟨⟩
      exact unwritten _

/-- A node that polled its request meets the reply. -/
theorem comesTo_settle {reply : Except (Failure RemoteError) CallStatus}
    (holds : asking.call.isSome) (starts : asking.starts = run.tries)
    (losses : asking.pollFailures = run.losses) :
    ComesTo (settle setting key remote reply) asking context
      (run.Meets setting.config.retry (.ofPoll reply)) := by
  have fails : ∀ {after : RemoteRun} (cause : TickError),
      (∀ error attempts, cause ≠ .remoteCall error attempts) →
      run.Meets setting.config.retry .answered (.error cause) after :=
    fun cause other => .finished (Or.inr rfl) (by simp) (by simpa using other)
  simp only [settle]
  split
  · rename_i feedback
    have goesOn : run.Meets setting.config.retry .answered (.ok .running)
        { asking with pollFailures := 0 } := .goesOn holds starts rfl
    simp only [comesTo_update]
    cases feedback with
    | none => exact goesOn
    | some feedback =>
      exact comesTo_writeOutput goesOn fun cause => fails _ (by simp)
  · simp only [comesTo_update]
    exact comesTo_writeOutput (.finished (Or.inr rfl) (by simp) (by simp)) fun cause =>
      fails _ (by simp)
  · simp only [comesTo_update]
    exact comesTo_throw (fails _ (by simp))
  · exact comesTo_crash
  · simp only [comesTo_update, comesTo_get, starts]
    exact comesTo_retryOr (.triedInVain _ rfl rfl rfl)
  · rename_i error notTimeout
    have unreachable : RemoteReply.ofPoll (.error (.error error)) = .unreachable := by
      cases error with
      | timeout service after => exact absurd rfl (notTimeout service after)
      | _ => rfl
    simp only [comesTo_update, comesTo_get, losses, unreachable]
    exact comesTo_retryOr (.lost _ holds starts rfl)

variable [RemoteService σ]

/-- A node that holds a request polls it. -/
theorem comesTo_poll (holds : asking.call.isSome) (starts : asking.starts = run.tries)
    (losses : asking.pollFailures = run.losses) :
    ComesTo (do settle setting key remote (← useClient fun client => client.poll call setting.now))
      asking context
      (run.Meets setting.config.retry (.ofPoll (context.client.poll call setting.now).1)) := by
  simp only [comesTo_useClient]
  exact comesTo_settle holds starts losses

/-- A node that has its session makes a request or goes on with the one that it has. -/
theorem comesTo_request (opened : run.session = true) :
    ComesTo (do
        match ← currentCall setting node remote with
        | .error (.crash cause) => throw (.abort (.crash cause))
        | .error (.error error) => retryOr error (← get).starts setting.config.retry.start
        | .ok call =>
          settle setting key remote (← useClient fun client => client.poll call setting.now))
      run context
      (run.Meets setting.config.retry (run.reply setting node remote context.client)) := by
  simp only [currentCall, bind_assoc, comesTo_get, RemoteRun.reply, opened, ↓reduceIte]
  cases held : run.call with
  | some call =>
    exact comesTo_poll (by simp [held]) (by simp [RemoteRun.tries, held])
      (by simp [RemoteRun.losses, held])
  | none =>
    have tries : run.starts + 1 = run.tries := by simp [RemoteRun.tries, held]
    simp only [startCall, bind_assoc, comesTo_update, comesTo_useClient]
    rcases context.client.start _ _ _ with ⟨(error | cause) | call, client⟩
    · simp only [pure_bind, comesTo_get, tries]
      exact comesTo_retryOr (.triedInVain error rfl held rfl)
    · exact comesTo_crash
    · exact comesTo_poll rfl tries (by simp [RemoteRun.losses, held])

/-- A remote node that has its turn meets its reply. -/
theorem comesTo_advance : ComesTo (advance setting key node remote) run context
    (run.Meets setting.config.retry (run.reply setting node remote context.client)) := by
  simp only [advance, openSession, bind_assoc, comesTo_get]
  cases opened : run.session with
  | true => exact comesTo_request opened
  | false =>
    simp only [Bool.false_eq_true, ↓reduceIte, bind_assoc, comesTo_useClient, RemoteRun.reply,
      opened]
    rcases context.client.ensureSession remote.service remote.host with ⟨error | done, client⟩
    · exact comesTo_throw (.finished (Or.inl rfl) (by simp) (by simp))
    · have asking : ({ run with session := true } : RemoteRun).session = true := rfl
      simp only [comesTo_update]
      exact (comesTo_request asking).mono fun _ _ meets => meets.congr rfl rfl

end RemoteStep

end BehaviorTree
