import BehaviorTree.Remote.WorkerPool
import Mathlib.Logic.Basic

/-!
# What is told of a worker

A pool, the client that polls and cancels, and the workers act in any order. What happens is a list
of events, the latest in front. A call is closed by the first poll after its worker came to an end,
and by being cancelled, whichever is earlier. Until the worker comes to an end a poll tells its
latest feedback; the poll that closes the call tells how the worker ended; and of a closed call
nothing is told any more. So the end of a worker is told once, and only to those who ask for its
own call.
-/

namespace BehaviorTree

/-- Something that a worker does. -/
inductive WorkerStep where
  | publish (feedback : Value)
  | finish (outcome : Except String Value)
  /-- It comes to an end and leaves no outcome. -/
  | exit

/-- What workers do, each for its own call, the latest in front. -/
abbrev WorkerSteps := List (CallId × WorkerStep)

/-- Something that happens to a pool of workers. -/
inductive PoolEvent where
  | started (call : CallId) (request : RemoteRequest)
  | refused
  | worked (call : CallId) (step : WorkerStep)
  /-- A poll looks for an outcome, and for feedback after that. Meanwhile workers get on. -/
  | polled (call : CallId) (meanwhile : WorkerSteps) (reply : Except String CallStatus)
  | cancelled (call : CallId) (reply : Except String Unit)
  /-- The worker looks whether it was cancelled. -/
  | looked (call : CallId) (seen : Bool)

namespace WorkerPool

def work (pool : WorkerPool) (call : CallId) : WorkerStep → WorkerPool
  | .publish feedback => pool.publish call feedback
  | .finish outcome => pool.finish call outcome
  | .exit => pool.lose call

def IsAtWork (pool : WorkerPool) (call : CallId) : Prop :=
  ∃ worker, pool.workers.get? call = some worker ∧ worker.phase = .working

def IsFlagged (pool : WorkerPool) (call : CallId) : Prop :=
  ∃ worker, pool.workers.get? call = some worker ∧ worker.cancelled = true

/-- Workers get on, and none of them does anything after its end. -/
inductive Works (pool : WorkerPool) : WorkerSteps → WorkerPool → Prop where
  | idle : Works pool [] pool
  | next {steps : WorkerSteps} {later : WorkerPool} {call : CallId} (step : WorkerStep)
      (works : Works pool steps later) (atWork : later.IsAtWork call) :
      Works pool ((call, step) :: steps) (later.work call step)

/-- An event takes a pool to another. The numbers of calls do not start over: where they would, the
service comes to a halt. -/
inductive Step (pool : WorkerPool) : PoolEvent → WorkerPool → Prop where
  | started (request : RemoteRequest) (fits : pool.nextCall.toNat + 1 < UInt64.size) :
      Step pool (.started (pool.start request).1 request) (pool.start request).2
  | refused (fits : pool.nextCall.toNat + 1 < UInt64.size) : Step pool .refused pool.refuse
  | worked {call : CallId} (step : WorkerStep) (atWork : pool.IsAtWork call) :
      Step pool (.worked call step) (pool.work call step)
  | polled {call : CallId} {meanwhile : WorkerSteps} {later : WorkerPool}
      (works : Works (pool.receive call).2 meanwhile later) :
      Step pool (.polled call meanwhile ((pool.receive call).1.getD (.ok (later.news call)))) later
  | cancelled (call : CallId) :
      Step pool (.cancelled call (pool.cancel call).1) (pool.cancel call).2
  /-- A worker may be late to see that it was cancelled. -/
  | looked {call : CallId} {seen : Bool} (flagged : seen = true → pool.IsFlagged call) :
      Step pool (.looked call seen) pool

/-- A poll during which no worker gets on is one of the service. -/
theorem step_polled_nil_iff {pool later : WorkerPool} {call : CallId}
    {reply : Except String CallStatus} :
    Step pool (.polled call [] reply) later ↔ pool.poll call = (reply, later) := by
  constructor
  · intro step
    cases step with
    | polled works =>
      cases works
      rfl
  · intro polled
    obtain ⟨rfl, rfl⟩ := Prod.mk.inj polled
    exact .polled .idle

/-- What happens to a pool in the course of time. -/
inductive Run (pool : WorkerPool) : List PoolEvent → WorkerPool → Prop where
  | idle : Run pool [] pool
  | next {events : List PoolEvent} {event : PoolEvent} {middle later : WorkerPool}
      (run : Run pool events middle) (step : Step middle event later) :
      Run pool (event :: events) later

end WorkerPool

namespace WorkerStep

def feedback? : WorkerStep → Option Value
  | publish feedback => some feedback
  | finish _ => none
  | exit => none

/-- How a worker ends, as it is told to those who poll. -/
def ending? : WorkerStep → Option (Except String CallStatus)
  | publish _ => none
  | finish (.ok response) => some (.ok (.succeeded response))
  | finish (.error message) => some (.ok (.failed message))
  | exit => some (.error "worker thread exited without a result")

end WorkerStep

/-- The latest feedback of the worker of a call. -/
def feedbackOf (call : CallId) (steps : WorkerSteps) : Option Value :=
  steps.findSome? fun (other, step) => if other = call then step.feedback? else none

/-- How the worker of a call ended, if it did. -/
def endingOf (call : CallId) (steps : WorkerSteps) : Option (Except String CallStatus) :=
  steps.findSome? fun (other, step) => if other = call then step.ending? else none

namespace PoolEvent

def steps : PoolEvent → WorkerSteps
  | worked call step => [(call, step)]
  | polled _ meanwhile _ => meanwhile
  | _ => []

def stepsIn (events : List PoolEvent) : WorkerSteps := events.flatMap steps

/-- A call is cancelled, or it is polled after its worker has come to an end. -/
def Closes (call : CallId) (earlier : List PoolEvent) : PoolEvent → Prop
  | cancelled other _ => other = call
  | polled other _ _ => other = call ∧ (endingOf call (stepsIn earlier)).isSome = true
  | _ => False

def Closed (call : CallId) (events : List PoolEvent) : Prop :=
  ∃ later event earlier, events = later ++ event :: earlier ∧ event.Closes call earlier

/-- A call was cancelled when it was not closed yet. -/
def GivenUp (call : CallId) (events : List PoolEvent) : Prop :=
  ∃ later earlier, events = later ++ cancelled call (.ok ()) :: earlier ∧ ¬ Closed call earlier

/-- The reply says how a worker ended. -/
def isEnding (call : CallId) : Except String CallStatus → Bool
  | .ok (.pending _) => false
  | .ok _ => true
  | .error cause => cause ≠ WorkerPool.unknownCall call

def toldEnding? (call : CallId) : PoolEvent → Option (Except String CallStatus)
  | polled other _ reply => if other = call ∧ isEnding call reply = true then some reply else none
  | _ => none

/-- The ends of a worker that polls of its call were told, the latest in front. -/
def toldEndings (call : CallId) (events : List PoolEvent) : List (Except String CallStatus) :=
  events.filterMap (toldEnding? call)

end PoolEvent

open PoolEvent

/-- What a client and a worker learn of a call, after what happened since it was started. -/
structure WorkerPool.Accounts (pool : WorkerPool) (call : CallId) (events : List PoolEvent) :
    Prop where
  registered : call ∈ pool.registered ↔ ¬ Closed call events
  /-- The worker goes on until it comes to an end, also if it was cancelled. -/
  atWork : endingOf call (stepsIn events) = none → pool.IsAtWork call
  /-- There is always a reply, and workers may get on before it. -/
  replies : ∀ {meanwhile later}, Works (pool.receive call).2 meanwhile later →
    ∃ reply, Step pool (.polled call meanwhile reply) later
  pending : ¬ Closed call events → endingOf call (stepsIn events) = none →
    ∀ {meanwhile reply later}, Step pool (.polled call meanwhile reply) later →
      reply = .ok (.pending (feedbackOf call (meanwhile ++ stepsIn events)))
  ended : ¬ Closed call events → ∀ {ending}, endingOf call (stepsIn events) = some ending →
    ∀ {meanwhile reply later}, Step pool (.polled call meanwhile reply) later →
      reply = ending ∧ call ∉ later.registered
  givenUp : ¬ Closed call events → ∀ {reply later}, Step pool (.cancelled call reply) later →
    reply = .ok () ∧ call ∉ later.registered
  closed : Closed call events →
    (∀ {meanwhile reply later}, Step pool (.polled call meanwhile reply) later →
      reply = .error (unknownCall call)) ∧
    ∀ {reply later}, Step pool (.cancelled call reply) later → reply = .error (unknownCall call)
  seen : ∀ {later}, Step pool (.looked call true) later → GivenUp call events
  once : toldEndings call events = [] ∨
    ∃ ending, endingOf call (stepsIn events) = some ending ∧ toldEndings call events = [ending]

section Reading

variable {call other : CallId} {step : WorkerStep} {steps more : WorkerSteps}
  {event : PoolEvent} {events : List PoolEvent}

theorem endingOf_append : endingOf call (steps ++ more) =
    (endingOf call steps).or (endingOf call more) :=
  List.findSome?_append

theorem feedbackOf_cons_self : feedbackOf call ((call, step) :: steps) =
    step.feedback?.or (feedbackOf call steps) := by
  cases step <;> simp [feedbackOf, WorkerStep.feedback?]

theorem feedbackOf_cons_of_ne (different : other ≠ call) :
    feedbackOf call ((other, step) :: steps) = feedbackOf call steps := by
  simp [feedbackOf, different]

theorem endingOf_cons_self : endingOf call ((call, step) :: steps) =
    step.ending?.or (endingOf call steps) := by
  cases ending : step.ending? <;> simp [endingOf, ending]

theorem endingOf_cons_of_ne (different : other ≠ call) :
    endingOf call ((other, step) :: steps) = endingOf call steps := by
  simp [endingOf, different]

theorem PoolEvent.stepsIn_cons : stepsIn (event :: events) = event.steps ++ stepsIn events := rfl

theorem PoolEvent.closed_cons :
    Closed call (event :: events) ↔ event.Closes call events ∨ Closed call events := by
  constructor
  · rintro ⟨later, closing, earlier, split, closes⟩
    cases later with
    | nil =>
      simp only [List.nil_append, List.cons.injEq] at split
      rcases split with ⟨rfl, rfl⟩
      exact .inl closes
    | cons last later =>
      simp only [List.cons_append, List.cons.injEq] at split
      exact .inr ⟨later, closing, earlier, split.2, closes⟩
  · rintro (closes | ⟨later, closing, earlier, rfl, closes⟩)
    · exact ⟨[], event, events, rfl, closes⟩
    · exact ⟨event :: later, closing, earlier, rfl, closes⟩

theorem PoolEvent.not_closed_nil : ¬ Closed call [] := by
  rintro ⟨later, event, earlier, split, -⟩
  cases later <;> cases split

theorem PoolEvent.GivenUp.cons (given : GivenUp call events) : GivenUp call (event :: events) := by
  rcases given with ⟨later, earlier, rfl, unclosed⟩
  exact ⟨event :: later, earlier, rfl, unclosed⟩

end Reading

/-- A worker has got as far as what it did. -/
structure Worker.Reflects (worker : Worker) (call : CallId) (steps : WorkerSteps) : Prop where
  feedback : worker.feedback = feedbackOf call steps
  ending : worker.phase.reply? = endingOf call steps

namespace WorkerPool

variable {pool middle later : WorkerPool} {call other : CallId} {worker : Worker}
  {step : WorkerStep} {steps meanwhile : WorkerSteps} {event : PoolEvent} {events : List PoolEvent}

@[simp]
theorem registered_updateWorker (change : Worker → Worker) :
    (pool.updateWorker call change).registered = pool.registered := by
  unfold updateWorker
  split <;> rfl

@[simp]
theorem nextCall_updateWorker (change : Worker → Worker) :
    (pool.updateWorker call change).nextCall = pool.nextCall := by
  unfold updateWorker
  split <;> rfl

theorem get?_updateWorker (change : Worker → Worker) :
    (pool.updateWorker call change).workers.get? other =
      if other = call then (pool.workers.get? call).map change else pool.workers.get? other := by
  unfold updateWorker
  split
  · rename_i worker found
    rw [found, Table.get?_insert]
    rfl
  · rename_i missing
    split
    · rename_i same
      rw [same, missing]
      rfl
    · rfl

@[simp]
theorem registered_work : (pool.work call step).registered = pool.registered := by
  cases step <;> simp [work, publish, finish, lose, updateWorking]

@[simp]
theorem nextCall_work : (pool.work call step).nextCall = pool.nextCall := by
  cases step <;> simp [work, publish, finish, lose, updateWorking]

theorem get?_work_of_ne (different : other ≠ call) :
    (pool.work call step).workers.get? other = pool.workers.get? other := by
  cases step <;> simp [work, publish, finish, lose, updateWorking, get?_updateWorker, different]

/-- A step of a worker is all that there is to tell of it afterwards. -/
theorem get?_work (found : pool.workers.get? call = some worker) (atWork : worker.phase = .working)
    (reflects : worker.Reflects call steps) :
    ∃ changed, (pool.work call step).workers.get? call = some changed ∧
      changed.Reflects call ((call, step) :: steps) ∧ changed.cancelled = worker.cancelled := by
  have unended : endingOf call steps = none := by rw [← reflects.ending, atWork]; rfl
  cases step with
  | publish feedback =>
    refine ⟨{ worker with feedback := some feedback }, ?_, ⟨?_, ?_⟩, rfl⟩
    · simp [work, publish, updateWorking, get?_updateWorker, found, atWork]
    · rw [feedbackOf_cons_self]; rfl
    · rw [endingOf_cons_self, unended, atWork]; rfl
  | finish outcome =>
    refine ⟨{ worker with phase := .finished outcome }, ?_, ⟨?_, ?_⟩, rfl⟩
    · simp [work, finish, updateWorking, get?_updateWorker, found, atWork]
    · rw [feedbackOf_cons_self, reflects.feedback]; rfl
    · rw [endingOf_cons_self]
      cases outcome <;> rfl
  | exit =>
    refine ⟨{ worker with phase := .lost }, ?_, ⟨?_, ?_⟩, rfl⟩
    · simp [work, lose, updateWorking, get?_updateWorker, found, atWork]
    · rw [feedbackOf_cons_self, reflects.feedback]; rfl
    · rw [endingOf_cons_self]; rfl

namespace Works

theorem registered_eq (works : Works pool steps later) : later.registered = pool.registered := by
  induction works with
  | idle => rfl
  | next _ _ _ ih => rw [registered_work, ih]

theorem nextCall_eq (works : Works pool steps later) : later.nextCall = pool.nextCall := by
  induction works with
  | idle => rfl
  | next _ _ _ ih => rw [nextCall_work, ih]

theorem get?_workers (works : Works pool meanwhile later)
    (found : pool.workers.get? call = some worker) (reflects : worker.Reflects call steps) :
    ∃ changed, later.workers.get? call = some changed ∧
      changed.Reflects call (meanwhile ++ steps) ∧ changed.cancelled = worker.cancelled := by
  induction works with
  | idle => exact ⟨worker, found, reflects, rfl⟩
  | @next made later other step works atWork ih =>
    rcases ih with ⟨changed, held, agrees, flag⟩
    by_cases same : other = call
    · subst same
      rcases atWork with ⟨busy, there, working⟩
      obtain rfl : changed = busy := Option.some.inj (held.symm.trans there)
      rcases get?_work held working agrees with ⟨last, now, shows, unchanged⟩
      exact ⟨last, now, shows, unchanged.trans flag⟩
    · refine ⟨changed, ?_, ⟨?_, ?_⟩, flag⟩
      · rw [get?_work_of_ne (Ne.symm same), held]
      · rw [List.cons_append, feedbackOf_cons_of_ne same, agrees.feedback]
      · rw [List.cons_append, endingOf_cons_of_ne same, agrees.ending]

/-- A worker that came to an end does nothing any more. -/
theorem endingOf_eq_none (works : Works pool meanwhile later)
    (found : pool.workers.get? call = some worker) (done : worker.phase.reply? ≠ none) :
    later.workers.get? call = some worker ∧ endingOf call meanwhile = none := by
  induction works with
  | idle => exact ⟨found, rfl⟩
  | @next made later other step works atWork ih =>
    rcases ih with ⟨held, silent⟩
    have different : other ≠ call := by
      rintro rfl
      rcases atWork with ⟨busy, there, working⟩
      obtain rfl : worker = busy := Option.some.inj (held.symm.trans there)
      exact done (by rw [working]; rfl)
    exact ⟨by rw [get?_work_of_ne (Ne.symm different), held],
      by rw [endingOf_cons_of_ne different, silent]⟩

end Works

theorem mem_unregister :
    other ∈ (pool.unregister call).registered ↔ other ∈ pool.registered ∧ other ≠ call := by
  simp [unregister]

theorem worker?_eq_none (gone : call ∉ pool.registered) : pool.worker? call = none :=
  if_neg gone

theorem worker?_eq_some (here : call ∈ pool.registered)
    (found : pool.workers.get? call = some worker) : pool.worker? call = some worker :=
  (if_pos here).trans found

theorem receive_of_closed (gone : call ∉ pool.registered) :
    pool.receive call = (some (.error (unknownCall call)), pool) := by
  simp only [receive, worker?_eq_none gone]

theorem receive_of_unended (here : call ∈ pool.registered)
    (found : pool.workers.get? call = some worker) (unended : worker.phase.reply? = none) :
    pool.receive call = (none, pool) := by
  simp only [receive, worker?_eq_some here found, unended]

theorem receive_of_ended {reply : Except String CallStatus} (here : call ∈ pool.registered)
    (found : pool.workers.get? call = some worker) (ended : worker.phase.reply? = some reply) :
    pool.receive call = (some reply, pool.unregister call) := by
  simp only [receive, worker?_eq_some here found, ended]

@[simp]
theorem workers_receive : (pool.receive call).2.workers = pool.workers := by
  unfold receive
  split
  · rfl
  · split <;> rfl

@[simp]
theorem nextCall_receive : (pool.receive call).2.nextCall = pool.nextCall := by
  unfold receive
  split
  · rfl
  · split <;> rfl

theorem mem_receive_of_ne (different : other ≠ call) :
    other ∈ (pool.receive call).2.registered ↔ other ∈ pool.registered := by
  unfold receive
  split
  · rfl
  · split
    · rfl
    · rw [mem_unregister, and_iff_left different]

theorem cancel_of_closed (gone : call ∉ pool.registered) :
    pool.cancel call = (.error (unknownCall call), pool) := by
  simp only [cancel, worker?_eq_none gone]

theorem cancel_of_open (here : call ∈ pool.registered)
    (found : pool.workers.get? call = some worker) :
    pool.cancel call = (.ok (), (pool.unregister call).updateWorker call
      fun worker => { worker with cancelled := true }) := by
  simp only [cancel, worker?_eq_some here found]

@[simp]
theorem nextCall_cancel : (pool.cancel call).2.nextCall = pool.nextCall := by
  unfold cancel
  split
  · rfl
  · exact nextCall_updateWorker _

theorem get?_cancel_of_ne (different : other ≠ call) :
    (pool.cancel call).2.workers.get? other = pool.workers.get? other := by
  unfold cancel
  split
  · rfl
  · rw [get?_updateWorker, if_neg different]
    rfl

theorem mem_cancel_of_ne (different : other ≠ call) :
    other ∈ (pool.cancel call).2.registered ↔ other ∈ pool.registered := by
  unfold cancel
  split
  · rfl
  · rw [registered_updateWorker, mem_unregister, and_iff_left different]

/-- A pool has kept account of a call since it was started. -/
structure Tracks (pool : WorkerPool) (call : CallId) (events : List PoolEvent) : Prop where
  /-- The number will not be given out again. -/
  given : call.toNat < pool.nextCall.toNat
  registered : call ∈ pool.registered ↔ ¬ Closed call events
  worker : ∃ worker, pool.workers.get? call = some worker ∧
    worker.Reflects call (stepsIn events) ∧ (worker.cancelled = true → GivenUp call events)

theorem toNat_lt_next (fits : pool.nextCall.toNat + 1 < UInt64.size) :
    pool.nextCall.toNat < (pool.nextCall + 1).toNat := by
  rw [UInt64.toNat_add]
  exact Nat.lt_of_lt_of_eq (Nat.lt_succ_self _) (Nat.mod_eq_of_lt fits).symm

theorem Tracks.start {request : RemoteRequest}
    (step : Step pool (.started call request) later) : later.Tracks call [] := by
  cases step with
  | started _ fits =>
    refine ⟨?_, ?_, ⟨request, none, false, .working⟩, ?_, ⟨rfl, rfl⟩, nofun⟩
    · exact toNat_lt_next fits
    · simp [WorkerPool.start, not_closed_nil]
    · exact (Table.get?_insert ..).trans (if_pos rfl)

theorem Tracks.mem_of_not_closes (tracks : pool.Tracks call events)
    (same : call ∈ later.registered ↔ call ∈ pool.registered)
    (unclosed : ¬ event.Closes call events) :
    call ∈ later.registered ↔ ¬ Closed call (event :: events) := by
  rw [same, tracks.registered, closed_cons, or_iff_right unclosed]

/-- The client does its part without touching the worker of a call, and workers get on after it. -/
theorem Tracks.next (tracks : pool.Tracks call events)
    (given : call.toNat < middle.nextCall.toNat)
    (workers : middle.workers.get? call = pool.workers.get? call)
    (registered : call ∈ middle.registered ↔ ¬ Closed call (event :: events))
    (works : Works middle event.steps later) : later.Tracks call (event :: events) := by
  rcases tracks.worker with ⟨worker, found, reflects, flag⟩
  rcases works.get?_workers (workers.trans found) reflects with ⟨changed, held, shows, unchanged⟩
  refine ⟨?_, ?_, changed, held, shows, fun cancelled => (flag (unchanged ▸ cancelled)).cons⟩
  · rw [works.nextCall_eq]
    exact given
  · rw [works.registered_eq]
    exact registered

/-- The call that a poll closes is forgotten, and no other. -/
theorem Tracks.receive (tracks : pool.Tracks call events) (other : CallId)
    (reply : Except String CallStatus) :
    call ∈ (pool.receive other).2.registered ↔
      ¬ Closed call (.polled other meanwhile reply :: events) := by
  by_cases same : other = call
  · subst same
    rcases tracks.worker with ⟨worker, found, reflects, -⟩
    by_cases gone : Closed other events
    · have unheld : other ∉ pool.registered := fun held => tracks.registered.1 held gone
      rw [receive_of_closed unheld, iff_not_comm, closed_cons]
      exact iff_of_true (.inr gone) unheld
    · have held := tracks.registered.2 gone
      cases ending : endingOf other (stepsIn events) with
      | none =>
        rw [receive_of_unended held found (reflects.ending.trans ending)]
        refine tracks.mem_of_not_closes Iff.rfl ?_
        rintro ⟨-, ended⟩
        rw [ending] at ended
        cases ended
      | some told =>
        rw [receive_of_ended held found (reflects.ending.trans ending), mem_unregister, closed_cons]
        refine iff_of_false (fun here => here.2 rfl) (not_not.2 (.inl ⟨rfl, ?_⟩))
        rw [ending]
        rfl
  · exact tracks.mem_of_not_closes (mem_receive_of_ne (Ne.symm same)) fun closes => same closes.1

theorem Tracks.cancel (tracks : pool.Tracks call events) (other : CallId) :
    (pool.cancel other).2.Tracks call (.cancelled other (pool.cancel other).1 :: events) := by
  by_cases same : other = call
  · subst same
    rcases tracks.worker with ⟨worker, found, reflects, -⟩
    by_cases gone : Closed other events
    · have unheld : other ∉ pool.registered := fun held => tracks.registered.1 held gone
      rw [cancel_of_closed unheld]
      refine tracks.next tracks.given rfl ?_ .idle
      exact iff_of_false unheld (not_not.2 (closed_cons.2 (.inr gone)))
    · rw [cancel_of_open (tracks.registered.2 gone) found]
      refine ⟨?_, ?_, { worker with cancelled := true }, ?_, ⟨reflects.feedback, reflects.ending⟩,
        fun _ => ⟨[], events, rfl, gone⟩⟩
      · rw [nextCall_updateWorker]
        exact tracks.given
      · rw [registered_updateWorker, mem_unregister, closed_cons]
        exact iff_of_false (fun here => here.2 rfl) (not_not.2 (.inl rfl))
      · rw [get?_updateWorker, if_pos rfl]
        exact congrArg _ found
  · have different := Ne.symm same
    exact tracks.next (by simpa using tracks.given) (get?_cancel_of_ne different)
      (tracks.mem_of_not_closes (mem_cancel_of_ne different) same) .idle

theorem Tracks.after (tracks : pool.Tracks call events) (step : Step pool event later) :
    later.Tracks call (event :: events) := by
  cases step with
  | started request fits =>
    have different : call ≠ pool.nextCall := by
      rintro rfl
      exact Nat.lt_irrefl _ tracks.given
    refine tracks.next (Nat.lt_trans tracks.given (toNat_lt_next fits)) ?_
      (tracks.mem_of_not_closes ?_ not_false) .idle
    · exact (Table.get?_insert ..).trans (if_neg different)
    · simp [WorkerPool.start, different]
  | refused fits =>
    have untouched : pool.refuse.workers.get? call = pool.workers.get? call := rfl
    exact tracks.next (Nat.lt_trans tracks.given (toNat_lt_next fits)) untouched
      (tracks.mem_of_not_closes Iff.rfl not_false) .idle
  | worked step atWork =>
    exact tracks.next tracks.given rfl (tracks.mem_of_not_closes Iff.rfl not_false)
      (.next step .idle atWork)
  | @polled other meanwhile _ works =>
    exact tracks.next (by simpa using tracks.given) (by rw [workers_receive])
      (tracks.receive other _) works
  | cancelled other => exact tracks.cancel other
  | looked flagged =>
    exact tracks.next tracks.given rfl (tracks.mem_of_not_closes Iff.rfl not_false) .idle

theorem Tracks.run (tracks : pool.Tracks call []) (run : Run pool events later) :
    later.Tracks call events := by
  induction run with
  | idle => exact tracks
  | next _ step ih => exact ih.after step

namespace Tracks

variable {ending reply : Except String CallStatus}

theorem atWork (tracks : pool.Tracks call events)
    (unended : endingOf call (stepsIn events) = none) : pool.IsAtWork call := by
  rcases tracks.worker with ⟨worker, found, reflects, -⟩
  have silent : worker.phase.reply? = none := reflects.ending.trans unended
  refine ⟨worker, found, ?_⟩
  match phase : worker.phase with
  | .working => rfl
  | .finished (.ok _) => simp [phase, WorkerPhase.reply?] at silent
  | .finished (.error _) => simp [phase, WorkerPhase.reply?] at silent
  | .lost => simp [phase, WorkerPhase.reply?] at silent

theorem pending (tracks : pool.Tracks call events) (unclosed : ¬ Closed call events)
    (unended : endingOf call (stepsIn events) = none)
    (step : Step pool (.polled call meanwhile reply) later) :
    reply = .ok (.pending (feedbackOf call (meanwhile ++ stepsIn events))) := by
  rcases tracks.worker with ⟨worker, found, reflects, -⟩
  have held := tracks.registered.2 unclosed
  have receives := receive_of_unended held found (reflects.ending.trans unended)
  cases step with
  | polled works =>
    rw [receives] at works ⊢
    rcases works.get?_workers found reflects with ⟨changed, there, shows, -⟩
    rw [Option.getD_none, news, worker?_eq_some (works.registered_eq ▸ held) there]
    rw [Option.bind_some, shows.feedback]

theorem ended (tracks : pool.Tracks call events) (unclosed : ¬ Closed call events)
    (ended : endingOf call (stepsIn events) = some ending)
    (step : Step pool (.polled call meanwhile reply) later) :
    reply = ending ∧ call ∉ later.registered := by
  rcases tracks.worker with ⟨worker, found, reflects, -⟩
  have receives := receive_of_ended (tracks.registered.2 unclosed) found
    (reflects.ending.trans ended)
  have closes : PoolEvent.Closes call events (.polled call meanwhile reply) :=
    ⟨rfl, by rw [ended]; rfl⟩
  refine ⟨?_, fun held => (tracks.after step).registered.1 held (closed_cons.2 (.inl closes))⟩
  cases step with
  | polled works => rw [receives, Option.getD_some]

theorem closed_polled (tracks : pool.Tracks call events) (closed : Closed call events)
    (step : Step pool (.polled call meanwhile reply) later) :
    reply = .error (unknownCall call) := by
  cases step with
  | polled works =>
    rw [receive_of_closed fun held => tracks.registered.1 held closed, Option.getD_some]

theorem cancelled {reply : Except String Unit} (tracks : pool.Tracks call events)
    (step : Step pool (.cancelled call reply) later) :
    (¬ Closed call events → reply = .ok () ∧ call ∉ later.registered) ∧
      (Closed call events → reply = .error (unknownCall call)) := by
  rcases tracks.worker with ⟨worker, found, -, -⟩
  have gone : call ∉ later.registered := fun held =>
    (tracks.after step).registered.1 held (closed_cons.2 (.inl rfl))
  cases step with
  | cancelled =>
    refine ⟨fun unclosed => ⟨?_, gone⟩, fun closed => ?_⟩
    · rw [cancel_of_open (tracks.registered.2 unclosed) found]
    · rw [cancel_of_closed fun held => tracks.registered.1 held closed]

theorem seen (tracks : pool.Tracks call events) (step : Step pool (.looked call true) later) :
    GivenUp call events := by
  rcases tracks.worker with ⟨worker, found, -, flag⟩
  cases step with
  | looked flagged =>
    rcases flagged rfl with ⟨same, there, cancelled⟩
    obtain rfl : worker = same := Option.some.inj (found.symm.trans there)
    exact flag cancelled

/-- A worker ends once. -/
theorem endingOf_stays (tracks : pool.Tracks call events) (step : Step pool event later)
    (ended : endingOf call (stepsIn events) = some ending) :
    endingOf call (stepsIn (event :: events)) = some ending := by
  rcases tracks.worker with ⟨worker, found, reflects, -⟩
  have done : worker.phase.reply? ≠ none := by
    rw [reflects.ending, ended]
    exact Option.some_ne_none ending
  suffices silent : endingOf call event.steps = none by
    rw [stepsIn_cons, endingOf_append, silent, Option.none_or, ended]
  cases step with
  | worked step atWork => exact (Works.next step .idle atWork).endingOf_eq_none found done |>.2
  | @polled other _ _ works =>
    exact (works.endingOf_eq_none (by rw [workers_receive, found]) done).2
  | _ => rfl

/-- Nothing but the poll that closes a call tells an end. -/
theorem toldEnding (tracks : pool.Tracks call events) (step : Step pool event later) :
    toldEnding? call event = none ∨
      ¬ Closed call events ∧ event.Closes call events ∧
        ∃ ending, endingOf call (stepsIn events) = some ending ∧
          toldEnding? call event = some ending := by
  cases event with
  | polled other meanwhile reply =>
    by_cases same : other = call ∧ isEnding call reply = true
    · rcases same with ⟨rfl, tells⟩
      by_cases closed : Closed other events
      · rw [tracks.closed_polled closed step] at tells
        simp [isEnding] at tells
      · cases ended : endingOf other (stepsIn events) with
        | none =>
          rw [tracks.pending closed ended step] at tells
          cases tells
        | some ending =>
          obtain rfl : reply = ending := (tracks.ended closed ended step).1
          exact .inr ⟨closed, ⟨rfl, by rw [ended]; rfl⟩, reply, rfl, if_pos ⟨rfl, tells⟩⟩
    · exact .inl (if_neg same)
  | _ => exact .inl rfl

end Tracks

theorem Run.toldEndings_eq {before : WorkerPool} (tracks : before.Tracks call [])
    (run : Run before events pool) :
    toldEndings call events = [] ∨ Closed call events ∧
      ∃ ending, endingOf call (stepsIn events) = some ending ∧
        toldEndings call events = [ending] := by
  induction run with
  | idle => exact .inl rfl
  | @next events event middle later run step ih =>
    have here := tracks.run run
    rcases here.toldEnding step with silent | ⟨unclosed, closes, ending, ended, tells⟩
    · have same : toldEndings call (event :: events) = toldEndings call events :=
        List.filterMap_cons_none silent
      rw [same]
      rcases ih with none | ⟨closed, ending, ended, once⟩
      · exact .inl none
      · exact .inr ⟨closed_cons.2 (.inr closed), ending, here.endingOf_stays step ended, once⟩
    · have untold : toldEndings call events = [] :=
        ih.resolve_right fun told => unclosed told.1
      refine .inr ⟨closed_cons.2 (.inl closes), ending, here.endingOf_stays step ended, ?_⟩
      rw [toldEndings, List.filterMap_cons_some tells]
      exact congrArg _ untold

/-- However a client and the workers of any number of calls get on, a poll of a call tells the
latest feedback of its worker until the worker has come to an end; the first poll after that tells
how it ended and forgets the call, unless it was cancelled; and after either of the two it is an
unknown call. A worker only sees that it was cancelled if that was done before its call was closed.
-/
theorem endings_are_told_once {before started : WorkerPool} {request : RemoteRequest}
    (start : Step before (.started call request) started) (run : Run started events pool) :
    pool.Accounts call events := by
  have initial := Tracks.start start
  have tracks := initial.run run
  exact
    { registered := tracks.registered
      atWork := tracks.atWork
      replies := fun works => ⟨_, .polled works⟩
      pending := fun unclosed unended => tracks.pending unclosed unended
      ended := fun unclosed => fun ended => tracks.ended unclosed ended
      givenUp := fun unclosed _ _ step => (tracks.cancelled step).1 unclosed
      closed := fun closed =>
        ⟨tracks.closed_polled closed, fun step => (tracks.cancelled step).2 closed⟩
      seen := tracks.seen
      once := (run.toldEndings_eq initial).imp_right And.right }

def survey : RemoteRequest := ⟨.grpc, "arm", "robot", "survey", .object []⟩

/-- The worker finishes just after the second poll has looked for an outcome. -/
def surveyEvents : List PoolEvent :=
  [.cancelled 0 (.error (unknownCall 0)),
    .polled 0 [] (.ok (.succeeded (.int 3))),
    .polled 0 [(0, .finish (.ok (.int 3))), (0, .publish (.int 2))]
      (.ok (.pending (some (.int 2)))),
    .polled 0 [] (.ok (.pending (some (.int 1)))),
    .worked 0 (.publish (.int 1))]

theorem a_survey_is_told_once :
    ∃ started pool, Step empty (.started 0 survey) started ∧ Run started surveyEvents pool ∧
      pool.Accounts 0 surveyEvents ∧
      PoolEvent.toldEndings 0 surveyEvents = [.ok (.succeeded (.int 3))] := by
  let started := (empty.start survey).2
  let published := started.work 0 (.publish (.int 1))
  let again := published.work 0 (.publish (.int 2))
  let finished := again.work 0 (.finish (.ok (.int 3)))
  have start : Step empty (.started 0 survey) started := .started survey (by decide)
  have publishes : Run started (surveyEvents.drop 4) published :=
    .next .idle (.worked (.publish (.int 1)) ⟨_, rfl, rfl⟩)
  have told : Run started (surveyEvents.drop 3) published := .next publishes (.polled .idle)
  have works : Works (published.receive 0).2 [(0, .finish (.ok (.int 3))), (0, .publish (.int 2))]
      finished := .next _ (.next _ .idle ⟨_, rfl, rfl⟩) ⟨_, rfl, rfl⟩
  have late : Run started (surveyEvents.drop 2) finished := .next told (.polled works)
  have ended : Run started (surveyEvents.drop 1) (finished.unregister 0) :=
    .next late (.polled .idle)
  have run : Run started surveyEvents (finished.unregister 0) := .next ended (.cancelled 0)
  exact ⟨started, finished.unregister 0, start, run, endings_are_told_once start run, rfl⟩

end WorkerPool

end BehaviorTree
