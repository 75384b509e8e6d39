import BehaviorTree.Remote.Client
import Mathlib.Data.List.Nodup

/-!
# Sessions in the journal

A client opens a session at most once for a service and a host, until its sessions are reset. Which
sessions are open can be read off the part of the journal since then. Requests are another matter:
the client makes them whether a session is open or not, so it is up to those who ask for requests
that a session was opened before. `Logged` says that the client keeps its part, and that they keep
theirs as long as they are bound to.
-/

namespace BehaviorTree

/-- The session that was opened in an exchange. -/
def Exchange.granted? : Exchange → Option (String × String)
  | .opened service host true => some (service, host)
  | _ => none

/-- The exchange neither opens a session nor makes a request. -/
def Exchange.IsQuiet (exchange : Exchange) : Prop :=
  exchange.granted? = none ∧ ∀ service call request, exchange ≠ .started service call request

/-- The sessions that were opened, the latest in front. -/
def granted (journal : List Exchange) : List (String × String) :=
  journal.filterMap Exchange.granted?

/-- Every request was made after a session with its service on its host was opened. -/
def SessionsFirst (journal : List Exchange) : Prop :=
  ∀ newer older service call request, journal = newer ++ .started service call request :: older →
    .opened service request.host true ∈ older

section Journals

variable {exchange : Exchange} {journal more : List Exchange} {service host : String}

theorem mem_granted : (service, host) ∈ granted journal ↔ .opened service host true ∈ journal := by
  simp only [granted, List.mem_filterMap]
  constructor
  · rintro ⟨exchange, listed, opens⟩
    cases exchange with
    | opened name place allowed =>
      cases allowed with
      | true =>
        cases opens
        exact listed
      | false => cases opens
    | _ => cases opens
  · exact fun listed => ⟨_, listed, rfl⟩

theorem quiet_polled (service : String) (call : CallId) : (Exchange.polled service call).IsQuiet :=
  ⟨rfl, by simp⟩

theorem quiet_cancelled (service : String) (call : CallId) :
    (Exchange.cancelled service call).IsQuiet :=
  ⟨rfl, by simp⟩

theorem quiet_refused (service host : String) : (Exchange.opened service host false).IsQuiet :=
  ⟨rfl, by simp⟩

theorem granted_cons_of_quiet (quiet : exchange.IsQuiet) :
    granted (exchange :: journal) = granted journal := by
  simp [granted, quiet.1]

theorem granted_append_of_quiet (quiet : ∀ exchange ∈ more, exchange.IsQuiet) :
    granted (more ++ journal) = granted journal := by
  induction more with
  | nil => rfl
  | cons first rest ih =>
    rw [List.cons_append, granted_cons_of_quiet (quiet first List.mem_cons_self)]
    exact ih fun exchange listed => quiet exchange (List.mem_cons_of_mem _ listed)

/-- A journal that lists no session twice has no session opened twice. -/
theorem not_mem_older_of_nodup {newer older : List Exchange} (once : (granted journal).Nodup)
    (split : journal = newer ++ .opened service host true :: older) :
    .opened service host true ∉ older := by
  rw [split, granted, List.filterMap_append, List.nodup_append] at once
  have here := (List.nodup_cons.1 once.2.1).1
  exact fun listed => here (mem_granted.2 listed)

theorem sessionsFirst_nil : SessionsFirst [] := by
  intro newer older service call request split
  simp at split

/-- A journal is continued by anything but a request, or by a request with a session. -/
theorem sessionsFirst_cons : SessionsFirst (exchange :: journal) ↔
    SessionsFirst journal ∧ ∀ service call request, exchange = .started service call request →
      .opened service request.host true ∈ journal := by
  constructor
  · intro first
    refine ⟨?_, ?_⟩
    · rintro newer older service call request rfl
      exact first (exchange :: newer) older service call request rfl
    · rintro service call request rfl
      exact first [] journal service call request rfl
  · rintro ⟨first, here⟩ newer older service call request split
    rcases newer with _ | ⟨head, newer⟩
    · simp only [List.nil_append, List.cons.injEq] at split
      rcases split with ⟨isRequest, rfl⟩
      exact here service call request isRequest
    · simp only [List.cons_append, List.cons.injEq] at split
      exact first newer older service call request split.2

theorem sessionsFirst_append_of_quiet (quiet : ∀ exchange ∈ more, exchange.IsQuiet)
    (first : SessionsFirst journal) : SessionsFirst (more ++ journal) := by
  induction more with
  | nil => exact first
  | cons head rest ih =>
    refine sessionsFirst_cons.2 ⟨ih fun exchange listed => quiet exchange
      (List.mem_cons_of_mem _ listed), ?_⟩
    exact fun service call request isRequest =>
      absurd isRequest ((quiet head List.mem_cons_self).2 service call request)

end Journals

namespace Client

variable {σ : Type}

/-- No session is opened or forgotten, and no request is made. -/
structure Keeps (before after : Client σ) : Prop where
  sessions : after.sessions = before.sessions
  journal : ∃ more, after.journal = more ++ before.journal ∧ ∀ exchange ∈ more, exchange.IsQuiet

/-- The part of a journal since the sessions were reset says which sessions are open, and none was
opened twice. As long as `bound` holds, requests were only made with a session. -/
structure Logs (bound : Prop) (origin recent : List Exchange) (client : Client σ) : Prop where
  journal : client.journal = recent ++ origin
  sessions : client.sessions = granted recent
  once : client.sessions.Nodup
  first : bound → SessionsFirst recent

/-- The client keeps a log since its sessions were reset, when `origin` was its journal. -/
def Logged (bound : Prop) (origin : List Exchange) (client : Client σ) : Prop :=
  ∃ recent, client.Logs bound origin recent

variable {bound : Prop} {origin : List Exchange} {before middle after client : Client σ}
  {name host : String}

theorem keeps_of_eq (sessions : after.sessions = before.sessions)
    (journal : after.journal = before.journal) : before.Keeps after :=
  ⟨sessions, [], journal, by simp⟩

theorem Keeps.refl (client : Client σ) : client.Keeps client := keeps_of_eq rfl rfl

theorem Keeps.trans (first : before.Keeps middle) (second : middle.Keeps after) :
    before.Keeps after := by
  rcases first with ⟨sessions, early, earlyJournal, earlyQuiet⟩
  rcases second with ⟨kept, late, lateJournal, lateQuiet⟩
  refine ⟨kept.trans sessions, late ++ early, ?_, ?_⟩
  · rw [lateJournal, earlyJournal, List.append_assoc]
  · intro exchange listed
    exact (List.mem_append.1 listed).elim (lateQuiet exchange) (earlyQuiet exchange)

theorem keeps_note {exchange : Exchange} (quiet : exchange.IsQuiet) (client : Client σ)
    (name : String) (service : σ) : client.Keeps (client.note name service exchange) :=
  ⟨rfl, [exchange], rfl, by simpa using quiet⟩

theorem Keeps.logged (keeps : before.Keeps after) (logged : before.Logged bound origin) :
    after.Logged bound origin := by
  rcases keeps with ⟨sessions, more, journal, quiet⟩
  rcases logged with ⟨recent, logs⟩
  refine ⟨more ++ recent, ?_, ?_, ?_, ?_⟩
  · rw [journal, logs.journal, List.append_assoc]
  · rw [sessions, logs.sessions, granted_append_of_quiet quiet]
  · rw [sessions]
    exact logs.once
  · exact fun isBound => sessionsFirst_append_of_quiet quiet (logs.first isBound)

/-- Once its sessions are reset, a client starts a new log. -/
theorem logged_resetSessions (client : Client σ) :
    client.resetSessions.Logged bound client.journal :=
  ⟨[], rfl, rfl, List.nodup_nil, fun _ => sessionsFirst_nil⟩

variable [RemoteService σ]

theorem keeps_cancel (client : Client σ) (handle : CallHandle) :
    client.Keeps (client.cancel handle) := by
  simp only [cancel]
  split
  · exact .refl client
  · rename_i outstanding _
    have retired : client.Keeps (client.retire handle) := keeps_of_eq rfl rfl
    split
    · exact retired
    · exact retired.trans (keeps_note (quiet_cancelled _ _) _ _ _)

theorem keeps_foldl_cancel (handles : List CallHandle) (client : Client σ) :
    client.Keeps (handles.foldl cancel client) := by
  induction handles generalizing client with
  | nil => exact .refl client
  | cons first rest ih => exact (client.keeps_cancel first).trans (ih (client.cancel first))

theorem keeps_cancelAll (client : Client σ) : client.Keeps client.cancelAll :=
  keeps_foldl_cancel _ _

theorem keeps_settle (client : Client σ) (handle : CallHandle) (service : String)
    (deadline : Option (Duration × Duration)) (now : Duration) (status : CallStatus) :
    client.Keeps (client.settle handle service deadline now status).2 := by
  simp only [settle]
  split
  · split
    · exact client.keeps_cancel handle
    · exact .refl client
  · exact .refl client
  · exact keeps_of_eq rfl rfl

theorem keeps_poll (client : Client σ) (handle : CallHandle) (now : Duration) :
    client.Keeps (client.poll handle now).2 := by
  simp only [poll]
  split
  · exact .refl client
  · split
    · exact .refl client
    · split
      · exact .refl client
      · have noted := fun service call (state : σ) =>
          client.keeps_note (quiet_polled service call) service state
        split
        · exact noted _ _ _
        · exact (noted _ _ _).trans (keeps_settle _ _ _ _ _ _)

/-- A session that is asked for is open afterwards, if there is no error. -/
theorem logged_ensureSession (logged : client.Logged bound origin) (name host : String) :
    (client.ensureSession name host).2.Logged bound origin ∧
      (∀ session ∈ client.sessions, session ∈ (client.ensureSession name host).2.sessions) ∧
      ((client.ensureSession name host).1 = .ok () →
        (name, host) ∈ (client.ensureSession name host).2.sessions) := by
  simp only [ensureSession]
  split
  · rename_i isOpen
    exact ⟨logged, fun _ listed => listed, fun _ => isOpen⟩
  · rename_i isClosed
    split
    · exact ⟨logged, fun _ listed => listed, by simp⟩
    · split
      · rcases logged with ⟨recent, logs⟩
        refine ⟨⟨.opened name host true :: recent, ?_, ?_, ?_, ?_⟩, ?_, ?_⟩
        · exact congrArg _ logs.journal
        · exact congrArg _ logs.sessions
        · exact List.nodup_cons.2 ⟨isClosed, logs.once⟩
        · exact fun isBound => sessionsFirst_cons.2 ⟨logs.first isBound, by simp⟩
        · exact fun _ listed => List.mem_cons_of_mem _ listed
        · exact fun _ => List.mem_cons_self
      · exact ⟨(keeps_note (quiet_refused _ _) _ _ _).logged logged, fun _ listed => listed,
          by simp⟩

/-- To make a request changes no sessions, and it is bound to have one. -/
theorem logged_start (logged : client.Logged bound origin) (request : RemoteRequest)
    (timeout : Option Duration) (now : Duration)
    (opened : bound → (request.service, request.host) ∈ client.sessions) :
    (client.start request timeout now).2.Logged bound origin ∧
      (client.start request timeout now).2.sessions = client.sessions := by
  have noted : ∀ service call,
      (client.note request.service service (.started request.service call request)).Logged bound
        origin := by
    intro service call
    rcases logged with ⟨recent, logs⟩
    refine ⟨.started request.service call request :: recent, ?_, logs.sessions, logs.once, ?_⟩
    · exact congrArg _ logs.journal
    · intro isBound
      refine sessionsFirst_cons.2 ⟨logs.first isBound, ?_⟩
      rintro _ _ _ ⟨⟩
      have session := opened isBound
      rw [logs.sessions] at session
      exact mem_granted.1 session
  simp only [start]
  split
  · exact ⟨logged, rfl⟩
  · split
    · rename_i call service _
      simp only [issue]
      split
      · refine ⟨Keeps.logged ?_ (noted service (some call)), rfl⟩
        exact keeps_of_eq rfl rfl
      · exact ⟨noted service (some call), rfl⟩
    · exact ⟨noted _ none, rfl⟩

end Client

end BehaviorTree
