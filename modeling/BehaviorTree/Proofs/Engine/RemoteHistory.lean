import BehaviorTree.Proofs.Engine.RetryAccounts
import BehaviorTree.Proofs.Engine.Tick

/-!
# Remote nodes in ticks

While a tree is ticked a remote node has its turns, and it may be halted. Everything else leaves
what it remembers alone, so the accounts of the node are kept from one turn to the next one.
-/

namespace BehaviorTree

variable {σ : Type} [RemoteService σ]

/-- What a remote node meets that has its turn in a context. -/
def Context.reply (context : Context σ) (setting : Setting) (key : RunKey) (node : Node) :
    RemoteReply :=
  match node.effectiveConfiguration context with
  | .ok (.remote remote) =>
    (context.runs.remoteRun key).reply setting node remote context.client
  | _ => .unasked

/-- What a node reported in the current tick. -/
def Context.visitsOf (context : Context σ) (key : RunKey) : List Visit :=
  context.visits.filter fun visit => visit.key = key

/-- What a remote node undergoes while a tree is ticked. Its turns are ticks of the engine, of which
none is left out, and apart from them it may be halted. Nothing is asked of what happens elsewhere
but to leave the run state alone: services and other nodes may do as they like. -/
inductive Undergoes (setting : Setting) (key : RunKey) (node : Node) (start : Context σ) :
    RemoteLog → Context σ → Prop where
  | nothing : Undergoes setting key node start [] start
  | elsewhere {log : RemoteLog} {context after : Context σ}
      (before : Undergoes setting key node start log context)
      (state : after.runs.get? key = context.runs.get? key)
      (visits : after.visitsOf key = context.visitsOf key) :
      Undergoes setting key node start log after
  | halted {log : RemoteLog} {context after : Context σ}
      (before : Undergoes setting key node start log context)
      (forgotten : after.runs.get? key = none)
      (visits : after.visitsOf key = context.visitsOf key) :
      Undergoes setting key node start (.ended :: log) after
  | turned {log : RemoteLog} {context after : Context σ} {depth : Nat} {status : Status}
      {visit : Visit} (before : Undergoes setting key node start log context)
      (atKey : context.frame = key.frame)
      (ran : outcome (tickWithin setting depth key.node) context = (.ok status, after))
      (noted : after.visits = visit :: context.visits) :
      Undergoes setting key node start (.turned (context.reply setting key node) visit :: log) after

variable {setting : Setting} {key : RunKey} {node : Node} {remote : RemoteConfiguration}
  {start middle context after : Context σ} {operation : RemoteOperation}

/-- A remote node comes to a result on its turn, before it is noted. -/
structure Context.Answers (start : Context σ) (setting : Setting) (key : RunKey) (node : Node)
    (result : Except TickError Status) (after : Context σ) : Prop where
  visits : after.visits = start.visits
  remembers : ∃ remembered, (start.runs.remoteRun key).Meets setting.config.retry
      (start.reply setting key node) result remembered ∧
    (result = .ok .running → after.runs.get? key = some (.remote remembered))

theorem ends_tickRemote_answers
    (effective : node.effectiveConfiguration start = .ok (.remote remote)) :
    Ends (tickRemote setting key node remote) start
      (fun status after => start.Answers setting key node (.ok status) after)
      fun fault after => ∀ cause, fault = .node cause →
        start.Answers setting key node (.error cause) after := by
  have reply : start.reply setting key node =
      (start.runs.remoteRun key).reply setting node remote start.client := by
    simp only [Context.reply, effective]
  have served : RemoteStep.Ends (RemoteStep.advance setting key node remote)
      (start.runs.remoteRun key) { start with runs := start.runs.erase key }
      (fun _ run after => RemoteStep.Serving setting.now key start run.call after)
      (RemoteStep.Failing setting.now key start) :=
    RemoteStep.ends_advance (serving_start setting.now key start)
  have met : RemoteStep.ComesTo (RemoteStep.advance setting key node remote)
      (start.runs.remoteRun key) { start with runs := start.runs.erase key }
      ((start.runs.remoteRun key).Meets setting.config.retry (start.reply setting key node)) := by
    simpa only [reply] using RemoteStep.comesTo_advance
  simp only [RemoteStep.ComesTo, RemoteStep.Ends, ExceptT.run, StateT.run] at served met
  simp only [Ends, outcome, tickRemote, ExceptT.run, StateT.run]
  revert served met
  rcases RemoteStep.advance setting key node remote (start.runs.remoteRun key)
    { start with runs := start.runs.erase key } with ⟨⟨fault | status, remembered⟩, after⟩
  · rintro served met cause rfl
    exact ⟨served.1.place.visits, remembered, met cause rfl, fun running => by cases running⟩
  · intro served met
    cases status with
    | running =>
      refine ⟨served.place.visits, remembered, met, fun _ => ?_⟩
      exact Context.get?_setRun.trans (if_pos rfl)
    | success => exact ⟨served.place.visits, remembered, met, fun running => by cases running⟩
    | failure => exact ⟨served.place.visits, remembered, met, fun running => by cases running⟩

variable (setting key start) in
/-- A remote node that cannot be configured does not ask its service. -/
theorem ends_attemptNode_answers (fits : node.Fits) (kind : node.kind = .remote operation)
    (run : NodeIndex → Tick σ Status) :
    Ends (attemptNode setting run key node) start
      (fun status after => start.Answers setting key node (.ok status) after)
      fun fault after => ∀ cause, fault = .node cause →
        start.Answers setting key node (.error cause) after := by
  simp only [attemptNode, ends_bind, Attempt.ends_get]
  split
  · rename_i configuration effective
    have same := (fits.effective_kind effective).trans kind
    cases configuration with
    | remote remote => exact ends_tickRemote_answers effective
    | _ => cases same
  · rename_i cause effective
    rintro _ ⟨⟩
    refine ⟨rfl, .initial, .finished (Or.inl ?_) (by simp) (by simp),
      fun running => by cases running⟩
    simp only [Context.reply, effective]
  · rintro _ ⟨⟩

theorem Context.Halts.samePlace {tree : Tree} {roots : List RunKey}
    (halts : context.Halts tree roots after) : context.SamePlace after := by
  rcases halts with ⟨keys, rfl, -⟩
  exact samePlace_discardedAll

theorem ends_settleAttempt_answers (fits : node.Fits) (kind : node.kind = .remote operation)
    (run : NodeIndex → Tick σ Status) :
    Ends (settleAttempt setting key node (attemptNode setting run key node)) start
      (fun status noted => ∃ result after, start.Answers setting key node result after ∧
        noted.runs = after.runs ∧ noted.visits = .ofResult key result :: start.visits ∧
        (status = .running ↔ result = .ok .running)) fun _ _ => True := by
  have attempted := ends_attemptNode_answers setting key start fits kind run
  have settles : (settleAttempt setting key node (attemptNode setting run key node)).run.run start =
      settleAttempt setting key node (attemptNode setting run key node) start := rfl
  simp only [Ends, outcome, settles, settleAttempt] at attempted ⊢
  revert attempted
  rcases (attemptNode setting run key node).run.run start with ⟨(cause | failure) | status, after⟩
  · intro failed
    have answers := failed cause rfl
    refine ⟨.error cause, after, answers, rfl, ?_, by simp⟩
    exact congrArg _ answers.visits
  · exact fun _ => trivial
  · intro answers
    refine ⟨.ok status, after, answers, rfl, ?_, by simp⟩
    exact congrArg _ answers.visits

/-- The result of a turn is noted. A node that is running remembers how it met its reply, and any
other one remembers nothing. -/
theorem ends_tickWithin_remote (wellFormed : setting.tree.WellFormed)
    (found : setting.tree.node? key.node = some node) (kind : node.kind = .remote operation)
    (atKey : start.frame = key.frame) (depth : Nat) :
    Ends (tickWithin setting (depth + 1) key.node) start
      (fun _ after => ∃ result remembered,
        (start.runs.remoteRun key).Meets setting.config.retry (start.reply setting key node) result
          remembered ∧
        after.visits = .ofResult key result :: start.visits ∧
        (result = .ok .running → after.runs.get? key = some (.remote remembered)) ∧
        (result ≠ .ok .running → after.runs.get? key = none)) fun _ _ => True := by
  have isNode : (setting.tree.node? key.node).isSome := by simp [found]
  have fits := wellFormed.fits _ _ found
  have here : (⟨start.frame, key.node⟩ : RunKey) = key := by simp only [atKey]
  simp only [tickWithin, found, ends_bind, ends_get, here]
  refine (ends_settleAttempt_answers fits kind _).mono ?_ fun _ _ _ => trivial
  rintro status noted ⟨result, answered, answers, runs, visits, isRunning⟩
  rcases answers.remembers with ⟨remembered, meets, kept⟩
  simp only [concludeNode]
  split
  · rename_i running
    refine ⟨result, remembered, meets, visits, ?_, ?_⟩
    · intro goesOn
      simpa only [runs] using kept goesOn
    · exact fun ended => absurd (isRunning.1 running) ended
  · rename_i notRunning
    refine (ends_halt wellFormed isNode noted).mono ?_ fun _ _ impossible => impossible.elim
    intro _ after halts
    refine ⟨result, remembered, meets, ?_, ?_, ?_⟩
    · exact halts.samePlace.visits.trans visits
    · exact fun goesOn => absurd (isRunning.2 goesOn) notRunning
    · exact fun _ => halts.cleared (.refl _)

omit [RemoteService σ] in
theorem RunStore.remoteRun_of_get? {runs : RunStore} {run : RemoteRun}
    (remembered : runs.get? key = some (.remote run)) : runs.remoteRun key = run := by
  simp only [remoteRun, remembered]

omit [RemoteService σ] in
theorem RunStore.remoteRun_of_none {runs : RunStore} (forgotten : runs.get? key = none) :
    runs.remoteRun key = .initial := by
  simp only [remoteRun, forgotten]

omit [RemoteService σ] in
/-- Only remote nodes remember requests. -/
theorem RunStore.remoteRun_of_fits {runs : RunStore} {tree : Tree} (fits : runs.Fits tree)
    (other : ∀ node operation, tree.node? key.node = some node → node.kind ≠ .remote operation) :
    runs.remoteRun key = .initial := by
  simp only [remoteRun]
  split
  · rename_i run remembered
    rcases fits key _ remembered with ⟨node, found, operation, kind⟩
    exact absurd kind (other node operation found)
  · rfl

/-- The accounts of a node are kept while a tree is ticked. -/
theorem Undergoes.accounted {log earlier : RemoteLog} (wellFormed : setting.tree.WellFormed)
    (found : setting.tree.node? key.node = some node) (kind : node.kind = .remote operation)
    (undergoes : Undergoes setting key node start log after)
    (accounted : (start.runs.remoteRun key).Accounted setting.config.retry earlier) :
    (after.runs.remoteRun key).Accounted setting.config.retry (log ++ earlier) := by
  induction undergoes with
  | nothing => exact accounted
  | elsewhere _ state _ ih =>
    simp only [RunStore.remoteRun, state]
    exact ih
  | halted _ forgotten _ ih =>
    simp only [RunStore.remoteRun_of_none forgotten]
    exact ih.ended
  | @turned _ context _ depth _ _ _ atKey ran noted ih =>
    cases depth with
    | zero => cases ran
    | succ depth =>
      have ticked := (ends_tickWithin_remote wellFormed found kind atKey depth).of_eq_ok ran
      rcases ticked with ⟨result, remembered, meets, visits, goesOn, afresh⟩
      simp only [noted, List.cons.injEq, and_true] at visits
      subst visits
      exact ih.turned meets key (fun running => RunStore.remoteRun_of_get? (goesOn running))
        fun ended => RunStore.remoteRun_of_none (afresh ended)

theorem Undergoes.trans {first second : RemoteLog}
    (before : Undergoes setting key node start first middle)
    (rest : Undergoes setting key node middle second after) :
    Undergoes setting key node start (second ++ first) after := by
  induction rest with
  | nothing => exact before
  | elsewhere _ state visits ih => exact ih.elsewhere state visits
  | halted _ forgotten visits ih => exact ih.halted forgotten visits
  | turned _ atKey ran noted ih => exact ih.turned atKey ran noted

theorem Undergoes.halts {log : RemoteLog} {roots : List RunKey}
    (before : Undergoes setting key node start log context)
    (halts : context.Halts setting.tree roots after) :
    ∃ log, Undergoes setting key node start log after := by
  have visits : after.visitsOf key = context.visitsOf key := by
    simp only [Context.visitsOf, halts.samePlace.visits]
  rcases halts with ⟨keys, rfl, -⟩
  by_cases listed : key ∈ keys
  · have forgotten : (context.discardedAll keys).runs.get? key = none := by
      simp [Context.get?_discardedAll, listed]
    exact ⟨_, before.halted forgotten visits⟩
  · have kept : (context.discardedAll keys).runs.get? key = context.runs.get? key := by
      simp [Context.get?_discardedAll, listed]
    exact ⟨_, before.elsewhere kept visits⟩

/-- Ticks of nodes are undergone by a remote node. -/
def Records (setting : Setting) (key : RunKey) (node : Node) (run : NodeIndex → Tick σ Status) :
    Prop :=
  ∀ (target : RunKey) (context : Context σ), context.frame = target.frame →
    (setting.tree.node? target.node).isSome → context.runs.Fits setting.tree →
    Ends (run target.node) context
      (fun _ after => ∃ log, Undergoes setting key node context log after) fun _ _ => True

variable {upper : RunKey} {other : Node} {run : NodeIndex → Tick σ Status}
  {seen running : List RunKey}

/-- On the course of another node a remote node undergoes what the ticks on the way bring. -/
theorem Course.undergoes (course : setting.Course run upper other start seen running context)
    (found : setting.tree.node? upper.node = some other) (different : key ≠ upper)
    (wellFormed : setting.tree.WellFormed) (atUpper : start.frame = upper.frame)
    (fits : start.runs.Fits setting.tree) (records : Records setting key node run) :
    ∃ log, Undergoes setting key node start log context := by
  induction course with
  | start => exact ⟨[], .nothing⟩
  | wrote _ _ ih => exact ih.imp fun _ before => before.elsewhere rfl rfl
  | noted _ ih => exact ih.imp fun _ before => before.elsewhere rfl rfl
  | remembered _ _ _ ih =>
    refine ih.imp fun _ before => before.elsewhere ?_ rfl
    simp only [Context.get?_setRun, different, ↓reduceIte]
  | opened _ _ _ _ ih =>
    refine ih.imp fun _ before => before.elsewhere ?_ rfl
    simp only [Context.get?_setRun, different, ↓reduceIte]
  | @ticked _ _ context inner after target _ course enters ran outside _ ih =>
    have isNode := wellFormed.closed _ _ (enters.invokes found).leads
    have innerFits : inner.runs.Fits setting.tree := by
      intro other state remembered
      exact course.fits found fits other state ((enters.get? other).symm.trans remembered)
    have atInner := enters.frame ((course.outside found).frame.trans atUpper)
    rcases ih with ⟨log, before⟩
    rcases (records target inner atInner isNode innerFits).of_eq_ok ran with ⟨more, inside⟩
    have entered : Undergoes setting key node start log inner :=
      before.elsewhere (enters.get? key) (by simp only [Context.visitsOf, enters.visits])
    exact ⟨_, (entered.trans inside).elsewhere rfl rfl⟩
  | halted _ _ halts ih =>
    rcases ih with ⟨log, before⟩
    exact before.halts halts
  | served _ _ serves ih =>
    refine ih.imp fun _ before => before.elsewhere (serves.elsewhere key different) ?_
    simp only [Context.visitsOf, serves.place.visits]

omit [RemoteService σ] in
theorem Context.visitsOf_visit_of_ne (different : key ≠ upper) (status : Status)
    (cause : Option TickError) :
    (context.visit ⟨upper, status, cause⟩).visitsOf key = context.visitsOf key := by
  simp [visitsOf, visit, different.symm]

/-- Whatever node is ticked, a remote node undergoes something. -/
theorem records_tickWithin (wellFormed : setting.tree.WellFormed)
    (found : setting.tree.node? key.node = some node) (kind : node.kind = .remote operation)
    (depth : Nat) : Records setting key node (tickWithin (σ := σ) setting depth) := by
  induction depth with
  | zero => exact fun _ _ _ _ _ => trivial
  | succ depth ih =>
    intro target start atTarget isNode fits
    by_cases same : target = key
    · subst same
      have ticked := ends_tickWithin_remote wellFormed found kind atTarget depth
      rcases ran : outcome (tickWithin setting (depth + 1) target.node) start with
        ⟨failure | status, after⟩
      · simp only [Ends, ran]
      · rcases ticked.of_eq_ok ran with ⟨result, remembered, meets, visits, -⟩
        simp only [Ends, ran]
        exact ⟨_, .turned .nothing atTarget ran visits⟩
    · have different : key ≠ target := Ne.symm same
      rcases Option.isSome_iff_exists.1 isNode with ⟨other, foundOther⟩
      have turn : Turn setting (tickWithin setting depth) target other start :=
        ⟨behaves_tickWithin wellFormed depth, wellFormed, foundOther, atTarget, fits⟩
      refine turn.ends_tickWithin.mono ?_ fun _ _ _ => trivial
      intro status after concludes
      cases concludes with
      | running course settled =>
        rcases course.undergoes foundOther different wellFormed atTarget fits ih with ⟨log, before⟩
        exact ⟨log, before.elsewhere rfl (Context.visitsOf_visit_of_ne different _ _)⟩
      | @ended _ _ context _ _ cause reports course ended caused halts =>
        rcases course.undergoes foundOther different wellFormed atTarget fits ih with ⟨log, before⟩
        have noted : Undergoes setting key node start log
            { context.visit ⟨target, status, cause⟩ with reports := reports } :=
          before.elsewhere rfl (Context.visitsOf_visit_of_ne different _ _)
        exact noted.halts halts

theorem ends_tick_undergoes (wellFormed : setting.tree.WellFormed)
    (found : setting.tree.node? key.node = some node) (kind : node.kind = .remote operation)
    (target : RunKey) (isNode : (setting.tree.node? target.node).isSome)
    (atTarget : start.frame = target.frame) (fits : start.runs.Fits setting.tree) :
    Ends (tick setting target.node) start
      (fun _ after => ∃ log, Undergoes setting key node start log after) fun _ _ => True :=
  records_tickWithin wellFormed found kind _ target start atTarget isNode fits

end BehaviorTree
