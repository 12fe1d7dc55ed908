/-
This file counts the attempts a client makes on its own after a connection was
lost or could not be made. The counter `m_reconnect_attempt` is raised when the
connection ends, before the first automatic attempt, and the timer gives up as
soon as the counter has reached `reconnect_attempts`. The counter is thus one
ahead of the attempts that were made: after the loss of an established connection
one attempt fewer than configured is made. A request to connect leaves the
counter as it is, so that a client that has given up before makes none.
-/

import Kurlyk.WebSocket.Shutdown

namespace Kurlyk.WebSocket

open Client

/-- The entry is a call of `init_websocket`. -/
def Effect.isInit : Effect → Bool
  | .initWebsocket _ => true
  | _ => false

/-- The number of calls of `init_websocket`. -/
def initCalls (log : List Effect) : ℕ :=
  log.countP Effect.isInit

/-- The action is a request to the state machine, by a user or by `shutdown`. -/
def ClientAction.asks : ClientAction → Bool
  | .setConfig _ _ => true
  | .connect _ => true
  | .disconnect _ => true
  | .callShutdown => true
  | _ => false

/-- The last call of `init_websocket` was made for a request to connect. -/
def RequestedAttempt (log : List Effect) : Prop :=
  ∃ before callback after, log =
    before ++ .initWebsocket true :: .settled (.requestConnect callback) true :: after ∧
      initCalls after = 0

/-- The step is no request, and no attempt succeeds with it. -/
def Failing (world : ClientWorld) (action : ClientAction) : Prop :=
  action.asks = false ∧
    ∀ next, clientSystem.step world action = some next → next.client.fsmState ≠ .working

instance (world : ClientWorld) (action : ClientAction) : Decidable (Failing world action) :=
  decidable_of_iff (action.asks = false ∧ ∀ next ∈ clientSystem.step world action,
    next.client.fsmState ≠ .working) Iff.rfl

/-- A connection is lost, or a requested one cannot be made, and from then on there are no
requests and every attempt fails. -/
structure FailingRun (config : WebSocketConfig) (world lost : ClientWorld)
    (actions : List ClientAction) (finish : ClientWorld) : Prop where
  reachable : clientSystem.Reachable world
  origin : world.client.fsmState = .working ∨
    world.client.fsmState = .connecting ∧ RequestedAttempt world.client.log
  ended : ∃ action, clientSystem.step world action = some lost
  waiting : lost.client.fsmState = .reconnecting
  configured : lost.client.config = some config
  enabled : config.reconnect = true
  limited : 0 < config.reconnectAttempts
  pending : ∀ event ∈ lost.client.fsmEventQueue, event.FromBackend
  runs : clientSystem.Runs lost actions finish
  failing : clientSystem.Throughout Failing lost actions

/-! ### The counter -/

section Counter

variable {before after : Machine} {input : Input} {event : FsmEventData} {effects : List Effect}

/-- The counter is zero with a connection, and at least one while the client waits for the next. -/
def Counted (machine : Machine) : Prop :=
  (machine.fsmState = .working → machine.reconnectAttempt = 0) ∧
    (machine.fsmState = .reconnecting → 1 ≤ machine.reconnectAttempt)

theorem Counted.of_elsewhere {machine : Machine} (working : machine.fsmState ≠ .working)
    (reconnecting : machine.fsmState ≠ .reconnecting) : Counted machine :=
  ⟨fun state => absurd state working, fun state => absurd state reconnecting⟩

theorem counted_attempted (event : FsmEventData) (input : Input) (machine : Machine) :
    Counted (attempted event input machine).1 := by
  unfold attempted
  split <;> exact .of_elsewhere (by simp) (by simp)

theorem Handled.counted (handled : Handled before input event after effects)
    (counted : Counted before) : Counted after := by
  cases handled with
  | ignored event branch => exact counted
  | message text attempt state => exact counted
  | stored config callback state => exact counted
  | connects callback state config configured => exact counted_attempted _ _ _
  | reconfigured config callback state => exact counted_attempted _ _ _
  | opened statusCode attempt state => exact ⟨fun _ => rfl, by simp⟩
  | lost report attempt errors closeEvent ends state config configured =>
    unfold afterLoss
    split
    · exact ⟨by simp, fun _ => Nat.succ_pos _⟩
    · exact .of_elsewhere (by simp) (by simp)
  | undefined report attempt effects state missing => exact counted
  | _ => exact .of_elsewhere (by simp) (by simp)

theorem Timed.counted (timed : Timed before input after effects) (counted : Counted before) :
    Counted after := by
  cases timed with
  | waiting config configured enabled left early => exact counted
  | _ => exact .of_elsewhere (by simp) (by simp)

theorem counted_processFsmState {client : Client} (counted : Counted client.toMachine)
    (input : Input) : Counted (client.processFsmState input).toMachine := by
  refine processFsmState_induction (fun current => Counted current.toMachine) counted ?_ ?_
  · intro current event rest holds _ _ _
    obtain ⟨_, _, handled⟩ := ((current.popEvent event rest).switch_does event input).outcome
    exact handled.counted holds
  · intro current _ holds
    obtain ⟨_, _, _, timed⟩ := current.reconnectTimer_does input
    exact timed.counted holds

theorem client_counted {world : ClientWorld} (reachable : clientSystem.Reachable world) :
    Counted world.client.toMachine := by
  refine reachable.induction (fun world => Counted world.client.toMachine) ?_ ?_
  · exact .of_elsewhere (by simp [clientSystem]) (by simp [clientSystem])
  · intro before action after _ counted stepped
    cases fsmStep_of_step stepped with
    | tick input _ given same => exact same ▸ counted_processFsmState counted input
    | push event next machine queue log origin => exact machine ▸ counted
    | aside next machine queue effects log sends => exact machine ▸ counted

/-- The counter is raised when the client begins to wait. -/
theorem Handled.raises (handled : Handled before input event after effects)
    (state : before.fsmState ≠ .reconnecting) (waiting : after.fsmState = .reconnecting) :
    after.reconnectAttempt = before.reconnectAttempt + 1 := by
  cases handled with
  | lost report attempt errors closeEvent ends attached config configured =>
    unfold afterLoss at waiting ⊢
    split at waiting
    · rename_i enabled
      simp [enabled]
    · simp at waiting
  | connects callback elsewhere =>
    unfold attempted at waiting
    split at waiting <;> simp at waiting
  | reconfigured config callback elsewhere =>
    unfold attempted at waiting
    split at waiting <;> simp at waiting
  | _ => simp_all

/-- The call in which a connection ends raises the counter once. -/
theorem raises_processFsmState {client : Client} (counted : Counted client.toMachine)
    (input : Input) (state : client.fsmState = .working ∨ client.fsmState = .connecting)
    (waiting : (client.processFsmState input).fsmState = .reconnecting) :
    (client.processFsmState input).reconnectAttempt = client.reconnectAttempt + 1 := by
  rcases state with working | connecting
  · rw [counted.1 working]
    refine (processFsmState_induction (fun current => Counted current.toMachine ∧
      (current.fsmState = .reconnecting → current.reconnectAttempt = 0 + 1)) ?_ ?_ ?_).2 waiting
    · exact ⟨counted, by simp [working]⟩
    · rintro current event rest ⟨holds, _⟩ sameState _ _
      obtain ⟨_, _, handled⟩ := ((current.popEvent event rest).switch_does event input).outcome
      have still : current.fsmState = .working := sameState.trans working
      refine ⟨handled.counted holds, fun waits => ?_⟩
      rw [handled.raises (by simp [still]) waits]
      exact congrArg (· + 1) (holds.1 still)
    · intro current elsewhere
      simp [working] at elsewhere
  · rw [processFsmState_of_plain _ _ (by simp [connecting]) (by simp [connecting])] at waiting ⊢
    split at waiting
    · simp [connecting] at waiting
    · rename_i event rest queue
      obtain ⟨_, _, handled⟩ := ((client.popEvent event rest).switch_does event input).outcome
      exact handled.raises (by simp [connecting]) waiting

end Counter

/-! ### The account of a failing run -/

/-- What a failing run has spent of its budget, since the counter stood at `first` and
`init_websocket` had been called `base` times. -/
structure Account (config : WebSocketConfig) (first base : ℕ) (machine : Machine) (calls : ℕ) :
    Prop where
  configured : machine.config = some config
  waiting : machine.fsmState = .reconnecting → calls + first = base + machine.reconnectAttempt ∧
    (machine.reconnectAttempt = first ∨
      (machine.reconnectAttempt : ℤ) ≤ config.reconnectAttempts)
  trying : machine.fsmState = .connecting →
    calls + first = base + machine.reconnectAttempt + 1 ∧
      (machine.reconnectAttempt : ℤ) < config.reconnectAttempts
  done : machine.fsmState = .init → calls = base + (config.reconnectAttempts - first).toNat
  grown : base ≤ calls
  bounded : calls ≤ base + (config.reconnectAttempts - first).toNat

section Account

variable {config : WebSocketConfig} {first base calls : ℕ} {before after : Machine}
  {input : Input} {event : FsmEventData} {effects : List Effect}

theorem initCalls_append (log effects : List Effect) :
    initCalls (log ++ effects) = initCalls log + initCalls effects :=
  List.countP_append

theorem initCalls_nil : initCalls [] = 0 := rfl

/-- When the timer is due, the counter has not reached the limit. -/
theorem Due.remaining (due : Due before input config)
    (limited : 0 < config.reconnectAttempts) :
    (before.reconnectAttempt : ℤ) < config.reconnectAttempts := by
  have left := due.2.1
  simp only [Exhausted, not_and, not_le, ge_iff_le] at left
  exact left (by omega)

theorem initCalls_closing (connected : Bool) (event : WebSocketEventData) :
    initCalls (closing connected event) = 0 := by
  cases connected <;> rfl

theorem Timed.account (timed : Timed before input after effects)
    (account : Account config first base before calls) (enabled : config.reconnect = true)
    (limited : 0 < config.reconnectAttempts) (state : before.fsmState = .reconnecting) :
    Account config first base after (calls + initCalls effects) := by
  obtain ⟨spent, left⟩ := account.waiting state
  have configured := account.configured
  have grown := account.grown
  have bounded := account.bounded
  cases timed with
  | missing unset => simp [configured] at unset
  | finished other given ended =>
    obtain rfl : other = config := Option.some.inj (given.symm.trans configured)
    have exhausted := (ended.resolve_left (by simp [enabled])).2
    exact ⟨configured, by simp, by simp, fun _ => by rw [initCalls_nil]; omega, grown, bounded⟩
  | waiting other given _ remaining early => exact account
  | started other given due answer =>
    obtain rfl : other = config := Option.some.inj (given.symm.trans configured)
    have remaining := due.remaining limited
    have called : initCalls [.initWebsocket true] = 1 := rfl
    rw [called]
    exact ⟨configured, by simp, fun _ => ⟨by dsimp only; omega, remaining⟩, by simp, by omega,
      by omega⟩
  | failed other given due answer =>
    obtain rfl : other = config := Option.some.inj (given.symm.trans configured)
    have remaining := due.remaining limited
    have called : initCalls [.initWebsocket false, invalidConfiguration] = 1 := rfl
    rw [called]
    exact ⟨configured, by simp, by simp, by simp, by omega, by omega⟩

/-- A report of the backend opens the connection or leaves the account in order. -/
theorem Handled.account (handled : Handled before input event after effects)
    (account : Account config first base before calls) (enabled : config.reconnect = true)
    (report : event.FromBackend) (state : before.fsmState ≠ .working) :
    (before.fsmState = .connecting ∧ after.fsmState = .working) ∨
      Account config first base after (calls + initCalls effects) ∧
        (before.fsmState = .reconnecting → after.fsmState = .reconnecting) := by
  have configured := account.configured
  have grown := account.grown
  have bounded := account.bounded
  cases handled with
  | ignored event branch =>
    have silent : initCalls (settlement event false) = 0 := by
      cases event with
      | backend => rfl
      | _ => exact report.elim
    rw [silent]
    exact Or.inr ⟨account, id⟩
  | message text attempt _ => exact Or.inr ⟨account, id⟩
  | opened statusCode attempt trying => exact Or.inl ⟨trying, rfl⟩
  | lost report attempt errors closeEvent ends attached other given =>
    right
    obtain rfl : other = config := Option.some.inj (given.symm.trans configured)
    have silent : initCalls errors = 0 := by
      rcases (ends_cases ends).2 with rfl | ⟨errorCode, rfl⟩ <;> rfl
    have trying := attached.resolve_right state
    obtain ⟨spent, left⟩ := account.trying trying
    have uncalled : initCalls (errors ++ .deinitWebsocket :: closing before.isConnected closeEvent)
        = 0 := by
      rw [initCalls_append, silent, Nat.zero_add]
      exact initCalls_closing _ _
    rw [uncalled]
    unfold afterLoss
    rw [if_pos enabled]
    refine ⟨⟨configured, fun _ => ⟨?_, Or.inr ?_⟩, by simp, by simp, grown, bounded⟩, fun _ => rfl⟩
    · dsimp only; omega
    · push_cast; omega
  | undefined report attempt effects attached missing => simp [configured] at missing
  | _ => exact report.elim

/-- The account of a client in a failing run is in order. -/
structure Spent (config : WebSocketConfig) (first base : ℕ) (client : Client) : Prop where
  account : Account config first base client.toMachine (initCalls client.log)
  closed : client.fsmState ≠ .working
  pending : ∀ event ∈ client.fsmEventQueue, event.FromBackend

variable {client : Client}

theorem Spent.switch (spent : Spent config first base client) (enabled : config.reconnect = true)
    {rest : List FsmEventData} (queue : client.fsmEventQueue = event :: rest) (input : Input) :
    (client.fsmState = .connecting ∧
        ((client.popEvent event rest).switch event input).fsmState = .working) ∨
      Account config first base ((client.popEvent event rest).switch event input).toMachine
          (initCalls ((client.popEvent event rest).switch event input).log) ∧
        (client.fsmState = .reconnecting →
          ((client.popEvent event rest).switch event input).fsmState = .reconnecting) := by
  obtain ⟨effects, log, handled⟩ := ((client.popEvent event rest).switch_does event input).outcome
  have report : event.FromBackend := spent.pending event (queue ▸ List.mem_cons_self)
  have calls : initCalls (client.popEvent event rest).log = initCalls client.log := by
    rw [popEvent_log, initCalls_append]
    rfl
  rw [log, initCalls_append, calls]
  exact handled.account spent.account enabled report spent.closed

theorem account_timer (account : Account config first base client.toMachine (initCalls client.log))
    (enabled : config.reconnect = true) (limited : 0 < config.reconnectAttempts)
    (state : client.fsmState = .reconnecting) (input : Input) :
    Account config first base (client.reconnectTimer input).toMachine
      (initCalls (client.reconnectTimer input).log) := by
  obtain ⟨_, effects, log, timed⟩ := client.reconnectTimer_does input
  rw [log, initCalls_append]
  exact timed.account account enabled limited state

theorem Spent.processFsmState (spent : Spent config first base client)
    (enabled : config.reconnect = true) (limited : 0 < config.reconnectAttempts) (input : Input)
    (failing : (client.processFsmState input).fsmState ≠ .working) :
    Spent config first base (client.processFsmState input) := by
  refine ⟨?_, failing, ?_⟩
  · by_cases waiting : client.fsmState = .reconnecting
    · rw [processFsmState_of_reconnecting _ _ waiting]
      split
      · exact account_timer spent.account enabled limited waiting input
      · rename_i event rest queue
        rcases spent.switch enabled queue input with ⟨trying, _⟩ | ⟨account, stays⟩
        · simp [waiting] at trying
        · exact account_timer account enabled limited (stays waiting) input
    · rw [processFsmState_of_plain _ _ spent.closed waiting] at failing ⊢
      split at failing
      · exact spent.account
      · rename_i event rest queue
        rcases spent.switch enabled queue input with ⟨_, opened⟩ | ⟨account, _⟩
        · exact absurd opened failing
        · exact account
  · intro event member
    refine spent.pending event ?_
    rw [client.processFsmState_queue input]
    exact List.mem_append_right _ member

end Account

/-! ### Whole runs -/

theorem addSendCallback_queue (client : Client) (errorCode : ErrorCode) (callback : Option ℕ) :
    (client.addSendCallback errorCode callback).fsmEventQueue = client.fsmEventQueue := by
  cases callback <;> rfl

theorem completeSend_queue (client : Client) (errorCode : ErrorCode) (callback : Option ℕ) :
    (client.completeSend errorCode callback).fsmEventQueue = client.fsmEventQueue := by
  cases callback <;> rfl

/-- Without requests, only reports of the backend enter the queue. -/
theorem pending_of_step {world next : ClientWorld} {action : ClientAction}
    (stepped : world.step action = some next) (unasked : action.asks = false)
    (untimed : action.input? = none)
    (pending : ∀ event ∈ world.client.fsmEventQueue, event.FromBackend) :
    ∀ event ∈ next.client.fsmEventQueue, event.FromBackend := by
  cases clientStep_of_step stepped with
  | setConfig | connect | disconnect | callShutdown => cases unasked
  | callProcess | loopShutdown => cases untimed
  | @report event attempt =>
    intro other member
    rw [ClientWorld.report, addFsmEvent_queue, List.mem_append, List.mem_singleton] at member
    rcases member with old | rfl
    · exact pending other old
    · trivial
  | @submitMessage _ _ callback | @submitClose _ _ callback => cases callback <;> exact pending
  | enqueue =>
    unfold Client.enqueue
    split <;> exact pending
  | finishSend =>
    dsimp only
    rw [addSendCallback_queue]
    exact pending
  | send =>
    unfold ClientWorld.sendOne
    split
    · exact pending
    · dsimp only
      rw [completeSend_queue]
      exact pending
  | setEventHandler | receiveEvents | receiveEvent | rejectMessage | rejectClose
  | processMessageQueue | allSent | processSendCallbackQueue | drainSendCallbackQueue
  | returnShutdown => exact pending

theorem initCalls_of_sends {effects : List Effect} (sends : ∀ effect ∈ effects, effect.OfSend) :
    initCalls effects = 0 := by
  refine List.countP_eq_zero.mpr fun effect member => ?_
  have send := sends effect member
  cases effect with
  | initWebsocket started => exact send.elim
  | _ => exact Bool.false_ne_true

theorem Spent.step {config : WebSocketConfig} {first base : ℕ} {world next : ClientWorld}
    {action : ClientAction} (spent : Spent config first base world.client)
    (enabled : config.reconnect = true) (limited : 0 < config.reconnectAttempts)
    (failing : Failing world action) (stepped : world.step action = some next) :
    Spent config first base next.client := by
  obtain ⟨unasked, closed⟩ := failing
  cases timed : action.input? with
  | some input =>
    have same := client_of_tick stepped timed
    rw [same]
    exact spent.processFsmState enabled limited input (same ▸ closed next stepped)
  | none =>
    have pending := pending_of_step stepped unasked timed spent.pending
    cases fsmStep_of_step stepped with
    | tick input _ given same => simp [timed] at given
    | push event _ machine queue log origin =>
      exact ⟨by rw [machine, log]; exact spent.account, closed next stepped, pending⟩
    | aside _ machine queue effects log sends =>
      refine ⟨?_, closed next stepped, pending⟩
      rw [machine, log, initCalls_append, initCalls_of_sends sends]
      exact spent.account

/-- The step in which a connection ends raises the counter once. -/
theorem FailingRun.raised {config : WebSocketConfig} {world lost finish : ClientWorld}
    {actions : List ClientAction} (run : FailingRun config world lost actions finish) :
    lost.client.reconnectAttempt = world.client.reconnectAttempt + 1 := by
  obtain ⟨action, stepped⟩ := run.ended
  have state : world.client.fsmState = .working ∨ world.client.fsmState = .connecting :=
    run.origin.imp_right And.left
  have waiting := run.waiting
  cases fsmStep_of_step stepped with
  | tick input _ given same =>
    rw [same] at waiting ⊢
    exact raises_processFsmState (client_counted run.reachable) input state waiting
  | push event _ machine queue log origin => rcases state with state | state <;> simp_all
  | aside _ machine queue effects log sends => rcases state with state | state <;> simp_all

/-- Whenever a connection is lost or a requested one cannot be made, and every later attempt
fails, the client makes fewer automatic attempts than the configuration says: it gives up after
as many as the configuration exceeds the counter, which was raised before the first of them. -/
theorem reconnect_budget_short {config : WebSocketConfig} {world lost finish : ClientWorld}
    {actions : List ClientAction} (run : FailingRun config world lost actions finish) :
    (initCalls finish.client.log : ℤ) - initCalls lost.client.log < config.reconnectAttempts ∧
      (finish.client.fsmState = .init → finish.client.isRunning = false ∧
        initCalls finish.client.log = initCalls lost.client.log +
          (config.reconnectAttempts - (world.client.reconnectAttempt + 1)).toNat) ∧
      (world.client.fsmState = .working → world.client.reconnectAttempt = 0) := by
  obtain ⟨action, stepped⟩ := run.ended
  have lostReachable := run.reachable.step stepped
  have limited := run.limited
  have raised := run.raised
  have start : Spent config lost.client.reconnectAttempt (initCalls lost.client.log) lost.client :=
    ⟨⟨run.configured, fun _ => ⟨rfl, Or.inl rfl⟩, by simp [run.waiting], by simp [run.waiting],
      le_rfl, by omega⟩, by simp [run.waiting], run.pending⟩
  have spent : Spent config lost.client.reconnectAttempt (initCalls lost.client.log)
      finish.client := by
    refine run.runs.induction_throughout run.failing
      (fun world => Spent config _ (initCalls lost.client.log) world.client) lostReachable start ?_
    intro state action next _ failing holds once
    exact holds.step run.enabled limited failing once
  have bounded := spent.account.bounded
  refine ⟨by omega, fun done => ⟨?_, ?_⟩, (client_counted run.reachable).1⟩
  · exact (client_agrees (lostReachable.runs run.runs)).shape.resting done
  · rw [spent.account.done done, raised]
    push_cast
    rfl

/-- A client that is allowed two automatic attempts has a connection, and its end is reported. -/
def allowedTwo : List ClientAction :=
  List.flatten [connectWith { reconnectAttempts := 2, reconnectDelay := 1 }, openAttempt 1,
    [.report (.connectionClosed "bye" 1000) 1]]

/-- The rest of the call in which the connection ends, one automatic attempt that fails, and the
call that gives up. -/
def givesUp : List ClientAction :=
  List.flatten [[.processMessageQueue fun _ => {}, .send, .processSendCallbackQueue],
    processOnce { now := 6000000000 }, [.report (.connectionError (.backend 111)) 2],
    processOnce { now := 7000000000 }, processOnce { now := 8000000000 }]

theorem failingRun_givesUp :
    ∃ world lost finish, FailingRun { reconnectAttempts := 2, reconnectDelay := 1 } world lost
        givesUp finish ∧ finish.client.fsmState = .init ∧
      initCalls finish.client.log = initCalls lost.client.log + 1 := by
  have evaluated : (clientSystem.run clientSystem.init allowedTwo).any (fun world =>
      decide (world.client.fsmState = .working) &&
        (clientSystem.step world (.callProcess { now := 5000000000 })).any fun lost =>
          decide (lost.client.fsmState = .reconnecting ∧
            lost.client.config = some { reconnectAttempts := 2, reconnectDelay := 1 } ∧
            (∀ event ∈ lost.client.fsmEventQueue, event.FromBackend) ∧
            clientSystem.Throughout Failing lost givesUp) &&
          (clientSystem.run lost givesUp).any fun finish =>
            decide (finish.client.fsmState = .init ∧
              initCalls finish.client.log = initCalls lost.client.log + 1)) = true := by
    decide +kernel
  obtain ⟨world, first, checked⟩ := System.exists_runs evaluated
  rw [Bool.and_eq_true, decide_eq_true_eq, Option.any_eq_true] at checked
  obtain ⟨working, lost, ended, checkedLost⟩ := checked
  rw [Bool.and_eq_true, decide_eq_true_eq] at checkedLost
  obtain ⟨⟨waiting, configured, pending, failing⟩, continued⟩ := checkedLost
  obtain ⟨finish, runs, checkedFinish⟩ := System.exists_runs continued
  rw [decide_eq_true_eq] at checkedFinish
  exact ⟨world, lost, finish, ⟨⟨allowedTwo, first⟩, Or.inl working, ⟨_, ended⟩, waiting,
    configured, rfl, by decide, pending, runs, failing⟩, checkedFinish⟩

theorem reconnect_budget_short_givesUp :
    ∃ world lost finish, FailingRun { reconnectAttempts := 2, reconnectDelay := 1 } world lost
        givesUp finish ∧
      (initCalls finish.client.log : ℤ) - initCalls lost.client.log < 2 ∧
      finish.client.isRunning = false := by
  obtain ⟨world, lost, finish, run, done, _⟩ := failingRun_givesUp
  obtain ⟨short, ended, _⟩ := reconnect_budget_short run
  exact ⟨world, lost, finish, run, short, (ended done).1⟩

/-- One automatic attempt is made where two are configured. -/
theorem reconnect_budget_not_met :
    ¬ ∀ config world lost actions finish, FailingRun config world lost actions finish →
      finish.client.fsmState = .init →
      (initCalls finish.client.log : ℤ) = initCalls lost.client.log + config.reconnectAttempts := by
  obtain ⟨world, lost, finish, run, done, calls⟩ := failingRun_givesUp
  intro always
  have full := always _ world lost givesUp finish run done
  rw [calls] at full
  simp at full

end Kurlyk.WebSocket
