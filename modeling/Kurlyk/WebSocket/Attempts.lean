/-
This file counts the connection attempts of a client. An attempt is live from a
successful `init_websocket` to the next `deinit_websocket`, and the log tells how
many are. A client keeps to one attempt at a time as long as it is not given a
new configuration while it waits to reconnect: the timer runs after the switch
in the same call and does not know that the switch has just made an attempt.
-/

import Kurlyk.WebSocket.Connection

namespace Kurlyk.WebSocket

open Client

/-- What the log tells of attempts: how many were started, which are live, and whether
`init_websocket` was ever called while one was. -/
structure Attempts where
  started : ℕ := 0
  live : List ℕ := []
  overlapped : Bool := false
deriving DecidableEq

/-- One entry of the log. -/
def Attempts.next (attempts : Attempts) : Effect → Attempts
  | .initWebsocket true =>
    { started := attempts.started + 1
      live := attempts.live ++ [attempts.started + 1]
      overlapped := attempts.overlapped || !attempts.live.isEmpty }
  | .initWebsocket false =>
    { attempts with overlapped := attempts.overlapped || !attempts.live.isEmpty }
  | .deinitWebsocket => { attempts with live := [] }
  | _ => attempts

/-- The attempts of a whole log. -/
def attempts (log : List Effect) : Attempts :=
  log.foldl Attempts.next {}

theorem attempts_append (log effects : List Effect) :
    attempts (log ++ effects) = effects.foldl Attempts.next (attempts log) :=
  List.foldl_append

/-- The machine tries a connection or has one. -/
def Machine.Attached (machine : Machine) : Prop :=
  machine.fsmState = .connecting ∨ machine.fsmState = .working

instance (machine : Machine) : Decidable machine.Attached :=
  inferInstanceAs (Decidable (_ ∨ _))

/-- There is one live attempt while the machine tries or has a connection, there is none
otherwise, and no attempt was ever begun while another was live. -/
def OneAttempt (machine : Machine) (attempts : Attempts) : Prop :=
  attempts.live.length = (if machine.Attached then 1 else 0) ∧ attempts.overlapped = false

instance (machine : Machine) (attempts : Attempts) : Decidable (OneAttempt machine attempts) :=
  inferInstanceAs (Decidable (_ ∧ _))

/-! ### One outcome -/

section Outcomes

variable {before after : Machine} {input : Input} {event : FsmEventData} {effects : List Effect}
  {counted : Attempts}

@[simp]
theorem foldl_next_settlement (event : FsmEventData) (success : Bool) :
    (settlement event success).foldl Attempts.next counted = counted := by
  cases event <;> rfl

@[simp]
theorem foldl_next_closing (connected : Bool) (event : WebSocketEventData) :
    (closing connected event).foldl Attempts.next counted = counted := by
  unfold closing
  split <;> rfl

theorem OneAttempt.live_eq_nil (one : OneAttempt before counted) (apart : ¬ before.Attached) :
    counted.live = [] :=
  List.length_eq_zero_iff.mp (by rw [one.1, if_neg apart])

/-- A new attempt from nothing. -/
theorem OneAttempt.attempted (none : counted.live = []) (never : counted.overlapped = false)
    (event : FsmEventData) (input : Input) (machine : Machine) :
    OneAttempt (Client.attempted event input machine).1
      ((Client.attempted event input machine).2.foldl Attempts.next counted) := by
  unfold Client.attempted
  split
  · simp [OneAttempt, Machine.Attached, Attempts.next, none, never]
  · simp [OneAttempt, Machine.Attached, Attempts.next, invalidConfiguration, none, never]

/-- A machine apart from any connection, with no attempt. -/
theorem OneAttempt.apart {machine : Machine} (none : counted.live = [])
    (never : counted.overlapped = false)
    (state : machine.fsmState = .init ∨ machine.fsmState = .reconnecting ∨
      machine.fsmState = .stopped) : OneAttempt machine counted := by
  rcases state with state | state | state <;>
    simp [OneAttempt, Machine.Attached, state, none, never]

theorem OneAttempt.cleared (one : OneAttempt before counted) :
    (((Client.cleared before).2).foldl Attempts.next counted).live = [] ∧
      (((Client.cleared before).2).foldl Attempts.next counted).overlapped = false := by
  unfold Client.cleared
  split
  · simp [Attempts.next, one.2]
  · rename_i apart
    exact ⟨one.live_eq_nil apart, one.2⟩

theorem foldl_next_errors {report : BackendEvent} {errors : List Effect}
    {closeEvent : WebSocketEventData} (ends : Ends report = some (errors, closeEvent)) :
    errors.foldl Attempts.next counted = counted := by
  rcases (ends_cases ends).2 with rfl | ⟨errorCode, rfl⟩ <;> rfl

theorem Handled.oneAttempt (handled : Handled before input event after effects)
    (shape : Shape before) (one : OneAttempt before counted) :
    OneAttempt after (effects.foldl Attempts.next counted) := by
  cases handled with
  | ignored event branch =>
    rw [foldl_next_settlement]
    exact one
  | message text attempt state => exact one
  | stored config callback state => exact one
  | unconfigured callback state missing =>
    refine .apart (one.live_eq_nil ?_) one.2 (Or.inr (Or.inr rfl))
    rcases state with state | state <;> simp [Machine.Attached, state]
  | connects callback state config configured =>
    refine .attempted (one.live_eq_nil ?_) one.2 _ _ _
    rcases state with state | state <;> simp [Machine.Attached, state]
  | deconfigured callback state =>
    rw [List.foldl_append]
    exact .apart one.cleared.1 one.cleared.2 (Or.inr (Or.inr rfl))
  | reconfigured config callback state =>
    rw [List.foldl_append]
    exact .attempted one.cleared.1 one.cleared.2 _ _ _
  | opened statusCode attempt state =>
    have unchanged : ((if before.isConnected then []
        else [.delivered (createWebsocketOpenEvent statusCode)]) : List Effect).foldl
          Attempts.next counted = counted := by
      split <;> rfl
    rw [unchanged]
    simpa [OneAttempt, Machine.Attached, state] using one
  | lost report attempt errors closeEvent ends state config configured =>
    rw [List.foldl_append, foldl_next_errors ends, List.foldl_cons, foldl_next_closing]
    refine .apart rfl one.2 ?_
    unfold afterLoss
    split
    · exact Or.inr (Or.inl rfl)
    · exact Or.inl rfl
  | undefined report attempt effects state missing =>
    exact absurd missing (shape.not_missing state)
  | disconnected callback state =>
    rw [List.cons_append, List.foldl_cons, List.foldl_append, foldl_next_closing]
    exact .apart rfl one.2 (Or.inl rfl)
  | abandoned callback state =>
    exact .apart (one.live_eq_nil (by simp [Machine.Attached, state])) one.2 (Or.inl rfl)

/-- The timer keeps to one attempt when the switch has made none. -/
theorem Timed.oneAttempt (timed : Timed before input after effects)
    (one : OneAttempt before counted) (apart : ¬ before.Attached) :
    OneAttempt after (effects.foldl Attempts.next counted) := by
  have none := one.live_eq_nil apart
  cases timed with
  | missing unset => exact .apart none one.2 (Or.inr (Or.inr rfl))
  | finished config configured ended => exact .apart none one.2 (Or.inl rfl)
  | waiting config configured enabled left early => exact one
  | started config configured due answer =>
    simp [OneAttempt, Machine.Attached, Attempts.next, none, one.2]
  | failed config configured due answer =>
    simp [OneAttempt, Machine.Attached, Attempts.next, invalidConfiguration, none, one.2]

/-- A timer that runs after the switch has made an attempt spoils it, unless it has to wait. -/
theorem Timed.spoils (timed : Timed before input after effects)
    (live : counted.live ≠ []) {config : WebSocketConfig} (configured : before.config = some config)
    (acts : config.reconnect = false ∨ Exhausted config before.reconnectAttempt ∨
      elapsedSeconds input.now before.closeTime ≥ config.reconnectDelay) :
    ¬ OneAttempt after (effects.foldl Attempts.next counted) := by
  have busy : counted.live.isEmpty = false := by simpa using live
  cases timed with
  | missing unset => exact absurd (unset.symm.trans configured) (by simp)
  | finished found again ended =>
    simp [OneAttempt, Machine.Attached, live]
  | waiting found again enabled left early =>
    obtain rfl := Option.some.inj (again.symm.trans configured)
    rcases acts with disabled | exhausted | elapsed
    · simp [disabled] at enabled
    · exact absurd exhausted left
    · omega
  | started found again due answer => simp [OneAttempt, Attempts.next, busy]
  | failed found again due answer =>
    simp [OneAttempt, Attempts.next, invalidConfiguration, busy]

end Outcomes

/-! ### Whole runs -/

/-- The client keeps to one attempt at a time. -/
def Client.KeepsOne (client : Client) : Prop :=
  OneAttempt client.toMachine (attempts client.log)

instance (client : Client) : Decidable client.KeepsOne :=
  inferInstanceAs (Decidable (OneAttempt _ _))

/-- The configuration lets the timer act at once: it does not want to reconnect, has no budget
for a first attempt, or its delay has passed since the last connection. -/
def Immediate (config : WebSocketConfig) (closeTime now : TimePoint) : Prop :=
  config.reconnect = false ∨ Exhausted config 0 ∨
    elapsedSeconds now closeTime ≥ config.reconnectDelay

instance (config : WebSocketConfig) (closeTime now : TimePoint) :
    Decidable (Immediate config closeTime now) :=
  inferInstanceAs (Decidable (_ ∨ _ ∨ _))

/-- The configuration that the next event brings. -/
def newConfig : List FsmEventData → Option WebSocketConfig
  | .updateConfig (some config) _ :: _ => some config
  | _ => none

theorem newConfig_eq_some_iff {events : List FsmEventData} {config : WebSocketConfig} :
    newConfig events = some config ↔
      ∃ callback rest, events = .updateConfig (some config) callback :: rest := by
  constructor
  · intro found
    unfold newConfig at found
    split at found
    · obtain rfl := Option.some.inj found
      exact ⟨_, _, rfl⟩
    · cases found
  · rintro ⟨callback, rest, rfl⟩
    rfl

/-- The call finds the client waiting to reconnect, with a new configuration at the head of the
queue for which `init_websocket` succeeds and the timer acts at once. -/
def Client.Overlaps (client : Client) (input : Input) : Prop :=
  client.fsmState = .reconnecting ∧ input.init = true ∧
    ∃ config ∈ newConfig client.fsmEventQueue, Immediate config client.closeTime input.now

instance (client : Client) (input : Input) : Decidable (client.Overlaps input) :=
  inferInstanceAs (Decidable (_ ∧ _ ∧ ∃ config ∈ newConfig client.fsmEventQueue, _))

section Calls

variable {client : Client} {input : Input}

theorem keepsOne_switch (shape : Shape client.toMachine) (keeps : client.KeepsOne)
    (event : FsmEventData) (rest : List FsmEventData) (input : Input) :
    ((client.popEvent event rest).switch event input).KeepsOne := by
  obtain ⟨effects, log, handled⟩ := ((client.popEvent event rest).switch_does event input).outcome
  rw [Client.KeepsOne, log, attempts_append]
  refine handled.oneAttempt shape ?_
  rw [popEvent_log, attempts_append]
  exact keeps

/-- The machine after a switch in `RECONNECTING`: there is an attempt only when a new
configuration was given and `init_websocket` succeeded. -/
theorem Handled.attached_of_reconnecting {before after : Machine} {event : FsmEventData}
    {effects : List Effect} (handled : Handled before input event after effects)
    (state : before.fsmState = .reconnecting) (attached : after.Attached) :
    input.init = true ∧ ∃ config callback, event = .updateConfig (some config) callback ∧
      after.config = some config ∧ after.reconnectAttempt = 0 ∧
      after.closeTime = before.closeTime := by
  have unattached : cleared before = (before, []) := by
    rw [cleared, if_neg (by simp [state])]
  cases handled with
  | ignored event branch => simp [Machine.Attached, state] at attached
  | message text attempt working => simp [Machine.Attached, state] at attached
  | stored config callback elsewhere => simp [state] at elsewhere
  | unconfigured callback elsewhere => simp [state] at elsewhere
  | connects callback elsewhere => simp [state] at elsewhere
  | deconfigured callback => simp [Machine.Attached] at attached
  | reconfigured config callback =>
    unfold attempted at attached ⊢
    split at attached
    · rename_i started
      rw [if_pos started, unattached]
      exact ⟨started, config, callback, rfl, rfl, rfl, rfl⟩
    · simp [Machine.Attached] at attached
  | opened statusCode attempt elsewhere => simp [state] at elsewhere
  | lost report attempt errors closeEvent ends elsewhere => simp [state] at elsewhere
  | undefined report attempt effects elsewhere => simp [state] at elsewhere
  | disconnected callback elsewhere => simp [state] at elsewhere
  | abandoned callback => simp [Machine.Attached] at attached

theorem keepsOne_timer (keeps : client.KeepsOne) (apart : ¬ client.toMachine.Attached) :
    (client.reconnectTimer input).KeepsOne := by
  obtain ⟨_, effects, log, timed⟩ := client.reconnectTimer_does input
  rw [Client.KeepsOne, log, attempts_append]
  exact timed.oneAttempt keeps apart

/-- A timer that has to wait changes nothing. -/
theorem Timed.waits {before after : Machine} {effects : List Effect}
    (timed : Timed before input after effects) {config : WebSocketConfig}
    (configured : before.config = some config) (fresh : before.reconnectAttempt = 0)
    (waits : ¬ Immediate config before.closeTime input.now) : after = before ∧ effects = [] := by
  simp only [Immediate, not_or, Bool.not_eq_false, Int.not_le] at waits
  obtain ⟨enabled, left, early⟩ := waits
  cases timed with
  | missing unset => exact absurd (unset.symm.trans configured) (by simp)
  | finished found again ended =>
    obtain rfl := Option.some.inj (again.symm.trans configured)
    rw [fresh] at ended
    rcases ended with disabled | exhausted
    · simp [disabled] at enabled
    · exact absurd exhausted left
  | waiting found again _ _ _ => exact ⟨rfl, rfl⟩
  | started found again due answer =>
    obtain rfl := Option.some.inj (again.symm.trans configured)
    exact absurd due.2.2 (by omega)
  | failed found again due answer =>
    obtain rfl := Option.some.inj (again.symm.trans configured)
    exact absurd due.2.2 (by omega)

theorem keepsOne_timer_waiting (keeps : client.KeepsOne) {config : WebSocketConfig}
    (configured : client.config = some config) (fresh : client.reconnectAttempt = 0)
    (waits : ¬ Immediate config client.closeTime input.now) :
    (client.reconnectTimer input).KeepsOne := by
  obtain ⟨_, effects, log, timed⟩ := client.reconnectTimer_does input
  obtain ⟨same, rfl⟩ := timed.waits configured fresh waits
  rw [Client.KeepsOne, log, attempts_append, same]
  exact keeps

theorem keepsOne_processFsmState (agrees : Agrees client) (keeps : client.KeepsOne)
    (apart : ¬ client.Overlaps input) : (client.processFsmState input).KeepsOne := by
  by_cases reconnecting : client.fsmState = .reconnecting
  · rw [processFsmState_of_reconnecting _ _ reconnecting]
    split
    · exact keepsOne_timer keeps (by simp [Machine.Attached, reconnecting])
    · rename_i event rest queue
      have switched := keepsOne_switch agrees.shape keeps event rest input
      by_cases attached :
          ((client.popEvent event rest).switch event input).toMachine.Attached
      · obtain ⟨effects, _, handled⟩ :=
          ((client.popEvent event rest).switch_does event input).outcome
        obtain ⟨started, config, callback, rfl, configured, fresh, sameTime⟩ :=
          handled.attached_of_reconnecting reconnecting attached
        refine keepsOne_timer_waiting switched configured fresh fun immediate => apart ?_
        rw [sameTime] at immediate
        exact ⟨reconnecting, started, config,
          newConfig_eq_some_iff.mpr ⟨callback, rest, queue⟩, immediate⟩
      · exact keepsOne_timer switched attached
  · refine (agrees.induction input Client.KeepsOne keeps ?_ ?_).2
    · intro current event rest holds one _ _ _
      exact keepsOne_switch holds.shape one event rest input
    · intro current state
      exact absurd state reconnecting

/-- A new configuration in `RECONNECTING` for which `init_websocket` succeeds. -/
theorem Handled.started_of_reconnecting {before after : Machine} {effects : List Effect}
    {counted : Attempts} {config : WebSocketConfig} {callback : Option ℕ}
    (handled : Handled before input (.updateConfig (some config) callback) after effects)
    (state : before.fsmState = .reconnecting) (started : input.init = true) :
    after.config = some config ∧ after.reconnectAttempt = 0 ∧
      after.closeTime = before.closeTime ∧
      (effects.foldl Attempts.next counted).live ≠ [] := by
  have unattached : cleared before = (before, []) := by
    rw [cleared, if_neg (by simp [state])]
  cases handled with
  | ignored event branch =>
    rw [state] at branch
    exact branch.elim
  | stored config callback elsewhere => simp [state] at elsewhere
  | reconfigured config callback =>
    rw [attempted, if_pos started, unattached]
    simp [Attempts.next]

/-- A configuration that overlaps spoils the attempt that the switch has made. -/
theorem overlaps_spoils (overlaps : client.Overlaps input) :
    ¬ (client.processFsmState input).KeepsOne := by
  obtain ⟨state, started, config, head, immediate⟩ := overlaps
  obtain ⟨callback, rest, queue⟩ := newConfig_eq_some_iff.mp head
  rw [processFsmState_of_reconnecting _ _ state, queue]
  obtain ⟨effects, log, handled⟩ :=
    ((client.popEvent _ rest).switch_does (.updateConfig (some config) callback) input).outcome
  obtain ⟨configured, fresh, sameTime, live⟩ := handled.started_of_reconnecting state started
  obtain ⟨_, later, laterLog, timed⟩ := Client.reconnectTimer_does
    ((client.popEvent (.updateConfig (some config) callback) rest).switch
      (.updateConfig (some config) callback) input) input
  dsimp only
  rw [Client.KeepsOne, laterLog, attempts_append]
  refine timed.spoils ?_ configured ?_
  · rw [log, attempts_append]
    exact live
  · rw [fresh, sameTime]
    exact immediate

end Calls

/-- What is sent does not change the attempts. -/
theorem attempts_append_of_sends {effects : List Effect} (log : List Effect)
    (sends : ∀ effect ∈ effects, effect.OfSend) : attempts (log ++ effects) = attempts log := by
  rw [attempts_append, Log.foldl_of_blind]
  intro effect member counted
  have send := sends effect member
  cases effect <;> first | rfl | exact send.elim

theorem keepsOne_frame {client next : Client} {effects : List Effect}
    (machine : next.toMachine = client.toMachine) (log : next.log = client.log ++ effects)
    (sends : ∀ effect ∈ effects, effect.OfSend) (keeps : client.KeepsOne) : next.KeepsOne := by
  rw [Client.KeepsOne, machine, log, attempts_append_of_sends _ sends]
  exact keeps

/-- Over every run of a client, with its requests and the reports of the backend in any order
and with any clock and any answers of `init_websocket`: in every state the run goes through there
is one live attempt in `CONNECTING` and `WORKING` and none in the other states, and
`init_websocket` is never called while an attempt is live, if and only if no call of
`process_fsm_state` takes a configuration in `RECONNECTING` for which `init_websocket` succeeds
and the timer acts at once. -/
theorem one_attempt_iff {actions : List ClientAction} {finish : ClientWorld}
    (runs : clientSystem.Runs clientSystem.init actions finish) :
    (∀ before after world, actions = before ++ after →
      clientSystem.Runs clientSystem.init before world → world.client.KeepsOne) ↔
    clientSystem.Throughout (Spared Client.Overlaps) clientSystem.init actions :=
  spared_iff (by decide) (fun _ _ _ machine log sends keeps => keepsOne_frame machine log sends keeps)
    (fun _ _ agrees keeps apart => keepsOne_processFsmState agrees keeps apart)
    (fun _ _ overlaps => overlaps_spoils overlaps) runs

/-- One second after the loss the waiting client is given a configuration with a longer delay. -/
def reconfiguredEarly : List ClientAction :=
  openedAndLost ++ [.setConfig (some { reconnectDelay := 3 }) true] ++
    processOnce { now := 6000000000 }

theorem one_attempt_iff_reconfiguredEarly :
    ∃ world, clientSystem.Runs clientSystem.init reconfiguredEarly world ∧
      world.client.fsmState = .connecting ∧ (attempts world.client.log).live = [2] ∧
      world.client.KeepsOne := by
  have evaluated : (clientSystem.run clientSystem.init reconfiguredEarly).any (fun world =>
      decide (world.client.fsmState = .connecting ∧ (attempts world.client.log).live = [2])) =
        true := by decide +kernel
  have spared : clientSystem.Throughout (Spared Client.Overlaps) clientSystem.init
      reconfiguredEarly := by decide +kernel
  obtain ⟨world, runs, checked⟩ := System.exists_runs evaluated
  rw [decide_eq_true_eq] at checked
  exact ⟨world, runs, checked.1, checked.2,
    (one_attempt_iff runs).mpr spared reconfiguredEarly [] world (by simp) runs⟩

/-- Two seconds after the loss a waiting client is given a configuration with a delay of one
second: two attempts are made in one call and both are live. With a configuration that does not
reconnect, the attempt is live in `INIT`. -/
theorem reconfigured_late_overlaps :
    (∃ world, clientSystem.Runs clientSystem.init (openedAndLost ++
        [.setConfig (some { reconnectDelay := 1 }) true] ++ processOnce { now := 7000000000 })
        world ∧
      world.client.fsmState = .connecting ∧ (attempts world.client.log).live = [2, 3] ∧
      (attempts world.client.log).overlapped = true ∧ ¬ world.client.KeepsOne) ∧
    ∃ world, clientSystem.Runs clientSystem.init (openedAndLost ++
        [.setConfig (some { reconnect := false }) true] ++ processOnce { now := 6000000000 })
        world ∧
      world.client.fsmState = .init ∧ (attempts world.client.log).live = [2] ∧
      ¬ world.client.KeepsOne := by
  constructor
  · have evaluated : (clientSystem.run clientSystem.init (openedAndLost ++
        [.setConfig (some { reconnectDelay := 1 }) true] ++ processOnce { now := 7000000000 })).any
        (fun world => decide (world.client.fsmState = .connecting ∧
          (attempts world.client.log).live = [2, 3] ∧
          (attempts world.client.log).overlapped = true ∧ ¬ world.client.KeepsOne)) = true := by
      decide +kernel
    obtain ⟨world, runs, checked⟩ := System.exists_runs evaluated
    exact ⟨world, runs, of_decide_eq_true checked⟩
  · have evaluated : (clientSystem.run clientSystem.init (openedAndLost ++
        [.setConfig (some { reconnect := false }) true] ++ processOnce { now := 6000000000 })).any
        (fun world => decide (world.client.fsmState = .init ∧
          (attempts world.client.log).live = [2] ∧ ¬ world.client.KeepsOne)) = true := by
      decide +kernel
    obtain ⟨world, runs, checked⟩ := System.exists_runs evaluated
    exact ⟨world, runs, of_decide_eq_true checked⟩

end Kurlyk.WebSocket
