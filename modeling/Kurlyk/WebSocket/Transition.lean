/-
This file says once what a call of `process_fsm_state` can do. A switch acts on
the members of the state machine and appends to the log: `Handled` lists its
outcomes, with the state and the event they need and the entries they append.
`Timed` does the same for the reconnect timer, which runs at the end of every
call in `RECONNECTING`.

A call pops the events `poppedEvents` one after the other. What every switch and
the timer preserve is preserved by the call, so that later files look at one
event at a time.
-/

import Kurlyk.WebSocket.Client

namespace Kurlyk.WebSocket

/-! ### What the parts of a switch append to the log -/

/-- The entry of a settled request. An event of the backend has no callback to settle. -/
def settlement : FsmEventData → Bool → List Effect
  | .backend _ _, _ => []
  | event, success => [.settled event success]

/-- The close event that a connected user receives. -/
def closing (connected : Bool) (event : WebSocketEventData) : List Effect :=
  if connected then [.delivered event] else []

/-- The close event of a connection that is closed on request. -/
def normalClosure : WebSocketEventData :=
  Client.createWebsocketCloseEvent "Normal Closure" 1000

/-- The error event of a configuration that cannot be used. -/
def invalidConfiguration : Effect :=
  .delivered (Client.createWebsocketErrorEvent .invalidConfiguration)

namespace Client

variable (client : Client) (event : FsmEventData) (input : Input)

section Parts

variable (effect : Effect) (data : WebSocketEventData)

@[simp]
theorem emit_machine : (client.emit effect).toMachine = client.toMachine := rfl

@[simp]
theorem emit_queue : (client.emit effect).fsmEventQueue = client.fsmEventQueue := rfl

@[simp]
theorem emit_log : (client.emit effect).log = client.log ++ [effect] := rfl

@[simp]
theorem deliver_machine : (client.deliver data).toMachine = client.toMachine := by
  unfold deliver
  split <;> rfl

@[simp]
theorem deliver_queue : (client.deliver data).fsmEventQueue = client.fsmEventQueue := by
  unfold deliver
  split <;> rfl

@[simp]
theorem deliver_log : (client.deliver data).log = client.log ++ [.delivered data] := by
  unfold deliver
  split <;> rfl

@[simp]
theorem settle_machine (success : Bool) :
    (client.settle event success).toMachine = client.toMachine := by
  cases event <;> rfl

@[simp]
theorem settle_queue (success : Bool) :
    (client.settle event success).fsmEventQueue = client.fsmEventQueue := by
  cases event <;> rfl

@[simp]
theorem settle_log (success : Bool) :
    (client.settle event success).log = client.log ++ settlement event success := by
  cases event with
  | backend report attempt => simp [settle, settlement]
  | _ => rfl

@[simp]
theorem handleOpenEvent_machine : (client.handleOpenEvent data).toMachine =
    { client.toMachine with isConnected := true } := by
  unfold handleOpenEvent
  split
  · rename_i connected
    simp [← connected]
  · simp

@[simp]
theorem handleOpenEvent_queue :
    (client.handleOpenEvent data).fsmEventQueue = client.fsmEventQueue := by
  unfold handleOpenEvent
  split <;> simp

@[simp]
theorem handleOpenEvent_log : (client.handleOpenEvent data).log =
    client.log ++ if client.isConnected then [] else [.delivered data] := by
  unfold handleOpenEvent
  split <;> simp

@[simp]
theorem handleCloseEvent_machine (given : Option WebSocketEventData) :
    (client.handleCloseEvent given).toMachine =
      { client.toMachine with isConnected := false } := by
  unfold handleCloseEvent
  split
  · simp
  · rename_i disconnected
    rw [Bool.not_eq_true] at disconnected
    simp [← disconnected]

@[simp]
theorem handleCloseEvent_queue (given : Option WebSocketEventData) :
    (client.handleCloseEvent given).fsmEventQueue = client.fsmEventQueue := by
  unfold handleCloseEvent
  split <;> simp

@[simp]
theorem handleCloseEvent_log (given : Option WebSocketEventData) :
    (client.handleCloseEvent given).log =
      client.log ++ closing client.isConnected (given.getD normalClosure) := by
  unfold handleCloseEvent closing normalClosure
  split <;> simp

end Parts

/-! ### The outcomes of a switch -/

/-- What `init_websocket` and its answer make of a request. -/
def attempted (machine : Machine) : Machine × List Effect :=
  if input.init then
    ({ machine with isRunning := true, fsmState := .connecting },
      .initWebsocket true :: settlement event true)
  else
    ({ machine with fsmState := .stopped },
      .initWebsocket false :: invalidConfiguration :: settlement event false)

/-- What a new configuration finds: a connection of the old one is given up first. -/
def cleared (machine : Machine) : Machine × List Effect :=
  if machine.fsmState = .connecting ∨ machine.fsmState = .working then
    ({ machine with isConnected := false },
      .deinitWebsocket :: closing machine.isConnected normalClosure)
  else (machine, [])

/-- The report of the backend ends a connection: the error it reports first, if any, and the
close event for the user. -/
def Ends : BackendEvent → Option (List Effect × WebSocketEventData)
  | .connectionClosed reason statusCode => some ([], createWebsocketCloseEvent reason statusCode)
  | .connectionError errorCode =>
    some ([.delivered (createWebsocketErrorEvent errorCode)],
      createWebsocketCloseEvent "Going Away" 1001)
  | _ => none

/-- A report that ends a connection yields a close event, and at most one error event. -/
theorem ends_cases {report : BackendEvent} {errors : List Effect}
    {closeEvent : WebSocketEventData} (ends : Ends report = some (errors, closeEvent)) :
    closeEvent.eventType = .wsClose ∧
      (errors = [] ∨ ∃ errorCode, errors = [.delivered (createWebsocketErrorEvent errorCode)]) := by
  cases report with
  | connectionClosed reason statusCode =>
    obtain ⟨rfl, rfl⟩ := Prod.mk.inj (Option.some.inj ends)
    exact ⟨rfl, Or.inl rfl⟩
  | connectionError errorCode =>
    obtain ⟨rfl, rfl⟩ := Prod.mk.inj (Option.some.inj ends)
    exact ⟨rfl, Or.inr ⟨errorCode, rfl⟩⟩
  | connectionOpened statusCode => simp [Ends] at ends
  | messageReceived text => simp [Ends] at ends

/-- The events that the `default` branch of a state's switch takes. -/
def TakesDefault : FsmState → FsmEventData → Prop
  | .init, .requestDisconnect _ => True
  | .init, .backend _ _ => True
  | .connecting, .requestConnect _ => True
  | .connecting, .backend (.messageReceived _) _ => True
  | .working, .requestConnect _ => True
  | .working, .backend (.connectionOpened _) _ => True
  | .reconnecting, .requestConnect _ => True
  | .reconnecting, .backend (.connectionOpened _) _ => True
  | .reconnecting, .backend (.connectionClosed _ _) _ => True
  | .reconnecting, .backend (.connectionError _) _ => True
  | .stopped, .requestDisconnect _ => True
  | .stopped, .backend _ _ => True
  | _, _ => False

/-- The machine after the end of a connection. -/
def afterLoss (machine : Machine) (config : WebSocketConfig) : Machine :=
  if config.reconnect then
    { machine with
      isConnected := false
      reconnectAttempt := machine.reconnectAttempt + 1
      closeTime := input.now
      isRunning := true
      fsmState := .reconnecting }
  else { machine with isConnected := false, isRunning := false, fsmState := .init }

end Client

open Client

/-- The outcomes of the switch of a state on an event: the machine afterwards and the entries
appended to the log. -/
inductive Handled (before : Machine) (input : Input) :
    FsmEventData → Machine → List Effect → Prop where
  | ignored (event : FsmEventData) (branch : TakesDefault before.fsmState event) :
      Handled before input event before (settlement event false)
  | message (text : String) (attempt : ℕ)
      (state : before.fsmState = .working ∨ before.fsmState = .reconnecting) :
      Handled before input (.backend (.messageReceived text) attempt) before
        [.delivered (createWebsocketMessageEvent text)]
  | stored (config : Option WebSocketConfig) (callback : Option ℕ)
      (state : before.fsmState = .init) :
      Handled before input (.updateConfig config callback) { before with config }
        [.settled (.updateConfig config callback) config.isSome]
  | unconfigured (callback : Option ℕ)
      (state : before.fsmState = .init ∨ before.fsmState = .stopped)
      (missing : before.config = none) :
      Handled before input (.requestConnect callback) { before with fsmState := .stopped }
        [invalidConfiguration, .settled (.requestConnect callback) false]
  | connects (callback : Option ℕ)
      (state : before.fsmState = .init ∨ before.fsmState = .stopped)
      (config : WebSocketConfig) (configured : before.config = some config) :
      Handled before input (.requestConnect callback)
        (attempted (.requestConnect callback) input before).1
        (attempted (.requestConnect callback) input before).2
  | deconfigured (callback : Option ℕ) (state : before.fsmState ≠ .init) :
      Handled before input (.updateConfig none callback)
        { (cleared before).1 with config := none, fsmState := .stopped }
        ((cleared before).2 ++
          [invalidConfiguration, .settled (.updateConfig none callback) false])
  | reconfigured (config : WebSocketConfig) (callback : Option ℕ)
      (state : before.fsmState ≠ .init) :
      Handled before input (.updateConfig (some config) callback)
        (attempted (.updateConfig (some config) callback) input
          { (cleared before).1 with config := some config, reconnectAttempt := 0 }).1
        ((cleared before).2 ++ (attempted (.updateConfig (some config) callback) input
          { (cleared before).1 with config := some config, reconnectAttempt := 0 }).2)
  | opened (statusCode : ℤ) (attempt : ℕ) (state : before.fsmState = .connecting) :
      Handled before input (.backend (.connectionOpened statusCode) attempt)
        { before with
          isConnected := true, reconnectAttempt := 0, isRunning := true, fsmState := .working }
        (if before.isConnected then [] else [.delivered (createWebsocketOpenEvent statusCode)])
  | lost (report : BackendEvent) (attempt : ℕ) (errors : List Effect)
      (closeEvent : WebSocketEventData) (ends : Ends report = some (errors, closeEvent))
      (state : before.fsmState = .connecting ∨ before.fsmState = .working)
      (config : WebSocketConfig) (configured : before.config = some config) :
      Handled before input (.backend report attempt) (afterLoss input before config)
        (errors ++ .deinitWebsocket :: closing before.isConnected closeEvent)
  | undefined (report : BackendEvent) (attempt : ℕ) (effects : List Effect)
      (state : before.fsmState = .connecting ∨ before.fsmState = .working)
      (missing : before.config = none) :
      Handled before input (.backend report attempt) { before with isConnected := false } effects
  | disconnected (callback : Option ℕ)
      (state : before.fsmState = .connecting ∨ before.fsmState = .working) :
      Handled before input (.requestDisconnect callback)
        { before with
          isConnected := false, reconnectAttempt := 0, isRunning := false, fsmState := .init }
        (.deinitWebsocket :: closing before.isConnected normalClosure ++
          [.settled (.requestDisconnect callback) true])
  | abandoned (callback : Option ℕ) (state : before.fsmState = .reconnecting) :
      Handled before input (.requestDisconnect callback)
        { before with isRunning := false, fsmState := .init }
        [.settled (.requestDisconnect callback) true]

/-- The switch leaves the queue, appends to the log and has one of the listed outcomes. -/
structure Does (client : Client) (event : FsmEventData) (input : Input) (next : Client) :
    Prop where
  queue : next.fsmEventQueue = client.fsmEventQueue
  outcome : ∃ effects, next.log = client.log ++ effects ∧
    Handled client.toMachine input event next.toMachine effects

theorem Does.of {client next : Client} {event : FsmEventData} {input : Input} {after : Machine}
    {effects : List Effect} (handled : Handled client.toMachine input event after effects)
    (machine : next.toMachine = after) (queue : next.fsmEventQueue = client.fsmEventQueue)
    (log : next.log = client.log ++ effects) : Does client event input next :=
  ⟨queue, effects, log, machine ▸ handled⟩

namespace Client

variable (client : Client) (event : FsmEventData) (input : Input)

/-! ### The shared blocks -/

theorem refuse_machine :
    (client.refuse event).toMachine = { client.toMachine with fsmState := .stopped } := by
  simp [refuse, handleErrorEvent]

theorem refuse_queue : (client.refuse event).fsmEventQueue = client.fsmEventQueue := by
  simp [refuse, handleErrorEvent]

theorem refuse_log : (client.refuse event).log =
    client.log ++ invalidConfiguration :: settlement event false := by
  simp [refuse, handleErrorEvent, invalidConfiguration]

theorem startAttempt_machine : (client.startAttempt event input).toMachine =
    (attempted event input client.toMachine).1 := by
  unfold startAttempt attempted
  dsimp only
  split
  · simp [initWebsocket]
  · rw [refuse_machine]
    rfl

theorem startAttempt_queue :
    (client.startAttempt event input).fsmEventQueue = client.fsmEventQueue := by
  unfold startAttempt
  dsimp only
  split
  · simp [initWebsocket]
  · rw [refuse_queue]
    rfl

theorem startAttempt_log : (client.startAttempt event input).log =
    client.log ++ (attempted event input client.toMachine).2 := by
  unfold startAttempt attempted
  dsimp only
  split
  · rename_i started
    simp [initWebsocket, started]
  · rename_i failed
    rw [Bool.not_eq_true] at failed
    simp [refuse_log, initWebsocket, failed]

theorem reconfigure_does (state : client.fsmState ≠ .init) (prepared : Client)
    (sameMachine : prepared.toMachine = (cleared client.toMachine).1)
    (sameQueue : prepared.fsmEventQueue = client.fsmEventQueue)
    (sameLog : prepared.log = client.log ++ (cleared client.toMachine).2)
    (config : Option WebSocketConfig) (callback : Option ℕ) :
    Does client (.updateConfig config callback) input
      (prepared.reconfigure (.updateConfig config callback) config input) := by
  cases config with
  | none =>
    refine Does.of (.deconfigured callback state) ?_ ?_ ?_
    · rw [reconfigure, refuse_machine, ← sameMachine]
    · rw [reconfigure, refuse_queue, ← sameQueue]
    · rw [reconfigure, refuse_log, sameLog, List.append_assoc]
      rfl
  | some config =>
    have machine : { prepared.applyConfig config input with
        reconnectAttempt := 0 : Client }.toMachine =
          { (cleared client.toMachine).1 with config := some config, reconnectAttempt := 0 } := by
      rw [← sameMachine]
      rfl
    refine Does.of (.reconfigured config callback state) ?_ ?_ ?_
    · rw [reconfigure, startAttempt_machine, machine]
    · rw [reconfigure, startAttempt_queue, ← sameQueue]
      rfl
    · rw [reconfigure, startAttempt_log, machine, ← List.append_assoc, ← sameLog]
      rfl

theorem replaceConfig_does (state : client.fsmState = .connecting ∨ client.fsmState = .working)
    (config : Option WebSocketConfig) (callback : Option ℕ) :
    Does client (.updateConfig config callback) input
      (client.replaceConfig (.updateConfig config callback) config input) := by
  refine reconfigure_does client input ?_ _ ?_ ?_ ?_ config callback
  · intro impossible
    simp [impossible] at state
  · rw [cleared, if_pos state]
    simp [deinitWebsocket]
  · simp [deinitWebsocket]
  · rw [cleared, if_pos state]
    simp [deinitWebsocket]

theorem reconfigure_does_unattached (state : client.fsmState = .reconnecting ∨
      client.fsmState = .stopped) (config : Option WebSocketConfig) (callback : Option ℕ) :
    Does client (.updateConfig config callback) input
      (client.reconfigure (.updateConfig config callback) config input) := by
  have unattached : cleared client.toMachine = (client.toMachine, []) := by
    rw [cleared, if_neg]
    rcases state with state | state <;> simp [state]
  refine reconfigure_does client input ?_ client ?_ rfl ?_ config callback
  · intro impossible
    simp [impossible] at state
  · rw [unattached]
  · rw [unattached, List.append_nil]

theorem requestConnect_does (state : client.fsmState = .init ∨ client.fsmState = .stopped)
    (callback : Option ℕ) :
    Does client (.requestConnect callback) input
      (client.requestConnect (.requestConnect callback) input) := by
  unfold requestConnect
  cases configured : client.config with
  | none =>
    rw [Option.isNone_none, if_pos rfl]
    exact Does.of (.unconfigured callback state configured) (refuse_machine _ _)
      (refuse_queue _ _) (refuse_log _ _)
  | some config =>
    rw [Option.isNone_some, if_neg Bool.false_ne_true]
    exact Does.of (.connects callback state config configured) (startAttempt_machine _ _ _)
      (startAttempt_queue _ _ _) (startAttempt_log _ _ _)

theorem disconnect_does (state : client.fsmState = .connecting ∨ client.fsmState = .working)
    (callback : Option ℕ) :
    Does client (.requestDisconnect callback) input
      (client.disconnect (.requestDisconnect callback)) := by
  refine Does.of (.disconnected callback state) ?_ ?_ ?_
  · simp [disconnect, deinitWebsocket]
  · simp [disconnect, deinitWebsocket]
  · simp [disconnect, deinitWebsocket, settlement]

theorem loseConnection_does (state : client.fsmState = .connecting ∨ client.fsmState = .working)
    {report : BackendEvent} (attempt : ℕ) {errors : List Effect} {closeEvent : WebSocketEventData}
    (ends : Ends report = some (errors, closeEvent)) (noted : Client)
    (sameMachine : noted.toMachine = client.toMachine)
    (sameQueue : noted.fsmEventQueue = client.fsmEventQueue)
    (sameLog : noted.log = client.log ++ errors) :
    Does client (.backend report attempt) input (noted.loseConnection closeEvent input) := by
  have sameConfig : noted.config = client.config := congrArg Machine.config sameMachine
  have sameConnected : noted.isConnected = client.isConnected :=
    congrArg Machine.isConnected sameMachine
  cases configured : client.config with
  | none =>
    refine Does.of (.undefined report attempt
      (errors ++ .deinitWebsocket :: closing client.isConnected closeEvent ++ [.nullConfig])
      state configured) ?_ ?_ ?_
    · simp [loseConnection, deinitWebsocket, configured, sameMachine]
    · simp [loseConnection, deinitWebsocket, sameConfig, configured, sameQueue]
    · simp [loseConnection, deinitWebsocket, sameConfig, configured, sameLog, sameConnected]
  | some config =>
    refine Does.of (.lost report attempt errors closeEvent ends state config configured) ?_ ?_ ?_
    · unfold afterLoss
      cases reconnect : config.reconnect <;>
        simp [loseConnection, deinitWebsocket, configured, sameMachine, reconnect]
    · cases reconnect : config.reconnect <;>
        simp [loseConnection, deinitWebsocket, sameConfig, configured, sameQueue, reconnect]
    · cases reconnect : config.reconnect <;>
        simp [loseConnection, deinitWebsocket, sameConfig, configured, sameLog, sameConnected,
          reconnect]

/-! ### The switches -/

theorem settle_does (branch : TakesDefault client.fsmState event) :
    Does client event input (client.settle event false) :=
  Does.of (.ignored event branch) (settle_machine _ _ _) (settle_queue _ _ _)
    (settle_log _ _ _)

theorem message_does (state : client.fsmState = .working ∨ client.fsmState = .reconnecting)
    (text : String) (attempt : ℕ) :
    Does client (.backend (.messageReceived text) attempt) input
      (client.handleMessageEvent text) :=
  Does.of (.message text attempt state) (deliver_machine _ _) (deliver_queue _ _)
    (deliver_log _ _)

theorem switchInit_does (state : client.fsmState = .init) :
    Does client event input (client.switchInit event input) := by
  cases event with
  | requestConnect callback => exact requestConnect_does client input (Or.inl state) callback
  | requestDisconnect callback => exact settle_does client _ input (by rw [state]; trivial)
  | updateConfig config callback =>
    cases config with
    | none => exact Does.of (.stored none callback state) rfl rfl rfl
    | some config => exact Does.of (.stored (some config) callback state) rfl rfl rfl
  | backend report attempt => exact settle_does client _ input (by rw [state]; trivial)

theorem switchConnecting_does (state : client.fsmState = .connecting) :
    Does client event input (client.switchConnecting event input) := by
  cases event with
  | requestConnect callback => exact settle_does client _ input (by rw [state]; trivial)
  | requestDisconnect callback => exact disconnect_does client input (Or.inl state) callback
  | updateConfig config callback =>
    exact replaceConfig_does client input (Or.inl state) config callback
  | backend report attempt =>
    cases report with
    | connectionOpened statusCode =>
      exact Does.of (.opened statusCode attempt state) (by simp [switchConnecting])
        (by simp [switchConnecting]) (by simp [switchConnecting])
    | connectionClosed reason statusCode =>
      exact loseConnection_does client input (Or.inl state) attempt rfl client rfl rfl
        (List.append_nil _).symm
    | connectionError errorCode =>
      exact loseConnection_does client input (Or.inl state) attempt rfl
        (client.handleErrorEvent errorCode) (deliver_machine _ _) (deliver_queue _ _)
        (deliver_log _ _)
    | messageReceived text => exact settle_does client _ input (by rw [state]; trivial)

theorem switchWorking_does (state : client.fsmState = .working) :
    Does client event input (client.switchWorking event input) := by
  cases event with
  | requestConnect callback => exact settle_does client _ input (by rw [state]; trivial)
  | requestDisconnect callback => exact disconnect_does client input (Or.inr state) callback
  | updateConfig config callback =>
    exact replaceConfig_does client input (Or.inr state) config callback
  | backend report attempt =>
    cases report with
    | connectionOpened statusCode =>
      exact settle_does client _ input (by rw [state]; trivial)
    | connectionClosed reason statusCode =>
      exact loseConnection_does client input (Or.inr state) attempt rfl client rfl rfl
        (List.append_nil _).symm
    | connectionError errorCode =>
      exact loseConnection_does client input (Or.inr state) attempt rfl
        (client.handleErrorEvent errorCode) (deliver_machine _ _) (deliver_queue _ _)
        (deliver_log _ _)
    | messageReceived text => exact message_does client input (Or.inl state) text attempt

theorem switchReconnecting_does (state : client.fsmState = .reconnecting) :
    Does client event input (client.switchReconnecting event input) := by
  cases event with
  | requestConnect callback => exact settle_does client _ input (by rw [state]; trivial)
  | requestDisconnect callback => exact Does.of (.abandoned callback state) rfl rfl rfl
  | updateConfig config callback =>
    exact reconfigure_does_unattached client input (Or.inl state) config callback
  | backend report attempt =>
    cases report with
    | messageReceived text => exact message_does client input (Or.inr state) text attempt
    | _ => exact settle_does client _ input (by rw [state]; trivial)

theorem switchStopped_does (state : client.fsmState = .stopped) :
    Does client event input (client.switchStopped event input) := by
  cases event with
  | requestConnect callback => exact requestConnect_does client input (Or.inr state) callback
  | requestDisconnect callback => exact settle_does client _ input (by rw [state]; trivial)
  | updateConfig config callback =>
    exact reconfigure_does_unattached client input (Or.inr state) config callback
  | backend report attempt => exact settle_does client _ input (by rw [state]; trivial)

/-- Every switch has one of the listed outcomes. -/
theorem switch_does : Does client event input (client.switch event input) := by
  unfold switch
  split
  · exact switchInit_does client event input ‹_›
  · exact switchConnecting_does client event input ‹_›
  · exact switchWorking_does client event input ‹_›
  · exact switchReconnecting_does client event input ‹_›
  · exact switchStopped_does client event input ‹_›

end Client

/-! ### The reconnect timer -/

/-- The timer makes a new attempt: reconnecting is enabled, the budget is not used up and the
delay has passed. -/
def Due (machine : Machine) (input : Input) (config : WebSocketConfig) : Prop :=
  config.reconnect = true ∧ ¬ Exhausted config machine.reconnectAttempt ∧
    elapsedSeconds input.now machine.closeTime ≥ config.reconnectDelay

instance (machine : Machine) (input : Input) (config : WebSocketConfig) :
    Decidable (Due machine input config) :=
  inferInstanceAs (Decidable (_ ∧ _ ∧ _))

/-- The outcomes of the reconnect timer. -/
inductive Timed (before : Machine) (input : Input) : Machine → List Effect → Prop where
  | missing (unset : before.config = none) :
      Timed before input { before with fsmState := .stopped } [invalidConfiguration]
  | finished (config : WebSocketConfig) (configured : before.config = some config)
      (ended : config.reconnect = false ∨ Exhausted config before.reconnectAttempt) :
      Timed before input { before with isRunning := false, fsmState := .init } []
  | waiting (config : WebSocketConfig) (configured : before.config = some config)
      (enabled : config.reconnect = true) (left : ¬ Exhausted config before.reconnectAttempt)
      (early : elapsedSeconds input.now before.closeTime < config.reconnectDelay) :
      Timed before input before []
  | started (config : WebSocketConfig) (configured : before.config = some config)
      (due : Due before input config) (answer : input.timerInit = true) :
      Timed before input { before with isRunning := true, fsmState := .connecting }
        [.initWebsocket true]
  | failed (config : WebSocketConfig) (configured : before.config = some config)
      (due : Due before input config) (answer : input.timerInit = false) :
      Timed before input { before with fsmState := .stopped }
        [.initWebsocket false, invalidConfiguration]

namespace Client

variable (client : Client) (input : Input)

/-- The timer has one of the listed outcomes. -/
theorem reconnectTimer_does :
    (client.reconnectTimer input).fsmEventQueue = client.fsmEventQueue ∧
      ∃ effects, (client.reconnectTimer input).log = client.log ++ effects ∧
        Timed client.toMachine input (client.reconnectTimer input).toMachine effects := by
  unfold reconnectTimer
  cases configured : client.config with
  | none =>
    refine ⟨by simp [handleErrorEvent], [invalidConfiguration], ?_, ?_⟩
    · simp [handleErrorEvent, invalidConfiguration]
    · simpa [handleErrorEvent] using Timed.missing configured
  | some config =>
    dsimp only
    split
    · rename_i enabled
      split
      · rename_i exhausted
        refine ⟨rfl, [], (List.append_nil _).symm, ?_⟩
        rw [← configured]
        exact .finished config configured (Or.inr exhausted)
      · rename_i left
        split
        · rename_i elapsed
          have due : Due client.toMachine input config := ⟨enabled, left, elapsed⟩
          cases answer : input.timerInit with
          | true =>
            exact ⟨rfl, [.initWebsocket true], rfl, .started config configured due answer⟩
          | false =>
            refine ⟨by simp [initWebsocket, handleErrorEvent],
              [.initWebsocket false, invalidConfiguration], ?_, ?_⟩
            · simp [initWebsocket, handleErrorEvent, invalidConfiguration]
            · simpa [initWebsocket, handleErrorEvent] using
                Timed.failed config configured due answer
        · rename_i early
          exact ⟨rfl, [], (List.append_nil _).symm,
            .waiting config configured enabled left (Int.not_le.mp early)⟩
    · rename_i disabled
      rw [Bool.not_eq_true] at disabled
      refine ⟨rfl, [], (List.append_nil _).symm, ?_⟩
      rw [← configured]
      exact .finished config configured (Or.inl disabled)

/-! ### One call of `process_fsm_state` -/

/-- The messages at the front of a queue and the first event after them. -/
def throughMessages : List FsmEventData → List FsmEventData
  | [] => []
  | event :: rest => if isMessage event then event :: throughMessages rest else [event]

/-- The events that one call of `process_fsm_state` pops. -/
def poppedEvents : List FsmEventData :=
  match client.fsmState with
  | .working => throughMessages client.fsmEventQueue
  | _ => client.fsmEventQueue.take 1

@[simp]
theorem popEvent_machine (event : FsmEventData) (rest : List FsmEventData) :
    (client.popEvent event rest).toMachine = client.toMachine := rfl

@[simp]
theorem popEvent_queue (event : FsmEventData) (rest : List FsmEventData) :
    (client.popEvent event rest).fsmEventQueue = rest := rfl

@[simp]
theorem popEvent_log (event : FsmEventData) (rest : List FsmEventData) :
    (client.popEvent event rest).log = client.log ++ [.popped event] := rfl

theorem switchWorking_message_state (event : FsmEventData) (message : isMessage event = true) :
    (client.switchWorking event input).fsmState = client.fsmState := by
  cases event with
  | backend report attempt =>
    cases report with
    | messageReceived text =>
      exact congrArg Machine.fsmState (deliver_machine client _)
    | _ => exact absurd message (by simp [isMessage])
  | _ => exact absurd message (by simp [isMessage])

/-- Outside `WORKING` and `RECONNECTING` a call handles at most one event. -/
theorem processFsmState_of_plain (notWorking : client.fsmState ≠ .working)
    (notReconnecting : client.fsmState ≠ .reconnecting) :
    client.processFsmState input =
      match client.fsmEventQueue with
      | [] => client
      | event :: rest => (client.popEvent event rest).switch event input := by
  unfold processFsmState
  cases state : client.fsmState with
  | init =>
    cases events : client.fsmEventQueue <;>
      simp only [processStateInit, events, switch, popEvent_machine, state]
  | connecting =>
    cases events : client.fsmEventQueue <;>
      simp only [processStateConnecting, events, switch, popEvent_machine, state]
  | stopped =>
    cases events : client.fsmEventQueue <;>
      simp only [processStateStopped, events, switch, popEvent_machine, state]
  | working => exact absurd state notWorking
  | reconnecting => exact absurd state notReconnecting

theorem processFsmState_of_reconnecting (state : client.fsmState = .reconnecting) :
    client.processFsmState input =
      match client.fsmEventQueue with
      | [] => client.reconnectTimer input
      | event :: rest => ((client.popEvent event rest).switch event input).reconnectTimer input := by
  cases events : client.fsmEventQueue <;>
    simp only [processFsmState, processStateReconnecting, events, switch, popEvent_machine, state]

theorem processFsmState_of_working (state : client.fsmState = .working) :
    client.processFsmState input = workingLoop input client.fsmEventQueue client := by
  simp only [processFsmState, processStateWorking, state]

theorem poppedEvents_of_not_working (state : client.fsmState ≠ .working) :
    client.poppedEvents = client.fsmEventQueue.take 1 := by
  unfold poppedEvents
  split
  · exact absurd ‹_› state
  · rfl

theorem poppedEvents_of_working (state : client.fsmState = .working) :
    client.poppedEvents = throughMessages client.fsmEventQueue := by
  simp only [poppedEvents, state]

section Induction

variable {client input} (invariant : Client → Prop)

theorem workingLoop_induction {events : List FsmEventData} (queue : client.fsmEventQueue = events)
    (state : client.fsmState = .working) (start : invariant client)
    (handled : ∀ current event rest, invariant current → current.fsmState = .working →
      current.fsmEventQueue = event :: rest → event ∈ throughMessages events →
      invariant ((current.popEvent event rest).switch event input)) :
    invariant (workingLoop input events client) := by
  induction events generalizing client with
  | nil => exact start
  | cons event rest inductionHypothesis =>
    have switched : (client.popEvent event rest).switch event input =
        (client.popEvent event rest).switchWorking event input := by
      simp [switch, state]
    have head : event ∈ throughMessages (event :: rest) := by
      unfold throughMessages
      split <;> simp
    have next := handled client event rest start state queue head
    rw [switched] at next
    unfold workingLoop
    dsimp only
    split
    · rename_i message
      refine inductionHypothesis ?_ ?_ next ?_
      · exact (switchWorking_does (client.popEvent event rest) event input state).queue
      · rw [switchWorking_message_state _ _ _ message]
        exact state
      · intro current later after holds working more member
        refine handled current later after holds working more ?_
        rw [throughMessages, if_pos message]
        exact List.mem_cons_of_mem _ member
    · exact next

/-- What every switch on a popped event and the timer preserve is preserved by the call. -/
theorem processFsmState_induction (start : invariant client)
    (handled : ∀ current event rest, invariant current → current.fsmState = client.fsmState →
      current.fsmEventQueue = event :: rest → event ∈ client.poppedEvents →
      invariant ((current.popEvent event rest).switch event input))
    (timed : ∀ current, client.fsmState = .reconnecting → invariant current →
      invariant (current.reconnectTimer input)) :
    invariant (client.processFsmState input) := by
  by_cases working : client.fsmState = .working
  · rw [processFsmState_of_working _ _ working]
    refine workingLoop_induction invariant rfl working start
      fun current event rest holds state queue member => ?_
    refine handled current event rest holds (state.trans working.symm) queue ?_
    rwa [poppedEvents_of_working _ working]
  · have first : ∀ event rest, client.fsmEventQueue = event :: rest →
        invariant ((client.popEvent event rest).switch event input) := by
      intro event rest queue
      refine handled client event rest start rfl queue ?_
      rw [poppedEvents_of_not_working _ working, queue]
      exact List.mem_singleton_self event
    by_cases reconnecting : client.fsmState = .reconnecting
    · rw [processFsmState_of_reconnecting _ _ reconnecting]
      split
      · exact timed client reconnecting start
      · exact timed _ reconnecting (first _ _ ‹_›)
    · rw [processFsmState_of_plain _ _ working reconnecting]
      split
      · exact start
      · exact first _ _ ‹_›

end Induction

theorem workingLoop_queue (events : List FsmEventData) (queue : client.fsmEventQueue = events)
    (state : client.fsmState = .working) :
    events = throughMessages events ++ (workingLoop input events client).fsmEventQueue := by
  induction events generalizing client with
  | nil => exact queue.symm
  | cons event rest inductionHypothesis =>
    have left := (switchWorking_does (client.popEvent event rest) event input state).queue
    unfold workingLoop throughMessages
    dsimp only
    split
    · rename_i message
      rw [List.cons_append, ← inductionHypothesis _ left]
      rw [switchWorking_message_state _ _ _ message]
      exact state
    · rw [left, List.singleton_append, popEvent_queue]

/-- A call pops `poppedEvents` from the front of the queue. -/
theorem processFsmState_queue :
    client.fsmEventQueue =
      client.poppedEvents ++ (client.processFsmState input).fsmEventQueue := by
  by_cases working : client.fsmState = .working
  · rw [processFsmState_of_working _ _ working, poppedEvents_of_working _ working]
    exact workingLoop_queue client input _ rfl working
  · rw [poppedEvents_of_not_working _ working]
    by_cases reconnecting : client.fsmState = .reconnecting
    · rw [processFsmState_of_reconnecting _ _ reconnecting]
      split
      · rename_i queue
        rw [(reconnectTimer_does client input).1, queue]
        rfl
      · rename_i event rest queue
        rw [(reconnectTimer_does _ input).1, (switch_does _ _ _).queue, queue]
        rfl
    · rw [processFsmState_of_plain _ _ working reconnecting]
      split
      · rename_i queue
        rw [queue]
        rfl
      · rename_i event rest queue
        rw [(switch_does _ _ _).queue, queue]
        rfl

end Client

end Kurlyk.WebSocket
