/-
This file cuts `process_fsm_state` where it calls the functions of the user: the
handler of events, and the completion callback of the request that is handled. A
block is written as the source has it, with these calls marked, so that what has
been written to the members at each of them can be read off: the flag of the
connection is written before the handler is called, a new configuration before
the user is told of it, and the state last.

Where every function returns at once, a block does what the function of the same
name in `Client` does.
-/

import Kurlyk.Lib.Routine
import Kurlyk.WebSocket.Transition

namespace Kurlyk.WebSocket

/-- The functions of the user that `process_fsm_state` calls: `m_on_event` with an event, while
it handles the cause or the reconnect timer, and `event.callback` with a result. -/
inductive Callback where
  | handler (cause : Option FsmEventData) (event : WebSocketEventData)
  | completion (cause : FsmEventData) (success : Bool)
deriving DecidableEq

/-- A piece of `process_fsm_state`. -/
abbrev Block (Value : Type) : Type :=
  Routine Callback Client Value

namespace Block

open Client

/-! ### Events for the user -/

/-- The event goes to the handler, or to the stored queue when there is none. -/
def deliver (cause : Option FsmEventData) (event : WebSocketEventData) : Block Unit := do
  let client ← Routine.get
  Routine.modify fun client => client.deliver event
  if client.onEvent then Routine.call (.handler cause event) else pure ()

/-- `handle_open_event`. -/
def handleOpenEvent (cause : FsmEventData) (event : WebSocketEventData) : Block Unit := do
  let client ← Routine.get
  if client.isConnected then pure () else do
    Routine.modify fun client => { client with isConnected := true }
    deliver (some cause) event

/-- `handle_close_event`, with the event it creates when none is given. -/
def handleCloseEvent (cause : FsmEventData) (event : Option WebSocketEventData) : Block Unit := do
  let client ← Routine.get
  if client.isConnected then do
    Routine.modify fun client => { client with isConnected := false }
    deliver (some cause) (event.getD (createWebsocketCloseEvent "Normal Closure" 1000))
  else pure ()

/-- `handle_error_event`. -/
def handleErrorEvent (cause : Option FsmEventData) (errorCode : ErrorCode) : Block Unit :=
  deliver cause (createWebsocketErrorEvent errorCode)

/-- `handle_message_event`. -/
def handleMessageEvent (cause : FsmEventData) (message : String) : Block Unit :=
  deliver (some cause) (createWebsocketMessageEvent message)

/-- `if (event.callback) event.callback(success)`. -/
def settle (event : FsmEventData) (success : Bool) : Block Unit := do
  Routine.modify fun client => client.settle event success
  if event.callback.isSome then Routine.call (.completion event success) else pure ()

/-- `m_fsm_state = state`. -/
def setState (state : FsmState) : Block Unit :=
  Routine.modify fun client => { client with fsmState := state }

/-- `init_websocket`, with the answer it gives. A call without a configuration is marked like a
read through a null `m_config`. -/
def initWebsocket (started : Bool) : Block Unit :=
  Routine.modify fun client =>
    match client.config with
    | none => (client.emit .nullConfig).initWebsocket started
    | some _ => client.initWebsocket started

/-! ### The blocks that several states share -/

/-- A request that cannot be served: the user is told of an invalid configuration. -/
def refuse (event : FsmEventData) : Block Unit := do
  handleErrorEvent (some event) .invalidConfiguration
  settle event false
  setState .stopped

/-- `init_websocket` is called for a request, which is settled by the answer. -/
def startAttempt (event : FsmEventData) (input : Input) : Block Unit := do
  initWebsocket input.init
  if input.init then do
    Routine.modify fun client => { client with isRunning := true }
    settle event true
    setState .connecting
  else refuse event

/-- `RequestConnect` in `INIT` and `STOPPED`. -/
def requestConnect (event : FsmEventData) (input : Input) : Block Unit := do
  let client ← Routine.get
  if client.config.isNone then refuse event else startAttempt event input

/-- `UpdateConfig` outside `INIT`, after the old connection is gone. -/
def reconfigure (event : FsmEventData) (config : Option WebSocketConfig) (input : Input) :
    Block Unit :=
  match config with
  | none => do
    Routine.modify fun client => { client with config := none }
    refuse event
  | some config => do
    Routine.modify fun client => { client.applyConfig config input with reconnectAttempt := 0 }
    startAttempt event input

/-- `RequestDisconnect` in `CONNECTING` and `WORKING`. -/
def disconnect (event : FsmEventData) : Block Unit := do
  Routine.modify deinitWebsocket
  handleCloseEvent event none
  Routine.modify fun client => { client with reconnectAttempt := 0, isRunning := false }
  settle event true
  setState .init

/-- `UpdateConfig` in `CONNECTING` and `WORKING`. -/
def replaceConfig (event : FsmEventData) (config : Option WebSocketConfig) (input : Input) :
    Block Unit := do
  Routine.modify deinitWebsocket
  handleCloseEvent event none
  reconfigure event config input

/-- The end of a connection that the backend reports, in `CONNECTING` and `WORKING`. -/
def loseConnection (event : FsmEventData) (closeEvent : WebSocketEventData) (input : Input) :
    Block Unit := do
  Routine.modify deinitWebsocket
  handleCloseEvent event (some closeEvent)
  Routine.modify fun closed =>
    match closed.config with
    | none => closed.emit .nullConfig
    | some config =>
      if config.reconnect then
        { closed with
          reconnectAttempt := closed.reconnectAttempt + 1
          closeTime := input.now
          isRunning := true
          fsmState := .reconnecting }
      else { closed with isRunning := false, fsmState := .init }

/-! ### The states -/

/-- The switch of `process_state_init`. -/
def switchInit (event : FsmEventData) (input : Input) : Block Unit :=
  match event with
  | .requestConnect _ => requestConnect event input
  | .updateConfig none _ => do
    Routine.modify fun client => { client with config := none }
    settle event false
  | .updateConfig (some config) _ => do
    Routine.modify fun client => client.applyConfig config input
    settle event true
  | _ => settle event false

/-- The switch of `process_state_connecting`. -/
def switchConnecting (event : FsmEventData) (input : Input) : Block Unit :=
  match event with
  | .backend (.connectionOpened statusCode) _ => do
    handleOpenEvent event (createWebsocketOpenEvent statusCode)
    Routine.modify fun client =>
      { client with reconnectAttempt := 0, isRunning := true, fsmState := .working }
  | .backend (.connectionError errorCode) _ => do
    handleErrorEvent (some event) errorCode
    loseConnection event (createWebsocketCloseEvent "Going Away" 1001) input
  | .backend (.connectionClosed reason statusCode) _ =>
    loseConnection event (createWebsocketCloseEvent reason statusCode) input
  | .requestDisconnect _ => disconnect event
  | .updateConfig config _ => replaceConfig event config input
  | _ => settle event false

/-- The switch of `process_state_working`. -/
def switchWorking (event : FsmEventData) (input : Input) : Block Unit :=
  match event with
  | .requestDisconnect _ => disconnect event
  | .backend (.connectionError errorCode) _ => do
    handleErrorEvent (some event) errorCode
    loseConnection event (createWebsocketCloseEvent "Going Away" 1001) input
  | .backend (.connectionClosed reason statusCode) _ =>
    loseConnection event (createWebsocketCloseEvent reason statusCode) input
  | .updateConfig config _ => replaceConfig event config input
  | .backend (.messageReceived message) _ => handleMessageEvent event message
  | _ => settle event false

/-- The switch of `process_state_reconnecting`. -/
def switchReconnecting (event : FsmEventData) (input : Input) : Block Unit :=
  match event with
  | .requestDisconnect _ => do
    Routine.modify fun client => { client with isRunning := false }
    settle event true
    setState .init
  | .updateConfig config _ => reconfigure event config input
  | .backend (.messageReceived message) _ => handleMessageEvent event message
  | _ => settle event false

/-- The switch of `process_state_stopped`. -/
def switchStopped (event : FsmEventData) (input : Input) : Block Unit :=
  match event with
  | .requestConnect _ => requestConnect event input
  | .updateConfig config _ => reconfigure event config input
  | _ => settle event false

/-- The switch of a state. -/
def switch (state : FsmState) (event : FsmEventData) (input : Input) : Block Unit :=
  match state with
  | .init => switchInit event input
  | .connecting => switchConnecting event input
  | .working => switchWorking event input
  | .reconnecting => switchReconnecting event input
  | .stopped => switchStopped event input

/-- The part of `process_state_reconnecting` after the switch. -/
def reconnectTimer (input : Input) : Block Unit := do
  let client ← Routine.get
  match client.config with
  | none => do
    handleErrorEvent none .invalidConfiguration
    setState .stopped
  | some config =>
    if config.reconnect then
      if Exhausted config client.reconnectAttempt then
        Routine.modify fun client => { client with isRunning := false, fsmState := .init }
      else if elapsedSeconds input.now client.closeTime ≥ config.reconnectDelay then do
        initWebsocket input.timerInit
        if input.timerInit then
          Routine.modify fun client => { client with isRunning := true, fsmState := .connecting }
        else do
          handleErrorEvent none .invalidConfiguration
          setState .stopped
      else pure ()
    else Routine.modify fun client => { client with isRunning := false, fsmState := .init }

/-- An event is popped, if there is one, and switched on. The value is whether it was a
message. -/
def handleNext (state : FsmState) (input : Input) : Block Bool := do
  let client ← Routine.get
  match client.fsmEventQueue with
  | [] => pure false
  | event :: rest => do
    Routine.modify fun client => client.popEvent event rest
    switch state event input
    pure (isMessage event)

/-- One state function up to its end, or up to the head of the loop in
`process_state_working`. The value is whether the loop goes on. -/
def processState (state : FsmState) (input : Input) : Block Bool :=
  match state with
  | .working => handleNext .working input
  | .reconnecting => do
    let _ ← handleNext .reconnecting input
    reconnectTimer input
    pure false
  | state => do
    let _ ← handleNext state input
    pure false

/-- `process_fsm_state`. -/
def processFsmState (input : Input) : Block Bool := do
  let client ← Routine.get
  processState client.fsmState input

end Block

/-! ### Functions that return at once -/

namespace Block

open Client

variable (client : Client) (event : FsmEventData) (input : Input)

@[simp]
theorem outcome_deliver (cause : Option FsmEventData) (data : WebSocketEventData) :
    (deliver cause data client).outcome = ((), client.deliver data) := by
  cases told : client.onEvent <;> simp [deliver, told]

@[simp]
theorem outcome_settle (success : Bool) :
    (settle event success client).outcome = ((), client.settle event success) := by
  cases given : event.callback <;> simp [settle, given]

@[simp]
theorem outcome_handleCloseEvent (given : Option WebSocketEventData) :
    (handleCloseEvent event given client).outcome = ((), client.handleCloseEvent given) := by
  cases connected : client.isConnected <;>
    simp [handleCloseEvent, Client.handleCloseEvent, connected]

@[simp]
theorem outcome_refuse : (refuse event client).outcome = ((), client.refuse event) := by
  simp [refuse, handleErrorEvent, setState, Client.refuse, Client.handleErrorEvent]

theorem outcome_startAttempt {config : WebSocketConfig} (configured : client.config = some config) :
    (startAttempt event input client).outcome = ((), client.startAttempt event input) := by
  cases answer : input.init <;>
    simp [startAttempt, initWebsocket, setState, Client.startAttempt, configured, answer]

theorem outcome_requestConnect :
    (requestConnect event input client).outcome = ((), client.requestConnect event input) := by
  cases configured : client.config with
  | none => simp [requestConnect, Client.requestConnect, configured]
  | some config =>
    simp [requestConnect, Client.requestConnect, configured, outcome_startAttempt]

theorem outcome_reconfigure (config : Option WebSocketConfig) :
    (reconfigure event config input client).outcome =
      ((), client.reconfigure event config input) := by
  cases config with
  | none => simp [reconfigure, Client.reconfigure]
  | some config =>
    have configured : ({ client.applyConfig config input with
        reconnectAttempt := 0 } : Client).config = some config := rfl
    simp [reconfigure, Client.reconfigure, outcome_startAttempt _ _ _ configured]

theorem outcome_disconnect :
    (disconnect event client).outcome = ((), client.disconnect event) := by
  simp [disconnect, setState, Client.disconnect]

theorem outcome_replaceConfig (config : Option WebSocketConfig) :
    (replaceConfig event config input client).outcome =
      ((), client.replaceConfig event config input) := by
  simp [replaceConfig, Client.replaceConfig, outcome_reconfigure]

theorem outcome_loseConnection (closeEvent : WebSocketEventData) :
    (loseConnection event closeEvent input client).outcome =
      ((), client.loseConnection closeEvent input) := by
  simp only [loseConnection, Routine.outcome_bind, Routine.outcome_modify,
    outcome_handleCloseEvent]
  rfl

theorem outcome_switch :
    (switch client.fsmState event input client).outcome = ((), client.switch event input) := by
  unfold switch Client.switch
  cases client.fsmState with
  | init =>
    cases event with
    | requestConnect callback => exact outcome_requestConnect client _ input
    | updateConfig config callback =>
      cases config <;> simp [switchInit, Client.switchInit]
    | _ => exact outcome_settle client _ false
  | connecting =>
    cases event with
    | requestDisconnect callback => exact outcome_disconnect client _
    | updateConfig config callback => exact outcome_replaceConfig client _ input config
    | requestConnect callback => exact outcome_settle client _ false
    | backend report attempt =>
      cases report with
      | connectionOpened statusCode =>
        cases connected : client.isConnected <;>
          simp [switchConnecting, Client.switchConnecting, handleOpenEvent,
            Client.handleOpenEvent, connected]
      | connectionClosed reason statusCode => exact outcome_loseConnection client _ input _
      | connectionError errorCode =>
        simp [switchConnecting, Client.switchConnecting, handleErrorEvent,
          Client.handleErrorEvent, outcome_loseConnection]
      | messageReceived text => exact outcome_settle client _ false
  | working =>
    cases event with
    | requestDisconnect callback => exact outcome_disconnect client _
    | updateConfig config callback => exact outcome_replaceConfig client _ input config
    | requestConnect callback => exact outcome_settle client _ false
    | backend report attempt =>
      cases report with
      | connectionOpened statusCode => exact outcome_settle client _ false
      | connectionClosed reason statusCode => exact outcome_loseConnection client _ input _
      | connectionError errorCode =>
        simp [switchWorking, Client.switchWorking, handleErrorEvent,
          Client.handleErrorEvent, outcome_loseConnection]
      | messageReceived text => exact outcome_deliver client _ _
  | reconnecting =>
    cases event with
    | requestDisconnect callback =>
      simp [switchReconnecting, Client.switchReconnecting, setState]
    | updateConfig config callback => exact outcome_reconfigure client _ input config
    | requestConnect callback => exact outcome_settle client _ false
    | backend report attempt =>
      cases report with
      | messageReceived text => exact outcome_deliver client _ _
      | _ => exact outcome_settle client _ false
  | stopped =>
    cases event with
    | requestConnect callback => exact outcome_requestConnect client _ input
    | updateConfig config callback => exact outcome_reconfigure client _ input config
    | _ => exact outcome_settle client _ false

theorem outcome_reconnectTimer :
    (reconnectTimer input client).outcome = ((), client.reconnectTimer input) := by
  cases configured : client.config with
  | none =>
    simp [reconnectTimer, Client.reconnectTimer, configured, handleErrorEvent,
      Client.handleErrorEvent, setState]
  | some config =>
    by_cases enabled : config.reconnect = true
    · by_cases ended : Exhausted config client.reconnectAttempt
      · simp [reconnectTimer, Client.reconnectTimer, configured, enabled, ended]
      · by_cases passed : elapsedSeconds input.now client.closeTime ≥ config.reconnectDelay
        · cases answer : input.timerInit <;>
            simp [reconnectTimer, Client.reconnectTimer, configured, enabled, ended, passed,
              initWebsocket, answer, handleErrorEvent, Client.handleErrorEvent, setState]
        · simp [reconnectTimer, Client.reconnectTimer, configured, enabled, ended, passed]
    · simp [reconnectTimer, Client.reconnectTimer, configured, enabled]

/-- A pass that finds an event pops it and switches on it. -/
theorem outcome_handleNext {rest : List FsmEventData}
    (queue : client.fsmEventQueue = event :: rest) :
    (handleNext client.fsmState input client).outcome =
      (isMessage event, (client.popEvent event rest).switch event input) := by
  have switched := outcome_switch (client.popEvent event rest) event input
  simp only [handleNext, queue, Routine.outcome_bind, Routine.outcome_get,
    Routine.outcome_modify, Routine.outcome_pure]
  rw [show client.fsmState = (client.popEvent event rest).fsmState from rfl, switched]

theorem outcome_handleNext_of_empty (state : FsmState) (queue : client.fsmEventQueue = []) :
    (handleNext state input client).outcome = (false, client) := by
  simp only [handleNext, queue, Routine.outcome_bind, Routine.outcome_get, Routine.outcome_pure]

/-- Outside `WORKING`, where the loop makes several passes, a call does what the state machine
does. -/
theorem outcome_processState (state : client.fsmState ≠ .working) :
    (processState client.fsmState input client).outcome =
      (false, client.processFsmState input) := by
  by_cases reconnecting : client.fsmState = .reconnecting
  · rw [reconnecting, Client.processFsmState_of_reconnecting _ _ reconnecting]
    cases queue : client.fsmEventQueue with
    | nil =>
      have passed := outcome_handleNext_of_empty client input .reconnecting queue
      simp [processState, passed, outcome_reconnectTimer]
    | cons event rest =>
      have passed := outcome_handleNext client event input queue
      rw [reconnecting] at passed
      simp [processState, passed, outcome_reconnectTimer]
  · rw [Client.processFsmState_of_plain _ _ state reconnecting]
    cases queue : client.fsmEventQueue with
    | nil =>
      have passed := outcome_handleNext_of_empty client input client.fsmState queue
      cases current : client.fsmState <;> simp_all [processState]
    | cons event rest =>
      have passed := outcome_handleNext client event input queue
      cases current : client.fsmState <;> simp_all [processState]

end Block

end Kurlyk.WebSocket
