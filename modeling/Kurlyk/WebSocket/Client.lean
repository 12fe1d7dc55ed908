/-
This file models `BaseWebSocketClient`, the state machine behind a WebSocket
connection, together with the members its SimpleWeb adapter adds.

`process_fsm_state` runs on the worker thread and alone removes events from
`m_fsm_event_queue`; the other threads only append to it. An event that arrives
while the function runs is seen by it as if it had been there before, or is left
for the next call, so that one call is one atomic transformation. This is so as long
as the handlers and completion callbacks that the function calls return to it and do
not call `process` or `shutdown` of the client themselves; `Blocks` cuts the same
function into pieces for those that do otherwise.

What the virtual function `init_websocket` answers and what the clock shows are
inputs of the call. Everything the client does to the outside is recorded in an
append-only log: calls of the backend, results given to completion callbacks and
events given to the user. No function reads the log.
-/

import Kurlyk.WebSocket.RateLimiter

namespace Kurlyk.WebSocket

/-! ### Data -/

/-- `FsmState`. -/
inductive FsmState where
  | init
  | connecting
  | working
  | reconnecting
  | stopped
deriving DecidableEq

/-- `WebSocketEventType`. -/
inductive WebSocketEventType where
  | wsOpen
  | wsMessage
  | wsClose
  | wsError
deriving DecidableEq

/-- The error codes that reach the user. -/
inductive ErrorCode where
  | success
  | invalidConfiguration
  | notConnected
  | queueLimitExceeded
  | backend (value : ℤ)
deriving DecidableEq

/-- `WebSocketEventData`, without the pointer to its sender. -/
structure WebSocketEventData where
  eventType : WebSocketEventType
  message : String := ""
  statusCode : ℤ := 0
  errorCode : ErrorCode := .success
deriving DecidableEq

/-- The fields of `WebSocketConfig` that the state machine reads. All others are read by
`init_websocket` only. -/
structure WebSocketConfig where
  reconnectDelay : ℤ := 5
  reconnectAttempts : ℤ := 0
  maxSendQueueSize : ℕ := 0
  reconnect : Bool := true
  rateLimits : List RateLimitData := []
deriving DecidableEq

/-- What the backend reports, with the data it reports. -/
inductive BackendEvent where
  | connectionOpened (statusCode : ℤ)
  | connectionClosed (reason : String) (statusCode : ℤ)
  | connectionError (errorCode : ErrorCode)
  | messageReceived (message : String)
deriving DecidableEq

/-- `FSMEventData`: a request with its optional callback, or a report of the backend. The
number of the attempt that reports is not in the source; no function reads it. -/
inductive FsmEventData where
  | requestConnect (callback : Option ℕ)
  | requestDisconnect (callback : Option ℕ)
  | updateConfig (configData : Option WebSocketConfig) (callback : Option ℕ)
  | backend (event : BackendEvent) (attempt : ℕ)
deriving DecidableEq

/-- `event.callback`. -/
def FsmEventData.callback : FsmEventData → Option ℕ
  | .requestConnect callback => callback
  | .requestDisconnect callback => callback
  | .updateConfig _ callback => callback
  | .backend _ _ => none

/-- `WebSocketSendInfo`. -/
structure WebSocketSendInfo where
  message : String
  rateLimitId : ℤ := 0
  isSendClose : Bool := false
  status : ℤ := 1000
  callback : Option ℕ := none
deriving DecidableEq

/-- What a client does to the outside. `settled` is the end of a request of the user: its
callback, if it has one, receives the result. `nullConfig` stands for the undefined behaviour of
reading through a null `m_config`. -/
inductive Effect where
  | popped (event : FsmEventData)
  | initWebsocket (started : Bool)
  | deinitWebsocket
  | delivered (event : WebSocketEventData)
  | settled (event : FsmEventData) (success : Bool)
  | accepted (send : WebSocketSendInfo)
  | sendCompleted (callback : ℕ) (errorCode : ErrorCode)
  | nullConfig
deriving DecidableEq

/-- The members of `BaseWebSocketClient` that make up the state machine. -/
structure Machine where
  config : Option WebSocketConfig := none
  fsmState : FsmState := .init
  reconnectAttempt : ℕ := 0
  isRunning : Bool := false
  isConnected : Bool := false
  closeTime : TimePoint := 0
deriving DecidableEq

/-- The members of `BaseWebSocketClient` and its adapter. `onEvent` says whether a handler for
events is set, and `connection` whether one of the adapter's connection pointers is. -/
structure Client extends Machine where
  fsmEventQueue : List FsmEventData := []
  maxSendQueueSize : ℕ := 0
  rateLimiter : WebSocketRateLimiter := []
  onEvent : Bool := false
  eventQueue : List WebSocketEventData := []
  messageQueue : List WebSocketSendInfo := []
  sendCallbackQueue : List (ErrorCode × ℕ) := []
  connection : Bool := false
  log : List Effect := []

/-- What one call of `process_fsm_state` reads from outside: the answers of `init_websocket`
when an event calls it and when the reconnect timer does, the clock, and the readings of
`set_limit`. -/
structure Input where
  init : Bool := true
  timerInit : Bool := true
  now : TimePoint := 0
  limitClock : ℕ → TimePoint := fun _ => 0

/-- `duration_cast<seconds>(now - m_close_time).count()`. -/
def elapsedSeconds (now closeTime : TimePoint) : ℤ :=
  ((now : ℤ) - (closeTime : ℤ)).tdiv 1000000000

namespace Client

/-- Appends one entry to the log. -/
def emit (client : Client) (effect : Effect) : Client :=
  { client with log := client.log ++ [effect] }

/-- `is_running`. -/
def running (client : Client) : Bool :=
  client.isRunning || !client.fsmEventQueue.isEmpty

/-- `m_fsm_event_queue.push_event`. -/
def pushEvent (client : Client) (event : FsmEventData) : Client :=
  { client with fsmEventQueue := client.fsmEventQueue ++ [event] }

/-- `add_fsm_event` in a handler of the backend. The handler of an opened connection stores the
connection first. -/
def addFsmEvent (client : Client) (event : BackendEvent) (attempt : ℕ) : Client :=
  match event with
  | .connectionOpened _ => { client with connection := true }.pushEvent (.backend event attempt)
  | _ => client.pushEvent (.backend event attempt)

/-- `m_fsm_event_queue.pop_event` on a queue that is not empty. -/
def popEvent (client : Client) (event : FsmEventData) (rest : List FsmEventData) : Client :=
  { client with fsmEventQueue := rest }.emit (.popped event)

/-! ### Events for the user -/

/-- The event goes to the handler, or to the stored queue when there is none. -/
def deliver (client : Client) (event : WebSocketEventData) : Client :=
  if client.onEvent then client.emit (.delivered event)
  else { client with eventQueue := client.eventQueue ++ [event] }.emit (.delivered event)

/-- `create_websocket_open_event`. -/
def createWebsocketOpenEvent (statusCode : ℤ) : WebSocketEventData :=
  { eventType := .wsOpen, statusCode }

/-- `create_websocket_message_event`. -/
def createWebsocketMessageEvent (message : String) : WebSocketEventData :=
  { eventType := .wsMessage, message }

/-- `create_websocket_close_event`. -/
def createWebsocketCloseEvent (reason : String) (statusCode : ℤ) : WebSocketEventData :=
  { eventType := .wsClose, message := reason, statusCode }

/-- `create_websocket_error_event`. -/
def createWebsocketErrorEvent (errorCode : ErrorCode) : WebSocketEventData :=
  { eventType := .wsError, errorCode }

/-- `handle_open_event`. -/
def handleOpenEvent (client : Client) (event : WebSocketEventData) : Client :=
  if client.isConnected then client else { client with isConnected := true }.deliver event

/-- `handle_close_event`, with the event it creates when none is given. -/
def handleCloseEvent (client : Client) (event : Option WebSocketEventData) : Client :=
  if client.isConnected then
    { client with isConnected := false }.deliver
      (event.getD (createWebsocketCloseEvent "Normal Closure" 1000))
  else client

/-- `handle_error_event`. -/
def handleErrorEvent (client : Client) (errorCode : ErrorCode) : Client :=
  client.deliver (createWebsocketErrorEvent errorCode)

/-- `handle_message_event`. -/
def handleMessageEvent (client : Client) (message : String) : Client :=
  client.deliver (createWebsocketMessageEvent message)

/-- `if (event.callback) event.callback(success)`. The events of the backend have no callback. -/
def settle (client : Client) (event : FsmEventData) (success : Bool) : Client :=
  match event with
  | .backend _ _ => client
  | _ => client.emit (.settled event success)

/-! ### Calls of the backend -/

/-- `init_websocket`, with the answer it gives. -/
def initWebsocket (client : Client) (started : Bool) : Client :=
  client.emit (.initWebsocket started)

/-- `deinit_websocket`: the adapter forgets its connection. -/
def deinitWebsocket (client : Client) : Client :=
  { client with connection := false }.emit .deinitWebsocket

/-! ### The blocks that several states share -/

/-- A request that cannot be served: the user is told of an invalid configuration. -/
def refuse (client : Client) (event : FsmEventData) : Client :=
  { (client.handleErrorEvent .invalidConfiguration).settle event false with
    fsmState := .stopped }

/-- `init_websocket` is called for a request, which is settled by the answer. -/
def startAttempt (client : Client) (event : FsmEventData) (input : Input) : Client :=
  let tried := client.initWebsocket input.init
  if input.init then
    { { tried with isRunning := true }.settle event true with fsmState := .connecting }
  else tried.refuse event

/-- The limits of a new configuration take effect. -/
def applyConfig (client : Client) (config : WebSocketConfig) (input : Input) : Client :=
  { client with
    config := some config
    rateLimiter := client.rateLimiter.setLimit config.rateLimits input.limitClock
    maxSendQueueSize := config.maxSendQueueSize }

/-- `RequestConnect` in `INIT` and `STOPPED`. -/
def requestConnect (client : Client) (event : FsmEventData) (input : Input) : Client :=
  if client.config.isNone then client.refuse event else client.startAttempt event input

/-- `UpdateConfig` outside `INIT`, after the old connection is gone. -/
def reconfigure (client : Client) (event : FsmEventData) (config : Option WebSocketConfig)
    (input : Input) : Client :=
  match config with
  | none => { client with config := none }.refuse event
  | some config =>
    { client.applyConfig config input with reconnectAttempt := 0 }.startAttempt event input

/-- `RequestDisconnect` in `CONNECTING` and `WORKING`. -/
def disconnect (client : Client) (event : FsmEventData) : Client :=
  { { client.deinitWebsocket.handleCloseEvent none with
      reconnectAttempt := 0, isRunning := false }.settle event true with fsmState := .init }

/-- `UpdateConfig` in `CONNECTING` and `WORKING`. -/
def replaceConfig (client : Client) (event : FsmEventData) (config : Option WebSocketConfig)
    (input : Input) : Client :=
  (client.deinitWebsocket.handleCloseEvent none).reconfigure event config input

/-- The end of a connection that the backend reports, in `CONNECTING` and `WORKING`. -/
def loseConnection (client : Client) (closeEvent : WebSocketEventData) (input : Input) : Client :=
  let closed := client.deinitWebsocket.handleCloseEvent (some closeEvent)
  match closed.config with
  | none => closed.emit .nullConfig
  | some config =>
    if config.reconnect then
      { closed with
        reconnectAttempt := closed.reconnectAttempt + 1
        closeTime := input.now
        isRunning := true
        fsmState := .reconnecting }
    else { closed with isRunning := false, fsmState := .init }

/-! ### The states -/

/-- The switch of `process_state_init`. -/
def switchInit (client : Client) (event : FsmEventData) (input : Input) : Client :=
  match event with
  | .requestConnect _ => client.requestConnect event input
  | .updateConfig none _ => { client with config := none }.settle event false
  | .updateConfig (some config) _ => (client.applyConfig config input).settle event true
  | _ => client.settle event false

/-- The switch of `process_state_connecting`. -/
def switchConnecting (client : Client) (event : FsmEventData) (input : Input) : Client :=
  match event with
  | .backend (.connectionOpened statusCode) _ =>
    { client.handleOpenEvent (createWebsocketOpenEvent statusCode) with
      reconnectAttempt := 0, isRunning := true, fsmState := .working }
  | .backend (.connectionError errorCode) _ =>
    (client.handleErrorEvent errorCode).loseConnection
      (createWebsocketCloseEvent "Going Away" 1001) input
  | .backend (.connectionClosed reason statusCode) _ =>
    client.loseConnection (createWebsocketCloseEvent reason statusCode) input
  | .requestDisconnect _ => client.disconnect event
  | .updateConfig config _ => client.replaceConfig event config input
  | _ => client.settle event false

/-- The switch of `process_state_working`. -/
def switchWorking (client : Client) (event : FsmEventData) (input : Input) : Client :=
  match event with
  | .requestDisconnect _ => client.disconnect event
  | .backend (.connectionError errorCode) _ =>
    (client.handleErrorEvent errorCode).loseConnection
      (createWebsocketCloseEvent "Going Away" 1001) input
  | .backend (.connectionClosed reason statusCode) _ =>
    client.loseConnection (createWebsocketCloseEvent reason statusCode) input
  | .updateConfig config _ => client.replaceConfig event config input
  | .backend (.messageReceived message) _ => client.handleMessageEvent message
  | _ => client.settle event false

/-- The switch of `process_state_reconnecting`. -/
def switchReconnecting (client : Client) (event : FsmEventData) (input : Input) : Client :=
  match event with
  | .requestDisconnect _ =>
    { { client with isRunning := false }.settle event true with fsmState := .init }
  | .updateConfig config _ => client.reconfigure event config input
  | .backend (.messageReceived message) _ => client.handleMessageEvent message
  | _ => client.settle event false

/-- The switch of `process_state_stopped`. -/
def switchStopped (client : Client) (event : FsmEventData) (input : Input) : Client :=
  match event with
  | .requestConnect _ => client.requestConnect event input
  | .updateConfig config _ => client.reconfigure event config input
  | _ => client.settle event false

/-- The reconnect budget of the configuration is used up. -/
def Exhausted (config : WebSocketConfig) (reconnectAttempt : ℕ) : Prop :=
  config.reconnectAttempts ≠ 0 ∧ (reconnectAttempt : ℤ) ≥ config.reconnectAttempts

instance (config : WebSocketConfig) (reconnectAttempt : ℕ) :
    Decidable (Exhausted config reconnectAttempt) :=
  inferInstanceAs (Decidable (_ ∧ _))

/-- The part of `process_state_reconnecting` after the switch. -/
def reconnectTimer (client : Client) (input : Input) : Client :=
  match client.config with
  | none => { client.handleErrorEvent .invalidConfiguration with fsmState := .stopped }
  | some config =>
    if config.reconnect then
      if Exhausted config client.reconnectAttempt then
        { client with isRunning := false, fsmState := .init }
      else if elapsedSeconds input.now client.closeTime ≥ config.reconnectDelay then
        let tried := client.initWebsocket input.timerInit
        if input.timerInit then { tried with isRunning := true, fsmState := .connecting }
        else { tried.handleErrorEvent .invalidConfiguration with fsmState := .stopped }
      else client
    else { client with isRunning := false, fsmState := .init }

/-- `process_state_init`. -/
def processStateInit (client : Client) (input : Input) : Client :=
  match client.fsmEventQueue with
  | [] => client
  | event :: rest => (client.popEvent event rest).switchInit event input

/-- `process_state_connecting`. -/
def processStateConnecting (client : Client) (input : Input) : Client :=
  match client.fsmEventQueue with
  | [] => client
  | event :: rest => (client.popEvent event rest).switchConnecting event input

/-- `is_message` after the switch of `process_state_working`. -/
def isMessage : FsmEventData → Bool
  | .backend (.messageReceived _) _ => true
  | _ => false

/-- The loop of `process_state_working` over the events in the queue. -/
def workingLoop (input : Input) : List FsmEventData → Client → Client
  | [], client => client
  | event :: rest, client =>
    let handled := (client.popEvent event rest).switchWorking event input
    if isMessage event then workingLoop input rest handled else handled

/-- `process_state_working`. -/
def processStateWorking (client : Client) (input : Input) : Client :=
  workingLoop input client.fsmEventQueue client

/-- `process_state_reconnecting`. -/
def processStateReconnecting (client : Client) (input : Input) : Client :=
  match client.fsmEventQueue with
  | [] => client.reconnectTimer input
  | event :: rest => ((client.popEvent event rest).switchReconnecting event input).reconnectTimer input

/-- `process_state_stopped`. -/
def processStateStopped (client : Client) (input : Input) : Client :=
  match client.fsmEventQueue with
  | [] => client
  | event :: rest => (client.popEvent event rest).switchStopped event input

/-- `process_fsm_state`. -/
def processFsmState (client : Client) (input : Input) : Client :=
  match client.fsmState with
  | .init => client.processStateInit input
  | .connecting => client.processStateConnecting input
  | .working => client.processStateWorking input
  | .reconnecting => client.processStateReconnecting input
  | .stopped => client.processStateStopped input

/-- The switch of the current state on an event that was popped. -/
def switch (client : Client) (event : FsmEventData) (input : Input) : Client :=
  match client.fsmState with
  | .init => client.switchInit event input
  | .connecting => client.switchConnecting event input
  | .working => client.switchWorking event input
  | .reconnecting => client.switchReconnecting event input
  | .stopped => client.switchStopped event input

/-! ### Outgoing messages -/

/-- The part of `submit_message` and `submit_close` under `m_message_queue_mutex`. -/
def enqueue (client : Client) (send : WebSocketSendInfo) : Client :=
  if client.maxSendQueueSize ≠ 0 ∧ client.messageQueue.length ≥ client.maxSendQueueSize then client
  else { client with messageQueue := client.messageQueue ++ [send] }.emit (.accepted send)

/-- The pass of `process_message_queue` over the queue: what the rate limiter holds back, what
it lets through, and the limiter afterwards. `readings` gives the clock readings at each
position of the queue. -/
def selectMessages (readings : ℕ → WebSocketRateLimiter.Readings) (limiter : WebSocketRateLimiter) :
    ℕ → List WebSocketSendInfo →
      List WebSocketSendInfo × List WebSocketSendInfo × WebSocketRateLimiter
  | _, [] => ([], [], limiter)
  | position, send :: rest =>
    let answer := limiter.allowRequest send.rateLimitId (readings position)
    let later := selectMessages readings answer.2 (position + 1) rest
    if answer.1 then (later.1, send :: later.2.1, later.2.2)
    else (send :: later.1, later.2.1, later.2.2)

/-- The locked part of `process_message_queue`, with the messages it takes out. -/
def takeMessages (client : Client) (readings : ℕ → WebSocketRateLimiter.Readings) :
    List WebSocketSendInfo × Client :=
  let selected := selectMessages readings client.rateLimiter 0 client.messageQueue
  (selected.2.1, { client with messageQueue := selected.1, rateLimiter := selected.2.2 })

/-- A send callback is invoked. -/
def completeSend (client : Client) (errorCode : ErrorCode) (callback : Option ℕ) : Client :=
  match callback with
  | none => client
  | some callback => client.emit (.sendCompleted callback errorCode)

/-- `add_send_callback`, called by the handler of a send that has a callback. -/
def addSendCallback (client : Client) (errorCode : ErrorCode) (callback : Option ℕ) : Client :=
  match callback with
  | none => client
  | some callback =>
    { client with sendCallbackQueue := client.sendCallbackQueue ++ [(errorCode, callback)] }

/-- `process_send_callback_queue`. -/
def processSendCallbackQueue (client : Client) : Client :=
  { client with
    sendCallbackQueue := []
    log := client.log ++ client.sendCallbackQueue.map fun item => .sendCompleted item.2 item.1 }

end Client

end Kurlyk.WebSocket
