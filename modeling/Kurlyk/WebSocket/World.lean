/-
This file models the threads around one WebSocket client. The network worker
alone calls `process` and `shutdown`; users make requests and submit messages,
and the thread of the backend reports events and runs the handlers of finished
sends. Every action is one atomic step of one thread: a section under a mutex, a
read of an atomic flag, or a call of `process_fsm_state`.

`submit_message` and `submit_close` read `m_is_connected` before they lock the
queue, so a message may enter the queue of a client that has been disconnected
in between. The events of the backend come in any order and at any time, and
carry the number of the attempt they belong to; the attempts are numbered from
one in the order in which `init_websocket` starts them.

The handlers and callbacks of the user return normally here, and none of them calls
`process` or `shutdown` of its client. `Callbacks` extends this system by those that
throw or call back.
-/

import Kurlyk.Lib.Log
import Kurlyk.Lib.System
import Kurlyk.WebSocket.Transition

namespace Kurlyk.WebSocket

/-! ### The state -/

/-- The statement the worker is at: between two calls, inside `process`, or in the loop of
`shutdown`. -/
inductive Point where
  | idle
  | processMessages
  | sending (messageQueue : List WebSocketSendInfo)
  | processCallbacks
  | shutdownLoop
  | shutdownCallbacks

/-- The worker is between two calls. -/
def Point.isIdle : Point → Bool
  | .idle => true
  | _ => false

theorem Point.isIdle_iff {point : Point} : point.isIdle = true ↔ point = .idle := by
  cases point <;> simp [isIdle]

/-- A client and the threads around it. `submitting` holds the messages of threads that have
seen the client connected and wait for the queue, `outstanding` the sends whose handlers the
backend has not run. -/
structure ClientWorld where
  client : Client := {}
  point : Point := .idle
  nextCall : ℕ := 0
  nextSend : ℕ := 0
  submitting : List WebSocketSendInfo := []
  outstanding : List WebSocketSendInfo := []

/-- The actions of all threads. -/
inductive ClientAction where
  | setConfig (config : Option WebSocketConfig) (callback : Bool)
  | connect (callback : Bool)
  | disconnect (callback : Bool)
  | setEventHandler (given : Bool)
  | receiveEvents
  | receiveEvent
  | submitMessage (message : String) (rateLimitId : ℤ) (callback : Bool)
  | submitClose (status : ℤ) (reason : String) (callback : Bool)
  | enqueue (position : ℕ)
  | report (event : BackendEvent) (attempt : ℕ)
  | finishSend (position : ℕ) (errorCode : ErrorCode)
  | callProcess (input : Input)
  | processMessageQueue (readings : ℕ → WebSocketRateLimiter.Readings)
  | send
  | processSendCallbackQueue
  | callShutdown
  | loopShutdown (input : Input)
  | returnShutdown

/-- The input of a call of `process_fsm_state`. -/
def ClientAction.input? : ClientAction → Option Input
  | .callProcess input => some input
  | .loopShutdown input => some input
  | _ => none

namespace ClientWorld

variable (world : ClientWorld)

/-! ### Users -/

/-- A request of the user enters the event queue, with the next number if it has a callback. -/
def request (callback : Bool) (event : Option ℕ → FsmEventData) : ClientWorld :=
  if callback then
    { world with
      client := world.client.pushEvent (event (some world.nextCall))
      nextCall := world.nextCall + 1 }
  else { world with client := world.client.pushEvent (event none) }

/-- A thread has passed the test of `is_connected` with its message. -/
def beginSubmit (callback : Bool) (send : Option ℕ → WebSocketSendInfo) : ClientWorld :=
  if callback then
    { world with
      submitting := world.submitting ++ [send (some world.nextSend)]
      nextSend := world.nextSend + 1 }
  else { world with submitting := world.submitting ++ [send none] }

/-- `submit_message` up to the lock. A rejected message leaves no trace. -/
def submitMessage (message : String) (rateLimitId : ℤ) (callback : Bool) : ClientWorld :=
  if message.isEmpty || !world.client.isConnected then world
  else world.beginSubmit callback fun callback =>
    { message, rateLimitId, isSendClose := false, status := 0, callback }

/-- `submit_close` up to the lock. -/
def submitClose (status : ℤ) (reason : String) (callback : Bool) : ClientWorld :=
  if !world.client.isConnected then world
  else world.beginSubmit callback fun callback =>
    { message := reason, rateLimitId := 0, isSendClose := true, status, callback }

/-- A submitting thread locks the queue. -/
def enqueue (position : ℕ) : Option ClientWorld :=
  (world.submitting[position]?).map fun send =>
    { world with
      client := world.client.enqueue send
      submitting := world.submitting.eraseIdx position }

/-! ### The backend -/

/-- A handler of the backend runs. -/
def report (event : BackendEvent) (attempt : ℕ) : ClientWorld :=
  { world with client := world.client.addFsmEvent event attempt }

/-- The handler of a send runs. -/
def finishSend (position : ℕ) (errorCode : ErrorCode) : Option ClientWorld :=
  (world.outstanding[position]?).map fun send =>
    { world with
      client := world.client.addSendCallback errorCode send.callback
      outstanding := world.outstanding.eraseIdx position }

/-! ### The worker -/

/-- The virtual `send_message` and `send_close` of the adapter: without a connection the
callback runs at once, with one the send is handed to the backend. -/
def sendOne (send : WebSocketSendInfo) (rest : List WebSocketSendInfo) : ClientWorld :=
  if world.client.connection then
    { world with point := .sending rest, outstanding := world.outstanding ++ [send] }
  else
    { world with
      point := .sending rest
      client := world.client.completeSend .notConnected send.callback }

/-- One action, if its thread is there. -/
def step (world : ClientWorld) : ClientAction → Option ClientWorld
  | .setConfig config callback => some (world.request callback (.updateConfig config))
  | .connect callback => some (world.request callback .requestConnect)
  | .disconnect callback => some (world.request callback .requestDisconnect)
  | .setEventHandler given => some { world with client := { world.client with onEvent := given } }
  | .receiveEvents => some { world with client := { world.client with eventQueue := [] } }
  | .receiveEvent =>
    some { world with
      client := { world.client with eventQueue := world.client.eventQueue.drop 1 } }
  | .submitMessage message rateLimitId callback =>
    some (world.submitMessage message rateLimitId callback)
  | .submitClose status reason callback => some (world.submitClose status reason callback)
  | .enqueue position => world.enqueue position
  | .report event attempt => some (world.report event attempt)
  | .finishSend position errorCode => world.finishSend position errorCode
  | .callProcess input =>
    match world.point with
    | .idle =>
      some { world with client := world.client.processFsmState input, point := .processMessages }
    | _ => none
  | .processMessageQueue readings =>
    match world.point with
    | .processMessages =>
      let taken := world.client.takeMessages readings
      some { world with client := taken.2, point := .sending taken.1 }
    | _ => none
  | .send =>
    match world.point with
    | .sending (send :: rest) => some (world.sendOne send rest)
    | .sending [] => some { world with point := .processCallbacks }
    | _ => none
  | .processSendCallbackQueue =>
    match world.point with
    | .processCallbacks =>
      some { world with client := world.client.processSendCallbackQueue, point := .idle }
    | .shutdownCallbacks =>
      some { world with client := world.client.processSendCallbackQueue, point := .shutdownLoop }
    | _ => none
  | .callShutdown =>
    match world.point with
    | .idle =>
      some { world with
        client := world.client.pushEvent (.requestDisconnect none)
        point := .shutdownLoop }
    | _ => none
  | .loopShutdown input =>
    match world.point with
    | .shutdownLoop =>
      if world.client.running then
        some { world with client := world.client.processFsmState input, point := .shutdownCallbacks }
      else none
    | _ => none
  | .returnShutdown =>
    match world.point with
    | .shutdownLoop => if world.client.running then none else some { world with point := .idle }
    | _ => none

end ClientWorld

/-- A client with all its threads, from its construction on. -/
def clientSystem : System ClientWorld ClientAction where
  init := {}
  step := ClientWorld.step

/-! ### What a step can do -/

/-- What one step does, said once: the later files do not unfold `ClientWorld.step`. -/
inductive ClientStep (world : ClientWorld) : ClientAction → ClientWorld → Prop where
  | setConfig {config : Option WebSocketConfig} {callback : Bool} :
    ClientStep world (.setConfig config callback) (world.request callback (.updateConfig config))
  | connect {callback : Bool} :
    ClientStep world (.connect callback) (world.request callback .requestConnect)
  | disconnect {callback : Bool} :
    ClientStep world (.disconnect callback) (world.request callback .requestDisconnect)
  | setEventHandler {given : Bool} : ClientStep world (.setEventHandler given)
      { world with client := { world.client with onEvent := given } }
  | receiveEvents : ClientStep world .receiveEvents
      { world with client := { world.client with eventQueue := [] } }
  | receiveEvent : ClientStep world .receiveEvent
      { world with client := { world.client with eventQueue := world.client.eventQueue.drop 1 } }
  | rejectMessage {message : String} {rateLimitId : ℤ} {callback : Bool} :
    ClientStep world (.submitMessage message rateLimitId callback) world
  | submitMessage {message : String} {rateLimitId : ℤ} {callback : Bool} :
    ClientStep world (.submitMessage message rateLimitId callback)
      (world.beginSubmit callback fun callback =>
        { message, rateLimitId, isSendClose := false, status := 0, callback })
  | rejectClose {status : ℤ} {reason : String} {callback : Bool} :
    ClientStep world (.submitClose status reason callback) world
  | submitClose {status : ℤ} {reason : String} {callback : Bool} :
    ClientStep world (.submitClose status reason callback)
      (world.beginSubmit callback fun callback =>
        { message := reason, rateLimitId := 0, isSendClose := true, status, callback })
  | enqueue {position : ℕ} {send : WebSocketSendInfo}
    (found : world.submitting[position]? = some send) :
    ClientStep world (.enqueue position) { world with
      client := world.client.enqueue send
      submitting := world.submitting.eraseIdx position }
  | report {event : BackendEvent} {attempt : ℕ} :
    ClientStep world (.report event attempt) (world.report event attempt)
  | finishSend {position : ℕ} {errorCode : ErrorCode} {send : WebSocketSendInfo}
    (found : world.outstanding[position]? = some send) :
    ClientStep world (.finishSend position errorCode) { world with
      client := world.client.addSendCallback errorCode send.callback
      outstanding := world.outstanding.eraseIdx position }
  | callProcess {input : Input} (point : world.point = .idle) :
    ClientStep world (.callProcess input)
      { world with client := world.client.processFsmState input, point := .processMessages }
  | processMessageQueue {readings : ℕ → WebSocketRateLimiter.Readings}
    (point : world.point = .processMessages) :
    ClientStep world (.processMessageQueue readings) { world with
      client := (world.client.takeMessages readings).2
      point := .sending (world.client.takeMessages readings).1 }
  | send {send : WebSocketSendInfo} {rest : List WebSocketSendInfo}
    (point : world.point = .sending (send :: rest)) :
    ClientStep world .send (world.sendOne send rest)
  | allSent (point : world.point = .sending []) :
    ClientStep world .send { world with point := .processCallbacks }
  | processSendCallbackQueue (point : world.point = .processCallbacks) :
    ClientStep world .processSendCallbackQueue
      { world with client := world.client.processSendCallbackQueue, point := .idle }
  | drainSendCallbackQueue (point : world.point = .shutdownCallbacks) :
    ClientStep world .processSendCallbackQueue
      { world with client := world.client.processSendCallbackQueue, point := .shutdownLoop }
  | callShutdown (point : world.point = .idle) :
    ClientStep world .callShutdown { world with
      client := world.client.pushEvent (.requestDisconnect none)
      point := .shutdownLoop }
  | loopShutdown {input : Input} (point : world.point = .shutdownLoop)
    (running : world.client.running = true) :
    ClientStep world (.loopShutdown input)
      { world with client := world.client.processFsmState input, point := .shutdownCallbacks }
  | returnShutdown (point : world.point = .shutdownLoop)
    (stopped : world.client.running = false) :
    ClientStep world .returnShutdown { world with point := .idle }

theorem clientStep_of_step {world next : ClientWorld} {action : ClientAction}
    (stepped : world.step action = some next) : ClientStep world action next := by
  cases action with
  | setConfig config callback =>
    obtain rfl := Option.some.inj stepped
    exact .setConfig
  | connect callback =>
    obtain rfl := Option.some.inj stepped
    exact .connect
  | disconnect callback =>
    obtain rfl := Option.some.inj stepped
    exact .disconnect
  | setEventHandler given =>
    obtain rfl := Option.some.inj stepped
    exact .setEventHandler
  | receiveEvents =>
    obtain rfl := Option.some.inj stepped
    exact .receiveEvents
  | receiveEvent =>
    obtain rfl := Option.some.inj stepped
    exact .receiveEvent
  | submitMessage message rateLimitId callback =>
    obtain rfl := Option.some.inj stepped
    unfold ClientWorld.submitMessage
    split
    · exact .rejectMessage
    · exact .submitMessage
  | submitClose status reason callback =>
    obtain rfl := Option.some.inj stepped
    unfold ClientWorld.submitClose
    split
    · exact .rejectClose
    · exact .submitClose
  | enqueue position =>
    obtain ⟨send, found, rfl⟩ := Option.map_eq_some_iff.mp stepped
    exact .enqueue found
  | report event attempt =>
    obtain rfl := Option.some.inj stepped
    exact .report
  | finishSend position errorCode =>
    obtain ⟨send, found, rfl⟩ := Option.map_eq_some_iff.mp stepped
    exact .finishSend found
  | callProcess input =>
    simp only [ClientWorld.step] at stepped
    split at stepped
    · rename_i point
      obtain rfl := Option.some.inj stepped
      exact .callProcess point
    · cases stepped
  | processMessageQueue readings =>
    simp only [ClientWorld.step] at stepped
    split at stepped
    · rename_i point
      obtain rfl := Option.some.inj stepped
      exact .processMessageQueue point
    · cases stepped
  | send =>
    simp only [ClientWorld.step] at stepped
    split at stepped
    · rename_i send rest point
      obtain rfl := Option.some.inj stepped
      exact .send point
    · rename_i point
      obtain rfl := Option.some.inj stepped
      exact .allSent point
    · cases stepped
  | processSendCallbackQueue =>
    simp only [ClientWorld.step] at stepped
    split at stepped
    · rename_i point
      obtain rfl := Option.some.inj stepped
      exact .processSendCallbackQueue point
    · rename_i point
      obtain rfl := Option.some.inj stepped
      exact .drainSendCallbackQueue point
    · cases stepped
  | callShutdown =>
    simp only [ClientWorld.step] at stepped
    split at stepped
    · rename_i point
      obtain rfl := Option.some.inj stepped
      exact .callShutdown point
    · cases stepped
  | loopShutdown input =>
    simp only [ClientWorld.step] at stepped
    split at stepped
    · rename_i point
      rw [Option.ite_none_right_eq_some] at stepped
      obtain ⟨running, same⟩ := stepped
      obtain rfl := Option.some.inj same
      exact .loopShutdown point running
    · cases stepped
  | returnShutdown =>
    simp only [ClientWorld.step] at stepped
    split at stepped
    · rename_i point
      rw [Option.ite_none_left_eq_some, Bool.not_eq_true] at stepped
      obtain ⟨stopped, same⟩ := stepped
      obtain rfl := Option.some.inj same
      exact .returnShutdown point stopped
    · cases stepped

/-! ### What a step does to the state machine -/

/-- The entries of the log that belong to outgoing messages. -/
def Effect.OfSend : Effect → Prop
  | .accepted _ => True
  | .sendCompleted _ _ => True
  | _ => False

instance (effect : Effect) : Decidable effect.OfSend :=
  match effect with
  | .accepted _ => isTrue trivial
  | .sendCompleted _ _ => isTrue trivial
  | .popped _ | .initWebsocket _ | .deinitWebsocket | .delivered _ | .settled _ _
  | .nullConfig => isFalse id

/-- The action is one of the three requests of a user that take a completion callback. -/
def ClientAction.isRequest : ClientAction → Bool
  | .setConfig _ _ => true
  | .connect _ => true
  | .disconnect _ => true
  | _ => false

/-- A step calls `process_fsm_state`, appends an event to its queue, or leaves the state machine
alone. -/
inductive FsmStep (client : Client) (action : ClientAction) : Client → Prop where
  | tick (input : Input) (next : Client) (given : action.input? = some input)
      (same : next = client.processFsmState input) : FsmStep client action next
  | push (event : FsmEventData) (next : Client) (machine : next.toMachine = client.toMachine)
      (queue : next.fsmEventQueue = client.fsmEventQueue ++ [event])
      (log : next.log = client.log)
      (origin : action.isRequest = true ∨ event.callback = none) : FsmStep client action next
  | aside (next : Client) (machine : next.toMachine = client.toMachine)
      (queue : next.fsmEventQueue = client.fsmEventQueue) (effects : List Effect)
      (log : next.log = client.log ++ effects) (sends : ∀ effect ∈ effects, effect.OfSend) :
      FsmStep client action next

section FsmSteps

variable {client : Client} {action : ClientAction}

/-- A step that writes nothing to the log and does not touch the machine. -/
theorem FsmStep.silent {next : Client} (machine : next.toMachine = client.toMachine)
    (queue : next.fsmEventQueue = client.fsmEventQueue) (log : next.log = client.log) :
    FsmStep client action next :=
  .aside next machine queue [] (by rw [log, List.append_nil]) (by simp)

theorem FsmStep.request (world : ClientWorld) (callback : Bool)
    (event : Option ℕ → FsmEventData) (asked : action.isRequest = true) :
    FsmStep world.client action (world.request callback event).client := by
  cases callback with
  | true => exact .push (event (some world.nextCall)) _ rfl rfl rfl (Or.inl asked)
  | false => exact .push (event none) _ rfl rfl rfl (Or.inl asked)

theorem FsmStep.beginSubmit (world : ClientWorld) (callback : Bool)
    (send : Option ℕ → WebSocketSendInfo) :
    FsmStep world.client action (world.beginSubmit callback send).client := by
  cases callback with
  | true => exact .silent rfl rfl rfl
  | false => exact .silent rfl rfl rfl

theorem FsmStep.enqueue (send : WebSocketSendInfo) :
    FsmStep client action (client.enqueue send) := by
  unfold Client.enqueue
  split
  · exact .silent rfl rfl rfl
  · exact .aside _ rfl rfl [.accepted send] rfl (by simp [Effect.OfSend])

theorem FsmStep.completeSend (errorCode : ErrorCode) (callback : Option ℕ) :
    FsmStep client action (client.completeSend errorCode callback) := by
  cases callback with
  | none => exact .silent rfl rfl rfl
  | some callback =>
    exact .aside _ rfl rfl [.sendCompleted callback errorCode] rfl (by simp [Effect.OfSend])

theorem FsmStep.addSendCallback (errorCode : ErrorCode) (callback : Option ℕ) :
    FsmStep client action (client.addSendCallback errorCode callback) := by
  cases callback with
  | none => exact .silent rfl rfl rfl
  | some callback => exact .silent rfl rfl rfl

theorem FsmStep.processSendCallbackQueue :
    FsmStep client action client.processSendCallbackQueue := by
  refine .aside _ rfl rfl _ rfl fun effect member => ?_
  obtain ⟨item, _, rfl⟩ := List.mem_map.mp member
  trivial

end FsmSteps

/-- Every step of the system does one of the three. -/
theorem fsmStep_of_step {world next : ClientWorld} {action : ClientAction}
    (stepped : world.step action = some next) : FsmStep world.client action next.client := by
  cases clientStep_of_step stepped with
  | setConfig | connect | disconnect => exact .request world _ _ rfl
  | submitMessage | submitClose => exact .beginSubmit world _ _
  | enqueue => exact .enqueue _
  | @report event attempt =>
    cases event <;> exact .push (.backend _ attempt) _ rfl rfl rfl (Or.inr rfl)
  | finishSend => exact .addSendCallback _ _
  | @callProcess input | @loopShutdown input => exact .tick input _ rfl rfl
  | send =>
    unfold ClientWorld.sendOne
    split
    · exact .silent rfl rfl rfl
    · exact .completeSend .notConnected _
  | processSendCallbackQueue | drainSendCallbackQueue => exact .processSendCallbackQueue
  | callShutdown => exact .push (.requestDisconnect none) _ rfl rfl rfl (Or.inr rfl)
  | setEventHandler | receiveEvents | receiveEvent | rejectMessage | rejectClose
  | processMessageQueue | allSent | returnShutdown => exact .silent rfl rfl rfl

/-- A step with an input is a call of `process_fsm_state`. -/
theorem client_of_tick {world next : ClientWorld} {action : ClientAction} {input : Input}
    (stepped : world.step action = some next) (given : action.input? = some input) :
    next.client = world.client.processFsmState input := by
  cases clientStep_of_step stepped with
  | callProcess | loopShutdown =>
    obtain rfl := Option.some.inj given
    rfl
  | _ => cases given

/-- Only a request of a user is given a number. -/
theorem nextCall_of_step {world next : ClientWorld} {action : ClientAction}
    (stepped : world.step action = some next) (other : action.isRequest = false) :
    next.nextCall = world.nextCall := by
  cases clientStep_of_step stepped with
  | setConfig | connect | disconnect => cases other
  | submitMessage | submitClose =>
    unfold ClientWorld.beginSubmit
    split <;> rfl
  | send =>
    unfold ClientWorld.sendOne
    split <;> rfl
  | _ => rfl

/-- `shutdown` returns from its loop when the client has stopped and its queue is empty. -/
theorem returnShutdown_cases {world next : ClientWorld}
    (returned : world.step .returnShutdown = some next) :
    world.point = .shutdownLoop ∧ world.client.isRunning = false ∧
      world.client.fsmEventQueue = [] ∧ next = { world with point := .idle } := by
  cases clientStep_of_step returned with
  | returnShutdown point stopped =>
    have quiet : world.client.isRunning = false ∧ world.client.fsmEventQueue = [] := by
      simpa [Client.running] using stopped
    exact ⟨point, quiet.1, quiet.2, rfl⟩

/-- The calls of `process_fsm_state` are spared the trouble. -/
def Spared (trouble : Client → Input → Prop) (world : ClientWorld) (action : ClientAction) : Prop :=
  ∀ input ∈ action.input?, ¬ trouble world.client input

instance (trouble : Client → Input → Prop) [∀ client input, Decidable (trouble client input)]
    (world : ClientWorld) (action : ClientAction) : Decidable (Spared trouble world action) :=
  inferInstanceAs (Decidable (∀ input ∈ action.input?, ¬ trouble world.client input))

end Kurlyk.WebSocket
