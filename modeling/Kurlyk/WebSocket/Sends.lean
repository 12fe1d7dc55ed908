/-
This file follows the messages and close requests that users submit. An accepted
send waits in the queue of messages, is taken out by `process_message_queue`,
handed to the backend or completed at once, and comes back through the queue of
send callbacks. In every reachable state the callback of an accepted send is at
one of these places or was invoked, never both.

The loop of `shutdown` runs the state machine and the queue of send callbacks,
but not the queue of messages. What waits there when the loop begins, or enters
while it runs, is not completed.
-/

import Kurlyk.Lib.Books
import Kurlyk.WebSocket.Connection

namespace Kurlyk.WebSocket

open Client

/-! ### Where sends are -/

/-- The callbacks of sends. -/
def sendCalls (sends : List WebSocketSendInfo) : List ℕ :=
  sends.flatMap fun send => send.callback.toList

/-- The callback of a send that an entry of the log accepts. -/
def Effect.accepts : Effect → List ℕ
  | .accepted send => send.callback.toList
  | _ => []

/-- The callback of a send that an entry of the log completes. -/
def Effect.completes : Effect → List ℕ
  | .sendCompleted callback _ => [callback]
  | _ => []

/-- The sends that `process_message_queue` has taken out and not sent. -/
def Point.sends : Point → List WebSocketSendInfo
  | .sending messageQueue => messageQueue
  | _ => []

/-- The callbacks that are still to be invoked. -/
def ClientWorld.pendingSends (world : ClientWorld) : List ℕ :=
  sendCalls world.client.messageQueue ++ sendCalls world.point.sends ++
    sendCalls world.outstanding ++ world.client.sendCallbackQueue.map Prod.snd

/-- The entries of the log that belong to sends. -/
def sendLog (log : List Effect) : List Effect :=
  log.filter fun effect => effect.OfSend

/-- The part of a client that sends are in. -/
def Client.sendSide (client : Client) :
    List WebSocketSendInfo × List (ErrorCode × ℕ) × List Effect :=
  (client.messageQueue, client.sendCallbackQueue, sendLog client.log)

/-! ### The state machine leaves the sends alone -/

namespace Client

variable (client : Client) (event : FsmEventData) (input : Input)

theorem emit_sendSide {effect : Effect} (quiet : ¬ effect.OfSend) :
    (client.emit effect).sendSide = client.sendSide := by
  simp [sendSide, sendLog, emit, quiet]

theorem deliver_sendSide (data : WebSocketEventData) :
    (client.deliver data).sendSide = client.sendSide := by
  unfold deliver
  split
  · exact emit_sendSide client id
  · exact emit_sendSide _ id

theorem settle_sendSide (success : Bool) :
    (client.settle event success).sendSide = client.sendSide := by
  cases event with
  | backend report attempt => rfl
  | _ => exact emit_sendSide client id

theorem handleOpenEvent_sendSide (data : WebSocketEventData) :
    (client.handleOpenEvent data).sendSide = client.sendSide := by
  unfold handleOpenEvent
  split
  · rfl
  · exact deliver_sendSide _ data

theorem handleCloseEvent_sendSide (given : Option WebSocketEventData) :
    (client.handleCloseEvent given).sendSide = client.sendSide := by
  unfold handleCloseEvent
  split
  · exact deliver_sendSide _ _
  · rfl

theorem deinitWebsocket_sendSide : client.deinitWebsocket.sendSide = client.sendSide :=
  emit_sendSide _ id

theorem refuse_sendSide : (client.refuse event).sendSide = client.sendSide :=
  (settle_sendSide _ event false).trans (deliver_sendSide client _)

theorem startAttempt_sendSide :
    (client.startAttempt event input).sendSide = client.sendSide := by
  unfold startAttempt
  dsimp only
  split
  · exact (settle_sendSide _ event true).trans (emit_sendSide client id)
  · exact (refuse_sendSide _ event).trans (emit_sendSide client id)

theorem requestConnect_sendSide :
    (client.requestConnect event input).sendSide = client.sendSide := by
  unfold requestConnect
  split
  · exact refuse_sendSide client event
  · exact startAttempt_sendSide client event input

theorem reconfigure_sendSide (config : Option WebSocketConfig) :
    (client.reconfigure event config input).sendSide = client.sendSide := by
  cases config with
  | none => exact refuse_sendSide _ event
  | some config => exact startAttempt_sendSide _ event input

theorem disconnect_sendSide : (client.disconnect event).sendSide = client.sendSide := by
  refine (settle_sendSide _ event true).trans ?_
  exact (handleCloseEvent_sendSide _ none).trans (deinitWebsocket_sendSide client)

theorem replaceConfig_sendSide (config : Option WebSocketConfig) :
    (client.replaceConfig event config input).sendSide = client.sendSide := by
  refine (reconfigure_sendSide _ event input config).trans ?_
  exact (handleCloseEvent_sendSide _ none).trans (deinitWebsocket_sendSide client)

theorem loseConnection_sendSide (closeEvent : WebSocketEventData) :
    (client.loseConnection closeEvent input).sendSide = client.sendSide := by
  have closed : (client.deinitWebsocket.handleCloseEvent (some closeEvent)).sendSide =
      client.sendSide :=
    (handleCloseEvent_sendSide _ _).trans (deinitWebsocket_sendSide client)
  unfold loseConnection
  dsimp only
  split
  · exact (emit_sendSide _ id).trans closed
  · split <;> exact closed

theorem switch_sendSide : (client.switch event input).sendSide = client.sendSide := by
  have ignored := client.settle_sendSide event false
  have replaced := client.replaceConfig_sendSide event input
  have reconfigured := client.reconfigure_sendSide event input
  have lost := fun errorCode closeEvent =>
    ((client.handleErrorEvent errorCode).loseConnection_sendSide input closeEvent).trans
      (deliver_sendSide client _)
  unfold switch
  split
  · unfold switchInit
    split
    · exact requestConnect_sendSide client _ input
    · exact settle_sendSide _ _ false
    · exact settle_sendSide _ _ true
    · exact ignored
  · unfold switchConnecting
    split
    · exact handleOpenEvent_sendSide client _
    · exact lost _ _
    · exact loseConnection_sendSide client input _
    · exact disconnect_sendSide client _
    · exact replaced _
    · exact ignored
  · unfold switchWorking
    split
    · exact disconnect_sendSide client _
    · exact lost _ _
    · exact loseConnection_sendSide client input _
    · exact replaced _
    · exact deliver_sendSide client _
    · exact ignored
  · unfold switchReconnecting
    split
    · exact settle_sendSide _ _ true
    · exact reconfigured _
    · exact deliver_sendSide client _
    · exact ignored
  · unfold switchStopped
    split
    · exact requestConnect_sendSide client _ input
    · exact reconfigured _
    · exact ignored

theorem reconnectTimer_sendSide : (client.reconnectTimer input).sendSide = client.sendSide := by
  unfold reconnectTimer
  split
  · exact deliver_sendSide client _
  · split
    · split
      · rfl
      · split
        · dsimp only
          split
          · exact emit_sendSide client id
          · exact (deliver_sendSide _ _).trans (emit_sendSide client id)
        · rfl
    · rfl

theorem processFsmState_sendSide :
    (client.processFsmState input).sendSide = client.sendSide := by
  refine processFsmState_induction (fun current => current.sendSide = client.sendSide) rfl ?_ ?_
  · intro current event rest same _ _ _
    rw [switch_sendSide, ← same]
    exact emit_sendSide _ id
  · intro current _ same
    rw [reconnectTimer_sendSide, same]

end Client

/-! ### The books of all sends -/

/-- Every callback of an accepted send is pending or was invoked. The numbers of the sends that
threads are about to submit are not used by others. -/
structure Accounted (world : ClientWorld) : Prop where
  books : Books Effect.accepts Effect.completes (sendLog world.client.log) world.pendingSends
    (fun call => call < world.nextSend ∧ call ∉ sendCalls world.submitting)
  distinct : (sendCalls world.submitting).Nodup
  numbered : ∀ call ∈ sendCalls world.submitting, call < world.nextSend

section Steps

variable {world next : ClientWorld}

theorem sendLog_append (log effects : List Effect) :
    sendLog (log ++ effects) = sendLog log ++ sendLog effects :=
  List.filter_append ..

theorem sendLog_of_sends {effects : List Effect} (sends : ∀ effect ∈ effects, effect.OfSend) :
    sendLog effects = effects :=
  List.filter_eq_self.mpr fun effect member => decide_eq_true (sends effect member)

theorem sendCalls_append (left right : List WebSocketSendInfo) :
    sendCalls (left ++ right) = sendCalls left ++ sendCalls right :=
  List.flatMap_append

theorem sendCalls_cons (send : WebSocketSendInfo) (rest : List WebSocketSendInfo) :
    sendCalls (send :: rest) = send.callback.toList ++ sendCalls rest :=
  List.flatMap_cons

theorem count_pendingSends (call : ℕ) (world : ClientWorld) :
    List.count call world.pendingSends =
      List.count call (sendCalls world.client.messageQueue) +
      List.count call (sendCalls world.point.sends) +
      List.count call (sendCalls world.outstanding) +
      List.count call (world.client.sendCallbackQueue.map Prod.snd) := by
  simp only [ClientWorld.pendingSends, List.count_append]

/-- A step that touches nothing that sends are in. -/
theorem Accounted.same (accounted : Accounted world)
    (side : next.client.sendSide = world.client.sendSide)
    (sends : next.point.sends = world.point.sends)
    (outstanding : next.outstanding = world.outstanding)
    (submitting : next.submitting = world.submitting) (number : next.nextSend = world.nextSend) :
    Accounted next := by
  simp only [Client.sendSide, Prod.mk.injEq] at side
  obtain ⟨messages, callbacks, log⟩ := side
  refine ⟨?_, submitting ▸ accounted.distinct, ?_⟩
  · rw [log, ClientWorld.pendingSends, messages, callbacks, sends, outstanding, submitting, number]
    exact accounted.books
  · rw [submitting, number]
    exact accounted.numbered

/-- A step that moves callbacks from one place to another, or invokes them. -/
theorem Accounted.move (accounted : Accounted world) (effects : List Effect)
    (log : sendLog next.client.log = sendLog world.client.log ++ effects)
    (silent : effects.flatMap Effect.accepts = [])
    (balance : ∀ call,
      List.count call next.pendingSends + List.count call (effects.flatMap Effect.completes) =
        List.count call world.pendingSends)
    (submitting : next.submitting = world.submitting) (number : next.nextSend = world.nextSend) :
    Accounted next := by
  refine ⟨?_, submitting ▸ accounted.distinct, ?_⟩
  · rw [log, submitting, number]
    exact accounted.books.move effects silent balance fun _ used => used
  · rw [submitting, number]
    exact accounted.numbered

theorem Accounted.beginSubmit (accounted : Accounted world) (callback : Bool)
    {send : Option ℕ → WebSocketSendInfo} (carries : ∀ call, (send call).callback = call) :
    Accounted (world.beginSubmit callback send) := by
  cases callback with
  | true =>
    have calls : sendCalls (world.submitting ++ [send (some world.nextSend)]) =
        sendCalls world.submitting ++ [world.nextSend] := by
      simp [sendCalls, carries]
    have fresh : world.nextSend ∉ sendCalls world.submitting :=
      fun member => Nat.lt_irrefl _ (accounted.numbered _ member)
    refine ⟨accounted.books.grow ?_, ?_, ?_⟩
    · rintro call ⟨early, absent⟩
      refine ⟨Nat.lt_succ_of_lt early, ?_⟩
      rw [ClientWorld.beginSubmit, if_pos rfl, calls, List.mem_append, List.mem_singleton]
      exact fun member => member.elim absent (Nat.ne_of_lt early)
    · rw [ClientWorld.beginSubmit, if_pos rfl, calls]
      refine List.nodup_append.mpr ⟨accounted.distinct, List.nodup_singleton _, ?_⟩
      intro call member other single
      rw [List.mem_singleton.mp single]
      exact Nat.ne_of_lt (accounted.numbered call member)
    · rw [ClientWorld.beginSubmit, if_pos rfl, calls]
      intro call member
      rcases List.mem_append.mp member with old | new
      · exact Nat.lt_succ_of_lt (accounted.numbered call old)
      · rw [List.mem_singleton.mp new]
        exact Nat.lt_succ_self _
  | false =>
    have calls : sendCalls (world.submitting ++ [send none]) = sendCalls world.submitting := by
      simp [sendCalls, carries]
    refine ⟨?_, ?_, ?_⟩
    · rw [ClientWorld.beginSubmit, if_neg Bool.false_ne_true, calls]
      exact accounted.books
    · rw [ClientWorld.beginSubmit, if_neg Bool.false_ne_true, calls]
      exact accounted.distinct
    · rw [ClientWorld.beginSubmit, if_neg Bool.false_ne_true, calls]
      exact accounted.numbered

/-- A submitting thread leaves: its number is used from now on. -/
theorem sendCalls_eraseIdx {position : ℕ} {send : WebSocketSendInfo}
    {sends : List WebSocketSendInfo} (found : sends[position]? = some send) :
    (sendCalls sends).Perm (send.callback.toList ++ sendCalls (sends.eraseIdx position)) := by
  refine List.perm_iff_count.mpr fun call => ?_
  rw [List.count_append, Nat.add_comm]
  exact (count_flatMap_eraseIdx found _ call).symm

theorem Accounted.enqueue (accounted : Accounted world) {position : ℕ}
    (stepped : world.enqueue position = some next) : Accounted next := by
  obtain ⟨send, found, rfl⟩ := Option.map_eq_some_iff.mp stepped
  have perm := sendCalls_eraseIdx found
  have distinct := perm.nodup_iff.mp accounted.distinct
  obtain ⟨_, remaining, apart⟩ := List.nodup_append.mp distinct
  have numbered : ∀ call ∈ sendCalls (world.submitting.eraseIdx position),
      call < world.nextSend :=
    fun call member => accounted.numbered call (perm.mem_iff.mpr (List.mem_append_right _ member))
  have grows : ∀ call, call < world.nextSend ∧ call ∉ sendCalls world.submitting →
      call < world.nextSend ∧ call ∉ sendCalls (world.submitting.eraseIdx position) :=
    fun call used => ⟨used.1, fun member =>
      used.2 (perm.mem_iff.mpr (List.mem_append_right _ member))⟩
  refine ⟨?_, remaining, numbered⟩
  dsimp only
  unfold Client.enqueue
  split
  · exact accounted.books.grow grows
  · have log : sendLog (world.client.log ++ [.accepted send]) =
        sendLog world.client.log ++ [.accepted send] := sendLog_append _ _
    rw [emit_log, log]
    cases called : send.callback with
    | none =>
      refine accounted.books.move [.accepted send] (by simp [Effect.accepts, called])
        (fun call => ?_) grows
      rw [count_pendingSends, count_pendingSends]
      simp [sendCalls, Client.emit, Effect.completes, called]
    | some call =>
      rw [called] at perm apart
      have held : call ∈ sendCalls world.submitting := perm.mem_iff.mpr (by simp)
      refine accounted.books.take [.accepted send] (fun used => used.2 held)
        (by simp [Effect.accepts, called]) rfl (fun other => ?_) grows
        ⟨accounted.numbered call held, fun member => apart call (by simp) call member rfl⟩
      rw [count_pendingSends, count_pendingSends]
      simp only [Client.emit, sendCalls_append, sendCalls_cons, called, Option.toList_some,
        List.count_append, count_cons_mark, List.count_nil]
      simp only [sendCalls, List.flatMap_nil, List.count_nil]
      omega

theorem Accounted.finishSend (accounted : Accounted world) {position : ℕ} {errorCode : ErrorCode}
    (stepped : world.finishSend position errorCode = some next) : Accounted next := by
  obtain ⟨send, found, rfl⟩ := Option.map_eq_some_iff.mp stepped
  have erased := fun call => count_flatMap_eraseIdx found
    (fun send : WebSocketSendInfo => send.callback.toList) call
  cases called : send.callback with
  | none =>
    refine accounted.move [] (List.append_nil _).symm rfl (fun call => ?_) rfl rfl
    have left := erased call
    simp only [called, Option.toList_none, List.count_nil, Nat.add_zero] at left
    rw [count_pendingSends, count_pendingSends]
    simp [sendCalls, Client.addSendCallback, left]
  | some number =>
    refine accounted.move [] (List.append_nil _).symm rfl (fun call => ?_) rfl rfl
    have left := erased call
    simp only [called, Option.toList_some, count_cons_mark, List.count_nil, Nat.add_zero] at left
    rw [count_pendingSends, count_pendingSends]
    simp [sendCalls, Client.addSendCallback, count_cons_mark]
    omega

/-- The pass over the queue keeps every message, here or there. -/
theorem count_selectMessages (call : ℕ) (readings : ℕ → WebSocketRateLimiter.Readings)
    (limiter : WebSocketRateLimiter) (position : ℕ) (queue : List WebSocketSendInfo) :
    List.count call (sendCalls (selectMessages readings limiter position queue).1) +
        List.count call (sendCalls (selectMessages readings limiter position queue).2.1) =
      List.count call (sendCalls queue) := by
  induction queue generalizing limiter position with
  | nil => rfl
  | cons send rest inductionHypothesis =>
    have later := inductionHypothesis
      (limiter.allowRequest send.rateLimitId (readings position)).2 (position + 1)
    unfold selectMessages
    dsimp only
    split
    · simp only [sendCalls_cons, List.count_append]
      omega
    · simp only [sendCalls_cons, List.count_append]
      omega

theorem Accounted.takeMessages (accounted : Accounted world)
    (point : world.point = .processMessages) (readings : ℕ → WebSocketRateLimiter.Readings) :
    Accounted { world with
      client := (world.client.takeMessages readings).2
      point := .sending (world.client.takeMessages readings).1 } := by
  refine accounted.move [] (List.append_nil _).symm rfl (fun call => ?_) rfl rfl
  have kept := count_selectMessages call readings world.client.rateLimiter 0
    world.client.messageQueue
  rw [count_pendingSends, count_pendingSends, point]
  simp only [Client.takeMessages, Point.sends, List.flatMap_nil, List.count_nil]
  simp only [sendCalls, List.flatMap_nil, List.count_nil] at kept ⊢
  omega

theorem Accounted.sendOne (accounted : Accounted world) {send : WebSocketSendInfo}
    {rest : List WebSocketSendInfo} (point : world.point = .sending (send :: rest)) :
    Accounted (world.sendOne send rest) := by
  unfold ClientWorld.sendOne
  split
  · refine accounted.move [] (List.append_nil _).symm rfl (fun call => ?_) rfl rfl
    rw [count_pendingSends, count_pendingSends, point]
    simp [Point.sends, sendCalls]
    omega
  · cases called : send.callback with
    | none =>
      refine accounted.move [] (List.append_nil _).symm rfl (fun call => ?_) rfl rfl
      rw [count_pendingSends, count_pendingSends, point]
      simp [Point.sends, sendCalls, Client.completeSend, called]
    | some number =>
      refine accounted.move [.sendCompleted number .notConnected] (sendLog_append _ _) rfl
        (fun call => ?_) rfl rfl
      rw [count_pendingSends, count_pendingSends, point]
      simp [Point.sends, sendCalls, Client.completeSend, Client.emit, called, Effect.completes,
        count_cons_mark]
      omega

theorem Accounted.processSendCallbackQueue (accounted : Accounted world) {point : Point}
    (before : world.point.sends = []) (after : point.sends = []) :
    Accounted { world with client := world.client.processSendCallbackQueue, point := point } := by
  refine accounted.move (world.client.sendCallbackQueue.map fun item =>
    .sendCompleted item.2 item.1) ?_ ?_ (fun call => ?_) rfl rfl
  · refine (sendLog_append _ _).trans (congrArg _ (sendLog_of_sends fun effect member => ?_))
    obtain ⟨item, _, rfl⟩ := List.mem_map.mp member
    trivial
  · rw [List.flatMap_map, List.flatMap_eq_nil_iff]
    exact fun _ _ => rfl
  · rw [count_pendingSends, count_pendingSends, before, List.flatMap_map]
    simp only [Client.processSendCallbackQueue, after, Effect.completes, List.map_nil,
      List.count_nil, ← List.map_eq_flatMap]
    rfl

theorem Accounted.request (accounted : Accounted world) (callback : Bool)
    (event : Option ℕ → FsmEventData) : Accounted (world.request callback event) := by
  cases callback with
  | true => exact accounted.same rfl rfl rfl rfl rfl
  | false => exact accounted.same rfl rfl rfl rfl rfl

theorem Accounted.step {action : ClientAction} (accounted : Accounted world)
    (stepped : world.step action = some next) : Accounted next := by
  cases clientStep_of_step stepped with
  | setConfig | connect | disconnect => exact accounted.request _ _
  | setEventHandler | receiveEvents | receiveEvent => exact accounted.same rfl rfl rfl rfl rfl
  | rejectMessage | rejectClose => exact accounted
  | submitMessage | submitClose => exact accounted.beginSubmit _ fun _ => rfl
  | enqueue => exact accounted.enqueue stepped
  | @report event attempt => cases event <;> exact accounted.same rfl rfl rfl rfl rfl
  | finishSend => exact accounted.finishSend stepped
  | callProcess point | loopShutdown point =>
    exact accounted.same (processFsmState_sendSide _ _) (by rw [point]; rfl) rfl rfl rfl
  | processMessageQueue point => exact accounted.takeMessages point _
  | send point => exact accounted.sendOne point
  | processSendCallbackQueue point | drainSendCallbackQueue point =>
    exact accounted.processSendCallbackQueue (by rw [point]; rfl) rfl
  | allSent point | callShutdown point | returnShutdown point =>
    exact accounted.same rfl (by rw [point]; rfl) rfl rfl rfl

end Steps

/-- In every reachable world the callback of every accepted send is pending or was invoked. -/
theorem sends_accounted {world : ClientWorld} (reachable : clientSystem.Reachable world) :
    Accounted world := by
  refine reachable.induction Accounted ?_ ?_
  · exact ⟨⟨fun _ => rfl, fun _ => Nat.zero_le _, fun _ _ => rfl⟩, List.nodup_nil,
      fun _ member => absurd member List.not_mem_nil⟩
  · exact fun _ _ _ _ accounted stepped => accounted.step stepped

/-! ### The loop of `shutdown` -/

/-- The step accepts a send with a callback. -/
def ClientWorld.AcceptsCallback (world : ClientWorld) : ClientAction → Prop
  | .enqueue position => ∃ send ∈ world.submitting[position]?, send.callback.isSome = true ∧
      ¬ (world.client.maxSendQueueSize ≠ 0 ∧
        world.client.messageQueue.length ≥ world.client.maxSendQueueSize)
  | _ => False

/-- The worker is in the loop of `shutdown`, the backend has completed all sends, and the loop
has still to run or the queue of send callbacks is empty. -/
structure Draining (world : ClientWorld) : Prop where
  outstanding : world.outstanding = []
  place : world.point = .shutdownCallbacks ∨ world.point = .shutdownLoop ∧
    (world.client.fsmEventQueue ≠ [] ∨ world.client.sendCallbackQueue = [])

section Shutdown

variable {world next : ClientWorld} {action : ClientAction}

theorem Client.processFsmState_messageQueue (client : Client) (input : Input) :
    (client.processFsmState input).messageQueue = client.messageQueue :=
  congrArg Prod.fst (client.processFsmState_sendSide input)

/-- The step of another thread while the worker is in the loop: it may append events and
messages. -/
structure Aside (world next : ClientWorld) (fresh : List WebSocketSendInfo) : Prop where
  point : next.point = world.point
  outstanding : next.outstanding = world.outstanding
  events : ∃ more, next.client.fsmEventQueue = world.client.fsmEventQueue ++ more
  callbacks : next.client.sendCallbackQueue = world.client.sendCallbackQueue
  messages : next.client.messageQueue = world.client.messageQueue ++ fresh

/-- What a step does while `shutdown` drains the client: the worker takes the next statement of
its loop, or another thread appends. -/
inductive DrainStep (world : ClientWorld) (action : ClientAction) (next : ClientWorld) : Prop where
  | loop (input : Input) (point : world.point = .shutdownLoop)
      (same : next = { world with
        client := world.client.processFsmState input, point := .shutdownCallbacks })
      (quiet : ¬ world.AcceptsCallback action)
  | callbacks (point : world.point = .shutdownCallbacks)
      (same : next = { world with
        client := world.client.processSendCallbackQueue, point := .shutdownLoop })
      (quiet : ¬ world.AcceptsCallback action)
  | aside (fresh : List WebSocketSendInfo) (appends : Aside world next fresh)
      (accepts : sendCalls fresh = [] ↔ ¬ world.AcceptsCallback action)

theorem Aside.drainStep (appends : Aside world next []) (quiet : ¬ world.AcceptsCallback action) :
    DrainStep world action next :=
  .aside [] appends ⟨fun _ => quiet, fun _ => rfl⟩

theorem Aside.of_request (world : ClientWorld) (callback : Bool)
    (event : Option ℕ → FsmEventData) : Aside world (world.request callback event) [] := by
  cases callback with
  | true => exact ⟨rfl, rfl, ⟨_, rfl⟩, rfl, (List.append_nil _).symm⟩
  | false => exact ⟨rfl, rfl, ⟨_, rfl⟩, rfl, (List.append_nil _).symm⟩

theorem Aside.of_still (point : next.point = world.point)
    (outstanding : next.outstanding = world.outstanding)
    (events : next.client.fsmEventQueue = world.client.fsmEventQueue)
    (callbacks : next.client.sendCallbackQueue = world.client.sendCallbackQueue)
    (messages : next.client.messageQueue = world.client.messageQueue) : Aside world next [] :=
  ⟨point, outstanding, ⟨[], by rw [events, List.append_nil]⟩, callbacks,
    by rw [messages, List.append_nil]⟩

theorem Aside.of_beginSubmit (world : ClientWorld) (callback : Bool)
    (send : Option ℕ → WebSocketSendInfo) :
    Aside world (world.beginSubmit callback send) [] := by
  cases callback with
  | true => exact .of_still rfl rfl rfl rfl rfl
  | false => exact .of_still rfl rfl rfl rfl rfl

theorem drainStep_of_enqueue {position : ℕ} (stepped : world.enqueue position = some next) :
    DrainStep world (.enqueue position) next := by
  obtain ⟨send, found, rfl⟩ := Option.map_eq_some_iff.mp stepped
  by_cases full : world.client.maxSendQueueSize ≠ 0 ∧
      world.client.messageQueue.length ≥ world.client.maxSendQueueSize
  · have rejected : world.client.enqueue send = world.client := by
      rw [Client.enqueue, if_pos full]
    refine Aside.drainStep (.of_still rfl rfl ?_ ?_ ?_) ?_
    · rw [rejected]
    · rw [rejected]
    · rw [rejected]
    · rintro ⟨_, _, _, room⟩
      exact room full
  · have accepted : world.client.enqueue send =
        { world.client with messageQueue := world.client.messageQueue ++ [send] }.emit
          (.accepted send) := by
      rw [Client.enqueue, if_neg full]
    refine .aside [send] ⟨rfl, rfl, ⟨[], ?_⟩, ?_, ?_⟩ ?_
    · rw [accepted, List.append_nil]
      rfl
    · rw [accepted]
      rfl
    · rw [accepted]
      rfl
    · cases called : send.callback <;>
        simp [ClientWorld.AcceptsCallback, found, called, full, sendCalls]

theorem Draining.drainStep (draining : Draining world) (stepped : world.step action = some next)
    (stays : action ≠ .returnShutdown) : DrainStep world action next := by
  have outside : ∀ {point : Point}, world.point = point → point ≠ .shutdownCallbacks →
      point ≠ .shutdownLoop → DrainStep world action next := by
    rintro _ rfl elsewhere notLoop
    rcases draining.place with here | ⟨here, _⟩
    · exact absurd here elsewhere
    · exact absurd here notLoop
  cases clientStep_of_step stepped with
  | setConfig | connect | disconnect => exact (Aside.of_request world _ _).drainStep id
  | setEventHandler | receiveEvents | receiveEvent | rejectMessage | rejectClose =>
    exact Aside.drainStep (.of_still rfl rfl rfl rfl rfl) id
  | submitMessage | submitClose => exact (Aside.of_beginSubmit world _ _).drainStep id
  | enqueue => exact drainStep_of_enqueue stepped
  | @report event attempt =>
    refine Aside.drainStep ⟨rfl, rfl, ⟨[.backend event attempt], ?_⟩, ?_, ?_⟩ id
    · cases event <;> rfl
    · cases event <;> rfl
    · cases event <;> exact (List.append_nil _).symm
  | finishSend found =>
    rw [draining.outstanding] at found
    cases found
  | callProcess point | processMessageQueue point | send point | allSent point
  | processSendCallbackQueue point | callShutdown point => exact outside point (by simp) (by simp)
  | drainSendCallbackQueue point => exact .callbacks point rfl id
  | @loopShutdown input point running => exact .loop input point rfl id
  | returnShutdown => exact absurd rfl stays

/-- The loop goes on draining, and takes nothing out of the queue of messages. -/
theorem DrainStep.draining (step : DrainStep world action next) (draining : Draining world) :
    Draining next ∧ ∃ fresh, next.client.messageQueue = world.client.messageQueue ++ fresh ∧
      (sendCalls fresh = [] ↔ ¬ world.AcceptsCallback action) := by
  cases step with
  | loop input point same quiet =>
    subst same
    refine ⟨⟨draining.outstanding, Or.inl rfl⟩, [], ?_, fun _ => quiet, fun _ => rfl⟩
    rw [List.append_nil]
    exact congrArg Prod.fst (world.client.processFsmState_sendSide input)
  | callbacks point same quiet =>
    subst same
    exact ⟨⟨draining.outstanding, Or.inr ⟨rfl, Or.inr rfl⟩⟩, [], (List.append_nil _).symm,
      fun _ => quiet, fun _ => rfl⟩
  | aside fresh appends accepts =>
    refine ⟨⟨appends.outstanding.trans draining.outstanding, ?_⟩, fresh, appends.messages,
      accepts⟩
    rw [appends.point, appends.callbacks]
    obtain ⟨more, events⟩ := appends.events
    refine draining.place.imp_right fun ⟨point, left⟩ => ⟨point, left.imp_left fun pending => ?_⟩
    rw [events]
    exact List.append_ne_nil_of_left_ne_nil pending more

/-- Over a part of the loop: it goes on draining, and the queue of messages ends without a
callback exactly when it began without one and none was accepted. -/
theorem Draining.runs {actions : List ClientAction} {finish : ClientWorld}
    (draining : Draining world) (runs : clientSystem.Runs world actions finish)
    (stays : ClientAction.returnShutdown ∉ actions) :
    Draining finish ∧ (sendCalls finish.client.messageQueue = [] ↔
      sendCalls world.client.messageQueue = [] ∧
        clientSystem.Throughout (fun world action => ¬ world.AcceptsCallback action) world
          actions) := by
  induction actions generalizing world with
  | nil =>
    rw [← System.runs_nil.mp runs]
    exact ⟨draining, fun empty => ⟨empty, trivial⟩, And.left⟩
  | cons action rest inductionHypothesis =>
    obtain ⟨next, stepped, remaining⟩ := System.runs_cons.mp runs
    rw [List.mem_cons, not_or] at stays
    obtain ⟨drains, fresh, messages, accepts⟩ :=
      (draining.drainStep stepped (Ne.symm stays.1)).draining draining
    obtain ⟨finally', iff⟩ := inductionHypothesis drains remaining stays.2
    refine ⟨finally', iff.trans ?_⟩
    rw [messages, sendCalls_append, List.append_eq_nil_iff, accepts, and_assoc]
    refine and_congr_right fun _ => and_congr_right fun _ => ⟨fun later other same => ?_, ?_⟩
    · obtain rfl := Option.some.inj (stepped.symm.trans same)
      exact later
    · exact fun later => later next stepped

/-- Before its first test the loop of `shutdown` stays where it is, with its request in the
queue. -/
theorem shutdown_waits (point : world.point = .shutdownLoop)
    (pending : world.client.fsmEventQueue ≠ []) (stepped : world.step action = some next)
    (unread : action.input? = none) :
    next.point = .shutdownLoop ∧ next.client.fsmEventQueue ≠ [] := by
  constructor
  · cases clientStep_of_step stepped with
    | @setConfig _ callback | @connect callback | @disconnect callback =>
      cases callback <;> exact point
    | @submitMessage _ _ callback | @submitClose _ _ callback => cases callback <;> exact point
    | callProcess here | processMessageQueue here | send here | allSent here
    | processSendCallbackQueue here =>
      rw [point] at here
      cases here
    | drainSendCallbackQueue | callShutdown => rfl
    | loopShutdown => cases unread
    | returnShutdown => exact absurd (returnShutdown_cases stepped).2.2.1 pending
    | setEventHandler | receiveEvents | receiveEvent | rejectMessage | rejectClose | enqueue
    | report | finishSend => exact point
  · cases fsmStep_of_step stepped with
    | tick input _ given same => simp [unread] at given
    | push event _ machine queue log origin => simp [queue]
    | aside _ machine queue effects log sends => rwa [queue]

/-- When the loop of `shutdown` begins and the backend has completed all sends, it drains. -/
theorem draining_of_callShutdown {start begun middle : ClientWorld} {actions : List ClientAction}
    (reachable : clientSystem.Reachable start)
    (called : clientSystem.step start .callShutdown = some begun)
    (waits : clientSystem.Runs begun actions middle)
    (unread : ∀ action ∈ actions, action.input? = none) (completed : middle.outstanding = []) :
    Draining middle := by
  have first : begun.point = .shutdownLoop ∧ begun.client.fsmEventQueue ≠ [] := by
    simp only [clientSystem, ClientWorld.step] at called
    split at called
    · obtain rfl := Option.some.inj called
      exact ⟨rfl, by simp [Client.pushEvent]⟩
    · cases called
  have still : middle.point = .shutdownLoop ∧ middle.client.fsmEventQueue ≠ [] := by
    refine waits.induction (fun world => world.point = .shutdownLoop ∧
      world.client.fsmEventQueue ≠ []) (reachable.step called) first ?_
    intro world action next _ member holds stepped
    exact shutdown_waits holds.1 holds.2 stepped (unread action member)
  exact ⟨completed, Or.inr ⟨still.1, Or.inl still.2⟩⟩

end Shutdown

/-! ### What `shutdown` leaves behind -/

/-- The callbacks of sends that were invoked, in order. -/
def sendCompletions (log : List Effect) : List ℕ :=
  log.flatMap Effect.completes

/-- Every accepted send with a callback has had it invoked once. -/
def CompletesSends (log : List Effect) : Prop :=
  ∀ send call, Effect.accepted send ∈ log → send.callback = some call →
    (sendCompletions log).count call = 1

theorem flatMap_sendLog {contribution : Effect → List ℕ}
    (blind : ∀ effect, ¬ effect.OfSend → contribution effect = []) (log : List Effect) :
    (sendLog log).flatMap contribution = log.flatMap contribution := by
  induction log with
  | nil => rfl
  | cons effect rest inductionHypothesis =>
    rw [List.flatMap_cons, ← inductionHypothesis, sendLog, List.filter_cons]
    split
    · rfl
    · rename_i other
      rw [blind effect (by simpa using other)]
      rfl

theorem flatMap_accepts_sendLog (log : List Effect) :
    (sendLog log).flatMap Effect.accepts = log.flatMap Effect.accepts :=
  flatMap_sendLog (fun effect other => by
    cases effect with
    | accepted send => exact absurd trivial other
    | _ => rfl) log

theorem flatMap_completes_sendLog (log : List Effect) :
    (sendLog log).flatMap Effect.completes = sendCompletions log :=
  flatMap_sendLog (fun effect other => by
    cases effect with
    | sendCompleted callback errorCode => exact absurd trivial other
    | _ => rfl) log

theorem mem_accepts_iff {log : List Effect} {call : ℕ} :
    call ∈ log.flatMap Effect.accepts ↔
      ∃ send, Effect.accepted send ∈ log ∧ send.callback = some call := by
  rw [List.mem_flatMap]
  constructor
  · rintro ⟨effect, member, found⟩
    cases effect with
    | accepted send => exact ⟨send, member, Option.mem_toList.mp found⟩
    | _ => exact absurd found List.not_mem_nil
  · rintro ⟨send, member, called⟩
    exact ⟨.accepted send, member, Option.mem_toList.mpr called⟩

/-- The callbacks of accepted sends were all invoked exactly when none is pending. -/
theorem completesSends_iff {world : ClientWorld} (accounted : Accounted world) :
    CompletesSends world.client.log ↔ world.pendingSends = [] := by
  constructor
  · intro completes
    rw [List.eq_nil_iff_forall_not_mem]
    intro call member
    obtain ⟨taken, open'⟩ := accounted.books.of_kept member
    rw [flatMap_accepts_sendLog, mem_accepts_iff] at taken
    rw [flatMap_completes_sendLog] at open'
    obtain ⟨send, accepted, called⟩ := taken
    have once := completes send call accepted called
    rw [List.count_eq_zero.mpr open'] at once
    cases once
  · intro none send call accepted called
    have taken := mem_accepts_iff.mpr ⟨send, accepted, called⟩
    rw [← flatMap_accepts_sendLog] at taken
    have once := accounted.books.closed_once taken (by simp [none])
    rwa [flatMap_completes_sendLog] at once

theorem sendCalls_eq_nil_iff {sends : List WebSocketSendInfo} :
    sendCalls sends = [] ↔ ∀ send ∈ sends, send.callback = none := by
  simp [sendCalls]

/-- Over every run in which `shutdown()` returns, with any rate limits, disconnects and
reconnects before, and in which the backend has completed every send handed to it when the loop
of `shutdown()` begins: every accepted send with a callback has had it invoked once, if and only
if no send with a callback waits in the queue of messages when the loop begins, and none is
accepted while it runs. -/
theorem shutdown_completes_sends_iff {start begun middle world next : ClientWorld}
    {waiting during : List ClientAction} (reachable : clientSystem.Reachable start)
    (called : clientSystem.step start .callShutdown = some begun)
    (waits : clientSystem.Runs begun waiting middle)
    (unread : ∀ action ∈ waiting, action.input? = none) (completed : middle.outstanding = [])
    (runs : clientSystem.Runs middle during world)
    (stays : ClientAction.returnShutdown ∉ during)
    (returned : clientSystem.step world .returnShutdown = some next) :
    CompletesSends next.client.log ↔
      (∀ send ∈ middle.client.messageQueue, send.callback = none) ∧
        clientSystem.Throughout (fun world action => ¬ world.AcceptsCallback action) middle
          during := by
  have draining := draining_of_callShutdown reachable called waits unread completed
  obtain ⟨drained, messages⟩ := draining.runs runs stays
  obtain ⟨point, _, queue, rfl⟩ := returnShutdown_cases returned
  have callbacks : world.client.sendCallbackQueue = [] := by
    rcases drained.place with elsewhere | ⟨_, pending | empty⟩
    · simp [point] at elsewhere
    · exact absurd queue pending
    · exact empty
  have pending : world.pendingSends = sendCalls world.client.messageQueue := by
    rw [ClientWorld.pendingSends, drained.outstanding, callbacks, point]
    simp [Point.sends, sendCalls]
  have reached : clientSystem.Reachable world :=
    ((reachable.step called).runs waits).runs runs
  rw [← sendCalls_eq_nil_iff, ← messages, ← pending]
  exact completesSends_iff (sends_accounted reached)

instance (world : ClientWorld) (action : ClientAction) :
    Decidable (world.AcceptsCallback action) :=
  match action with
  | .enqueue position =>
    inferInstanceAs (Decidable (∃ send ∈ world.submitting[position]?, _ ∧ ¬ (_ ∧ _)))
  | .setConfig _ _ | .connect _ | .disconnect _ | .setEventHandler _ | .receiveEvents
  | .receiveEvent | .submitMessage _ _ _ | .submitClose _ _ _ | .report _ _ | .finishSend _ _
  | .callProcess _ | .processMessageQueue _ | .send | .processSendCallbackQueue | .callShutdown
  | .loopShutdown _ | .returnShutdown => isFalse id

/-- A client that may send one message a minute submits a message, sends it and is told so by
the backend. -/
def sentOne : List ClientAction :=
  List.flatten [
    connectWith { rateLimits := [{ requestsPerPeriod := 1, periodMs := 60000 }] }, openAttempt 1,
    [.submitMessage "first" 0 true, .enqueue 0, .callProcess {}, .processMessageQueue fun _ => {},
      .send, .send, .processSendCallbackQueue, .finishSend 0 .success]]

/-- The loop of `shutdown` makes one iteration. -/
def loopOnce : List ClientAction :=
  [.loopShutdown {}, .processSendCallbackQueue]

theorem shutdown_completes_sends_iff_sentOne :
    ∃ start begun world next, clientSystem.Runs clientSystem.init sentOne start ∧
      clientSystem.step start .callShutdown = some begun ∧
      clientSystem.Runs begun loopOnce world ∧
      clientSystem.step world .returnShutdown = some next ∧
      sendCompletions next.client.log = [0] ∧ CompletesSends next.client.log := by
  have evaluated : (clientSystem.run clientSystem.init sentOne).any (fun start =>
      (clientSystem.step start .callShutdown).any fun begun => decide (begun.outstanding = [] ∧
        (∀ send ∈ begun.client.messageQueue, send.callback = none) ∧ clientSystem.Throughout
          (fun world action => ¬ world.AcceptsCallback action) begun loopOnce) &&
        (clientSystem.run begun loopOnce).any fun world =>
          (clientSystem.step world .returnShutdown).any fun next =>
            decide (sendCompletions next.client.log = [0])) = true := by decide +kernel
  obtain ⟨start, runs, checked⟩ := System.exists_runs evaluated
  obtain ⟨begun, called, checked⟩ := (Option.any_eq_true _ _).mp checked
  obtain ⟨before, checked⟩ := Bool.and_eq_true_iff.mp checked
  obtain ⟨completed, messages, accepts⟩ := of_decide_eq_true before
  obtain ⟨world, loops, checked⟩ := System.exists_runs checked
  obtain ⟨next, returned, checked⟩ := (Option.any_eq_true _ _).mp checked
  refine ⟨start, begun, world, next, runs, called, loops, returned, of_decide_eq_true checked, ?_⟩
  exact (shutdown_completes_sends_iff ⟨_, runs⟩ called (System.runs_nil.mpr rfl) (by simp)
    completed loops (by simp [loopOnce]) returned).mpr ⟨messages, accepts⟩

/-- The second message of the minute. -/
def secondMessage : WebSocketSendInfo :=
  { message := "second", status := 0, callback := some 1 }

/-- The client submits a second message within the minute, which the rate limiter holds back. -/
def heldOne : List ClientAction :=
  List.flatten [sentOne, [.submitMessage "second" 0 true, .enqueue 0], processOnce {}]

/-- The second message is accepted with its callback, the backend has nothing left to complete,
and `shutdown` returns without having invoked the callback. -/
theorem shutdown_drops_held_send :
    ∃ start world next, clientSystem.Runs clientSystem.init heldOne start ∧
      start.outstanding = [] ∧
      clientSystem.Runs start (.callShutdown :: loopOnce) world ∧
      clientSystem.step world .returnShutdown = some next ∧
      Effect.accepted secondMessage ∈ next.client.log ∧
      sendCompletions next.client.log = [0] ∧ ¬ CompletesSends next.client.log := by
  have evaluated : (clientSystem.run clientSystem.init heldOne).any (fun start =>
      decide (start.outstanding = []) &&
        (clientSystem.run start (.callShutdown :: loopOnce)).any fun world =>
          (clientSystem.step world .returnShutdown).any fun next =>
            decide (Effect.accepted secondMessage ∈ next.client.log ∧
              sendCompletions next.client.log = [0])) = true := by decide +kernel
  obtain ⟨start, runs, checked⟩ := System.exists_runs evaluated
  obtain ⟨completed, checked⟩ := Bool.and_eq_true_iff.mp checked
  obtain ⟨world, loops, checked⟩ := System.exists_runs checked
  obtain ⟨next, returned, checked⟩ := (Option.any_eq_true _ _).mp checked
  obtain ⟨accepted, completions⟩ := of_decide_eq_true checked
  refine ⟨start, world, next, runs, of_decide_eq_true completed, loops, returned, accepted,
    completions, ?_⟩
  intro completes
  have once := completes secondMessage 1 accepted rfl
  rw [completions] at once
  exact absurd once (by decide)

end Kurlyk.WebSocket
