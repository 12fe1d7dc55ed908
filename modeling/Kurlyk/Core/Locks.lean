/-
This file lists, for every function of the library that locks a mutex or calls
user code, the sections it runs under a mutex and the calls it makes, in the
order of the source. All mutexes are of the non-recursive `std::mutex`. Tests on
data are choices and loops run over any of their elements, so the programs have
every path of the code.

A `std::unique_lock` that is unlocked by hand, and a `std::lock_guard` in a
block of its own, end their section there; otherwise the section is the rest of
the function. The mutexes of HTTP clients and WebSocket clients carry the number
of the client they belong to.
-/

import Kurlyk.Lib.Locks

namespace Kurlyk.Core

/-- The mutexes of the library. -/
inductive Mutex where
  -- `NetworkWorker`
  | managers
  | tasksList
  | notify
  | isWorkerStarted
  | errorHandlers
  -- `HttpRequestManager` and `HttpRateLimiter`
  | requestManager
  | rateLimiter
  -- `HttpClient`
  | submit (client : ℕ)
  -- `WebSocketManager`
  | clientList
  -- `BaseWebSocketClient`, its `EventQueue` and `WebSocketRateLimiter`, and its adapter
  | fsmEventQueue (client : ℕ)
  | eventQueue (client : ℕ)
  | messageQueue (client : ℕ)
  | sendCallbackQueue (client : ℕ)
  | webSocketRateLimiter (client : ℕ)
  | adapter (client : ℕ)
  -- `SimpleWebSocketWorker`
  | simpleWorkerNotify
  | simpleWorkerStarted
deriving DecidableEq

/-- The callbacks of the user. -/
inductive Callback where
  | response
  | cancel
  | groupWaiter
  | event (client : ℕ)
  | completion (client : ℕ)
  | send (client : ℕ)
  | task
  | errorHandler
deriving DecidableEq

/-- The functions that lock mutexes or call user code on the way. -/
inductive Function where
  | process
  | shutdown
  | processTasks
  | stop
  | isLoaded
  | handleError
  | processManager
  | shutdownManager
  | processPendingRequests
  | processActiveRequests
  | processRetryFailedRequests
  | processCancelRequests
  | cleanupPendingRequests
  | clearActiveRequestBatches
  | notifyGroupWaiters
  | invokeCallback
  | complete
  | completeGroupRequest
  | processClients
  | shutdownClients
  | processClient (client : ℕ)
  | shutdownClient (client : ℕ)
  | processFsmState (client : ℕ)
  | processMessageQueue (client : ℕ)
  | processSendCallbackQueue (client : ℕ)
  | sendMessage (client : ℕ)
deriving DecidableEq

/-- The locks, calls and callbacks of a function of the library. -/
abbrev Code := Program Mutex Callback Function

open Program

/-! ### `NetworkWorker`, as far as it does not call the managers -/

/-- `NetworkWorker::handle_error`. -/
@[simp]
def handleError : Code :=
  .call .handleError (block [locked .errorHandlers, .each fun _ => .callback .errorHandler])

/-- `NetworkWorker::notify`. -/
@[simp]
def notify : Code :=
  locked .notify

/-- `NetworkWorker::add_task`. -/
@[simp]
def addTask : Code :=
  block [locked .tasksList, notify]

/-- `NetworkWorker::register_manager`. -/
@[simp]
def registerManager : Code :=
  locked .managers

/-- `NetworkWorker::start`, on the thread that calls it. -/
@[simp]
def start : Code :=
  locked .isWorkerStarted

/-! ### `HttpRateLimiter` and `HttpRequestContext` -/

/-- `create_limit_handle`, `get_limit`, `allow_request`, `release_request` and
`time_until_next_allowed` hold the mutex of the limiter for their whole body, and so does the
destructor of the last handle of a limit. -/
@[simp]
def rateLimit : Code :=
  locked .rateLimiter

/-- `HttpRateLimiter::remove_limit`: the retired handle is destroyed after the section. -/
@[simp]
def removeLimit : Code :=
  block [locked .rateLimiter, maybe rateLimit]

/-- `HttpRequestManager::complete_group_request`. -/
@[simp]
def completeGroupRequest : Code :=
  .call .completeGroupRequest
    (block [locked .requestManager, .each fun _ => maybe (.callback .groupWaiter)])

/-- `HttpRequestContext::invoke_callback`, with the report of an exception. -/
def invokeCallback : Code :=
  .call .invokeCallback (maybe (block [.callback .response, maybe handleError]))

/-- `HttpRequestContext::complete`. -/
@[simp]
def complete : Code :=
  .call .complete (maybe (block [maybe rateLimit, maybe handleError,
    maybe completeGroupRequest, maybe handleError]))

/-- `HttpRequestContext::invoke_final_callback`. -/
def invokeFinalCallback : Code :=
  block [invokeCallback, complete]

/-! ### `HttpRequestManager` -/

/-- The functions of the manager that hold its mutex for their whole body and call nothing:
`submit_request`, `group_request_count`, `cancel_wait_requests_by_group_id` and `is_loaded`. -/
@[simp]
def requestManagerSection : Code :=
  locked .requestManager

/-- `wait_requests_by_group_id`. -/
@[simp]
def waitRequestsByGroupId : Code :=
  block [locked .requestManager, maybe (.callback .groupWaiter)]

/-- `cancel_request_by_id`. -/
@[simp]
def cancelRequestById : Code :=
  .orElse (maybe (.callback .cancel)) (locked .requestManager)

/-- `cancel_requests_by_group_id`. -/
@[simp]
def cancelRequestsByGroupId : Code :=
  .orElse (maybe (.callback .cancel))
    (block [locked .requestManager, maybe (.callback .cancel)])

/-- `process_pending_requests`: the rate limiter is asked under the manager's mutex. Invalid
requests fail, and requests fail for which no batch can be made. -/
def processPendingRequests : Code :=
  .call .processPendingRequests (block [
    .holding .requestManager (.each fun _ => rateLimit),
    .each fun _ => invokeFinalCallback,
    .each fun _ => invokeFinalCallback])

/-- `process_active_requests`: libcurl hands over chunks of streams, finished requests get their
final callback or one that announces a retry, and a finished batch is destroyed with its
handlers. -/
def processActiveRequests : Code :=
  .call .processActiveRequests (.each fun _ => block [
    .each fun _ => invokeCallback,
    .each fun _ => .orElse invokeFinalCallback invokeCallback,
    .each fun _ => invokeFinalCallback])

/-- `process_retry_failed_requests`. -/
def processRetryFailedRequests : Code :=
  .call .processRetryFailedRequests (.each fun _ => maybe (locked .requestManager))

/-- `process_cancel_requests`: pending, failed and active requests get their final callback, and
then the cancel callbacks are invoked. -/
def processCancelRequests : Code :=
  .call .processCancelRequests (block [
    locked .requestManager,
    .each fun _ => invokeFinalCallback,
    .each fun _ => invokeFinalCallback,
    .each fun _ => invokeFinalCallback,
    .each fun _ => maybe (.callback .cancel)])

/-- `notify_group_waiters_if_idle` and `notify_all_group_waiters`. -/
def notifyGroupWaiters : Code :=
  .call .notifyGroupWaiters
    (block [locked .requestManager, .each fun _ => maybe (.callback .groupWaiter)])

/-- `cleanup_pending_requests`. -/
def cleanupPendingRequests : Code :=
  .call .cleanupPendingRequests
    (block [locked .requestManager, .each fun _ => invokeFinalCallback])

/-- `m_active_request_batches.clear()`: the destructors of unfinished handlers. -/
def clearActiveRequestBatches : Code :=
  .call .clearActiveRequestBatches (.each fun _ => maybe invokeFinalCallback)

/-- `HttpRequestManager::process`. -/
def processManager : Code :=
  .call .processManager (.orElse notifyGroupWaiters (block [processPendingRequests,
    processActiveRequests, processRetryFailedRequests, processCancelRequests,
    notifyGroupWaiters]))

/-- `HttpRequestManager::shutdown`. -/
def shutdownManager : Code :=
  .call .shutdownManager (.orElse notifyGroupWaiters (block [cleanupPendingRequests,
    processCancelRequests, clearActiveRequestBatches, notifyGroupWaiters]))

/-! ### `BaseWebSocketClient` and its adapter -/

/-- `push_event`, `has_events` and `pop_event` of the queue of the state machine. -/
@[simp]
def fsmEventQueue (client : ℕ) : Code :=
  locked (.fsmEventQueue client)

/-- `handle_open_event`, `handle_close_event`, `handle_error_event` and
`handle_message_event`. -/
@[simp]
def handleEvent (client : ℕ) : Code :=
  maybe (.orElse (.callback (.event client)) (locked (.eventQueue client)))

/-- `init_websocket`: the backend's worker is notified in the section. -/
@[simp]
def initWebsocket (client : ℕ) : Code :=
  maybe (.holding (.adapter client) (maybe (locked .simpleWorkerNotify)))

/-- `deinit_websocket`. -/
@[simp]
def deinitWebsocket (client : ℕ) : Code :=
  locked (.adapter client)

/-- `process_fsm_state`: the events of the queue, each with what its branch does. -/
def processFsmState (client : ℕ) : Code :=
  .call (.processFsmState client) (.each fun _ => block [
    fsmEventQueue client,
    maybe (handleEvent client),
    maybe (deinitWebsocket client),
    maybe (handleEvent client),
    maybe (locked (.webSocketRateLimiter client)),
    maybe (initWebsocket client),
    maybe (handleEvent client),
    maybe (.callback (.completion client)),
    maybe (initWebsocket client),
    maybe (handleEvent client)])

/-- `send_message` and `send_close` of the adapter: without a connection the callback runs after
the section, with one the send is handed to the backend in it. -/
@[simp]
def sendMessage (client : ℕ) : Code :=
  .call (.sendMessage client) (.orElse
    (block [locked (.adapter client), maybe (.callback (.send client))])
    (locked (.adapter client)))

/-- `process_message_queue`: the rate limiter is asked under the mutex of the queue. -/
@[simp]
def processMessageQueue (client : ℕ) : Code :=
  .call (.processMessageQueue client) (block [
    .holding (.messageQueue client) (.each fun _ => locked (.webSocketRateLimiter client)),
    .each fun _ => sendMessage client])

/-- `process_send_callback_queue`: the section is the whole function. -/
def processSendCallbackQueue (client : ℕ) : Code :=
  .call (.processSendCallbackQueue client)
    (.holding (.sendCallbackQueue client) (.each fun _ => .callback (.send client)))

/-- `BaseWebSocketClient::process`. -/
def processClient (client : ℕ) : Code :=
  .call (.processClient client) (block [processFsmState client, processMessageQueue client,
    processSendCallbackQueue client])

/-- `BaseWebSocketClient::shutdown`. -/
def shutdownClient (client : ℕ) : Code :=
  .call (.shutdownClient client) (block [fsmEventQueue client, .each fun _ => block [
    fsmEventQueue client, processFsmState client, processSendCallbackQueue client]])

/-! ### `WebSocketManager` -/

/-- `WebSocketManager::process`. -/
def processClients : Code :=
  .call .processClients (.holding .clientList (.each processClient))

/-- `WebSocketManager::shutdown`. -/
def shutdownClients : Code :=
  .call .shutdownClients (.holding .clientList (.each shutdownClient))

/-- `WebSocketManager::create_client`, with the constructor of the adapter. -/
@[simp]
def createClient : Code :=
  block [locked .simpleWorkerStarted, locked .clientList]

/-! ### `NetworkWorker` -/

/-- `process_tasks`: a task of the user, or the task that the destructor of a `WebSocketClient`
has queued. -/
def processTasks : Code :=
  .call .processTasks (block [locked .tasksList,
    .each fun client => .orElse (.callback .task) (shutdownClient client)])

/-- `NetworkWorker::process`. -/
def process : Code :=
  .call .process (block [
    .holding .managers (.each fun _ => .orElse processManager processClients), processTasks])

/-- `NetworkWorker::shutdown`. -/
def shutdown : Code :=
  .call .shutdown (block [
    .holding .managers (.each fun _ => .orElse shutdownManager shutdownClients), processTasks])

/-- `NetworkWorker::stop`: without a worker thread it shuts down itself. -/
def stop : Code :=
  .call .stop (block [locked .isWorkerStarted,
    .orElse (maybe shutdown) (block [notify, maybe handleError])])

/-! ### The public entry points -/

/-- `HttpClient::cancel_requests` on the worker thread, and on any other. -/
def cancelRequests : Code :=
  .orElse (block [cancelRequestsByGroupId, process])
    (block [cancelRequestsByGroupId, notify, maybe handleError])

/-- What a user may call. The functions of `HttpClient` and of the free functions for requests
that only prepare a request or wait for a future are left out. -/
inductive EntryPoint where
  | init
  | deinit
  | process
  | shutdown
  | addErrorHandler
  | addTask
  | notify
  | createHttpClient
  | destroyHttpClient
  | cancelRequests
  | waitRequests
  | submitRequest (client : ℕ)
  | maxInFlight (client : ℕ)
  | inFlightRequests
  | setRateLimit
  | clearRateLimit
  | createRateLimit
  | removeLimit
  | httpRequest
  | cancelRequestById
  | cancelRequestsByGroupId
  | createWebSocketClient
  | destroyWebSocketClient
  | setConfig (client : ℕ)
  | connect (client : ℕ)
  | disconnect (client : ℕ)
  | isConnected (client : ℕ)
  | submitMessage (client : ℕ)
  | submitClose (client : ℕ)
  | receiveEvents (client : ℕ)
  | getHeaders (client : ℕ)

/-- What an entry point does. -/
def EntryPoint.code : EntryPoint → Code
  | .init => block [registerManager, registerManager, start]
  | .deinit => stop
  | .process => Core.process
  | .shutdown => Core.shutdown
  | .addErrorHandler => locked .errorHandlers
  | .addTask => Core.addTask
  | .notify => Core.notify
  | .createHttpClient => maybe start
  | .destroyHttpClient => block [Core.cancelRequests, maybe Core.removeLimit,
      maybe Core.removeLimit, maybe rateLimit]
  | .cancelRequests => Core.cancelRequests
  | .waitRequests => maybe (block [waitRequestsByGroupId, Core.notify,
      maybe requestManagerSection, maybe handleError])
  | .submitRequest client => block [
      .holding (.submit client) (block [maybe requestManagerSection,
        maybe requestManagerSection]),
      maybe Core.notify]
  | .maxInFlight client => locked (.submit client)
  | .inFlightRequests => requestManagerSection
  | .setRateLimit => block [maybe Core.removeLimit, maybe rateLimit, rateLimit]
  | .clearRateLimit => block [maybe Core.removeLimit, maybe rateLimit]
  | .createRateLimit => rateLimit
  | .removeLimit => Core.removeLimit
  | .httpRequest => block [requestManagerSection, maybe Core.notify]
  | .cancelRequestById => block [Core.cancelRequestById, Core.notify]
  | .cancelRequestsByGroupId => block [Core.cancelRequestsByGroupId, Core.notify]
  | .createWebSocketClient => block [maybe start, createClient]
  | .destroyWebSocketClient => Core.addTask
  | .setConfig client => block [fsmEventQueue client, Core.notify]
  | .connect client => block [maybe (fsmEventQueue client), fsmEventQueue client, Core.notify]
  | .disconnect client => block [fsmEventQueue client, Core.notify]
  | .isConnected _ => .skip
  | .submitMessage client => maybe (locked (.messageQueue client))
  | .submitClose client => maybe (locked (.messageQueue client))
  | .receiveEvents client => locked (.eventQueue client)
  | .getHeaders client => locked (.adapter client)

end Kurlyk.Core
