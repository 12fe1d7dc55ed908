/-
This file models the threads that use one `HttpRequestManager`: the network
worker, which alone calls `process` and `shutdown`, and any number of callers of
the public functions. The state holds what each thread still has to do, and
every action is one atomic step of one thread: a section under a mutex, one
invocation of a user callback, or a read of the shutdown flag, together with the
work around it that no other thread can observe.

The worker is at a statement of its program (`Phase`) with an agenda of calls
that must return before the statement after it (`Call`). libcurl, the clock and
the choice of the next thread are the inputs of the actions. While the worker
scans the pending list it holds `m_mutex`, and no caller can enter a section.

`process` cannot be entered again from a callback it invokes:
`NetworkWorker::process` holds its own mutex around it.

Everything a result speaks about is recorded in an append-only log.
-/

import Mathlib.Logic.Function.Basic
import Mathlib.Data.List.Dedup
import Kurlyk.Http.Manager
import Kurlyk.Lib.System

namespace Kurlyk.Http

open RateLimiter

/-! ### The state -/

/-- What happens to requests, waiters and cancellations. `response` is a call of
`invoke_callback`, `completing` the moment `complete` claims the context and releases its
rate limits, and `completed` the moment it has settled the group's count. -/
inductive Event where
  | accepted (token : Token)
  | dispatched (token : Token)
  | started (token : Token)
  | response (token : Token) (response : HttpResponse)
  | requeued (token : Token)
  | completing (token : Token)
  | completed (token : Token)
  | abandoned (token : Token)
  | waitCalled (call : CallId) (group : ℕ)
  | waiterInvoked (call : CallId)
  | waitCancelled (call : CallId)
  | cancelCalled (call : CallId)
  | cancelInvoked (call : CallId)
  | shutdownBegan
deriving DecidableEq

/-- A call on the worker's stack that has not been made yet. `discard` is the destruction of a
context that nobody has answered. -/
inductive Call where
  | invokeFinalCallback (token : Token) (response : HttpResponse)
  | complete (token : Token)
  | onGroupComplete (token : Token)
  | notifyWaiter (waiter : GroupWaiter)
  | invokeCancel (callback : Option CallId)
  | destroyHandler (handler : HttpRequestHandler)
  | cancelHandler (handler : HttpRequestHandler)
  | discard (token : Token)
deriving DecidableEq

/-- The caller of `process_cancel_requests`. -/
inductive CancelMode where
  | process
  | shutdown
deriving DecidableEq

/-- The statement the worker is at, with its local variables. -/
inductive Phase where
  | idle
  | processPending
  | pendingLoop (index : ℕ) (pendingRequest failedRequests : List Token)
  | createBatch (contextList : List Token)
  | buildBatch (contextList : List Token) (handlers : List HttpRequestHandler)
  | activeLoop (index : ℕ)
  | perform (index : ℕ)
  | readMessages (index : ℕ) (stillRunning : Bool)
  | extractFailed (index : ℕ)
  | retryLoop (index : ℕ)
  | processCancel (mode : CancelMode)
  | cancelFailed (ids groups : CancelMap) (index : ℕ) (mode : CancelMode)
  | cancelBatches (ids groups : CancelMap) (index : ℕ) (mode : CancelMode)
  | notifyIdle
  | notifyAll
  | cleanupPending
  | clearBatches

/-- A call of a public function that another thread has begun and not finished. -/
inductive Caller where
  | waitInvoke (call : CallId)
  | cancelInvoke (call : CallId)
  | insertById (requestId : ℕ) (callback : Option CallId)
  | insertByGroup (group : ℕ) (callback : Option CallId)
  | submitting (client : ℕ) (request : HttpRequest) (callback : Bool)
deriving DecidableEq

/-- The part of `HttpClient` that guards its submissions. `submitting` says that a thread holds
`m_submit_mutex`. -/
structure HttpClient where
  groupId : ℕ
  maxInFlight : ℕ
  submitting : Bool := false
deriving DecidableEq

/-- The manager and everything around it. `live` lists the contexts that are not destroyed. -/
structure World extends HttpRequestManager where
  contexts : Token → HttpRequestContext := fun _ => {}
  live : List Token := []
  agenda : List Call := []
  phase : Phase := .idle
  callers : List Caller := []
  clients : List HttpClient := []
  userHandles : List LimitId := []
  clock : TimePoint := 0
  nextCall : CallId := 0
  log : List Event := []

/-! ### Ownership -/

/-- The tokens of the contexts some handler of the list owns. -/
def handlerContexts (handlers : List HttpRequestHandler) : List Token :=
  handlers.filterMap HttpRequestHandler.requestContext

/-- The contexts one call on the agenda owns. -/
def Call.owned : Call → List Token
  | .invokeFinalCallback token _ => [token]
  | .complete token => [token]
  | .onGroupComplete token => [token]
  | .notifyWaiter _ => []
  | .invokeCancel _ => []
  | .destroyHandler handler => handler.requestContext.toList
  | .cancelHandler handler => handler.requestContext.toList
  | .discard token => [token]

/-- The contexts the local variables of a statement own. -/
def Phase.owned : Phase → List Token
  | .pendingLoop _ pendingRequest failedRequests => pendingRequest ++ failedRequests
  | .createBatch contextList => contextList
  | .buildBatch contextList handlers => contextList ++ handlerContexts handlers
  | _ => []

/-- The handles a call in progress keeps alive. -/
def Caller.handles : Caller → List LimitId
  | .submitting _ request _ => request.handles
  | _ => []

namespace World

variable (world : World)

/-- Every context that some container, local variable or call owns. -/
def owned : List Token :=
  world.pendingRequests ++ world.failedRequests ++
    world.activeRequestBatches.flatMap
      (fun batch => batch.failedRequests ++ handlerContexts batch.handlers) ++
    world.phase.owned ++ world.agenda.flatMap Call.owned

/-- The handles held outside the limiter. -/
def heldHandles : List LimitId :=
  world.userHandles ++ world.live.flatMap (fun token => (world.contexts token).handles) ++
    world.callers.flatMap Caller.handles

/-- The worker holds `m_mutex` across steps exactly while it scans the pending list. -/
def locked : Bool :=
  match world.phase with
  | .pendingLoop _ _ _ => true
  | _ => false

/-! ### Small updates -/

def emit (event : Event) : World :=
  { world with log := world.log ++ [event] }

/-- The clock never runs backwards. -/
def tick (now : TimePoint) : Option World :=
  if world.clock ≤ now then some { world with clock := now } else none

/-- Copies of handles are destroyed, and with a last copy its limit. -/
def dropHandles (ids : List LimitId) : World :=
  { world with rateLimiter := dropAll world.heldHandles ids.dedup world.rateLimiter }

/-- `submit_request` by any thread. A rejected request is destroyed with its handles. -/
def submit (request : Option HttpRequest) (callback : Bool) : World :=
  match world.toHttpRequestManager.submitRequest request with
  | .error _ => world.dropHandles ((request.map HttpRequest.handles).getD [])
  | .ok (token, manager) =>
    { world with
      toHttpRequestManager := manager
      contexts := Function.update world.contexts token
        (HttpRequestContext.admitted request callback)
      live := token :: world.live
      log := world.log ++ [.accepted token] }

/-! ### The calls on the agenda -/

/-- The first call of the agenda is made; `rest` is what remains of the agenda. -/
def makeCall (rest : List Call) : Call → World
  -- The user callback runs first, and the context is completed after it.
  | .invokeFinalCallback token response =>
    { world with agenda := .complete token :: rest, log := world.log ++ [.response token response] }
  | .complete token =>
    let context := world.contexts token
    if context.completeCalled then { world with agenda := rest }
    else
      { world with
        contexts := Function.update world.contexts token { context with completeCalled := true }
        rateLimiter := (context.onComplete.map (·.release world.rateLimiter)).getD world.rateLimiter
        agenda := .onGroupComplete token :: rest
        log := world.log ++ [.completing token] }
  | .onGroupComplete token =>
    match (world.contexts token).onGroupComplete with
    | none => { world with agenda := rest, log := world.log ++ [.completed token] }
    | some group =>
      let (ready, manager) := world.toHttpRequestManager.completeGroupRequest group
      { world with
        toHttpRequestManager := manager
        agenda := ready.map .notifyWaiter ++ rest
        log := world.log ++ [.completed token] }
  | .notifyWaiter waiter =>
    { world with agenda := rest, log := world.log ++ waiter.callback.toList.map .waiterInvoked }
  | .invokeCancel callback =>
    { world with agenda := rest, log := world.log ++ callback.toList.map Event.cancelInvoked }
  | .destroyHandler handler =>
    match handler.unanswered with
    | none => { world with agenda := rest }
    | some (token, response) =>
      { world with
        agenda := .invokeFinalCallback token (response.closed .abortedDuringDestruction) :: rest }
  | .cancelHandler handler =>
    match handler.unanswered with
    | none => { world with agenda := rest }
    | some (token, response) =>
      { world with
        agenda := .invokeFinalCallback token (response.closed .cancelledByUser) :: rest }
  | .discard token => { world with agenda := rest, log := world.log ++ [.abandoned token] }

/-! ### `process_pending_requests` -/

/-- One iteration of the scan of the pending list, under `m_mutex`. -/
def pendingStep (index : ℕ) (pendingRequest failedRequests : List Token) (now : TimePoint) :
    World :=
  match world.pendingRequests[index]? with
  | none =>
    -- The mutex is released, and the contexts without a request are answered.
    { world with
      agenda := failedRequests.map (.invokeFinalCallback · badRequestResponse)
      phase := if pendingRequest.isEmpty then .activeLoop 0 else .createBatch pendingRequest }
  | some token =>
    match (world.contexts token).request with
    | none =>
      { world with
        pendingRequests := world.pendingRequests.eraseIdx index
        phase := .pendingLoop index pendingRequest (failedRequests ++ [token]) }
    | some request =>
      let call := request.call token
      let answer := call.allow world.rateLimiter now
      -- `on_complete` is armed before the limiter is asked, and restored on refusal.
      if answer.1 then
        { world with
          contexts := Function.update world.contexts token
            { world.contexts token with onComplete := some call }
          rateLimiter := answer.2
          pendingRequests := world.pendingRequests.eraseIdx index
          phase := .pendingLoop index (pendingRequest ++ [token]) failedRequests
          log := world.log ++ [.dispatched token] }
      else
        { world with
          rateLimiter := answer.2
          phase := .pendingLoop (index + 1) pendingRequest failedRequests }

/-- The constructor of `HttpBatchRequestHandler` asks for a multi handle. -/
def createBatchStep (contextList : List Token) (ok : Bool) : World :=
  if ok then { world with phase := .buildBatch contextList [] }
  else
    { world with
      agenda := contextList.map (.invokeFinalCallback · abortedResponse)
      activeRequestBatches := world.activeRequestBatches ++ [{ multiHandle := false }]
      phase := .activeLoop 0 }

/-- The constructor makes the handler of one context: `ok` says whether `curl_easy_init` gave a
handle, `added` whether `curl_multi_add_handle`, whose answer is ignored, took it. -/
def buildBatchStep (token : Token) (contextList : List Token)
    (handlers : List HttpRequestHandler) (ok added : Bool) : World :=
  if ok then
    { world with
      phase := .buildBatch contextList
        (handlers ++ [{ requestContext := some token, transferring := added }])
      log := world.log ++ [.started token] }
  else
    { world with
      agenda := [.invokeFinalCallback token abortedResponse]
      phase := .buildBatch contextList handlers }

/-! ### `process_active_requests` -/

/-- `HttpBatchRequestHandler::process` is entered. Without a multi handle every handler is
answered at once. -/
def activeStep (index : ℕ) : World :=
  match world.activeRequestBatches[index]? with
  | none => { world with phase := .retryLoop 0 }
  | some batch =>
    if batch.multiHandle then { world with phase := .perform index }
    else
      { world with
        agenda := (handlerContexts batch.handlers).map (.invokeFinalCallback · abortedResponse)
        activeRequestBatches := world.activeRequestBatches.set index batch.clearHandlers
        phase := .extractFailed index }

/-- `curl_multi_perform` delivers body data to one handler. -/
def writeStep (index position : ℕ) (data : List UInt8) (status : ℤ) : Option World :=
  match world.activeRequestBatches[index]? with
  | none => none
  | some batch =>
    match batch.handlers[position]? with
    | none => none
    | some handler =>
      if handler.transferring then
        let appended := handler.appendContent data
        let chunk := handler.requestContext.bind fun token =>
          (streamChunk (world.contexts token) data status).map (Event.response token)
        match chunk with
        | none =>
          some { world with
            activeRequestBatches := world.activeRequestBatches.set index
              (batch.setHandler position appended) }
        | some event =>
          some { world with
            activeRequestBatches := world.activeRequestBatches.set index
              (batch.setHandler position appended.streamed)
            log := world.log ++ [event] }
      else none

/-- `handle_completed_request` for a handler whose response was not given away yet. -/
def messageStep (index : ℕ) (batch : HttpBatchRequestHandler) (position : ℕ)
    (handler : HttpRequestHandler) (token : Token) (request : HttpRequest)
    (response : HttpResponse) (message : CurlMessage) (now : TimePoint) : World :=
  let context := world.contexts token
  let attempt := context.retryAttempt + 1
  let finished := response.finished message attempt
  if shouldRetry request message attempt handler.hasStreamChunk then
    -- The callback sees the failed attempt, and the batch keeps the context for a retry.
    { world with
      contexts := Function.update world.contexts token
        { context with retryAttempt := attempt, startTime := now }
      activeRequestBatches := world.activeRequestBatches.set index
        ((batch.setHandler position (handler.answered none)).addFailed token)
      log := world.log ++ [.response token finished] }
  else
    { world with
      contexts := Function.update world.contexts token { context with retryAttempt := attempt }
      activeRequestBatches := world.activeRequestBatches.set index
        (batch.setHandler position (handler.answered handler.requestContext))
      agenda := [.invokeFinalCallback token { finished with ready := true }] }

/-- `curl_multi_info_read` reports the transfer of one handler done. libcurl does so at most
once for an easy handle that was added. A handler without response ignores the message. -/
def readMessageStep (index position : ℕ) (message : CurlMessage) (now : TimePoint) :
    Option World :=
  match world.activeRequestBatches[index]? with
  | none => none
  | some batch =>
    match batch.handlers[position]? with
    | none => none
    | some handler =>
      if handler.transferring then
        match handler.response with
        | none =>
          some { world with
            activeRequestBatches := world.activeRequestBatches.set index
              (batch.setHandler position handler.removed) }
        | some response =>
          handler.requestContext.bind fun token =>
            (world.contexts token).request.map fun request =>
              world.messageStep index batch position handler token request response message now
      else none

/-- No message is left. With no transfer running the handlers are destroyed. -/
def noMessageStep (index : ℕ) (stillRunning : Bool) : World :=
  if stillRunning then { world with phase := .activeLoop (index + 1) }
  else
    match world.activeRequestBatches[index]? with
    | none => { world with phase := .extractFailed index }
    | some batch =>
      { world with
        agenda := batch.handlers.map .destroyHandler
        activeRequestBatches := world.activeRequestBatches.set index batch.clearHandlers
        phase := .extractFailed index }

/-- A finished batch is erased and its failed requests move to the manager. -/
def extractFailedStep (index : ℕ) : World :=
  match world.activeRequestBatches[index]? with
  | none => { world with phase := .activeLoop index }
  | some batch =>
    { world with
      activeRequestBatches := world.activeRequestBatches.eraseIdx index
      failedRequests := world.failedRequests ++ batch.failedRequests
      agenda := batch.handlers.map .destroyHandler
      phase := .activeLoop index }

/-! ### `process_retry_failed_requests` -/

/-- One iteration of the scan of the failed list. -/
def retryStep (index : ℕ) (now : TimePoint) : World :=
  match world.failedRequests[index]? with
  | none => { world with phase := .processCancel .process }
  | some token =>
    match (world.contexts token).request with
    | none =>
      { world with
        failedRequests := world.failedRequests.eraseIdx index
        agenda := [.discard token] }
    | some request =>
      if elapsedMs now (world.contexts token).startTime ≥ request.retryDelayMs then
        { world with
          pendingRequests := world.pendingRequests ++ [token]
          failedRequests := world.failedRequests.eraseIdx index
          log := world.log ++ [.requeued token] }
      else { world with phase := .retryLoop (index + 1) }

/-! ### `process_cancel_requests` -/

/-- The statement after `process_cancel_requests`. -/
def afterCancel : CancelMode → Phase
  | .process => .notifyIdle
  | .shutdown => .clearBatches

/-- `matches_cancel` on a context. -/
def contextMatches (ids groups : CancelMap) (token : Token) : Bool :=
  matchesCancel (world.contexts token).request ids groups

/-- The test of `HttpBatchRequestHandler::cancel_requests`. -/
def handlerMatches (ids groups : CancelMap) (handler : HttpRequestHandler) : Bool :=
  match handler.requestContext with
  | none => false
  | some token => world.contextMatches ids groups token

/-- The section that takes the two maps and the matching pending requests. -/
def processCancelStep (mode : CancelMode) : World :=
  let ids := world.requestsToCancelById
  let groups := world.groupsToCancel
  if ids.isEmpty && groups.isEmpty then { world with phase := afterCancel mode }
  else
    { world with
      requestsToCancelById := ∅
      groupsToCancel := ∅
      pendingRequests := world.pendingRequests.filter (!world.contextMatches ids groups ·)
      agenda := (world.pendingRequests.filter (world.contextMatches ids groups ·)).map
        (.invokeFinalCallback · makeCancelledResponse)
      phase := .cancelFailed ids groups 0 mode }

/-- One iteration of the scan of the failed list. -/
def cancelFailedStep (ids groups : CancelMap) (index : ℕ) (mode : CancelMode) : World :=
  match world.failedRequests[index]? with
  | none => { world with phase := .cancelBatches ids groups 0 mode }
  | some token =>
    if world.contextMatches ids groups token then
      { world with
        agenda := [.invokeFinalCallback token makeCancelledResponse]
        failedRequests := world.failedRequests.eraseIdx index }
    else { world with phase := .cancelFailed ids groups (index + 1) mode }

/-- `cancel_requests` on one batch; after the last batch the cancel callbacks follow. -/
def cancelBatchesStep (ids groups : CancelMap) (index : ℕ) (mode : CancelMode) : World :=
  match world.activeRequestBatches[index]? with
  | none =>
    { world with
      agenda := (ids.contents ++ groups.contents).map .invokeCancel
      phase := afterCancel mode }
  | some batch =>
    { world with
      agenda := (batch.handlers.filter (world.handlerMatches ids groups)).map .cancelHandler
      activeRequestBatches := world.activeRequestBatches.set index
        (batch.filterHandlers (!world.handlerMatches ids groups ·))
      phase := .cancelBatches ids groups (index + 1) mode }

/-! ### Waiters and shutdown -/

/-- Waiters that a section took out are notified before the statement `next`. -/
def notifyStep (taken : List GroupWaiter × HttpRequestManager) (next : Phase) : World :=
  { world with
    toHttpRequestManager := taken.2
    agenda := taken.1.map .notifyWaiter
    phase := next }

/-- `cleanup_pending_requests`. -/
def cleanupPendingStep : World :=
  { world with
    agenda := (world.pendingRequests ++ world.failedRequests).map
      (.invokeFinalCallback · cleanupResponse)
    pendingRequests := []
    failedRequests := []
    phase := .processCancel .shutdown }

/-- `m_active_request_batches.clear()`: the members of each batch are destroyed in the reverse
order of their declaration, its failed requests first. -/
def clearBatchesStep : World :=
  { world with
    agenda := world.activeRequestBatches.flatMap fun batch =>
      batch.failedRequests.map .discard ++ batch.handlers.map .destroyHandler
    activeRequestBatches := []
    phase := .notifyAll }

/-! ### The worker -/

/-- What the environment supplies to a step of the worker. -/
inductive Input where
  | proceed
  | time (now : TimePoint)
  | multiInit (ok : Bool)
  | easyInit (ok added : Bool)
  | write (position : ℕ) (data : List UInt8) (status : ℤ)
  | performed (ok stillRunning : Bool)
  | message (position : ℕ) (message : CurlMessage) (now : TimePoint)
  | noMessage
deriving DecidableEq

/-- One statement of the worker, with an empty agenda. -/
def statement : Phase → Input → Option World
  | .processPending, .proceed =>
    some { world with
      phase := if world.pendingRequests.isEmpty then .activeLoop 0 else .pendingLoop 0 [] [] }
  | .pendingLoop index pendingRequest failedRequests, .time now =>
    (world.tick now).map (·.pendingStep index pendingRequest failedRequests now)
  | .createBatch contextList, .multiInit ok => some (world.createBatchStep contextList ok)
  | .buildBatch (token :: contextList) handlers, .easyInit ok added =>
    some (world.buildBatchStep token contextList handlers ok added)
  | .buildBatch [] handlers, .proceed =>
    some { world with
      activeRequestBatches := world.activeRequestBatches ++ [{ multiHandle := true, handlers }]
      phase := .activeLoop 0 }
  | .activeLoop index, .proceed => some (world.activeStep index)
  | .perform index, .write position data status => world.writeStep index position data status
  | .perform index, .performed ok stillRunning =>
    some { world with
      phase := if ok then .readMessages index stillRunning else .activeLoop (index + 1) }
  | .readMessages index _, .message position message now =>
    (world.tick now).bind (·.readMessageStep index position message now)
  | .readMessages index stillRunning, .noMessage => some (world.noMessageStep index stillRunning)
  | .extractFailed index, .proceed => some (world.extractFailedStep index)
  | .retryLoop index, .time now => (world.tick now).map (·.retryStep index now)
  | .processCancel mode, .proceed => some (world.processCancelStep mode)
  | .cancelFailed ids groups index mode, .proceed =>
    some (world.cancelFailedStep ids groups index mode)
  | .cancelBatches ids groups index mode, .proceed =>
    some (world.cancelBatchesStep ids groups index mode)
  | .notifyIdle, .proceed =>
    some (world.notifyStep world.toHttpRequestManager.takeIdleWaiters .idle)
  | .notifyAll, .proceed =>
    some (world.notifyStep world.toHttpRequestManager.takeAllWaiters .idle)
  | .cleanupPending, .proceed => some world.cleanupPendingStep
  | .clearBatches, .proceed => some world.clearBatchesStep
  | _, _ => none

/-- A step of the worker: the first call of its agenda, or the statement it is at. -/
def work (input : Input) : Option World :=
  match world.agenda with
  | [] => world.statement world.phase input
  | call :: rest => if input = .proceed then some (world.makeCall rest call) else none

/-- The worker calls `process`. -/
def callProcess : Option World :=
  match world.phase, world.agenda with
  | .idle, [] =>
    some { world with phase := if world.shutdown then .notifyAll else .processPending }
  | _, _ => none

/-- The worker calls `shutdown`. -/
def callShutdown : Option World :=
  match world.phase, world.agenda with
  | .idle, [] =>
    if world.shutdown then some { world with phase := .notifyAll }
    else
      some { world with
        shutdown := true
        phase := .cleanupPending
        log := world.log ++ [.shutdownBegan] }
  | _, _ => none

/-! ### The callers -/

/-- The callback of the next call, if the call brings one. -/
def freshCallback (given : Bool) : Option CallId :=
  if given then some world.nextCall else none

/-- `wait_requests_by_group_id` up to the end of its section. -/
def callWait (group : ℕ) (given : Bool) : Option World :=
  if world.locked then none
  else
    let callback := world.freshCallback given
    let called := { world with
      nextCall := world.nextCall + 1
      log := world.log ++ callback.toList.map (Event.waitCalled · group) }
    match world.toHttpRequestManager.registerWaiter group callback with
    | none => some { called with callers := world.callers ++ callback.toList.map Caller.waitInvoke }
    | some manager => some { called with toHttpRequestManager := manager }

/-- `cancel_wait_requests_by_group_id`. -/
def callCancelWait (group waiterId : ℕ) : Option World :=
  if world.locked then none
  else
    match world.toHttpRequestManager.cancelWait group waiterId with
    | none => some world
    | some (waiter, manager) =>
      some { world with
        toHttpRequestManager := manager
        log := world.log ++ waiter.callback.toList.map .waitCancelled }

/-- The two cancel functions up to their test of the shutdown flag, which reads no mutex:
`insert` is the call that continues with the section. -/
def callCancel (identifier : ℕ) (given : Bool) (insert : Option CallId → Caller) : World :=
  let callback := world.freshCallback given
  let called := { world with
    nextCall := world.nextCall + 1
    log := world.log ++ callback.toList.map Event.cancelCalled }
  if world.shutdown ∨ identifier = 0 then
    { called with callers := world.callers ++ callback.toList.map Caller.cancelInvoke }
  else { called with callers := world.callers ++ [insert callback] }

/-- `HttpClient::submit_request` up to the end of the count it reads: the call is rejected, or
goes on with `m_submit_mutex` held. -/
def callClientSubmit (index : ℕ) (request : HttpRequest) (callback : Bool) : Option World :=
  match world.clients[index]? with
  | none => none
  | some client =>
    if client.submitting ∨ world.locked ∨ ¬ request.handles ⊆ world.userHandles then none
    else if client.maxInFlight ≠ 0 ∧
        world.toHttpRequestManager.groupRequestCount client.groupId ≥ client.maxInFlight then
      some world
    else
      some { world with
        clients := world.clients.set index { client with submitting := true }
        callers := world.callers ++ [.submitting index request callback] }

/-- The rest of `HttpClient::submit_request`. -/
def finishClientSubmit (index : ℕ) (request : HttpRequest) (callback : Bool) : World :=
  let submitted := world.submit (some request) callback
  { submitted with
    clients := submitted.clients.modify index fun client => { client with submitting := false } }

/-- The caller at the position makes its next step. -/
def continueCaller (position : ℕ) : Option World :=
  match world.callers[position]? with
  | none => none
  | some caller =>
    let left := { world with callers := world.callers.eraseIdx position }
    match caller with
    | .waitInvoke call => some (left.emit (.waiterInvoked call))
    | .cancelInvoke call => some (left.emit (.cancelInvoked call))
    | .insertById requestId callback =>
      if world.locked then none
      else
        some { left with
          toHttpRequestManager := left.toHttpRequestManager.queueCancelById requestId callback }
    | .insertByGroup group callback =>
      if world.locked then none
      else
        match left.toHttpRequestManager.queueCancelByGroup group callback with
        | none =>
          some { left with callers := left.callers ++ callback.toList.map Caller.cancelInvoke }
        | some manager => some { left with toHttpRequestManager := manager }
    | .submitting client request callback =>
      if world.locked then none else some (left.finishClientSubmit client request callback)

/-! ### Rate-limit handles -/

/-- `create_rate_limit`. -/
def createRateLimit (requestsPerPeriod periodMs : ℤ) (sequential : Bool) : World :=
  let created := createLimitHandle world.rateLimiter requestsPerPeriod periodMs sequential
  { world with rateLimiter := created.2, userHandles := created.1 :: world.userHandles }

/-- `get_rate_limit`. -/
def getRateLimit (id : LimitId) : World :=
  { world with userHandles := (getLimit world.rateLimiter id).toList ++ world.userHandles }

/-- `remove_limit`: the manager-owned copy of the handle is destroyed. -/
def removeRateLimit (id : LimitId) : World :=
  let removed := removeLimit world.rateLimiter id
  let left := { world with rateLimiter := removed.2 }
  if removed.1 then left.dropHandles [id] else left

/-- A copy of a handle is made or destroyed by its holder. -/
def copyUserHandle (id : LimitId) : Option World :=
  if id ∈ world.userHandles then some { world with userHandles := id :: world.userHandles }
  else none

def dropUserHandle (id : LimitId) : Option World :=
  if id ∈ world.userHandles then
    some ({ world with userHandles := world.userHandles.erase id }.dropHandles [id])
  else none

/-- `allow_request` called directly. The caller passes any token: zero, as the overloads without
a token do, one of its own making, or the token of a request. -/
def allowRequest (call : RequestCall) (now : TimePoint) : Option World :=
  if call.handles ⊆ world.userHandles then
    (world.tick now).map fun ticked =>
      { ticked with rateLimiter := (call.allow world.rateLimiter now).2 }
  else none

/-- `release_request` called directly, with any token. -/
def releaseRequest (call : RequestCall) : Option World :=
  if call.handles ⊆ world.userHandles then
    some { world with rateLimiter := call.release world.rateLimiter }
  else none

/-- A context that nothing owns any more is destroyed, and its handles with it. -/
def destroyContext (token : Token) : Option World :=
  if token ∈ world.live ∧ token ∉ world.owned then
    some ({ world with live := world.live.erase token }.dropHandles
      (world.contexts token).handles)
  else none

end World

/-! ### The system -/

/-- The actions of all threads. -/
inductive Action where
  | callProcess
  | callShutdown
  | work (input : World.Input)
  | submitRequest (request : Option HttpRequest) (callback : Bool)
  | setMaxPendingRequests (limit : ℕ)
  | waitRequests (group : ℕ) (callback : Bool)
  | cancelWait (group waiterId : ℕ)
  | cancelById (requestId : ℕ) (callback : Bool)
  | cancelByGroup (group : ℕ) (callback : Bool)
  | continueCaller (position : ℕ)
  | newClient (maxInFlight : ℕ)
  | clientSubmit (client : ℕ) (request : HttpRequest) (callback : Bool)
  | createRateLimit (requestsPerPeriod periodMs : ℤ) (sequential : Bool)
  | getRateLimit (id : LimitId)
  | removeRateLimit (id : LimitId)
  | copyUserHandle (id : LimitId)
  | dropUserHandle (id : LimitId)
  | allowRequest (call : RequestCall) (now : TimePoint)
  | releaseRequest (call : RequestCall)
  | destroyContext (token : Token)

/-- One step of one thread. -/
def World.step (world : World) : Action → Option World
  | .callProcess => world.callProcess
  | .callShutdown => world.callShutdown
  | .work input => world.work input
  | .submitRequest request callback =>
    if world.locked ∨ ¬ (request.map HttpRequest.handles).getD [] ⊆ world.userHandles then none
    else some (world.submit request callback)
  | .setMaxPendingRequests limit => some { world with maxPendingRequests := limit }
  | .waitRequests group callback => world.callWait group callback
  | .cancelWait group waiterId => world.callCancelWait group waiterId
  | .cancelById requestId callback =>
    some (world.callCancel requestId callback (.insertById requestId))
  | .cancelByGroup group callback => some (world.callCancel group callback (.insertByGroup group))
  | .continueCaller position => world.continueCaller position
  | .newClient maxInFlight =>
    some { world with
      groupIdCounter := world.groupIdCounter + 1
      clients := world.clients ++ [{ groupId := world.groupIdCounter, maxInFlight }] }
  | .clientSubmit client request callback => world.callClientSubmit client request callback
  | .createRateLimit requestsPerPeriod periodMs sequential =>
    some (world.createRateLimit requestsPerPeriod periodMs sequential)
  | .getRateLimit id => some (world.getRateLimit id)
  | .removeRateLimit id => some (world.removeRateLimit id)
  | .copyUserHandle id => world.copyUserHandle id
  | .dropUserHandle id => world.dropUserHandle id
  | .allowRequest call now => world.allowRequest call now
  | .releaseRequest call => world.releaseRequest call
  | .destroyContext token => world.destroyContext token

/-- The manager with all its threads, as a system. -/
def managerSystem : System World Action where
  init := {}
  step := World.step

end Kurlyk.Http
