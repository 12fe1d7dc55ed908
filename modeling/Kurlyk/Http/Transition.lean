/-
This file says once what a step of the manager's system can do. Every invariant
of the later files is a case analysis over `Transition`, so that none of them
unfolds the step function.

The steps are grouped by the function they belong to. Steps that only move the
worker to another statement are collected in `Jump`, and steps that only concern
rate-limit handles in `HandleStep`; an invariant can treat a group it does not
depend on as one case.
-/

import Kurlyk.Http.World

namespace Kurlyk.Http

open RateLimiter

/-- The worker, with nothing left on its agenda, only moves to another statement. -/
inductive Jump (world : World) : Action → Phase → Prop where
  | process (at_ : world.phase = .idle) (running : world.shutdown = false) :
    Jump world .callProcess .processPending
  | processAfterShutdown (at_ : world.phase = .idle) (stopped : world.shutdown = true) :
    Jump world .callProcess .notifyAll
  | shutdownAgain (at_ : world.phase = .idle) (stopped : world.shutdown = true) :
    Jump world .callShutdown .notifyAll
  | skipScan (at_ : world.phase = .processPending) (empty : world.pendingRequests = []) :
    Jump world (.work .proceed) (.activeLoop 0)
  | enterScan (at_ : world.phase = .processPending) (nonempty : world.pendingRequests ≠ []) :
    Jump world (.work .proceed) (.pendingLoop 0 [] [])
  | refused {index ready failed token request now}
    (at_ : world.phase = .pendingLoop index ready failed)
    (found : world.pendingRequests[index]? = some token)
    (carried : (world.contexts token).request = some request)
    (answer : ((request.call token).allow world.rateLimiter now).1 = false) :
    Jump world (.work (.time now)) (.pendingLoop (index + 1) ready failed)
  | multiHandle {contextList} (at_ : world.phase = .createBatch contextList) :
    Jump world (.work (.multiInit true)) (.buildBatch contextList [])
  | noBatch {index} (at_ : world.phase = .activeLoop index)
    (absent : world.activeRequestBatches[index]? = none) :
    Jump world (.work .proceed) (.retryLoop 0)
  | perform {index batch} (at_ : world.phase = .activeLoop index)
    (found : world.activeRequestBatches[index]? = some batch) (multi : batch.multiHandle = true) :
    Jump world (.work .proceed) (.perform index)
  | performed {index stillRunning} (at_ : world.phase = .perform index) :
    Jump world (.work (.performed true stillRunning)) (.readMessages index stillRunning)
  | performFailed {index stillRunning} (at_ : world.phase = .perform index) :
    Jump world (.work (.performed false stillRunning)) (.activeLoop (index + 1))
  | stillRunning {index} (at_ : world.phase = .readMessages index true) :
    Jump world (.work .noMessage) (.activeLoop (index + 1))
  | batchGone {index} (at_ : world.phase = .readMessages index false)
    (absent : world.activeRequestBatches[index]? = none) :
    Jump world (.work .noMessage) (.extractFailed index)
  | nothingToExtract {index} (at_ : world.phase = .extractFailed index)
    (absent : world.activeRequestBatches[index]? = none) :
    Jump world (.work .proceed) (.activeLoop index)
  | retryDone {index now} (at_ : world.phase = .retryLoop index)
    (absent : world.failedRequests[index]? = none) :
    Jump world (.work (.time now)) (.processCancel .process)
  | retryLater {index now} (at_ : world.phase = .retryLoop index) :
    Jump world (.work (.time now)) (.retryLoop (index + 1))
  | nothingToCancel {mode} (at_ : world.phase = .processCancel mode)
    (noIds : world.requestsToCancelById.isEmpty = true)
    (noGroups : world.groupsToCancel.isEmpty = true) :
    Jump world (.work .proceed) (World.afterCancel mode)
  | failedScanned {ids groups index mode} (at_ : world.phase = .cancelFailed ids groups index mode)
    (absent : world.failedRequests[index]? = none) :
    Jump world (.work .proceed) (.cancelBatches ids groups 0 mode)
  | failedKept {ids groups index mode token}
    (at_ : world.phase = .cancelFailed ids groups index mode)
    (found : world.failedRequests[index]? = some token)
    (kept : world.contextMatches ids groups token = false) :
    Jump world (.work .proceed) (.cancelFailed ids groups (index + 1) mode)

/-- A step that concerns rate-limit handles and the contexts that hold them only. -/
inductive HandleStep (world : World) : Action → World → Prop where
  | create {requestsPerPeriod periodMs sequential} :
    HandleStep world (.createRateLimit requestsPerPeriod periodMs sequential)
      (world.createRateLimit requestsPerPeriod periodMs sequential)
  | get {id} : HandleStep world (.getRateLimit id) (world.getRateLimit id)
  | remove {id} : HandleStep world (.removeRateLimit id) (world.removeRateLimit id)
  | copy {id} (held : id ∈ world.userHandles) : HandleStep world (.copyUserHandle id)
      { world with userHandles := id :: world.userHandles }
  | drop {id} (held : id ∈ world.userHandles) : HandleStep world (.dropUserHandle id)
      ({ world with userHandles := world.userHandles.erase id }.dropHandles [id])
  | allow {call now} (held : call.handles ⊆ world.userHandles) :
    HandleStep world (.allowRequest call now)
      { world with rateLimiter := (call.allow world.rateLimiter now).2, clock := now }
  | release {call} (held : call.handles ⊆ world.userHandles) :
    HandleStep world (.releaseRequest call)
      { world with rateLimiter := call.release world.rateLimiter }
  | destroy {token} (alive : token ∈ world.live) (unowned : token ∉ world.owned) :
    HandleStep world (.destroyContext token)
      ({ world with live := world.live.erase token }.dropHandles (world.contexts token).handles)

/-- One iteration or statement of `process_pending_requests`. -/
inductive PendingStep (world : World) : World.Input → World → Prop where
  | scanned {index ready failed now}
    (at_ : world.phase = .pendingLoop index ready failed)
    (absent : world.pendingRequests[index]? = none) :
    PendingStep world (.time now) { world with
      agenda := failed.map (.invokeFinalCallback · badRequestResponse)
      phase := if ready.isEmpty then .activeLoop 0 else .createBatch ready
      clock := now }
  | badRequest {index ready failed token now}
    (at_ : world.phase = .pendingLoop index ready failed)
    (found : world.pendingRequests[index]? = some token)
    (carried : (world.contexts token).request = none) :
    PendingStep world (.time now) { world with
      pendingRequests := world.pendingRequests.eraseIdx index
      phase := .pendingLoop index ready (failed ++ [token])
      clock := now }
  | dispatch {index ready failed token request now}
    (at_ : world.phase = .pendingLoop index ready failed)
    (found : world.pendingRequests[index]? = some token)
    (carried : (world.contexts token).request = some request)
    (allowed : ((request.call token).allow world.rateLimiter now).1 = true) :
    PendingStep world (.time now) { world with
      contexts := Function.update world.contexts token
        { world.contexts token with onComplete := some (request.call token) }
      rateLimiter := ((request.call token).allow world.rateLimiter now).2
      pendingRequests := world.pendingRequests.eraseIdx index
      phase := .pendingLoop index (ready ++ [token]) failed
      log := world.log ++ [.dispatched token]
      clock := now }
  | noMultiHandle {contextList}
    (at_ : world.phase = .createBatch contextList) :
    PendingStep world (.multiInit false) { world with
      agenda := contextList.map (.invokeFinalCallback · abortedResponse)
      activeRequestBatches := world.activeRequestBatches ++ [{ multiHandle := false }]
      phase := .activeLoop 0 }
  | start {token contextList handlers added}
    (at_ : world.phase = .buildBatch (token :: contextList) handlers) :
    PendingStep world (.easyInit true added) { world with
      phase := .buildBatch contextList
        (handlers ++ [{ requestContext := some token, transferring := added }])
      log := world.log ++ [.started token] }
  | noEasyHandle {token contextList handlers added}
    (at_ : world.phase = .buildBatch (token :: contextList) handlers) :
    PendingStep world (.easyInit false added) { world with
      agenda := [.invokeFinalCallback token abortedResponse]
      phase := .buildBatch contextList handlers }
  | batchBuilt {handlers}
    (at_ : world.phase = .buildBatch [] handlers) :
    PendingStep world .proceed { world with
      activeRequestBatches := world.activeRequestBatches ++ [{ multiHandle := true, handlers }]
      phase := .activeLoop 0 }

/-- One statement of `process_active_requests` or `process_retry_failed_requests`. -/
inductive ActiveStep (world : World) : World.Input → World → Prop where
  | processNoMulti {index batch}
    (at_ : world.phase = .activeLoop index)
    (found : world.activeRequestBatches[index]? = some batch)
    (noMulti : batch.multiHandle = false) :
    ActiveStep world .proceed { world with
      agenda := (handlerContexts batch.handlers).map (.invokeFinalCallback · abortedResponse)
      activeRequestBatches := world.activeRequestBatches.set index batch.clearHandlers
      phase := .extractFailed index }
  | write {index position data status batch handler}
    (at_ : world.phase = .perform index)
    (found : world.activeRequestBatches[index]? = some batch)
    (foundHandler : batch.handlers[position]? = some handler)
    (silent : handler.requestContext.bind (fun token =>
      (streamChunk (world.contexts token) data status).map (Event.response token)) = none) :
    ActiveStep world (.write position data status) { world with
      activeRequestBatches := world.activeRequestBatches.set index
        (batch.setHandler position (handler.appendContent data)) }
  | stream {index position data status batch handler token chunk}
    (at_ : world.phase = .perform index)
    (found : world.activeRequestBatches[index]? = some batch)
    (foundHandler : batch.handlers[position]? = some handler)
    (running : handler.transferring = true)
    (context : handler.requestContext = some token)
    (emitted : streamChunk (world.contexts token) data status = some chunk) :
    ActiveStep world (.write position data status) { world with
      activeRequestBatches := world.activeRequestBatches.set index
        (batch.setHandler position (handler.appendContent data).streamed)
      log := world.log ++ [.response token chunk] }
  | ignoreMessage {index stillRunning position message now batch handler}
    (at_ : world.phase = .readMessages index stillRunning)
    (found : world.activeRequestBatches[index]? = some batch)
    (foundHandler : batch.handlers[position]? = some handler) :
    ActiveStep world (.message position message now) { world with
      activeRequestBatches := world.activeRequestBatches.set index
        (batch.setHandler position handler.removed)
      clock := now }
  | retry {index stillRunning position message now batch handler token request response}
    (at_ : world.phase = .readMessages index stillRunning)
    (found : world.activeRequestBatches[index]? = some batch)
    (foundHandler : batch.handlers[position]? = some handler)
    (running : handler.transferring = true)
    (context : handler.requestContext = some token)
    (carried : (world.contexts token).request = some request)
    (kept : handler.response = some response)
    (again : shouldRetry request message ((world.contexts token).retryAttempt + 1)
      handler.hasStreamChunk = true) :
    ActiveStep world (.message position message now) { world with
      contexts := Function.update world.contexts token
        { world.contexts token with
          retryAttempt := (world.contexts token).retryAttempt + 1, startTime := now }
      activeRequestBatches := world.activeRequestBatches.set index
        ((batch.setHandler position (handler.answered none)).addFailed token)
      log := world.log ++
        [.response token (response.finished message ((world.contexts token).retryAttempt + 1))]
      clock := now }
  | finish {index stillRunning position message now batch handler token request response}
    (at_ : world.phase = .readMessages index stillRunning)
    (found : world.activeRequestBatches[index]? = some batch)
    (foundHandler : batch.handlers[position]? = some handler)
    (running : handler.transferring = true)
    (context : handler.requestContext = some token)
    (carried : (world.contexts token).request = some request)
    (kept : handler.response = some response)
    (last : shouldRetry request message ((world.contexts token).retryAttempt + 1)
      handler.hasStreamChunk = false) :
    ActiveStep world (.message position message now) { world with
      contexts := Function.update world.contexts token
        { world.contexts token with retryAttempt := (world.contexts token).retryAttempt + 1 }
      activeRequestBatches := world.activeRequestBatches.set index
        (batch.setHandler position (handler.answered handler.requestContext))
      agenda := [.invokeFinalCallback token
        { response.finished message ((world.contexts token).retryAttempt + 1) with ready := true }]
      clock := now }
  | destroyHandlers {index batch}
    (at_ : world.phase = .readMessages index false)
    (found : world.activeRequestBatches[index]? = some batch) :
    ActiveStep world .noMessage { world with
      agenda := batch.handlers.map .destroyHandler
      activeRequestBatches := world.activeRequestBatches.set index batch.clearHandlers
      phase := .extractFailed index }
  | extract {index batch}
    (at_ : world.phase = .extractFailed index)
    (found : world.activeRequestBatches[index]? = some batch) :
    ActiveStep world .proceed { world with
      activeRequestBatches := world.activeRequestBatches.eraseIdx index
      failedRequests := world.failedRequests ++ batch.failedRequests
      agenda := batch.handlers.map .destroyHandler
      phase := .activeLoop index }
  | dropFailed {index token now}
    (at_ : world.phase = .retryLoop index)
    (found : world.failedRequests[index]? = some token)
    (carried : (world.contexts token).request = none) :
    ActiveStep world (.time now) { world with
      failedRequests := world.failedRequests.eraseIdx index
      agenda := [.discard token]
      clock := now }
  | requeue {index token now}
    (at_ : world.phase = .retryLoop index)
    (found : world.failedRequests[index]? = some token) :
    ActiveStep world (.time now) { world with
      pendingRequests := world.pendingRequests ++ [token]
      failedRequests := world.failedRequests.eraseIdx index
      log := world.log ++ [.requeued token]
      clock := now }

/-- One statement of `process_cancel_requests`. -/
inductive CancelStep (world : World) : World → Prop where
  | takeCancels {mode}
    (at_ : world.phase = .processCancel mode)
    (queued : ¬ (world.requestsToCancelById.isEmpty = true ∧
      world.groupsToCancel.isEmpty = true)) :
    CancelStep world { world with
      requestsToCancelById := ∅
      groupsToCancel := ∅
      pendingRequests := world.pendingRequests.filter
        (!world.contextMatches world.requestsToCancelById world.groupsToCancel ·)
      agenda := (world.pendingRequests.filter
        (world.contextMatches world.requestsToCancelById world.groupsToCancel ·)).map
          (.invokeFinalCallback · makeCancelledResponse)
      phase := .cancelFailed world.requestsToCancelById world.groupsToCancel 0 mode }
  | cancelFailed {ids groups index mode token}
    (at_ : world.phase = .cancelFailed ids groups index mode)
    (found : world.failedRequests[index]? = some token)
    (hit : world.contextMatches ids groups token = true) :
    CancelStep world { world with
      agenda := [.invokeFinalCallback token makeCancelledResponse]
      failedRequests := world.failedRequests.eraseIdx index }
  | cancelBatch {ids groups index mode batch}
    (at_ : world.phase = .cancelBatches ids groups index mode)
    (found : world.activeRequestBatches[index]? = some batch) :
    CancelStep world { world with
      agenda := (batch.handlers.filter (world.handlerMatches ids groups)).map .cancelHandler
      activeRequestBatches := world.activeRequestBatches.set index
        (batch.filterHandlers (!world.handlerMatches ids groups ·))
      phase := .cancelBatches ids groups (index + 1) mode }
  | batchesScanned {ids groups index mode}
    (at_ : world.phase = .cancelBatches ids groups index mode)
    (absent : world.activeRequestBatches[index]? = none) :
    CancelStep world { world with
      agenda := (ids.contents ++ groups.contents).map .invokeCancel
      phase := World.afterCancel mode }

/-- One statement of `shutdown`, or of the notification at the end of `process`. -/
inductive ClosingStep (world : World) : World → Prop where
  | notifyIdle (at_ : world.phase = .notifyIdle) :
    ClosingStep world
      (world.notifyStep world.toHttpRequestManager.takeIdleWaiters .idle)
  | notifyAll (at_ : world.phase = .notifyAll) :
    ClosingStep world
      (world.notifyStep world.toHttpRequestManager.takeAllWaiters .idle)
  | cleanup (at_ : world.phase = .cleanupPending) :
    ClosingStep world world.cleanupPendingStep
  | clear (at_ : world.phase = .clearBatches) :
    ClosingStep world world.clearBatchesStep

/-- The first call of the agenda is made. -/
inductive AgendaStep (world : World) : World → Prop where
  | finalCallback {token response rest}
    (agenda : world.agenda = .invokeFinalCallback token response :: rest) :
    AgendaStep world { world with
      agenda := .complete token :: rest, log := world.log ++ [.response token response] }
  | completeAgain {token rest} (agenda : world.agenda = .complete token :: rest)
    (claimed : (world.contexts token).completeCalled = true) :
    AgendaStep world { world with agenda := rest }
  | complete {token rest} (agenda : world.agenda = .complete token :: rest)
    (unclaimed : (world.contexts token).completeCalled = false) :
    AgendaStep world { world with
      contexts := Function.update world.contexts token
        { world.contexts token with completeCalled := true }
      rateLimiter := ((world.contexts token).onComplete.map
        (·.release world.rateLimiter)).getD world.rateLimiter
      agenda := .onGroupComplete token :: rest
      log := world.log ++ [.completing token] }
  | settle {token rest} (agenda : world.agenda = .onGroupComplete token :: rest)
    (noGroup : (world.contexts token).onGroupComplete = none) :
    AgendaStep world { world with
      agenda := rest, log := world.log ++ [.completed token] }
  | settleGroup {token group rest} (agenda : world.agenda = .onGroupComplete token :: rest)
    (captured : (world.contexts token).onGroupComplete = some group) :
    AgendaStep world { world with
      toHttpRequestManager := (world.toHttpRequestManager.completeGroupRequest group).2
      agenda := (world.toHttpRequestManager.completeGroupRequest group).1.map .notifyWaiter ++ rest
      log := world.log ++ [.completed token] }
  | notifyWaiter {waiter rest} (agenda : world.agenda = .notifyWaiter waiter :: rest) :
    AgendaStep world { world with
      agenda := rest, log := world.log ++ waiter.callback.toList.map .waiterInvoked }
  | invokeCancel {callback rest} (agenda : world.agenda = .invokeCancel callback :: rest) :
    AgendaStep world { world with
      agenda := rest, log := world.log ++ callback.toList.map .cancelInvoked }
  | handlerAnswered {call handler rest} (agenda : world.agenda = call :: rest)
    (handled : call = .destroyHandler handler ∨ call = .cancelHandler handler)
    (answered : handler.unanswered = none) :
    AgendaStep world { world with agenda := rest }
  | destroyHandler {handler token response rest}
    (agenda : world.agenda = .destroyHandler handler :: rest)
    (unanswered : handler.unanswered = some (token, response)) :
    AgendaStep world { world with
      agenda := .invokeFinalCallback token (response.closed .abortedDuringDestruction) :: rest }
  | cancelHandler {handler token response rest}
    (agenda : world.agenda = .cancelHandler handler :: rest)
    (unanswered : handler.unanswered = some (token, response)) :
    AgendaStep world { world with
      agenda := .invokeFinalCallback token (response.closed .cancelledByUser) :: rest }
  | discard {token rest} (agenda : world.agenda = .discard token :: rest) :
    AgendaStep world { world with
      agenda := rest, log := world.log ++ [.abandoned token] }

/-- A step of a thread other than the worker. -/
inductive CallerStep (world : World) : Action → World → Prop where
  | submit {request callback} (unlocked : world.locked = false)
    (held : (request.map HttpRequest.handles).getD [] ⊆ world.userHandles) :
    CallerStep world (.submitRequest request callback) (world.submit request callback)
  | setMaxPending {limit} :
    CallerStep world (.setMaxPendingRequests limit) { world with maxPendingRequests := limit }
  | waitNow {group given} (unlocked : world.locked = false)
    (idle : world.toHttpRequestManager.registerWaiter group (world.freshCallback given) = none) :
    CallerStep world (.waitRequests group given) { world with
      nextCall := world.nextCall + 1
      callers := world.callers ++ (world.freshCallback given).toList.map Caller.waitInvoke
      log := world.log ++ (world.freshCallback given).toList.map (Event.waitCalled · group) }
  | waitRegister {group given manager} (unlocked : world.locked = false)
    (registered : world.toHttpRequestManager.registerWaiter group (world.freshCallback given) =
      some manager) :
    CallerStep world (.waitRequests group given) { world with
      toHttpRequestManager := manager
      nextCall := world.nextCall + 1
      log := world.log ++ (world.freshCallback given).toList.map (Event.waitCalled · group) }
  | cancelWaitMissed {group waiterId} : CallerStep world (.cancelWait group waiterId) world
  | cancelWait {group waiterId waiter manager} (unlocked : world.locked = false)
    (removed : world.toHttpRequestManager.cancelWait group waiterId = some (waiter, manager)) :
    CallerStep world (.cancelWait group waiterId) { world with
      toHttpRequestManager := manager
      log := world.log ++ waiter.callback.toList.map .waitCancelled }
  | cancelById {requestId given} : CallerStep world (.cancelById requestId given)
      (world.callCancel requestId given (.insertById requestId))
  | cancelByGroup {group given} : CallerStep world (.cancelByGroup group given)
      (world.callCancel group given (.insertByGroup group))
  | callerWaits {position call}
    (found : world.callers[position]? = some (.waitInvoke call)) :
    CallerStep world (.continueCaller position) { world with
      callers := world.callers.eraseIdx position
      log := world.log ++ [.waiterInvoked call] }
  | callerCancels {position call}
    (found : world.callers[position]? = some (.cancelInvoke call)) :
    CallerStep world (.continueCaller position) { world with
      callers := world.callers.eraseIdx position
      log := world.log ++ [.cancelInvoked call] }
  | insertById {position requestId callback} (unlocked : world.locked = false)
    (found : world.callers[position]? = some (.insertById requestId callback)) :
    CallerStep world (.continueCaller position) { world with
      toHttpRequestManager := world.toHttpRequestManager.queueCancelById requestId callback
      callers := world.callers.eraseIdx position }
  | insertByGroup {position group callback manager} (unlocked : world.locked = false)
    (found : world.callers[position]? = some (.insertByGroup group callback))
    (queued : world.toHttpRequestManager.queueCancelByGroup group callback = some manager) :
    CallerStep world (.continueCaller position) { world with
      toHttpRequestManager := manager
      callers := world.callers.eraseIdx position }
  | groupIdle {position group callback} (unlocked : world.locked = false)
    (found : world.callers[position]? = some (.insertByGroup group callback))
    (idle : world.toHttpRequestManager.queueCancelByGroup group callback = none) :
    CallerStep world (.continueCaller position) { world with
      callers := world.callers.eraseIdx position ++ callback.toList.map Caller.cancelInvoke }
  | newClient {maxInFlight} : CallerStep world (.newClient maxInFlight) { world with
      groupIdCounter := world.groupIdCounter + 1
      clients := world.clients ++ [{ groupId := world.groupIdCounter, maxInFlight }] }
  | clientRejected {index request callback} :
    CallerStep world (.clientSubmit index request callback) world
  | clientBegins {index request callback client} (found : world.clients[index]? = some client)
    (free : client.submitting = false) (held : request.handles ⊆ world.userHandles)
    (below : client.maxInFlight ≠ 0 →
      world.toHttpRequestManager.groupRequestCount client.groupId < client.maxInFlight) :
    CallerStep world (.clientSubmit index request callback) { world with
      clients := world.clients.set index { client with submitting := true }
      callers := world.callers ++ [.submitting index request callback] }
  | clientSubmits {position client request callback} (unlocked : world.locked = false)
    (found : world.callers[position]? = some (.submitting client request callback)) :
    CallerStep world (.continueCaller position)
      ({ world with callers := world.callers.eraseIdx position }.finishClientSubmit client request
        callback)

/-- What one step can do. -/
inductive Transition (world : World) : Action → World → Prop where
  | jump {action phase clock} (agenda : world.agenda = []) (jump : Jump world action phase) :
    Transition world action { world with phase, clock }
  | pending {input after} (agenda : world.agenda = []) (step : PendingStep world input after) :
    Transition world (.work input) after
  | active {input after} (agenda : world.agenda = []) (step : ActiveStep world input after) :
    Transition world (.work input) after
  | cancel {after} (agenda : world.agenda = []) (step : CancelStep world after) :
    Transition world (.work .proceed) after
  | closing {after} (agenda : world.agenda = []) (step : ClosingStep world after) :
    Transition world (.work .proceed) after
  | agenda {after} (step : AgendaStep world after) : Transition world (.work .proceed) after
  | shutdown (agenda : world.agenda = []) (at_ : world.phase = .idle)
    (running : world.shutdown = false) :
    Transition world .callShutdown { world with
      shutdown := true, phase := .cleanupPending, log := world.log ++ [.shutdownBegan] }
  | caller {action after} (step : CallerStep world action after) : Transition world action after
  | handles {action after} (step : HandleStep world action after) : Transition world action after

variable {world next : World} {action : Action}

/-! ### The statements of the worker -/

theorem pendingStep_transition {index : ℕ} {ready failed : List Token} {now : TimePoint}
    (agenda : world.agenda = []) (at_ : world.phase = .pendingLoop index ready failed) :
    Transition world (.work (.time now))
      ({ world with clock := now }.pendingStep index ready failed now) := by
  unfold World.pendingStep
  dsimp only
  split
  · rename_i absent
    exact .pending agenda (.scanned at_ absent)
  · rename_i token found
    split
    · rename_i carried
      exact .pending agenda (.badRequest at_ found carried)
    · rename_i request carried
      split
      · rename_i allowed
        exact .pending agenda (.dispatch at_ found carried allowed)
      · rename_i answer
        rw [Bool.not_eq_true] at answer
        rw [allow_snd_of_refused answer]
        exact .jump agenda (.refused at_ found carried answer)

theorem writeStep_transition {index position : ℕ} {data : List UInt8} {status : ℤ}
    (agenda : world.agenda = []) (at_ : world.phase = .perform index)
    (stepped : world.writeStep index position data status = some next) :
    Transition world (.work (.write position data status)) next := by
  unfold World.writeStep at stepped
  split at stepped
  · exact absurd stepped (by simp)
  · rename_i batch found
    split at stepped
    · exact absurd stepped (by simp)
    · rename_i handler foundHandler
      split at stepped
      · rename_i running
        cases chunk : handler.requestContext.bind fun token =>
            (streamChunk (world.contexts token) data status).map (Event.response token) with
        | none =>
          simp only [chunk, Option.some.injEq] at stepped
          rw [← stepped]
          exact .active agenda (.write at_ found foundHandler chunk)
        | some event =>
          simp only [chunk, Option.some.injEq] at stepped
          obtain ⟨token, context, mapped⟩ := Option.bind_eq_some_iff.mp chunk
          obtain ⟨response, emitted, rfl⟩ := Option.map_eq_some_iff.mp mapped
          rw [← stepped]
          exact .active agenda (.stream at_ found foundHandler running context emitted)
      · exact absurd stepped (by simp)

theorem readMessageStep_transition {index position : ℕ} {stillRunning : Bool}
    {message : CurlMessage} {now : TimePoint} (agenda : world.agenda = [])
    (at_ : world.phase = .readMessages index stillRunning)
    (stepped : { world with clock := now }.readMessageStep index position message now =
      some next) :
    Transition world (.work (.message position message now)) next := by
  unfold World.readMessageStep at stepped
  dsimp only at stepped
  split at stepped
  · exact absurd stepped (by simp)
  · rename_i batch found
    split at stepped
    · exact absurd stepped (by simp)
    · rename_i handler foundHandler
      split at stepped
      · rename_i running
        split at stepped
        · rw [Option.some.injEq] at stepped
          rw [← stepped]
          exact .active agenda (.ignoreMessage at_ found foundHandler)
        · rename_i response kept
          obtain ⟨token, context, mapped⟩ := Option.bind_eq_some_iff.mp stepped
          obtain ⟨request, carried, rfl⟩ := Option.map_eq_some_iff.mp mapped
          unfold World.messageStep
          dsimp only
          split
          · rename_i again
            exact .active agenda (.retry at_ found foundHandler running context carried kept again)
          · rename_i last
            rw [Bool.not_eq_true] at last
            exact .active agenda (.finish at_ found foundHandler running context carried kept last)
      · exact absurd stepped (by simp)

theorem retryStep_transition {index : ℕ} {now : TimePoint} (agenda : world.agenda = [])
    (at_ : world.phase = .retryLoop index) :
    Transition world (.work (.time now)) ({ world with clock := now }.retryStep index now) := by
  unfold World.retryStep
  dsimp only
  split
  · rename_i absent
    exact .jump agenda (.retryDone at_ absent)
  · rename_i token found
    split
    · rename_i carried
      exact .active agenda (.dropFailed at_ found carried)
    · split
      · exact .active agenda (.requeue at_ found)
      · exact .jump agenda (.retryLater at_)

theorem processCancelStep_transition {mode : CancelMode} (agenda : world.agenda = [])
    (at_ : world.phase = .processCancel mode) :
    Transition world (.work .proceed) (world.processCancelStep mode) := by
  unfold World.processCancelStep
  dsimp only
  split
  · rename_i empty
    rw [Bool.and_eq_true] at empty
    exact .jump agenda (.nothingToCancel at_ empty.1 empty.2)
  · rename_i queued
    rw [Bool.and_eq_true] at queued
    exact .cancel agenda (.takeCancels at_ queued)

theorem cancelFailedStep_transition {ids groups : CancelMap} {index : ℕ} {mode : CancelMode}
    (agenda : world.agenda = []) (at_ : world.phase = .cancelFailed ids groups index mode) :
    Transition world (.work .proceed) (world.cancelFailedStep ids groups index mode) := by
  unfold World.cancelFailedStep
  split
  · rename_i absent
    exact .jump agenda (.failedScanned at_ absent)
  · rename_i token found
    split
    · rename_i hit
      exact .cancel agenda (.cancelFailed at_ found hit)
    · rename_i kept
      rw [Bool.not_eq_true] at kept
      exact .jump agenda (.failedKept at_ found kept)

theorem cancelBatchesStep_transition {ids groups : CancelMap} {index : ℕ} {mode : CancelMode}
    (agenda : world.agenda = []) (at_ : world.phase = .cancelBatches ids groups index mode) :
    Transition world (.work .proceed) (world.cancelBatchesStep ids groups index mode) := by
  unfold World.cancelBatchesStep
  split
  · rename_i absent
    exact .cancel agenda (.batchesScanned at_ absent)
  · rename_i batch found
    exact .cancel agenda (.cancelBatch at_ found)

theorem noMessageStep_transition {index : ℕ} {stillRunning : Bool} (agenda : world.agenda = [])
    (at_ : world.phase = .readMessages index stillRunning) :
    Transition world (.work .noMessage) (world.noMessageStep index stillRunning) := by
  unfold World.noMessageStep
  split
  · rename_i running
    subst running
    exact .jump agenda (.stillRunning at_)
  · rename_i finished
    rw [Bool.not_eq_true] at finished
    subst finished
    split
    · rename_i absent
      exact .jump agenda (.batchGone at_ absent)
    · rename_i batch found
      exact .active agenda (.destroyHandlers at_ found)

theorem activeStep_transition {index : ℕ} (agenda : world.agenda = [])
    (at_ : world.phase = .activeLoop index) :
    Transition world (.work .proceed) (world.activeStep index) := by
  unfold World.activeStep
  split
  · rename_i absent
    exact .jump agenda (.noBatch at_ absent)
  · rename_i batch found
    split
    · rename_i multi
      exact .jump agenda (.perform at_ found multi)
    · rename_i noMulti
      rw [Bool.not_eq_true] at noMulti
      exact .active agenda (.processNoMulti at_ found noMulti)

theorem extractFailedStep_transition {index : ℕ} (agenda : world.agenda = [])
    (at_ : world.phase = .extractFailed index) :
    Transition world (.work .proceed) (world.extractFailedStep index) := by
  unfold World.extractFailedStep
  split
  · rename_i absent
    exact .jump agenda (.nothingToExtract at_ absent)
  · rename_i batch found
    exact .active agenda (.extract at_ found)

theorem tick_eq_some {now : TimePoint} {ticked : World} (stepped : world.tick now = some ticked) :
    ticked = { world with clock := now } := by
  unfold World.tick at stepped
  split at stepped
  · exact (Option.some.inj stepped).symm
  · exact absurd stepped (by simp)

theorem statement_transition {input : World.Input} {phase : Phase} (agenda : world.agenda = [])
    (at_ : world.phase = phase) (stepped : world.statement phase input = some next) :
    Transition world (.work input) next := by
  unfold World.statement at stepped
  split at stepped
  · rw [Option.some.injEq] at stepped
    subst stepped
    split
    · rename_i empty
      exact .jump agenda (.skipScan at_ (List.isEmpty_iff.mp empty))
    · rename_i nonempty
      exact .jump agenda (.enterScan at_ fun empty => nonempty (List.isEmpty_iff.mpr empty))
  · obtain ⟨ticked, passed, rfl⟩ := Option.map_eq_some_iff.mp stepped
    rw [tick_eq_some passed]
    exact pendingStep_transition agenda at_
  · rw [Option.some.injEq] at stepped
    subst stepped
    unfold World.createBatchStep
    split
    · rename_i ok
      subst ok
      exact .jump agenda (.multiHandle at_)
    · rename_i failed
      rw [Bool.not_eq_true] at failed
      subst failed
      exact .pending agenda (.noMultiHandle at_)
  · rw [Option.some.injEq] at stepped
    subst stepped
    unfold World.buildBatchStep
    split
    · rename_i ok
      subst ok
      exact .pending agenda (.start at_)
    · rename_i failed
      rw [Bool.not_eq_true] at failed
      subst failed
      exact .pending agenda (.noEasyHandle at_)
  · rw [Option.some.injEq] at stepped
    subst stepped
    exact .pending agenda (.batchBuilt at_)
  · rw [Option.some.injEq] at stepped
    subst stepped
    exact activeStep_transition agenda at_
  · exact writeStep_transition agenda at_ stepped
  · rename_i index ok stillRunning
    rw [Option.some.injEq] at stepped
    subst stepped
    cases ok with
    | true => exact .jump agenda (.performed at_)
    | false => exact .jump agenda (.performFailed at_)
  · obtain ⟨ticked, passed, read⟩ := Option.bind_eq_some_iff.mp stepped
    rw [tick_eq_some passed] at read
    exact readMessageStep_transition agenda at_ read
  · rw [Option.some.injEq] at stepped
    subst stepped
    exact noMessageStep_transition agenda at_
  · rw [Option.some.injEq] at stepped
    subst stepped
    exact extractFailedStep_transition agenda at_
  · obtain ⟨ticked, passed, rfl⟩ := Option.map_eq_some_iff.mp stepped
    rw [tick_eq_some passed]
    exact retryStep_transition agenda at_
  · rw [Option.some.injEq] at stepped
    subst stepped
    exact processCancelStep_transition agenda at_
  · rw [Option.some.injEq] at stepped
    subst stepped
    exact cancelFailedStep_transition agenda at_
  · rw [Option.some.injEq] at stepped
    subst stepped
    exact cancelBatchesStep_transition agenda at_
  · rw [Option.some.injEq] at stepped
    subst stepped
    exact .closing agenda (.notifyIdle at_)
  · rw [Option.some.injEq] at stepped
    subst stepped
    exact .closing agenda (.notifyAll at_)
  · rw [Option.some.injEq] at stepped
    subst stepped
    exact .closing agenda (.cleanup at_)
  · rw [Option.some.injEq] at stepped
    subst stepped
    exact .closing agenda (.clear at_)
  · exact absurd stepped (by simp)

/-! ### The agenda -/

theorem makeCall_transition {call : Call} {rest : List Call}
    (agenda : world.agenda = call :: rest) :
    Transition world (.work .proceed) (world.makeCall rest call) := by
  cases call with
  | invokeFinalCallback token response => exact .agenda (.finalCallback agenda)
  | complete token =>
    unfold World.makeCall
    dsimp only
    split
    · rename_i claimed
      exact .agenda (.completeAgain agenda claimed)
    · rename_i unclaimed
      rw [Bool.not_eq_true] at unclaimed
      exact .agenda (.complete agenda unclaimed)
  | onGroupComplete token =>
    unfold World.makeCall
    dsimp only
    split
    · rename_i noGroup
      exact .agenda (.settle agenda noGroup)
    · rename_i group captured
      exact .agenda (.settleGroup agenda captured)
  | notifyWaiter waiter => exact .agenda (.notifyWaiter agenda)
  | invokeCancel callback => exact .agenda (.invokeCancel agenda)
  | destroyHandler handler =>
    unfold World.makeCall
    dsimp only
    split
    · rename_i answered
      exact .agenda (.handlerAnswered agenda (Or.inl rfl) answered)
    · rename_i token response unanswered
      exact .agenda (.destroyHandler agenda unanswered)
  | cancelHandler handler =>
    unfold World.makeCall
    dsimp only
    split
    · rename_i answered
      exact .agenda (.handlerAnswered agenda (Or.inr rfl) answered)
    · rename_i token response unanswered
      exact .agenda (.cancelHandler agenda unanswered)
  | discard token => exact .agenda (.discard agenda)

theorem work_transition {input : World.Input} (stepped : world.work input = some next) :
    Transition world (.work input) next := by
  unfold World.work at stepped
  split at stepped
  · rename_i agenda
    exact statement_transition agenda rfl stepped
  · rename_i call rest agenda
    split at stepped
    · rename_i proceed
      rw [Option.some.injEq] at stepped
      subst proceed stepped
      exact makeCall_transition agenda
    · exact absurd stepped (by simp)

/-! ### The callers -/

theorem callProcess_transition (stepped : world.callProcess = some next) :
    Transition world .callProcess next := by
  unfold World.callProcess at stepped
  split at stepped
  · rename_i at_ agenda
    rw [Option.some.injEq] at stepped
    subst stepped
    cases stopped : world.shutdown with
    | false => exact .jump agenda (.process at_ stopped)
    | true => exact .jump agenda (.processAfterShutdown at_ stopped)
  · exact absurd stepped (by simp)

theorem callShutdown_transition (stepped : world.callShutdown = some next) :
    Transition world .callShutdown next := by
  unfold World.callShutdown at stepped
  split at stepped
  · rename_i at_ agenda
    split at stepped
    · rename_i stopped
      rw [Option.some.injEq] at stepped
      subst stepped
      exact .jump agenda (.shutdownAgain at_ stopped)
    · rename_i running
      rw [Bool.not_eq_true] at running
      rw [Option.some.injEq] at stepped
      subst stepped
      exact .shutdown agenda at_ running
  · exact absurd stepped (by simp)

/-- A submission is rejected and the handles of the request are destroyed, or the request is
queued and counted. -/
theorem submit_cases (world : World) (request : Option HttpRequest) (callback : Bool) :
    world.submit request callback =
        world.dropHandles ((request.map HttpRequest.handles).getD []) ∨
      (world.shutdown = false ∧ world.submit request callback = { world with
        groupRequestCounts := (world.toHttpRequestManager.countGroupRequest
          ((request.map HttpRequest.groupId).getD 0)).groupRequestCounts
        nextInFlightToken := world.nextInFlightToken + 1
        pendingRequests := world.pendingRequests ++ [world.nextInFlightToken]
        contexts := Function.update world.contexts world.nextInFlightToken
          (HttpRequestContext.admitted request callback)
        live := world.nextInFlightToken :: world.live
        log := world.log ++ [.accepted world.nextInFlightToken] }) := by
  unfold World.submit
  split
  · exact Or.inl rfl
  · rename_i token manager accepted
    obtain ⟨running, rfl, rfl⟩ := HttpRequestManager.submitRequest_eq_ok accepted
    obtain ⟨counts, same⟩ := HttpRequestManager.countGroupRequest_frame
      world.toHttpRequestManager ((request.map HttpRequest.groupId).getD 0)
    rw [same]
    exact Or.inr ⟨running, rfl⟩

theorem callWait_transition {group : ℕ} {given : Bool}
    (stepped : world.callWait group given = some next) :
    Transition world (.waitRequests group given) next := by
  unfold World.callWait at stepped
  split at stepped
  · exact absurd stepped (by simp)
  · rename_i unlocked
    rw [Bool.not_eq_true] at unlocked
    dsimp only at stepped
    split at stepped
    · rename_i idle
      rw [Option.some.injEq] at stepped
      subst stepped
      exact .caller (.waitNow unlocked idle)
    · rename_i manager registered
      rw [Option.some.injEq] at stepped
      subst stepped
      exact .caller (.waitRegister unlocked registered)

theorem callCancelWait_transition {group waiterId : ℕ}
    (stepped : world.callCancelWait group waiterId = some next) :
    Transition world (.cancelWait group waiterId) next := by
  unfold World.callCancelWait at stepped
  split at stepped
  · exact absurd stepped (by simp)
  · rename_i unlocked
    rw [Bool.not_eq_true] at unlocked
    split at stepped
    · rw [Option.some.injEq] at stepped
      subst stepped
      exact .caller .cancelWaitMissed
    · rename_i waiter manager removed
      rw [Option.some.injEq] at stepped
      subst stepped
      exact .caller (.cancelWait unlocked removed)

theorem callClientSubmit_transition {index : ℕ} {request : HttpRequest} {callback : Bool}
    (stepped : world.callClientSubmit index request callback = some next) :
    Transition world (.clientSubmit index request callback) next := by
  unfold World.callClientSubmit at stepped
  split at stepped
  · exact absurd stepped (by simp)
  · rename_i client found
    split at stepped
    · exact absurd stepped (by simp)
    · rename_i free
      rw [not_or, not_or, not_not, Bool.not_eq_true] at free
      split at stepped
      · rw [Option.some.injEq] at stepped
        subst stepped
        exact .caller .clientRejected
      · rename_i below
        rw [Option.some.injEq] at stepped
        subst stepped
        refine .caller (.clientBegins found free.1 free.2.2 fun capped => ?_)
        exact Nat.lt_of_not_le fun full => below ⟨capped, full⟩

theorem continueCaller_transition {position : ℕ}
    (stepped : world.continueCaller position = some next) :
    Transition world (.continueCaller position) next := by
  unfold World.continueCaller at stepped
  split at stepped
  · exact absurd stepped (by simp)
  · rename_i caller found
    cases caller with
    | waitInvoke call =>
      rw [← Option.some.inj stepped]
      exact .caller (.callerWaits found)
    | cancelInvoke call =>
      rw [← Option.some.inj stepped]
      exact .caller (.callerCancels found)
    | insertById requestId callback =>
      dsimp only at stepped
      split at stepped
      · exact absurd stepped (by simp)
      · rename_i unlocked
        rw [Bool.not_eq_true] at unlocked
        rw [← Option.some.inj stepped]
        exact .caller (.insertById unlocked found)
    | insertByGroup group callback =>
      dsimp only at stepped
      split at stepped
      · exact absurd stepped (by simp)
      · rename_i unlocked
        rw [Bool.not_eq_true] at unlocked
        split at stepped
        · rename_i idle
          rw [← Option.some.inj stepped]
          exact .caller (.groupIdle unlocked found idle)
        · rename_i manager queued
          rw [← Option.some.inj stepped]
          exact .caller (.insertByGroup unlocked found queued)
    | submitting client request callback =>
      dsimp only at stepped
      split at stepped
      · exact absurd stepped (by simp)
      · rename_i unlocked
        rw [Bool.not_eq_true] at unlocked
        rw [← Option.some.inj stepped]
        exact .caller (.clientSubmits unlocked found)

/-- What a step about handles leaves alone. -/
theorem HandleStep.frame (step : HandleStep world action next) :
    ∃ limiter handles live clock, next = { world with
      rateLimiter := limiter, userHandles := handles, live := live, clock := clock } := by
  cases step with
  | remove =>
    unfold World.removeRateLimit
    dsimp only
    split <;> exact ⟨_, _, _, _, rfl⟩
  | _ => exact ⟨_, _, _, _, rfl⟩

theorem handleStep_of_step (stepped : world.step action = some next)
    (concerns : (∃ id, action = .copyUserHandle id ∨ action = .dropUserHandle id) ∨
      (∃ call, (∃ now, action = .allowRequest call now) ∨ action = .releaseRequest call) ∨
      ∃ token, action = .destroyContext token) :
    HandleStep world action next := by
  rcases concerns with ⟨id, rfl | rfl⟩ | ⟨call, ⟨now, rfl⟩ | rfl⟩ | ⟨token, rfl⟩
  · simp only [World.step, World.copyUserHandle] at stepped
    split at stepped
    · rename_i held
      rw [← Option.some.inj stepped]
      exact .copy held
    · exact absurd stepped (by simp)
  · simp only [World.step, World.dropUserHandle] at stepped
    split at stepped
    · rename_i held
      rw [← Option.some.inj stepped]
      exact .drop held
    · exact absurd stepped (by simp)
  · simp only [World.step, World.allowRequest] at stepped
    split at stepped
    · rename_i held
      obtain ⟨ticked, passed, rfl⟩ := Option.map_eq_some_iff.mp stepped
      rw [tick_eq_some passed]
      exact .allow held
    · exact absurd stepped (by simp)
  · simp only [World.step, World.releaseRequest] at stepped
    split at stepped
    · rename_i held
      rw [← Option.some.inj stepped]
      exact .release held
    · exact absurd stepped (by simp)
  · simp only [World.step, World.destroyContext] at stepped
    split at stepped
    · rename_i free
      rw [← Option.some.inj stepped]
      exact .destroy free.1 free.2
    · exact absurd stepped (by simp)

/-- Every step is one of the transitions. -/
theorem step_transition (stepped : managerSystem.step world action = some next) :
    Transition world action next := by
  change world.step action = some next at stepped
  cases action with
  | callProcess => exact callProcess_transition stepped
  | callShutdown => exact callShutdown_transition stepped
  | work input => exact work_transition stepped
  | submitRequest request callback =>
    simp only [World.step] at stepped
    split at stepped
    · exact absurd stepped (by simp)
    · rename_i free
      rw [not_or, not_not, Bool.not_eq_true] at free
      rw [← Option.some.inj stepped]
      exact .caller (.submit free.1 free.2)
  | setMaxPendingRequests limit =>
    rw [← Option.some.inj stepped]
    exact .caller .setMaxPending
  | waitRequests group given => exact callWait_transition stepped
  | cancelWait group waiterId => exact callCancelWait_transition stepped
  | cancelById requestId given =>
    rw [← Option.some.inj stepped]
    exact .caller .cancelById
  | cancelByGroup group given =>
    rw [← Option.some.inj stepped]
    exact .caller .cancelByGroup
  | continueCaller position => exact continueCaller_transition stepped
  | newClient maxInFlight =>
    rw [← Option.some.inj stepped]
    exact .caller .newClient
  | clientSubmit index request callback => exact callClientSubmit_transition stepped
  | createRateLimit requestsPerPeriod periodMs sequential =>
    rw [← Option.some.inj stepped]
    exact .handles .create
  | getRateLimit id =>
    rw [← Option.some.inj stepped]
    exact .handles .get
  | removeRateLimit id =>
    rw [← Option.some.inj stepped]
    exact .handles .remove
  | copyUserHandle id => exact .handles (handleStep_of_step stepped (Or.inl ⟨id, Or.inl rfl⟩))
  | dropUserHandle id => exact .handles (handleStep_of_step stepped (Or.inl ⟨id, Or.inr rfl⟩))
  | allowRequest call now =>
    exact .handles (handleStep_of_step stepped (Or.inr (Or.inl ⟨call, Or.inl ⟨now, rfl⟩⟩)))
  | releaseRequest call =>
    exact .handles (handleStep_of_step stepped (Or.inr (Or.inl ⟨call, Or.inr rfl⟩)))
  | destroyContext token =>
    exact .handles (handleStep_of_step stepped (Or.inr (Or.inr ⟨token, rfl⟩)))

end Kurlyk.Http
