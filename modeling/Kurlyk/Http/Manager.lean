/-
This file models the members of `HttpRequestManager` and its sections that run
under `m_mutex`. Each function below is the body of one such section: it reads
and writes the manager's members only, and callbacks that the source invokes
after it has released the mutex are returned to the caller.

The order in which an `unordered_map` is traversed is unspecified, and nothing
in this development depends on it.
-/

import Kurlyk.Http.Request

namespace Kurlyk.Http

open RateLimiter

/-- The name of the callback given to one wait or cancel call. -/
abbrev CallId := ℕ

/-- `GroupWaiter`. An empty `std::function` is `none`. -/
structure GroupWaiter where
  id : ℕ
  callback : Option CallId
deriving DecidableEq

/-- `cancel_map_t`: the callbacks to run for each cancelled identifier. -/
abbrev CancelMap := Table ℕ (List (Option CallId))

/-- `HttpBatchRequestHandler`: the handlers that share one multi handle, and the contexts of
this batch that wait for a retry until the whole batch is finished. The constructor makes no
handler when libcurl gives no multi handle. -/
structure HttpBatchRequestHandler where
  multiHandle : Bool
  handlers : List HttpRequestHandler := []
  failedRequests : List Token := []
  bare : multiHandle = false → handlers = [] := by simp
deriving DecidableEq

namespace HttpBatchRequestHandler

variable (batch : HttpBatchRequestHandler)

/-- One handler is replaced. -/
def setHandler (position : ℕ) (handler : HttpRequestHandler) : HttpBatchRequestHandler :=
  { batch with
    handlers := batch.handlers.set position handler
    bare := fun absent => by rw [batch.bare absent, List.set_nil] }

/-- `m_handlers.clear()`. -/
def clearHandlers : HttpBatchRequestHandler :=
  { batch with handlers := [], bare := fun _ => rfl }

/-- Some handlers are erased. -/
def filterHandlers (keep : HttpRequestHandler → Bool) : HttpBatchRequestHandler :=
  { batch with
    handlers := batch.handlers.filter keep
    bare := fun absent => by rw [batch.bare absent, List.filter_nil] }

/-- `m_failed_requests.push_back(context)`. -/
def addFailed (token : Token) : HttpBatchRequestHandler :=
  { batch with failedRequests := batch.failedRequests ++ [token] }

end HttpBatchRequestHandler

/-- The members of `HttpRequestManager`. Contexts are referred to by their tokens. -/
structure HttpRequestManager where
  pendingRequests : List Token := []
  failedRequests : List Token := []
  activeRequestBatches : List HttpBatchRequestHandler := []
  requestsToCancelById : CancelMap := ∅
  groupsToCancel : CancelMap := ∅
  groupWaiters : Table ℕ (List GroupWaiter) := ∅
  groupRequestCounts : Table ℕ ℕ := ∅
  rateLimiter : HttpRateLimiter := {}
  nextInFlightToken : Token := 1
  groupIdCounter : ℕ := 1
  waiterIdCounter : ℕ := 1
  shutdown : Bool := false
  maxPendingRequests : ℕ := 0

namespace HttpRequestManager

variable (manager : HttpRequestManager)

/-- `group_request_count_unlocked`. -/
def groupRequestCount (group : ℕ) : ℕ :=
  if group = 0 then 0 else (manager.groupRequestCounts.lookup group).getD 0

/-- `++m_group_request_counts[group_id]`, which is skipped for the group zero. -/
def countGroupRequest (group : ℕ) : HttpRequestManager :=
  if group ≠ 0 then
    { manager with
      groupRequestCounts := manager.groupRequestCounts.insert group
        ((manager.groupRequestCounts.lookup group).getD 0 + 1) }
  else manager

/-- `submit_request`: why the request is rejected, or its token and the manager that has
queued it. -/
def submitRequest (request : Option HttpRequest) :
    Except ClientError (Token × HttpRequestManager) :=
  if manager.shutdown then .error .shuttingDown
  else if manager.maxPendingRequests ≠ 0 ∧
      manager.pendingRequests.length ≥ manager.maxPendingRequests then
    .error .queueLimitExceeded
  else
    let token := manager.nextInFlightToken
    let counted := manager.countGroupRequest ((request.map HttpRequest.groupId).getD 0)
    .ok (token, { counted with
      nextInFlightToken := token + 1
      pendingRequests := counted.pendingRequests ++ [token] })

/-- The section of `wait_requests_by_group_id`: the manager with the waiter registered, or
`none` when the callback is to be invoked now. -/
def registerWaiter (group : ℕ) (callback : Option CallId) : Option HttpRequestManager :=
  if manager.shutdown ∨ group = 0 ∨ manager.groupRequestCount group = 0 then none
  else
    let waiters := (manager.groupWaiters.lookup group).getD []
    some { manager with
      waiterIdCounter := manager.waiterIdCounter + 1
      groupWaiters := manager.groupWaiters.insert group
        (waiters ++ [⟨manager.waiterIdCounter, callback⟩]) }

/-- `cancel_wait_requests_by_group_id`: the waiter it removed, if any. -/
def cancelWait (group waiterId : ℕ) : Option (GroupWaiter × HttpRequestManager) :=
  if group = 0 ∨ waiterId = 0 then none
  else
    match manager.groupWaiters.lookup group with
    | none => none
    | some waiters =>
      match waiters.find? (·.id = waiterId) with
      | none => none
      | some waiter =>
        let left := waiters.eraseP (·.id = waiterId)
        some (waiter, { manager with
          groupWaiters :=
            if left.isEmpty then manager.groupWaiters.erase group
            else manager.groupWaiters.insert group left })

/-- The section of `notify_group_waiters_if_idle`: the waiters of idle groups are taken out. -/
def takeIdleWaiters : List GroupWaiter × HttpRequestManager :=
  let idle := manager.groupWaiters.sweep fun group waiters =>
    if manager.groupRequestCount group = 0 then some waiters else none
  let busy := manager.groupWaiters.sweep fun group waiters =>
    if manager.groupRequestCount group = 0 then none else some waiters
  (idle.contents, { manager with groupWaiters := busy })

/-- The section of `notify_all_group_waiters`. -/
def takeAllWaiters : List GroupWaiter × HttpRequestManager :=
  (manager.groupWaiters.contents, { manager with groupWaiters := ∅ })

/-- The section of `complete_group_request`: the last request of a group takes its waiters
out. -/
def completeGroupRequest (group : ℕ) : List GroupWaiter × HttpRequestManager :=
  if group = 0 then ([], manager)
  else
    match manager.groupRequestCounts.lookup group with
    | none => ([], manager)
    | some count =>
      if count > 1 then
        ([], { manager with
          groupRequestCounts := manager.groupRequestCounts.insert group (count - 1) })
      else
        ((manager.groupWaiters.lookup group).getD [], { manager with
          groupRequestCounts := manager.groupRequestCounts.erase group
          groupWaiters := manager.groupWaiters.erase group })

/-- `m_requests_to_cancel_by_id[request_id].push_back(callback)`. -/
def queueCancelById (requestId : ℕ) (callback : Option CallId) : HttpRequestManager :=
  { manager with
    requestsToCancelById := manager.requestsToCancelById.insert requestId
      ((manager.requestsToCancelById.lookup requestId).getD [] ++ [callback]) }

/-- The section of `cancel_requests_by_group_id`: the manager with the cancellation queued, or
`none` when the group is idle and the callback is to be invoked now. -/
def queueCancelByGroup (group : ℕ) (callback : Option CallId) : Option HttpRequestManager :=
  if manager.groupRequestCount group = 0 then none
  else some { manager with
    groupsToCancel := manager.groupsToCancel.insert group
      ((manager.groupsToCancel.lookup group).getD [] ++ [callback]) }

/-- `is_loaded`. -/
def isLoaded : Bool :=
  !manager.pendingRequests.isEmpty || !manager.failedRequests.isEmpty ||
    !manager.activeRequestBatches.isEmpty || !manager.groupRequestCounts.isEmpty ||
    !manager.requestsToCancelById.isEmpty || !manager.groupsToCancel.isEmpty

/-! ### What the sections leave alone -/

variable {manager} {next : HttpRequestManager} {group : ℕ} {callback : Option CallId}

theorem registerWaiter_eq_some (registered : manager.registerWaiter group callback = some next) :
    (manager.shutdown = false ∧ group ≠ 0 ∧ manager.groupRequestCount group ≠ 0) ∧
      next = { manager with
        waiterIdCounter := manager.waiterIdCounter + 1
        groupWaiters := manager.groupWaiters.insert group
          ((manager.groupWaiters.lookup group).getD [] ++
            [⟨manager.waiterIdCounter, callback⟩]) } := by
  unfold registerWaiter at registered
  split at registered
  · exact absurd registered (by simp)
  · rename_i busy
    rw [not_or, not_or, Bool.not_eq_true] at busy
    exact ⟨busy, (Option.some.inj registered).symm⟩

theorem registerWaiter_eq_none (idle : manager.registerWaiter group callback = none) :
    manager.shutdown = true ∨ group = 0 ∨ manager.groupRequestCount group = 0 := by
  unfold registerWaiter at idle
  split at idle
  · rename_i now
    exact now
  · exact absurd idle (by simp)

theorem cancelWait_eq_some {waiterId : ℕ} {waiter : GroupWaiter}
    (removed : manager.cancelWait group waiterId = some (waiter, next)) :
    ∃ waiters, manager.groupWaiters.lookup group = some waiters ∧
      waiters.find? (·.id = waiterId) = some waiter ∧
      next = { manager with
        groupWaiters :=
          if (waiters.eraseP (·.id = waiterId)).isEmpty then manager.groupWaiters.erase group
          else manager.groupWaiters.insert group (waiters.eraseP (·.id = waiterId)) } := by
  unfold cancelWait at removed
  split at removed
  · exact absurd removed (by simp)
  · split at removed
    · exact absurd removed (by simp)
    · rename_i waiters present
      split at removed
      · exact absurd removed (by simp)
      · rename_i first found
        rw [Option.some.injEq, Prod.mk.injEq] at removed
        exact ⟨waiters, present, removed.1 ▸ found, removed.2.symm⟩

theorem queueCancelByGroup_eq_some
    (queued : manager.queueCancelByGroup group callback = some next) :
    next = { manager with
      groupsToCancel := manager.groupsToCancel.insert group
        ((manager.groupsToCancel.lookup group).getD [] ++ [callback]) } := by
  unfold queueCancelByGroup at queued
  split at queued
  · exact absurd queued (by simp)
  · exact (Option.some.inj queued).symm

theorem completeGroupRequest_frame (manager : HttpRequestManager) (group : ℕ) :
    ∃ counts waiters, (manager.completeGroupRequest group).2 =
      { manager with groupRequestCounts := counts, groupWaiters := waiters } := by
  unfold completeGroupRequest
  split
  · exact ⟨_, _, rfl⟩
  · split
    · exact ⟨_, _, rfl⟩
    · split
      · exact ⟨_, _, rfl⟩
      · exact ⟨_, _, rfl⟩

/-- What `complete_group_request` makes of the counters. -/
theorem lookup_completeGroupRequest {count : ℕ} (nonzero : group ≠ 0)
    (present : manager.groupRequestCounts.lookup group = some count) (other : ℕ) :
    (manager.completeGroupRequest group).2.groupRequestCounts.lookup other =
      if other = group then (if count > 1 then some (count - 1) else none)
      else manager.groupRequestCounts.lookup other := by
  unfold completeGroupRequest
  rw [if_neg nonzero, present]
  dsimp only
  split
  · exact Table.lookup_insert_eq _ _ _ _
  · exact Table.lookup_erase_eq _ _ _

/-- What an admission makes of the counters. -/
theorem lookup_countGroupRequest (manager : HttpRequestManager) (group other : ℕ) :
    (manager.countGroupRequest group).groupRequestCounts.lookup other =
      if group ≠ 0 ∧ other = group then
        some ((manager.groupRequestCounts.lookup group).getD 0 + 1)
      else manager.groupRequestCounts.lookup other := by
  unfold countGroupRequest
  by_cases zero : group = 0
  · rw [if_neg (not_not.mpr zero), if_neg fun both => both.1 zero]
  · rw [if_pos zero]
    dsimp only
    rw [Table.lookup_insert_eq]
    by_cases same : other = group
    · rw [if_pos same, if_pos ⟨zero, same⟩]
    · rw [if_neg same, if_neg fun both => same both.2]

theorem submitRequest_eq_ok {request : Option HttpRequest} {token : Token}
    (accepted : manager.submitRequest request = .ok (token, next)) :
    manager.shutdown = false ∧ token = manager.nextInFlightToken ∧
      next = { manager.countGroupRequest ((request.map HttpRequest.groupId).getD 0) with
        nextInFlightToken := manager.nextInFlightToken + 1
        pendingRequests := manager.pendingRequests ++ [manager.nextInFlightToken] } := by
  unfold submitRequest at accepted
  split at accepted
  · exact absurd accepted (by simp)
  · rename_i running
    rw [Bool.not_eq_true] at running
    split at accepted
    · exact absurd accepted (by simp)
    · rw [Except.ok.injEq, Prod.mk.injEq] at accepted
      refine ⟨running, accepted.1.symm, accepted.2.symm.trans ?_⟩
      unfold countGroupRequest
      split <;> rfl

theorem countGroupRequest_frame (manager : HttpRequestManager) (group : ℕ) :
    ∃ counts, manager.countGroupRequest group =
      { manager with groupRequestCounts := counts } := by
  unfold countGroupRequest
  split
  · exact ⟨_, rfl⟩
  · exact ⟨_, rfl⟩

end HttpRequestManager

/-- `matches_cancel` on the request a context carries, and the test of
`HttpBatchRequestHandler::cancel_requests` on the request of a handler's context. A context or
a request that is absent never matches. -/
def matchesCancel (request : Option HttpRequest) (ids groups : CancelMap) : Bool :=
  match request with
  | none => false
  | some request =>
    (decide (request.requestId ≠ 0) && (ids.lookup request.requestId).isSome) ||
      (decide (request.groupId ≠ 0) && (groups.lookup request.groupId).isSome)

end Kurlyk.Http
