/-
This file models the loops in which the library calls functions of its users
that may throw: the cancel callbacks and the group waiters of the HTTP manager,
the tasks of the worker and the send callbacks of a WebSocket client. Each loop
first moves its queue into a local container and then goes through it, so what
an exception keeps it from invoking is in no queue any more.

`HttpRequestContext` catches what its callbacks throw and goes on; the other
loops do not. They invoke everything they took exactly when nothing that throws
has a callback behind it.
-/

import Kurlyk.Http.Manager
import Kurlyk.WebSocket.Client
import Kurlyk.Lib.Dispatch

namespace Kurlyk.Core.Dispatch

open Http Outcome

/-! ### The loops of the source -/

/-- `invoke_cancel_callbacks`. -/
def invokeCancelCallbacks (throws : CallId → Bool) (requestsToCancel : CancelMap) :
    Outcome CallId :=
  forEach (fun request => forEach (callIfSet throws) request.2) requestsToCancel.entries

/-- The last statements of `process_cancel_requests`, on the two maps it has taken. -/
def processCancelRequests (throws : CallId → Bool) (requestsToCancel groupsToCancel : CancelMap) :
    Outcome CallId :=
  (invokeCancelCallbacks throws requestsToCancel).andThen
    (invokeCancelCallbacks throws groupsToCancel)

/-- The loop over waiters that a section has taken out, list by list. -/
def notifyWaiters (throws : CallId → Bool) (waiters : List GroupWaiter) : Outcome CallId :=
  forEach (fun waiter => callIfSet throws waiter.callback) waiters

/-- `complete_group_request`, with the manager its section leaves. -/
def completeGroupRequest (throws : CallId → Bool) (manager : HttpRequestManager) (group : ℕ) :
    Outcome CallId × HttpRequestManager :=
  let (readyWaiters, left) := manager.completeGroupRequest group
  (notifyWaiters throws readyWaiters, left)

/-- `notify_group_waiters_if_idle`. -/
def notifyGroupWaitersIfIdle (throws : CallId → Bool) (manager : HttpRequestManager) :
    Outcome CallId × HttpRequestManager :=
  let (readyWaiters, left) := manager.takeIdleWaiters
  (notifyWaiters throws readyWaiters, left)

/-- `notify_all_group_waiters`. -/
def notifyAllGroupWaiters (throws : CallId → Bool) (manager : HttpRequestManager) :
    Outcome CallId × HttpRequestManager :=
  let (waiters, left) := manager.takeAllWaiters
  (notifyWaiters throws waiters, left)

/-- `NetworkWorker::process_tasks`, with the list it leaves. A task is called without a test, and
calling an empty `std::function` throws `std::bad_function_call`. -/
def processTasks (throws : CallId → Bool) (tasksList : List (Option CallId)) :
    Outcome CallId × List (Option CallId) :=
  if tasksList.isEmpty then (done, tasksList) else (forEach (callAnyway throws) tasksList, [])

/-- `process_send_callback_queue`, with the client it leaves. Only sends that have a callback are
queued. -/
def processSendCallbackQueue (throws : CallId → Bool) (client : WebSocket.Client) :
    Outcome CallId × WebSocket.Client :=
  if client.sendCallbackQueue.isEmpty then (done, client)
  else
    (forEach (fun item => call throws item.2) client.sendCallbackQueue,
      { client with sendCallbackQueue := [] })

/-! ### The callbacks of a request -/

/-- The functions of an `HttpRequestContext`, and its flag `complete_called`. -/
structure ContextCallbacks where
  callback : Option CallId
  onComplete : Option CallId
  onGroupComplete : Option CallId
  completeCalled : Bool

/-- `invoke_callback`. -/
def ContextCallbacks.invokeCallback (throws : CallId → Bool) (context : ContextCallbacks) :
    Outcome CallId :=
  (callIfSet throws context.callback).caught

/-- `complete`. -/
def ContextCallbacks.complete (throws : CallId → Bool) (context : ContextCallbacks) :
    Outcome CallId :=
  if context.completeCalled then done
  else
    (callIfSet throws context.onComplete).caught.andThen
      (callIfSet throws context.onGroupComplete).caught

/-- `invoke_final_callback`. -/
def ContextCallbacks.invokeFinalCallback (throws : CallId → Bool) (context : ContextCallbacks) :
    Outcome CallId :=
  (context.invokeCallback throws).andThen (context.complete throws)

/-- The functions that `invoke_final_callback` has to call. -/
def ContextCallbacks.functions (context : ContextCallbacks) : List (Option CallId) :=
  if context.completeCalled then [context.callback]
  else [context.callback, context.onComplete, context.onGroupComplete]

theorem invokeFinalCallback_eq (throws : CallId → Bool) (context : ContextCallbacks) :
    context.invokeFinalCallback throws = ⟨context.functions.reduceOption, false⟩ := by
  obtain ⟨callback, onComplete, onGroupComplete, completeCalled⟩ := context
  cases completeCalled <;> cases callback <;> cases onComplete <;> cases onGroupComplete <;> rfl

/-- Whatever throws, a loop that answers requests calls every response and completion callback
of every request once. -/
theorem invokeFinalCallbacks_eq (throws : CallId → Bool) (contexts : List ContextCallbacks) :
    forEach (ContextCallbacks.invokeFinalCallback throws) contexts =
      ⟨contexts.flatMap fun context => context.functions.reduceOption, false⟩ := by
  have smooth : ∀ context ∈ contexts, (context.invokeFinalCallback throws).threw = false := by
    intro context _
    rw [invokeFinalCallback_eq]
  rw [forEach_of_not_threw smooth]
  simp only [invokeFinalCallback_eq]

/-! ### What a loop takes and what it invokes -/

/-- The loops that call functions of users, each with the queue it empties. -/
inductive Loop where
  | invokeCancelCallbacks (requestsToCancel : CancelMap)
  | processCancelRequests (requestsToCancel groupsToCancel : CancelMap)
  | completeGroupRequest (manager : HttpRequestManager) (group : ℕ)
  | notifyGroupWaitersIfIdle (manager : HttpRequestManager)
  | notifyAllGroupWaiters (manager : HttpRequestManager)
  | processTasks (tasksList : List (Option CallId))
  | processSendCallbackQueue (client : WebSocket.Client)

namespace Loop

/-- What the loop does when the given callbacks throw. -/
def run (throws : CallId → Bool) : Loop → Outcome CallId
  | .invokeCancelCallbacks requestsToCancel => Dispatch.invokeCancelCallbacks throws requestsToCancel
  | .processCancelRequests requestsToCancel groupsToCancel =>
    Dispatch.processCancelRequests throws requestsToCancel groupsToCancel
  | .completeGroupRequest manager group => (Dispatch.completeGroupRequest throws manager group).1
  | .notifyGroupWaitersIfIdle manager => (Dispatch.notifyGroupWaitersIfIdle throws manager).1
  | .notifyAllGroupWaiters manager => (Dispatch.notifyAllGroupWaiters throws manager).1
  | .processTasks tasksList => (Dispatch.processTasks throws tasksList).1
  | .processSendCallbackQueue client => (Dispatch.processSendCallbackQueue throws client).1

/-- The functions the loop takes from its queue, in the order in which it goes through them. -/
def taken : Loop → List (Option CallId)
  | .invokeCancelCallbacks requestsToCancel => requestsToCancel.contents
  | .processCancelRequests requestsToCancel groupsToCancel =>
    requestsToCancel.contents ++ groupsToCancel.contents
  | .completeGroupRequest manager group =>
    (manager.completeGroupRequest group).1.map GroupWaiter.callback
  | .notifyGroupWaitersIfIdle manager => manager.takeIdleWaiters.1.map GroupWaiter.callback
  | .notifyAllGroupWaiters manager => manager.takeAllWaiters.1.map GroupWaiter.callback
  | .processTasks tasksList => tasksList
  | .processSendCallbackQueue client => client.sendCallbackQueue.map fun item => some item.2

/-- Whether the loop tests a function before it calls it. -/
def tests : Loop → Bool
  | .processTasks _ => false
  | _ => true

/-- How the loop calls a function. -/
def body (throws : CallId → Bool) (loop : Loop) : Option CallId → Outcome CallId :=
  if loop.tests then callIfSet throws else callAnyway throws

/-- Whether calling the function throws in the loop. -/
def raises (throws : CallId → Bool) (loop : Loop) : Option CallId → Bool
  | none => !loop.tests
  | some callback => throws callback

theorem threw_body (throws : CallId → Bool) (loop : Loop) (function : Option CallId) :
    (loop.body throws function).threw = loop.raises throws function := by
  unfold body raises
  cases loop.tests <;> cases function <;> rfl

theorem invoked_body (throws : CallId → Bool) (loop : Loop) (function : Option CallId) :
    (loop.body throws function).invoked = function.toList := by
  unfold body
  split
  · exact invoked_callIfSet throws function
  · exact invoked_callAnyway throws function

/-- What is there to invoke among some functions. -/
theorem flatMap_invoked_body (throws : CallId → Bool) (loop : Loop)
    (functions : List (Option CallId)) :
    functions.flatMap (fun function => (loop.body throws function).invoked) =
      functions.reduceOption := by
  simp only [invoked_body]
  induction functions with
  | nil => rfl
  | cons function rest inductionHypothesis =>
    cases function <;> simp [inductionHypothesis]

theorem invokeCancelCallbacks_eq (throws : CallId → Bool) (requestsToCancel : CancelMap) :
    Dispatch.invokeCancelCallbacks throws requestsToCancel =
      forEach (callIfSet throws) requestsToCancel.contents := by
  unfold Dispatch.invokeCancelCallbacks Table.contents
  rw [forEach_forEach]

theorem notifyWaiters_eq (throws : CallId → Bool) (waiters : List GroupWaiter) :
    notifyWaiters throws waiters =
      forEach (callIfSet throws) (waiters.map GroupWaiter.callback) :=
  forEach_map (callIfSet throws) GroupWaiter.callback waiters

/-- The early returns for an empty queue change nothing. -/
theorem processTasks_fst (throws : CallId → Bool) (tasksList : List (Option CallId)) :
    (Dispatch.processTasks throws tasksList).1 = forEach (callAnyway throws) tasksList := by
  unfold Dispatch.processTasks
  split
  · rename_i empty
    rw [List.isEmpty_iff.mp empty]
    rfl
  · rfl

theorem processSendCallbackQueue_fst (throws : CallId → Bool) (client : WebSocket.Client) :
    (Dispatch.processSendCallbackQueue throws client).1 =
      forEach (fun item => call throws item.2) client.sendCallbackQueue := by
  unfold Dispatch.processSendCallbackQueue
  split
  · rename_i empty
    rw [List.isEmpty_iff.mp empty]
    rfl
  · rfl

/-- Every loop calls the functions it takes, one after the other. -/
theorem run_eq (throws : CallId → Bool) (loop : Loop) :
    loop.run throws = forEach (loop.body throws) loop.taken := by
  cases loop with
  | invokeCancelCallbacks requestsToCancel => exact invokeCancelCallbacks_eq throws requestsToCancel
  | processCancelRequests requestsToCancel groupsToCancel =>
    have both := forEach_append (callIfSet throws) requestsToCancel.contents groupsToCancel.contents
    rw [← invokeCancelCallbacks_eq, ← invokeCancelCallbacks_eq] at both
    exact both.symm
  | completeGroupRequest manager group => exact notifyWaiters_eq throws _
  | notifyGroupWaitersIfIdle manager => exact notifyWaiters_eq throws _
  | notifyAllGroupWaiters manager => exact notifyWaiters_eq throws _
  | processTasks tasksList => exact processTasks_fst throws tasksList
  | processSendCallbackQueue client =>
    change (Dispatch.processSendCallbackQueue throws client).1 = _
    rw [processSendCallbackQueue_fst]
    exact forEach_map (callIfSet throws) (fun item : WebSocket.ErrorCode × ℕ => some item.2)
      client.sendCallbackQueue

/-- When nothing throws, every loop invokes what it has taken, in order; the models in which
callbacks do not throw rest on that. -/
theorem run_of_smooth {throws : CallId → Bool} {loop : Loop}
    (smooth : ∀ function ∈ loop.taken, loop.raises throws function = false) :
    loop.run throws = ⟨loop.taken.reduceOption, false⟩ := by
  have unthrown : ∀ function ∈ loop.taken, (loop.body throws function).threw = false := by
    intro function member
    rw [threw_body]
    exact smooth function member
  rw [run_eq, forEach_of_not_threw unthrown, flatMap_invoked_body]

end Loop

/-- A loop invokes every callback it has taken exactly once if and only if no function whose call
throws has a callback behind it. -/
theorem loop_invokes_all_iff (throws : CallId → Bool) (loop : Loop) :
    (loop.run throws).invoked.Perm loop.taken.reduceOption ↔
      ∀ before function after, loop.taken = before ++ function :: after →
        loop.raises throws function = true → after.reduceOption = [] := by
  have law := invoked_forEach_perm_iff (loop.body throws) loop.taken
  rw [Loop.flatMap_invoked_body, ← Loop.run_eq] at law
  rw [law]
  simp only [Unhindered, Loop.threw_body, Loop.flatMap_invoked_body]

/-- Two waiters of a group whose last request completes. -/
def twoWaiters : HttpRequestManager where
  groupWaiters := AList.insert 7 [⟨1, some 1⟩, ⟨2, some 2⟩] ∅
  groupRequestCounts := AList.insert 7 1 ∅

/-- Each loop with the callbacks 1 and 2 in its queue. -/
def twoCallbacks : List Loop :=
  [.invokeCancelCallbacks (AList.insert 5 [some 1, some 2] ∅),
    .processCancelRequests (AList.insert 5 [some 1] ∅) (AList.insert 7 [some 2] ∅),
    .completeGroupRequest twoWaiters 7,
    .notifyGroupWaitersIfIdle { twoWaiters with groupRequestCounts := ∅ },
    .notifyAllGroupWaiters twoWaiters,
    .processTasks [some 1, some 2],
    .processSendCallbackQueue { sendCallbackQueue := [(.success, 1), (.success, 2)] }]

/-- When the first of two callbacks throws, no loop invokes the second one. -/
theorem second_callback_lost :
    twoCallbacks.map Loop.taken = List.replicate 7 [some 1, some 2] ∧
      twoCallbacks.map (fun loop => (loop.run (· == 1)).invoked) = List.replicate 7 [1] ∧
      ¬ ∃ loop ∈ twoCallbacks, (loop.run (· == 1)).invoked.Perm loop.taken.reduceOption := by
  refine ⟨by decide +kernel, by decide +kernel, ?_⟩
  have short : ∀ loop ∈ twoCallbacks,
      (loop.run (· == 1)).invoked.length < loop.taken.reduceOption.length := by
    decide +kernel
  rintro ⟨loop, member, same⟩
  exact Nat.ne_of_lt (short loop member) same.length_eq

end Kurlyk.Core.Dispatch
