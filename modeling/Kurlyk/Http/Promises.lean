/-
This file follows the callbacks of wait and cancel calls. Such a callback is a
promise: from the moment the call reads the manager's state until the callback
runs, somebody has to keep it. It waits in one of the maps, in a local variable
of `process_cancel_requests`, on the worker's agenda, or with the calling
thread. In every reachable state a promise was made at most once, and it is
kept at one place or was redeemed, but never both.
-/

import Kurlyk.Http.Transition
import Kurlyk.Lib.Books

namespace Kurlyk.Http

open RateLimiter

/-- The callback of one wait call or one cancel call. -/
inductive Promise where
  | waiter (call : CallId)
  | cancel (call : CallId)
deriving DecidableEq

def Promise.call : Promise → CallId
  | .waiter call => call
  | .cancel call => call

/-! ### Where promises are -/

/-- The promises an event makes. -/
def Event.opens : Event → List Promise
  | .waitCalled call _ => [.waiter call]
  | .cancelCalled call => [.cancel call]
  | _ => []

/-- The promises an event redeems. A removed waiter is never invoked. -/
def Event.closes : Event → List Promise
  | .waiterInvoked call => [.waiter call]
  | .waitCancelled call => [.waiter call]
  | .cancelInvoked call => [.cancel call]
  | _ => []

def GroupWaiter.promises (waiter : GroupWaiter) : List Promise :=
  waiter.callback.toList.map .waiter

def cancelPromises (callback : Option CallId) : List Promise :=
  callback.toList.map .cancel

def Call.promises : Call → List Promise
  | .notifyWaiter waiter => waiter.promises
  | .invokeCancel callback => cancelPromises callback
  | _ => []

def Phase.promises : Phase → List Promise
  | .cancelFailed ids groups _ _ => (ids.contents ++ groups.contents).flatMap cancelPromises
  | .cancelBatches ids groups _ _ => (ids.contents ++ groups.contents).flatMap cancelPromises
  | _ => []

def Caller.promises : Caller → List Promise
  | .waitInvoke call => [.waiter call]
  | .cancelInvoke call => [.cancel call]
  | .insertById _ callback => cancelPromises callback
  | .insertByGroup _ callback => cancelPromises callback
  | .submitting _ _ _ => []

/-- The promises in the two maps of queued cancellations. -/
def World.queuedCancels (world : World) : List Promise :=
  world.requestsToCancelById.contents.flatMap cancelPromises ++
    world.groupsToCancel.contents.flatMap cancelPromises

/-- All promises that are kept. -/
def World.promises (world : World) : List Promise :=
  world.groupWaiters.contents.flatMap GroupWaiter.promises ++ world.queuedCancels ++
    world.phase.promises ++ world.agenda.flatMap Call.promises ++
    world.callers.flatMap Caller.promises

/-- The books of all promises. -/
def Faithful (world : World) : Prop :=
  Books Event.opens Event.closes world.log world.promises (·.call < world.nextCall)

variable {world next : World} {action : Action}

theorem count_promises (promise : Promise) (world : World) :
    List.count promise world.promises =
      List.count promise (world.groupWaiters.contents.flatMap GroupWaiter.promises) +
      (List.count promise (world.requestsToCancelById.contents.flatMap cancelPromises) +
        List.count promise (world.groupsToCancel.contents.flatMap cancelPromises)) +
      List.count promise world.phase.promises +
      List.count promise (world.agenda.flatMap Call.promises) +
      List.count promise (world.callers.flatMap Caller.promises) := by
  simp only [World.promises, World.queuedCancels, List.count_append]

/-! ### Calls that keep no promise -/

/-- Calls of one kind that keep no promise. -/
theorem flatMap_promises_map {Value : Type} {call : Value → Call}
    (silent : ∀ value, (call value).promises = []) (values : List Value) :
    (values.map call).flatMap Call.promises = [] := by
  rw [List.flatMap_map, List.flatMap_eq_nil_iff]
  exact fun value _ => silent value

theorem flatMap_promises_clear (batches : List HttpBatchRequestHandler) :
    (batches.flatMap fun batch =>
      batch.failedRequests.map Call.discard ++ batch.handlers.map Call.destroyHandler).flatMap
        Call.promises = [] := by
  rw [List.flatMap_assoc, List.flatMap_eq_nil_iff]
  intro batch _
  rw [List.flatMap_append, flatMap_promises_map (fun _ => rfl), flatMap_promises_map (fun _ => rfl),
    List.append_nil]

theorem flatMap_promises_invokeCancel (callbacks : List (Option CallId)) :
    (callbacks.map Call.invokeCancel).flatMap Call.promises = callbacks.flatMap cancelPromises := by
  rw [List.flatMap_map]
  rfl

theorem flatMap_promises_notifyWaiter (waiters : List GroupWaiter) :
    (waiters.map Call.notifyWaiter).flatMap Call.promises =
      waiters.flatMap GroupWaiter.promises := by
  rw [List.flatMap_map]
  rfl

/-! ### Steps that move promises -/

/-- A step that makes no promise: what is kept afterwards, with what the step redeems, is what
was kept before. -/
theorem Faithful.move (faithful : Faithful world) (events : List Event)
    (logged : next.log = world.log ++ events) (silent : events.flatMap Event.opens = [])
    (balance : ∀ promise, List.count promise next.promises +
      List.count promise (events.flatMap Event.closes) = List.count promise world.promises)
    (counter : world.nextCall ≤ next.nextCall) : Faithful next := by
  unfold Faithful
  rw [logged]
  exact Books.move faithful events silent balance fun _ old => Nat.lt_of_lt_of_le old counter

/-- A step that neither makes nor redeems a promise. -/
theorem Faithful.frame (faithful : Faithful world) (events : List Event)
    (logged : next.log = world.log ++ events) (opens : events.flatMap Event.opens = [])
    (closes : events.flatMap Event.closes = []) (kept : next.promises = world.promises)
    (counter : next.nextCall = world.nextCall) : Faithful next := by
  refine faithful.move events logged opens (fun promise => ?_) (Nat.le_of_eq counter.symm)
  rw [closes, kept]
  rfl

/-- A step that moves promises without a word. -/
theorem Faithful.quiet (faithful : Faithful world) (logged : next.log = world.log)
    (balance : ∀ promise, List.count promise next.promises = List.count promise world.promises)
    (counter : next.nextCall = world.nextCall) : Faithful next :=
  faithful.move [] (logged.trans (List.append_nil _).symm) rfl balance
    (Nat.le_of_eq counter.symm)

/-- A step that makes one promise, numbered by the call counter. -/
theorem Faithful.take (faithful : Faithful world) (promise : Promise) (events : List Event)
    (number : promise.call = world.nextCall) (logged : next.log = world.log ++ events)
    (opens : events.flatMap Event.opens = [promise]) (closes : events.flatMap Event.closes = [])
    (balance : ∀ other, List.count other next.promises =
      List.count other world.promises + mark other promise)
    (counter : next.nextCall = world.nextCall + 1) : Faithful next := by
  unfold Faithful
  rw [logged, counter]
  refine Books.take faithful events ?_ opens closes balance
    (fun _ old => Nat.lt_succ_of_lt old) ?_
  · rw [number]
    exact Nat.lt_irrefl _
  · rw [number]
    exact Nat.lt_succ_self _

/-- A step of the worker that touches no map, and moves no promise. -/
theorem promises_worker (waiters : next.groupWaiters = world.groupWaiters)
    (ids : next.requestsToCancelById = world.requestsToCancelById)
    (groups : next.groupsToCancel = world.groupsToCancel)
    (callers : next.callers = world.callers)
    (phase : next.phase.promises = world.phase.promises)
    (agenda : next.agenda.flatMap Call.promises = world.agenda.flatMap Call.promises) :
    next.promises = world.promises := by
  rw [World.promises, World.queuedCancels, waiters, ids, groups, callers, phase, agenda]
  rfl

/-! ### The worker's steps -/

theorem Jump.promises {phase : Phase} (jump : Jump world action phase) :
    phase.promises = world.phase.promises := by
  cases jump with
  | @nothingToCancel mode at_ =>
    rw [at_]
    cases mode <;> rfl
  | process at_ | processAfterShutdown at_ | shutdownAgain at_ | skipScan at_ | enterScan at_
  | refused at_ | multiHandle at_ | noBatch at_ | perform at_ | performed at_ | performFailed at_
  | stillRunning at_ | batchGone at_ | nothingToExtract at_ | retryDone at_ | retryLater at_
  | failedScanned at_ | failedKept at_ =>
    rw [at_]
    rfl

theorem PendingStep.agenda_promises {input : World.Input} (agenda : world.agenda = [])
    (step : PendingStep world input next) : next.agenda.flatMap Call.promises = [] := by
  cases step with
  | scanned | noMultiHandle => exact flatMap_promises_map (fun _ => rfl) _
  | noEasyHandle => rfl
  | badRequest | dispatch | start | batchBuilt =>
    dsimp only
    rw [agenda]
    rfl

theorem PendingStep.promises {input : World.Input} (agenda : world.agenda = [])
    (step : PendingStep world input next) : next.promises = world.promises := by
  have silent : next.agenda.flatMap Call.promises = world.agenda.flatMap Call.promises := by
    rw [step.agenda_promises agenda, agenda]
    rfl
  cases step with
  | scanned at_ =>
    refine promises_worker rfl rfl rfl rfl ?_ silent
    rw [at_]
    dsimp only
    split <;> rfl
  | noMultiHandle at_ | noEasyHandle at_ | badRequest at_ | dispatch at_ | start at_
  | batchBuilt at_ => exact promises_worker rfl rfl rfl rfl (by rw [at_]; rfl) silent

theorem ActiveStep.agenda_promises {input : World.Input} (agenda : world.agenda = [])
    (step : ActiveStep world input next) : next.agenda.flatMap Call.promises = [] := by
  cases step with
  | processNoMulti | destroyHandlers | extract => exact flatMap_promises_map (fun _ => rfl) _
  | finish | dropFailed => rfl
  | _ =>
    dsimp only
    rw [agenda]
    rfl

theorem ActiveStep.promises {input : World.Input} (agenda : world.agenda = [])
    (step : ActiveStep world input next) : next.promises = world.promises := by
  have silent : next.agenda.flatMap Call.promises = world.agenda.flatMap Call.promises := by
    rw [step.agenda_promises agenda, agenda]
    rfl
  cases step with
  | processNoMulti at_ | destroyHandlers at_ | extract at_ =>
    exact promises_worker rfl rfl rfl rfl (by rw [at_]; rfl) silent
  | _ => exact promises_worker rfl rfl rfl rfl rfl silent

theorem CancelStep.promises (agenda : world.agenda = []) (step : CancelStep world next)
    (promise : Promise) : List.count promise next.promises = List.count promise world.promises := by
  rw [count_promises, count_promises, agenda]
  cases step with
  | takeCancels at_ =>
    rw [at_]
    dsimp only
    rw [flatMap_promises_map (fun _ => rfl)]
    simp only [Phase.promises, List.flatMap_append, List.count_append, List.flatMap_nil,
      List.count_nil, Table.contents]
    rw [AList.empty_entries]
    simp only [List.flatMap_nil, List.count_nil]
    omega
  | cancelFailed => rfl
  | cancelBatch at_ =>
    rw [at_]
    dsimp only
    rw [flatMap_promises_map (fun _ => rfl)]
    rfl
  | @batchesScanned ids groups index mode at_ =>
    have silent : (World.afterCancel mode).promises = [] := by cases mode <;> rfl
    rw [at_]
    dsimp only
    rw [flatMap_promises_invokeCancel, silent]
    simp only [Phase.promises, List.flatMap_nil, List.count_nil]
    omega

theorem ClosingStep.promises (agenda : world.agenda = []) (step : ClosingStep world next)
    (promise : Promise) : List.count promise next.promises = List.count promise world.promises := by
  rw [count_promises, count_promises, agenda]
  cases step with
  | notifyIdle at_ =>
    have shared := Table.count_contents_sweep GroupWaiter.promises promise world.groupWaiters
      (fun group => world.toHttpRequestManager.groupRequestCount group = 0)
    rw [at_]
    simp only [World.notifyStep, HttpRequestManager.takeIdleWaiters,
      flatMap_promises_notifyWaiter, Phase.promises, List.flatMap_nil, List.count_nil]
    omega
  | notifyAll at_ =>
    rw [at_]
    simp only [World.notifyStep, HttpRequestManager.takeAllWaiters,
      flatMap_promises_notifyWaiter, Phase.promises, List.flatMap_nil, List.count_nil]
    have empty : List.count promise
        ((Table.contents (∅ : Table ℕ (List GroupWaiter))).flatMap GroupWaiter.promises) = 0 := rfl
    omega
  | cleanup at_ =>
    rw [at_]
    simp only [World.cleanupPendingStep]
    rw [flatMap_promises_map (fun _ => rfl)]
    rfl
  | clear at_ =>
    rw [at_]
    simp only [World.clearBatchesStep]
    rw [flatMap_promises_clear]
    rfl

/-- The last request of a group hands its waiters over. -/
theorem count_completeGroupRequest (manager : HttpRequestManager) (group : ℕ)
    (promise : Promise) :
    List.count promise ((manager.completeGroupRequest group).1.flatMap GroupWaiter.promises) +
        List.count promise ((manager.completeGroupRequest group).2.groupWaiters.contents.flatMap
          GroupWaiter.promises) =
      List.count promise (manager.groupWaiters.contents.flatMap GroupWaiter.promises) := by
  have erased := Table.count_contents_erase GroupWaiter.promises promise manager.groupWaiters group
  unfold HttpRequestManager.completeGroupRequest
  split
  · simp
  · split
    · simp
    · split
      · simp
      · dsimp only
        omega

theorem closes_map_waiterInvoked (callback : Option CallId) :
    (callback.toList.map Event.waiterInvoked).flatMap Event.closes =
      callback.toList.map .waiter := by
  cases callback <;> rfl

theorem closes_map_cancelInvoked (callback : Option CallId) :
    (callback.toList.map Event.cancelInvoked).flatMap Event.closes =
      callback.toList.map .cancel := by
  cases callback <;> rfl

theorem AgendaStep.faithful (faithful : Faithful world) (step : AgendaStep world next) :
    Faithful next := by
  cases step with
  | finalCallback agenda | complete agenda | settle agenda | discard agenda =>
    refine faithful.frame _ rfl rfl rfl (promises_worker rfl rfl rfl rfl rfl ?_) rfl
    rw [agenda]
    rfl
  | completeAgain agenda | destroyHandler agenda | cancelHandler agenda =>
    refine faithful.frame [] (List.append_nil _).symm rfl rfl
      (promises_worker rfl rfl rfl rfl rfl ?_) rfl
    rw [agenda]
    rfl
  | handlerAnswered agenda handled =>
    refine faithful.frame [] (List.append_nil _).symm rfl rfl
      (promises_worker rfl rfl rfl rfl rfl ?_) rfl
    rw [agenda]
    rcases handled with rfl | rfl <;> rfl
  | @settleGroup token group rest agenda captured =>
    obtain ⟨counts, waiters, same⟩ :=
      HttpRequestManager.completeGroupRequest_frame world.toHttpRequestManager group
    have moved := count_completeGroupRequest world.toHttpRequestManager group
    refine faithful.move [.completed token] rfl rfl (fun promise => ?_) (Nat.le_refl _)
    have handed := moved promise
    rw [same] at handed
    rw [count_promises, count_promises, agenda]
    simp only [same, List.flatMap_append, flatMap_promises_notifyWaiter, List.count_append,
      List.flatMap_cons, Call.promises, List.count_nil]
    simp only [Event.closes, List.count_nil, List.flatMap_nil] at handed ⊢
    omega
  | @notifyWaiter waiter rest agenda =>
    refine faithful.move _ rfl ?_ (fun promise => ?_) (Nat.le_refl _)
    · cases waiter.callback <;> rfl
    · rw [count_promises, count_promises, agenda, closes_map_waiterInvoked]
      simp only [List.flatMap_cons, List.count_append, Call.promises, GroupWaiter.promises]
      omega
  | @invokeCancel callback rest agenda =>
    refine faithful.move _ rfl ?_ (fun promise => ?_) (Nat.le_refl _)
    · cases callback <;> rfl
    · rw [count_promises, count_promises, agenda, closes_map_cancelInvoked]
      simp only [List.flatMap_cons, List.count_append, Call.promises, cancelPromises]
      omega

/-! ### The callers' steps -/

/-- A call in progress ends or goes on. -/
theorem count_callers_eraseIdx {position : ℕ} {caller : Caller}
    (found : world.callers[position]? = some caller) (promise : Promise) :
    List.count promise ((world.callers.eraseIdx position).flatMap Caller.promises) +
        List.count promise caller.promises =
      List.count promise (world.callers.flatMap Caller.promises) :=
  count_flatMap_eraseIdx found Caller.promises promise

theorem submit_faithful (faithful : Faithful world) (request : Option HttpRequest)
    (callback : Bool) : Faithful (world.submit request callback) := by
  rcases submit_cases world request callback with rejected | ⟨_, admitted⟩
  · rw [rejected]
    exact faithful.frame [] (List.append_nil _).symm rfl rfl rfl rfl
  · rw [admitted]
    exact faithful.frame _ rfl rfl rfl rfl rfl

/-- A wait call makes a promise exactly when it was given a callback. -/
theorem Faithful.waitCalled (faithful : Faithful world) {group : ℕ} {given : Bool}
    (logged : next.log =
      world.log ++ (world.freshCallback given).toList.map (Event.waitCalled · group))
    (balance : ∀ promise, List.count promise next.promises = List.count promise world.promises +
      List.count promise ((world.freshCallback given).toList.map Promise.waiter))
    (counter : next.nextCall = world.nextCall + 1) : Faithful next := by
  cases given with
  | false =>
    refine faithful.move [] logged rfl (fun promise => ?_) (counter ▸ Nat.le_succ _)
    exact balance promise
  | true =>
    exact faithful.take (.waiter world.nextCall) _ rfl logged rfl rfl
      (fun other => (balance other).trans (congrArg _ (count_singleton_mark ..))) counter

/-- A cancel call makes a promise exactly when it was given a callback. -/
theorem Faithful.cancelCalled (faithful : Faithful world) {given : Bool}
    (logged : next.log =
      world.log ++ (world.freshCallback given).toList.map Event.cancelCalled)
    (balance : ∀ promise, List.count promise next.promises = List.count promise world.promises +
      List.count promise ((world.freshCallback given).toList.map Promise.cancel))
    (counter : next.nextCall = world.nextCall + 1) : Faithful next := by
  cases given with
  | false =>
    refine faithful.move [] logged rfl (fun promise => ?_) (counter ▸ Nat.le_succ _)
    exact balance promise
  | true =>
    exact faithful.take (.cancel world.nextCall) _ rfl logged rfl rfl
      (fun other => (balance other).trans (congrArg _ (count_singleton_mark ..))) counter

theorem callCancel_faithful (faithful : Faithful world) (identifier : ℕ) (given : Bool)
    {insert : Option CallId → Caller}
    (keeps : ∀ callback, (insert callback).promises = cancelPromises callback) :
    Faithful (world.callCancel identifier given insert) := by
  unfold World.callCancel
  dsimp only
  split
  · refine faithful.cancelCalled rfl (fun promise => ?_) rfl
    have same : ((world.freshCallback given).toList.map Caller.cancelInvoke).flatMap
        Caller.promises = (world.freshCallback given).toList.map Promise.cancel := by
      cases given <;> rfl
    rw [count_promises, count_promises]
    simp only [List.flatMap_append, List.count_append, same]
    omega
  · refine faithful.cancelCalled rfl (fun promise => ?_) rfl
    rw [count_promises, count_promises]
    simp only [List.flatMap_append, List.count_append, List.flatMap_cons, List.flatMap_nil,
      List.count_nil, keeps, cancelPromises]
    omega

theorem CallerStep.faithful (faithful : Faithful world) (step : CallerStep world action next) :
    Faithful next := by
  cases step with
  | submit => exact submit_faithful faithful _ _
  | @clientSubmits position client request callback unlocked found =>
    have left : Faithful { world with callers := world.callers.eraseIdx position } := by
      refine faithful.quiet rfl (fun promise => ?_) rfl
      have erased := count_callers_eraseIdx found promise
      simp only [Caller.promises, List.count_nil] at erased
      rw [count_promises, count_promises]
      dsimp only
      omega
    have submitted := submit_faithful left (some request) callback
    exact submitted.frame [] (List.append_nil _).symm rfl rfl rfl rfl
  | waitNow unlocked idle =>
    rename_i group given
    refine faithful.waitCalled rfl (fun promise => ?_) rfl
    have same : ((world.freshCallback given).toList.map Caller.waitInvoke).flatMap
        Caller.promises = (world.freshCallback given).toList.map Promise.waiter := by
      cases given <;> rfl
    rw [count_promises, count_promises]
    simp only [List.flatMap_append, List.count_append, same]
    omega
  | @waitRegister group given manager unlocked registered =>
    obtain ⟨_, rfl⟩ := HttpRequestManager.registerWaiter_eq_some registered
    refine faithful.waitCalled rfl (fun promise => ?_) rfl
    have inserted := Table.count_contents_insert GroupWaiter.promises promise world.groupWaiters
      group ((world.groupWaiters.lookup group).getD [] ++
        [⟨world.waiterIdCounter, world.freshCallback given⟩])
    rw [count_promises, count_promises]
    simp only [List.flatMap_append, List.count_append, List.flatMap_cons, List.flatMap_nil,
      List.count_nil, GroupWaiter.promises] at inserted ⊢
    omega
  | @cancelWait group waiterId waiter manager unlocked removed =>
    obtain ⟨waiters, present, found, rfl⟩ := HttpRequestManager.cancelWait_eq_some removed
    refine faithful.move _ rfl ?_ (fun promise => ?_) (Nat.le_refl _)
    · cases waiter.callback <;> rfl
    · have erased := count_flatMap_eraseP found GroupWaiter.promises promise
      have taken := Table.count_contents_erase GroupWaiter.promises promise world.groupWaiters group
      have inserted := Table.count_contents_insert GroupWaiter.promises promise
        world.groupWaiters group (waiters.eraseP (·.id = waiterId))
      have same : (waiter.callback.toList.map Event.waitCancelled).flatMap Event.closes =
          waiter.promises := by
        rw [GroupWaiter.promises]
        cases waiter.callback <;> rfl
      rw [present, Option.getD_some] at taken inserted
      rw [count_promises, count_promises, same]
      dsimp only
      split
      · rename_i empty
        rw [List.isEmpty_iff.mp empty, List.flatMap_nil, List.count_nil] at erased
        omega
      · omega
  | cancelById => exact callCancel_faithful faithful _ _ fun _ => rfl
  | cancelByGroup => exact callCancel_faithful faithful _ _ fun _ => rfl
  | @callerWaits position call found =>
    refine faithful.move _ rfl rfl (fun promise => ?_) (Nat.le_refl _)
    have erased := count_callers_eraseIdx found promise
    rw [count_promises, count_promises]
    simp only [List.flatMap_cons, List.flatMap_nil, Event.closes, Caller.promises,
      List.append_nil] at erased ⊢
    omega
  | @callerCancels position call found =>
    refine faithful.move _ rfl rfl (fun promise => ?_) (Nat.le_refl _)
    have erased := count_callers_eraseIdx found promise
    rw [count_promises, count_promises]
    simp only [List.flatMap_cons, List.flatMap_nil, Event.closes, Caller.promises,
      List.append_nil] at erased ⊢
    omega
  | @insertById position requestId callback unlocked found =>
    refine faithful.quiet rfl (fun promise => ?_) rfl
    have erased := count_callers_eraseIdx found promise
    have inserted := Table.count_contents_insert cancelPromises promise
      world.requestsToCancelById requestId
      ((world.requestsToCancelById.lookup requestId).getD [] ++ [callback])
    rw [count_promises, count_promises]
    simp only [HttpRequestManager.queueCancelById, List.flatMap_append, List.count_append,
      List.flatMap_cons, List.flatMap_nil, List.count_nil, Caller.promises] at erased inserted ⊢
    omega
  | @insertByGroup position group callback manager unlocked found queued =>
    rw [HttpRequestManager.queueCancelByGroup_eq_some queued]
    refine faithful.quiet rfl (fun promise => ?_) rfl
    have erased := count_callers_eraseIdx found promise
    have inserted := Table.count_contents_insert cancelPromises promise world.groupsToCancel group
      ((world.groupsToCancel.lookup group).getD [] ++ [callback])
    rw [count_promises, count_promises]
    simp only [List.flatMap_append, List.count_append, List.flatMap_cons, List.flatMap_nil,
      List.count_nil, Caller.promises] at erased inserted ⊢
    omega
  | @groupIdle position group callback unlocked found idle =>
    refine faithful.quiet rfl (fun promise => ?_) rfl
    have erased := count_callers_eraseIdx found promise
    have same : (callback.toList.map Caller.cancelInvoke).flatMap Caller.promises =
        cancelPromises callback := by
      cases callback <;> rfl
    rw [count_promises, count_promises]
    simp only [List.flatMap_append, List.count_append, same, Caller.promises] at erased ⊢
    omega
  | clientBegins =>
    refine faithful.quiet rfl (fun promise => ?_) rfl
    rw [count_promises, count_promises]
    simp only [List.flatMap_append, List.count_append, List.flatMap_cons, List.flatMap_nil,
      List.count_nil, Caller.promises]
    omega
  | cancelWaitMissed => exact faithful
  | clientRejected => exact faithful
  | _ => exact faithful.frame [] (List.append_nil _).symm rfl rfl rfl rfl

/-! ### Every step -/

theorem PendingStep.faithful {input : World.Input} (faithful : Faithful world)
    (agenda : world.agenda = []) (step : PendingStep world input next) : Faithful next := by
  have kept := step.promises agenda
  cases step with
  | dispatch | start => exact faithful.frame _ rfl rfl rfl kept rfl
  | _ => exact faithful.frame [] (List.append_nil _).symm rfl rfl kept rfl

theorem ActiveStep.faithful {input : World.Input} (faithful : Faithful world)
    (agenda : world.agenda = []) (step : ActiveStep world input next) : Faithful next := by
  have kept := step.promises agenda
  cases step with
  | stream | retry | requeue => exact faithful.frame _ rfl rfl rfl kept rfl
  | _ => exact faithful.frame [] (List.append_nil _).symm rfl rfl kept rfl

theorem HandleStep.faithful (faithful : Faithful world) (step : HandleStep world action next) :
    Faithful next := by
  obtain ⟨_, _, _, _, rfl⟩ := step.frame
  exact faithful.frame [] (List.append_nil _).symm rfl rfl rfl rfl

theorem Faithful.step (faithful : Faithful world) (transition : Transition world action next) :
    Faithful next := by
  cases transition with
  | jump agenda jump =>
    exact faithful.frame [] (List.append_nil _).symm rfl rfl
      (promises_worker rfl rfl rfl rfl jump.promises rfl) rfl
  | pending agenda step => exact step.faithful faithful agenda
  | active agenda step => exact step.faithful faithful agenda
  | cancel agenda step =>
    refine faithful.quiet ?_ (step.promises agenda) ?_
    · cases step <;> rfl
    · cases step <;> rfl
  | closing agenda step =>
    refine faithful.quiet ?_ (step.promises agenda) ?_
    · cases step <;> rfl
    · cases step <;> rfl
  | agenda step => exact step.faithful faithful
  | shutdown agenda at_ running =>
    refine faithful.frame _ rfl rfl rfl (promises_worker rfl rfl rfl rfl ?_ rfl) rfl
    rw [at_]
    rfl
  | caller step => exact step.faithful faithful
  | handles step => exact step.faithful faithful

/-- The books balance in every reachable state. -/
theorem faithful_of_reachable (reachable : managerSystem.Reachable world) : Faithful world := by
  refine reachable.induction Faithful ?_ ?_
  · exact ⟨fun _ => rfl, fun _ => Nat.zero_le _, fun _ _ => rfl⟩
  · intro state action after _ faithful stepped
    exact faithful.step (step_transition stepped)

end Kurlyk.Http
