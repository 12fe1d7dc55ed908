/-
This file is about the moment at which the network worker goes to sleep. It does
so when `is_loaded` is false, and `is_loaded` reads the containers only: it asks
neither whether a request still waits for its answer nor whether somebody waits
for a group. The result says that it need not. A worker that rests and finds
nothing loaded has answered every request it has accepted, and every callback of
a wait or cancel call was invoked, unless a thread outside holds it still.

No callback throws here. The loops that invoke the callbacks of waiters and of
cancelled requests have no handler of exceptions: one that throws takes the
callbacks behind it along, and `is_loaded` does not know of them.

A group whose waiters are stored has a request that is counted, since the last
request of a group takes its waiters out with its count.
-/

import Kurlyk.Http.CancelCalls
import Kurlyk.Http.CancelScan
import Kurlyk.Http.Progress
import Kurlyk.Http.Shutdown
import Kurlyk.Http.Waiters

namespace Kurlyk.Http

variable {world next : World} {action : Action} {token : Token}

/-! ### Waiters of idle groups -/

/-- Every group with stored waiters is counted. -/
def Watched (manager : HttpRequestManager) : Prop :=
  ∀ group, manager.groupRequestCounts.lookup group = none →
    manager.groupWaiters.lookup group = none

variable {manager later : HttpRequestManager} {group : ℕ} {callback : Option CallId}

theorem Watched.mono (watched : Watched manager)
    (counts : ∀ group, later.groupRequestCounts.lookup group = none →
      manager.groupRequestCounts.lookup group = none)
    (waiters : ∀ group, manager.groupWaiters.lookup group = none →
      later.groupWaiters.lookup group = none) : Watched later :=
  fun group idle => waiters group (watched group (counts group idle))

theorem Watched.countGroupRequest (watched : Watched manager) (group : ℕ) :
    Watched (manager.countGroupRequest group) := by
  obtain ⟨counts, same⟩ := HttpRequestManager.countGroupRequest_frame manager group
  refine watched.mono (fun other idle => ?_) fun other none => by rw [same]; exact none
  rw [HttpRequestManager.lookup_countGroupRequest] at idle
  split at idle
  · cases idle
  · exact idle

theorem Watched.registerWaiter (watched : Watched manager)
    (registered : manager.registerWaiter group callback = some later) : Watched later := by
  obtain ⟨⟨_, nonzero, busy⟩, rfl⟩ := HttpRequestManager.registerWaiter_eq_some registered
  intro other idle
  have before := watched other idle
  dsimp only
  rw [Table.lookup_insert_eq]
  by_cases same : other = group
  · subst same
    rw [HttpRequestManager.groupRequestCount, if_neg nonzero, idle] at busy
    exact absurd rfl busy
  · rw [if_neg same]
    exact before

theorem Watched.cancelWait {waiterId : ℕ} {waiter : GroupWaiter} (watched : Watched manager)
    (removed : manager.cancelWait group waiterId = some (waiter, later)) : Watched later := by
  obtain ⟨waiters, present, _, rfl⟩ := HttpRequestManager.cancelWait_eq_some removed
  refine watched.mono (fun _ idle => idle) fun other none => ?_
  have different : other ≠ group := by
    rintro rfl
    cases none.symm.trans present
  dsimp only
  split
  · rw [Table.lookup_erase_eq, if_neg different]
    exact none
  · rw [Table.lookup_insert_eq, if_neg different]
    exact none

theorem Watched.completeGroupRequest (watched : Watched manager) (group : ℕ) :
    Watched (manager.completeGroupRequest group).2 := by
  unfold HttpRequestManager.completeGroupRequest
  split
  · exact watched
  · split
    · exact watched
    · split
      · refine watched.mono (fun other idle => ?_) fun _ none => none
        dsimp only at idle
        rw [Table.lookup_insert_eq] at idle
        split at idle
        · cases idle
        · exact idle
      · intro other idle
        dsimp only at idle ⊢
        rw [Table.lookup_erase_eq] at idle ⊢
        split
        · rfl
        · rename_i different
          rw [if_neg different] at idle
          exact watched other idle

theorem Watched.submit (watched : Watched world.toHttpRequestManager)
    (request : Option HttpRequest) (callback : Bool) :
    Watched (world.submit request callback).toHttpRequestManager := by
  rcases submit_cases world request callback with rejected | ⟨_, admitted⟩
  · rw [rejected]
    exact watched
  · rw [admitted]
    obtain ⟨counts, same⟩ := HttpRequestManager.countGroupRequest_frame
      world.toHttpRequestManager ((request.map HttpRequest.groupId).getD 0)
    have counted := watched.countGroupRequest ((request.map HttpRequest.groupId).getD 0)
    rw [same] at counted ⊢
    exact counted

theorem CallerStep.watched (watched : Watched world.toHttpRequestManager)
    (step : CallerStep world action next) : Watched next.toHttpRequestManager := by
  cases step with
  | submit => exact watched.submit _ _
  | @clientSubmits position client request callback =>
    have left : Watched ({ world with callers := world.callers.eraseIdx position } :
        World).toHttpRequestManager := watched
    exact left.submit (some request) callback
  | waitRegister unlocked registered => exact watched.registerWaiter registered
  | cancelWait unlocked removed => exact watched.cancelWait removed
  | insertByGroup unlocked found queued =>
    rw [HttpRequestManager.queueCancelByGroup_eq_some queued]
    exact watched
  | cancelById | cancelByGroup =>
    unfold World.callCancel
    dsimp only
    split <;> exact watched
  | _ => exact watched

theorem Transition.watched (watched : Watched world.toHttpRequestManager)
    (transition : Transition world action next) : Watched next.toHttpRequestManager := by
  cases transition with
  | jump | shutdown => exact watched
  | pending agenda step => cases step with | _ => exact watched
  | active agenda step => cases step with | _ => exact watched
  | cancel agenda step => cases step with | _ => exact watched
  | closing agenda step =>
    cases step with
    | notifyIdle =>
      refine watched.mono (fun _ idle => idle) fun group none => ?_
      unfold World.notifyStep HttpRequestManager.takeIdleWaiters
      dsimp only
      rw [Table.lookup_sweep, none]
      rfl
    | notifyAll => exact fun _ _ => rfl
    | cleanup | clear => exact watched
  | agenda step =>
    cases step with
    | settleGroup => exact watched.completeGroupRequest _
    | _ => exact watched
  | caller step => exact step.watched watched
  | handles step =>
    obtain ⟨_, _, _, _, rfl⟩ := step.frame
    exact watched

theorem watched_of_reachable (reachable : managerSystem.Reachable world) :
    Watched world.toHttpRequestManager := by
  refine reachable.induction (fun world => Watched world.toHttpRequestManager) (fun _ _ => rfl) ?_
  exact fun _ _ _ _ watched stepped => (step_transition stepped).watched watched

/-! ### Nothing loaded -/

/-- The worker rests and has nothing to do. -/
structure Unloaded (world : World) : Prop where
  resting : world.Resting
  pending : world.pendingRequests = []
  failed : world.failedRequests = []
  batches : world.activeRequestBatches = []
  counts : world.groupRequestCounts.isEmpty = true
  ids : world.requestsToCancelById.isEmpty = true
  groups : world.groupsToCancel.isEmpty = true

theorem unloaded_iff : Unloaded world ↔
    world.Resting ∧ world.toHttpRequestManager.isLoaded = false := by
  constructor
  · rintro ⟨resting, pending, failed, batches, counts, ids, groups⟩
    refine ⟨resting, ?_⟩
    rw [HttpRequestManager.isLoaded, pending, failed, batches, counts, ids, groups]
    rfl
  · rintro ⟨resting, unloaded⟩
    simp only [HttpRequestManager.isLoaded, Bool.or_eq_false_iff, Bool.not_eq_false',
      List.isEmpty_iff] at unloaded
    obtain ⟨⟨⟨⟨⟨pending, failed⟩, batches⟩, counts⟩, ids⟩, groups⟩ := unloaded
    exact ⟨resting, pending, failed, batches, counts, ids, groups⟩

theorem Unloaded.holdings_eq_nil (unloaded : Unloaded world) : world.holdings = [] := by
  rw [World.holdings, unloaded.pending, unloaded.failed, unloaded.batches, unloaded.resting.1,
    unloaded.resting.2]
  rfl

/-- The only promises left are those of threads that are on their way out of a call. -/
theorem Unloaded.promises_eq (unloaded : Unloaded world)
    (watched : Watched world.toHttpRequestManager) :
    world.promises = world.callers.flatMap Caller.promises := by
  have waiters : world.groupWaiters.contents = [] := by
    rw [Table.contents, List.isEmpty_iff.mp (Table.isEmpty_iff _ |>.mpr fun group =>
      watched group ((Table.isEmpty_iff _).mp unloaded.counts group))]
    rfl
  rw [World.promises, queuedCancels_empty unloaded.ids unloaded.groups, unloaded.resting.1,
    unloaded.resting.2, waiters]
  rfl

/-- What the worker leaves when it goes to sleep, as long as no callback throws. A worker that rests
while `is_loaded` is false has given every accepted request its one final response, unless a
shutdown destroyed it, and has completed it; and the callback of every wait or cancel call has been
invoked, or removed, unless its thread has still to invoke it or to queue it. -/
theorem unloaded_is_done (reachable : managerSystem.Reachable world) (resting : world.Resting)
    (unloaded : world.toHttpRequestManager.isLoaded = false) :
    (∀ token, .accepted token ∈ world.log →
      (responses world.log token).countP (·.ready) = 1 ∧ .completed token ∈ world.log ∨
        world.shutdown = true ∧ .abandoned token ∈ world.log) ∧
      ∀ promise ∈ world.log.flatMap Event.opens,
        promise ∈ world.log.flatMap Event.closes ∨
          promise ∈ world.callers.flatMap Caller.promises := by
  have quiet := unloaded_iff.mpr ⟨resting, unloaded⟩
  have orderly := orderly_of_reachable reachable
  refine ⟨fun token accepted => ?_, fun promise opened => ?_⟩
  · have intact : stageOf world.log token ≠ .broken := (orderly.custody.sound token).1
    by_cases abandoned : .abandoned token ∈ world.log
    · refine Or.inr ⟨?_, abandoned⟩
      rw [← Bool.not_eq_false]
      intro running
      exact not_dropped_of_running reachable running token (Or.inr abandoned)
    · have free : token ∉ world.holdings.map Prod.fst := by
        rw [quiet.holdings_eq_nil]
        exact List.not_mem_nil
      have done := orderly.isDone accepted abandoned free
      refine Or.inl ⟨?_, (completed_mem_iff intact).mpr done⟩
      rw [countP_ready_responses intact]
      exact finals_of_isDone done
  · have books := faithful_of_reachable reachable
    have balance := books.balanced promise
    rw [quiet.promises_eq (watched_of_reachable reachable)] at balance
    have positive := List.count_pos_iff.mpr opened
    by_cases kept : promise ∈ world.callers.flatMap Caller.promises
    · exact Or.inr kept
    · refine Or.inl (List.count_pos_iff.mp ?_)
      have none : List.count promise (world.callers.flatMap Caller.promises) = 0 :=
        Nat.eq_zero_of_not_pos fun some_ => kept (List.count_pos_iff.mp some_)
      omega

/-- One request of a group is answered because libcurl gives no multi handle. -/
def answeredOnce : List Action :=
  [.submitRequest (some { groupId := 7 }) true, .waitRequests 7 true, .callProcess] ++
    [.proceed, .time 0, .time 0, .multiInit false, .proceed, .proceed, .proceed, .proceed,
      .proceed, .proceed, .proceed, .time 0, .proceed, .proceed].map Action.work

theorem unloaded_is_done_answeredOnce : ∃ world,
    managerSystem.Runs managerSystem.init answeredOnce world ∧
      ((responses world.log 1).countP (·.ready) = 1 ∧ .completed 1 ∈ world.log ∨
        world.shutdown = true ∧ .abandoned 1 ∈ world.log) ∧
      (Promise.waiter 0 ∈ world.log.flatMap Event.closes ∨
        Promise.waiter 0 ∈ world.callers.flatMap Caller.promises) := by
  have evaluated : (managerSystem.run managerSystem.init answeredOnce).any (fun world =>
      decide (world.Resting ∧ world.toHttpRequestManager.isLoaded = false ∧
        Event.accepted 1 ∈ world.log ∧
        Promise.waiter 0 ∈ world.log.flatMap Event.opens)) = true := by
    decide +kernel
  obtain ⟨world, runs, checked⟩ := System.exists_runs evaluated
  obtain ⟨resting, unloaded, accepted, opened⟩ := of_decide_eq_true checked
  obtain ⟨answered, redeemed⟩ := unloaded_is_done ⟨_, runs⟩ resting unloaded
  exact ⟨world, runs, answered 1 accepted, redeemed _ opened⟩

end Kurlyk.Http
