/-
This file follows the worker through `process` and `shutdown`. Outside of both
it is idle; the statements of `process` are reached only while the shutdown flag
is down, and those of `shutdown` only after it was raised, which happens once.
The statements of `shutdown` empty the containers one after the other, and none
of them is filled again.
-/

import Kurlyk.Http.Transition

namespace Kurlyk.Http

variable {world next : World} {action : Action}

/-- The function a statement belongs to: `shutdown` (or the end of `process` after a shutdown)
is `true`, the rest of `process` is `false`, and outside of both there is none. -/
def Phase.stopping : Phase → Option Bool
  | .idle => none
  | .processCancel mode => some (mode == .shutdown)
  | .cancelFailed _ _ _ mode => some (mode == .shutdown)
  | .cancelBatches _ _ _ mode => some (mode == .shutdown)
  | .notifyAll => some true
  | .cleanupPending => some true
  | .clearBatches => some true
  | _ => some false

theorem stopping_eq_none_iff {phase : Phase} : phase.stopping = none ↔ phase = .idle := by
  cases phase with
  | _ => simp [Phase.stopping]

instance (phase : Phase) : Decidable (phase = .idle) :=
  decidable_of_iff (phase.stopping = none) stopping_eq_none_iff

/-- The worker is where the shutdown flag says, and the log records when it was raised. -/
structure Controlled (world : World) : Prop where
  phase : ∀ stopping, world.phase.stopping = some stopping → world.shutdown = stopping
  logged : world.shutdown = true ↔ Event.shutdownBegan ∈ world.log

/-- At a statement of `process` the flag is down. -/
theorem Controlled.running (controlled : Controlled world) {phase : Phase}
    (at_ : world.phase = phase) (stopping : phase.stopping = some false) :
    world.shutdown = false :=
  controlled.phase false (by rw [at_]; exact stopping)

/-- What a step does to the statement the worker is at, and to the flag. -/
structure Continues (world next : World) : Prop where
  shutdown : next.shutdown = world.shutdown
  phase : ∀ stopping, next.phase.stopping = some stopping → world.shutdown = stopping
  logged : ∃ events, next.log = world.log ++ events ∧ Event.shutdownBegan ∉ events

theorem Jump.stopping {phase : Phase} (controlled : Controlled world)
    (jump : Jump world action phase) :
    ∀ stopping, phase.stopping = some stopping → world.shutdown = stopping := by
  intro stopping reached
  cases jump with
  | process at_ running =>
    rw [running]
    exact Option.some.inj reached
  | processAfterShutdown at_ stopped =>
    rw [stopped]
    exact Option.some.inj reached
  | shutdownAgain at_ stopped =>
    rw [stopped]
    exact Option.some.inj reached
  | @nothingToCancel mode at_ noIds noGroups =>
    refine controlled.phase stopping ?_
    rw [at_]
    cases mode <;> exact reached
  | skipScan at_ | enterScan at_ | refused at_ | multiHandle at_ | noBatch at_ | perform at_
  | performed at_ | performFailed at_ | stillRunning at_ | batchGone at_ | nothingToExtract at_
  | retryDone at_ | retryLater at_ | failedScanned at_ | failedKept at_ =>
    exact controlled.phase stopping (by rw [at_]; exact reached)

/-- A step that stays in the function it is in, and logs nothing about the shutdown. -/
theorem Continues.stay (controlled : Controlled world) (shutdown : next.shutdown = world.shutdown)
    (phase : ∀ stopping, next.phase.stopping = some stopping →
      world.phase.stopping = some stopping)
    {events : List Event} (logged : next.log = world.log ++ events)
    (silent : Event.shutdownBegan ∉ events) : Continues world next :=
  ⟨shutdown, fun stopping reached => controlled.phase stopping (phase stopping reached),
    events, logged, silent⟩

theorem PendingStep.continues {input : World.Input} (controlled : Controlled world)
    (step : PendingStep world input next) : Continues world next := by
  cases step with
  | scanned at_ =>
    refine .stay controlled rfl (fun stopping reached => ?_) (List.append_nil _).symm (by simp)
    rw [at_]
    dsimp only at reached
    split at reached <;> exact reached
  | dispatch at_ =>
    exact .stay controlled rfl (fun _ reached => by rw [at_]; exact reached) rfl (by simp)
  | start at_ =>
    exact .stay controlled rfl (fun _ reached => by rw [at_]; exact reached) rfl (by simp)
  | badRequest at_ | noMultiHandle at_ | noEasyHandle at_ | batchBuilt at_ =>
    exact .stay controlled rfl (fun _ reached => by rw [at_]; exact reached)
      (List.append_nil _).symm (by simp)

theorem ActiveStep.continues {input : World.Input} (controlled : Controlled world)
    (step : ActiveStep world input next) : Continues world next := by
  cases step with
  | stream | retry | requeue =>
    exact .stay controlled rfl (fun _ reached => reached) rfl (by simp)
  | write | ignoreMessage | finish | dropFailed =>
    exact .stay controlled rfl (fun _ reached => reached) (List.append_nil _).symm (by simp)
  | processNoMulti at_ | destroyHandlers at_ | extract at_ =>
    exact .stay controlled rfl (fun _ reached => by rw [at_]; exact reached)
      (List.append_nil _).symm (by simp)

theorem afterCancel_stopping (mode : CancelMode) :
    (World.afterCancel mode).stopping = (Phase.processCancel mode).stopping := by
  cases mode <;> rfl

theorem CancelStep.continues (controlled : Controlled world) (step : CancelStep world next) :
    Continues world next := by
  cases step with
  | cancelFailed =>
    exact .stay controlled rfl (fun _ reached => reached) (List.append_nil _).symm (by simp)
  | takeCancels at_ | cancelBatch at_ =>
    exact .stay controlled rfl (fun _ reached => by rw [at_]; exact reached)
      (List.append_nil _).symm (by simp)
  | @batchesScanned ids groups index mode at_ =>
    refine .stay controlled rfl (fun _ reached => ?_) (List.append_nil _).symm (by simp)
    rw [at_]
    exact (afterCancel_stopping mode).symm.trans reached

theorem ClosingStep.continues (controlled : Controlled world) (step : ClosingStep world next) :
    Continues world next := by
  cases step with
  | notifyIdle | notifyAll =>
    exact .stay controlled rfl
      (fun _ reached => absurd reached (by simp [World.notifyStep, Phase.stopping]))
      (List.append_nil _).symm (by simp)
  | cleanup at_ | clear at_ =>
    exact .stay controlled rfl (fun _ reached => by rw [at_]; exact reached)
      (List.append_nil _).symm (by simp)

theorem AgendaStep.continues (controlled : Controlled world) (step : AgendaStep world next) :
    Continues world next := by
  cases step with
  | @settleGroup token group rest agenda captured =>
    obtain ⟨counts, waiters, same⟩ :=
      HttpRequestManager.completeGroupRequest_frame world.toHttpRequestManager group
    exact .stay controlled (by simp only [same]) (fun _ reached => reached) rfl (by simp)
  | finalCallback | complete | settle | notifyWaiter | invokeCancel | discard =>
    exact .stay controlled rfl (fun _ reached => reached) rfl (by simp)
  | _ => exact .stay controlled rfl (fun _ reached => reached) (List.append_nil _).symm (by simp)

theorem submit_continues (controlled : Controlled world) (request : Option HttpRequest)
    (callback : Bool) : Continues world (world.submit request callback) := by
  rcases submit_cases world request callback with rejected | ⟨_, admitted⟩
  · rw [rejected]
    exact .stay controlled rfl (fun _ reached => reached) (List.append_nil _).symm (by simp)
  · rw [admitted]
    exact .stay controlled rfl (fun _ reached => reached) rfl (by simp)

theorem CallerStep.continues (controlled : Controlled world)
    (step : CallerStep world action next) : Continues world next := by
  cases step with
  | submit => exact submit_continues controlled _ _
  | @clientSubmits position client request callback unlocked found =>
    have left : Controlled { world with callers := world.callers.eraseIdx position } :=
      ⟨controlled.phase, controlled.logged⟩
    obtain ⟨shutdown, phase, logged⟩ := submit_continues left (some request) callback
    exact ⟨shutdown, phase, logged⟩
  | waitRegister unlocked registered =>
    obtain ⟨_, rfl⟩ := HttpRequestManager.registerWaiter_eq_some registered
    exact .stay controlled rfl (fun _ reached => reached) rfl (by simp)
  | cancelWait unlocked removed =>
    obtain ⟨_, _, _, rfl⟩ := HttpRequestManager.cancelWait_eq_some removed
    exact .stay controlled rfl (fun _ reached => reached) rfl (by simp)
  | insertByGroup unlocked found queued =>
    rw [HttpRequestManager.queueCancelByGroup_eq_some queued]
    exact .stay controlled rfl (fun _ reached => reached) (List.append_nil _).symm (by simp)
  | cancelById | cancelByGroup =>
    unfold World.callCancel
    dsimp only
    split <;> exact .stay controlled rfl (fun _ reached => reached) rfl (by simp)
  | waitNow | callerWaits | callerCancels =>
    exact .stay controlled rfl (fun _ reached => reached) rfl (by simp)
  | _ => exact .stay controlled rfl (fun _ reached => reached) (List.append_nil _).symm (by simp)

theorem HandleStep.continues (controlled : Controlled world)
    (step : HandleStep world action next) : Continues world next := by
  obtain ⟨_, _, _, _, rfl⟩ := step.frame
  exact .stay controlled rfl (fun _ reached => reached) (List.append_nil _).symm (by simp)

theorem Controlled.step (controlled : Controlled world)
    (transition : Transition world action next) : Controlled next := by
  have continued : ∀ {after : World}, Continues world after → Controlled after := by
    intro after continues
    obtain ⟨events, logged, silent⟩ := continues.logged
    refine ⟨fun stopping reached => continues.shutdown.trans (continues.phase stopping reached), ?_⟩
    rw [continues.shutdown, logged, List.mem_append, or_iff_left silent]
    exact controlled.logged
  cases transition with
  | jump agenda jump =>
    have reached := jump.stopping controlled
    exact ⟨reached, controlled.logged⟩
  | pending agenda step => exact continued (step.continues controlled)
  | active agenda step => exact continued (step.continues controlled)
  | cancel agenda step => exact continued (step.continues controlled)
  | closing agenda step => exact continued (step.continues controlled)
  | agenda step => exact continued (step.continues controlled)
  | shutdown agenda at_ running =>
    refine ⟨fun stopping reached => Option.some.inj reached, ?_⟩
    simp
  | caller step => exact continued (step.continues controlled)
  | handles step => exact continued (step.continues controlled)

theorem controlled_of_reachable (reachable : managerSystem.Reachable world) : Controlled world := by
  refine reachable.induction Controlled ?_ ?_
  · exact ⟨fun _ reached => absurd reached (by simp [managerSystem, Phase.stopping]),
      by simp [managerSystem]⟩
  · intro state action after _ controlled stepped
    exact controlled.step (step_transition stepped)

/-- Only `shutdown` raises the flag. -/
theorem Transition.shutdown_eq (controlled : Controlled world)
    (transition : Transition world action next) (other : action ≠ .callShutdown) :
    next.shutdown = world.shutdown := by
  cases transition with
  | jump => rfl
  | pending agenda step => exact (step.continues controlled).shutdown
  | active agenda step => exact (step.continues controlled).shutdown
  | cancel agenda step => exact (step.continues controlled).shutdown
  | closing agenda step => exact (step.continues controlled).shutdown
  | agenda step => exact (step.continues controlled).shutdown
  | shutdown => exact absurd rfl other
  | caller step => exact (step.continues controlled).shutdown
  | handles step => exact (step.continues controlled).shutdown

/-- The flag is never lowered. -/
theorem Transition.running (controlled : Controlled world)
    (transition : Transition world action next) (still : next.shutdown = false) :
    world.shutdown = false := by
  by_cases raises : action = .callShutdown
  · subst raises
    cases transition with
    | jump => exact still
    | shutdown => exact absurd still (by simp)
    | caller step => exact (step.continues controlled).shutdown ▸ still
    | handles step => exact (step.continues controlled).shutdown ▸ still
  · exact transition.shutdown_eq controlled raises ▸ still

/-! ### Who moves the worker -/

theorem PendingStep.running {input : World.Input} (controlled : Controlled world)
    (step : PendingStep world input next) : world.shutdown = false := by
  cases step with
  | scanned at_ | badRequest at_ | dispatch at_ | noMultiHandle at_ | start at_ | noEasyHandle at_
  | batchBuilt at_ => exact controlled.running at_ rfl

theorem ActiveStep.running {input : World.Input} (controlled : Controlled world)
    (step : ActiveStep world input next) : world.shutdown = false := by
  cases step with
  | processNoMulti at_ | write at_ | stream at_ | ignoreMessage at_ | retry at_ | finish at_
  | destroyHandlers at_ | extract at_ | dropFailed at_ | requeue at_ =>
    exact controlled.running at_ rfl

theorem AgendaStep.phase_eq (step : AgendaStep world next) : next.phase = world.phase := by
  cases step with
  | _ => rfl

theorem submit_phase (world : World) (request : Option HttpRequest) (callback : Bool) :
    (world.submit request callback).phase = world.phase ∧
      (world.submit request callback).agenda = world.agenda := by
  rcases submit_cases world request callback with rejected | ⟨_, admitted⟩
  · rw [rejected]
    exact ⟨rfl, rfl⟩
  · rw [admitted]
    exact ⟨rfl, rfl⟩

theorem CallerStep.phase_eq (step : CallerStep world action next) :
    next.phase = world.phase ∧ next.agenda = world.agenda := by
  cases step with
  | submit => exact submit_phase _ _ _
  | @clientSubmits position client request callback =>
    exact submit_phase { world with callers := world.callers.eraseIdx position } (some request)
      callback
  | cancelById | cancelByGroup =>
    unfold World.callCancel
    dsimp only
    split <;> exact ⟨rfl, rfl⟩
  | _ => exact ⟨rfl, rfl⟩

theorem HandleStep.phase_eq (step : HandleStep world action next) :
    next.phase = world.phase ∧ next.agenda = world.agenda := by
  obtain ⟨_, _, _, _, rfl⟩ := step.frame
  exact ⟨rfl, rfl⟩

/-! ### What `shutdown` has emptied -/

/-- The containers `shutdown` has emptied so far stay empty. -/
structure Drained (world : World) : Prop where
  queues : world.shutdown = true → world.phase ≠ .cleanupPending →
    world.pendingRequests = [] ∧ world.failedRequests = []
  batches : world.shutdown = true → world.phase = .notifyAll ∨ world.phase = .idle →
    world.activeRequestBatches = []
  waiters : world.shutdown = true → world.phase = .idle → world.groupWaiters.isEmpty = true

/-- A step that fills no container. -/
structure Unfilled (world next : World) : Prop where
  pending : next.pendingRequests = world.pendingRequests
  failed : next.failedRequests = world.failedRequests
  batches : next.activeRequestBatches = world.activeRequestBatches
  waiters : world.groupWaiters.isEmpty = true → next.groupWaiters.isEmpty = true

theorem Drained.unfilled (drained : Drained world) (shutdown : next.shutdown = world.shutdown)
    (phase : next.phase = world.phase) (unfilled : Unfilled world next) : Drained next where
  queues stopped past := by
    rw [unfilled.pending, unfilled.failed]
    exact drained.queues (shutdown ▸ stopped) (phase ▸ past)
  batches stopped at_ := by
    rw [unfilled.batches]
    exact drained.batches (shutdown ▸ stopped) (phase ▸ at_)
  waiters stopped at_ := unfilled.waiters (drained.waiters (shutdown ▸ stopped) (phase ▸ at_))

theorem Drained.of_running (running : next.shutdown = false) : Drained next where
  queues stopped := absurd stopped (by rw [running]; simp)
  batches stopped := absurd stopped (by rw [running]; simp)
  waiters stopped := absurd stopped (by rw [running]; simp)

theorem AgendaStep.unfilled (step : AgendaStep world next) : Unfilled world next := by
  cases step with
  | @settleGroup token group rest agenda captured =>
    obtain ⟨counts, waiters, same⟩ :=
      HttpRequestManager.completeGroupRequest_frame world.toHttpRequestManager group
    refine ⟨by simp only [same], by simp only [same], by simp only [same], fun empty => ?_⟩
    dsimp only
    unfold HttpRequestManager.completeGroupRequest
    split
    · exact empty
    · split
      · exact empty
      · split
        · exact empty
        · rw [Table.isEmpty_iff] at empty ⊢
          intro key
          dsimp only
          rw [Table.lookup_erase_eq, empty, ite_self]
  | _ => exact ⟨rfl, rfl, rfl, id⟩

/-- After the flag was raised nothing is admitted. -/
theorem submit_stopped (stopped : world.shutdown = true) (request : Option HttpRequest)
    (callback : Bool) : world.submit request callback =
      world.dropHandles ((request.map HttpRequest.handles).getD []) := by
  unfold World.submit HttpRequestManager.submitRequest
  rw [if_pos stopped]

theorem CallerStep.unfilled (stopped : world.shutdown = true)
    (step : CallerStep world action next) : Unfilled world next := by
  cases step with
  | submit =>
    rw [submit_stopped stopped]
    exact ⟨rfl, rfl, rfl, id⟩
  | @clientSubmits position client request callback =>
    have stoppedToo : ({ world with callers := world.callers.eraseIdx position } : World).shutdown =
        true := stopped
    unfold World.finishClientSubmit
    rw [submit_stopped stoppedToo]
    exact ⟨rfl, rfl, rfl, id⟩
  | waitRegister unlocked registered =>
    have running := (HttpRequestManager.registerWaiter_eq_some registered).1.1
    rw [stopped] at running
    exact absurd running (by simp)
  | cancelWait unlocked removed =>
    obtain ⟨waiters, present, _, rfl⟩ := HttpRequestManager.cancelWait_eq_some removed
    refine ⟨rfl, rfl, rfl, fun empty => ?_⟩
    rw [Table.isEmpty_iff] at empty
    rw [empty] at present
    exact absurd present (by simp)
  | insertByGroup unlocked found queued =>
    rw [HttpRequestManager.queueCancelByGroup_eq_some queued]
    exact ⟨rfl, rfl, rfl, id⟩
  | cancelById | cancelByGroup =>
    unfold World.callCancel
    dsimp only
    split <;> exact ⟨rfl, rfl, rfl, id⟩
  | _ => exact ⟨rfl, rfl, rfl, id⟩

theorem HandleStep.unfilled (step : HandleStep world action next) : Unfilled world next := by
  obtain ⟨_, _, _, _, rfl⟩ := step.frame
  exact ⟨rfl, rfl, rfl, id⟩

/-- The worker moves within `shutdown`, or begins a `process` or `shutdown` that does nothing. -/
theorem Drained.jump {phase : Phase} {clock : TimePoint} (drained : Drained world)
    (controlled : Controlled world) (stopped : world.shutdown = true)
    (jump : Jump world action phase) : Drained { world with phase, clock } := by
  have queues : ∀ past, world.phase = past → past ≠ .cleanupPending →
      world.pendingRequests = [] ∧ world.failedRequests = [] :=
    fun past at_ other => drained.queues stopped (at_ ▸ other)
  have impossible : ∀ past, world.phase = past → past.stopping = some false → False := by
    intro past at_ running
    have flag := controlled.running at_ running
    rw [stopped] at flag
    exact absurd flag (by simp)
  cases jump with
  | process at_ running =>
    rw [stopped] at running
    exact absurd running (by simp)
  | processAfterShutdown at_ | shutdownAgain at_ =>
    exact ⟨fun _ _ => queues _ at_ (by simp), fun _ _ => drained.batches stopped (Or.inr at_),
      fun _ idle => absurd idle (by simp)⟩
  | @nothingToCancel mode at_ =>
    cases mode with
    | process => exact (impossible _ at_ rfl).elim
    | shutdown =>
      exact ⟨fun _ _ => queues _ at_ (by simp),
        fun _ reached => absurd reached (by simp [World.afterCancel]),
        fun _ reached => absurd reached (by simp [World.afterCancel])⟩
  | failedScanned at_ | failedKept at_ =>
    exact ⟨fun _ _ => queues _ at_ (by simp), fun _ reached => absurd reached (by simp),
      fun _ reached => absurd reached (by simp)⟩
  | skipScan at_ | enterScan at_ | refused at_ | multiHandle at_ | noBatch at_ | perform at_
  | performed at_ | performFailed at_ | stillRunning at_ | batchGone at_ | nothingToExtract at_
  | retryDone at_ | retryLater at_ => exact (impossible _ at_ rfl).elim

theorem Drained.cancel (drained : Drained world) (stopped : world.shutdown = true)
    (step : CancelStep world next) : Drained next := by
  cases step with
  | takeCancels at_ =>
    obtain ⟨pending, failed⟩ := drained.queues stopped (by rw [at_]; simp)
    refine ⟨fun _ _ => ⟨?_, failed⟩, fun _ reached => absurd reached (by simp),
      fun _ reached => absurd reached (by simp)⟩
    dsimp only
    rw [pending, List.filter_nil]
  | cancelFailed at_ found =>
    obtain ⟨pending, failed⟩ := drained.queues stopped (by rw [at_]; simp)
    rw [failed] at found
    exact absurd found (by simp)
  | cancelBatch at_ =>
    exact ⟨fun _ _ => drained.queues stopped (by rw [at_]; simp),
      fun _ reached => absurd reached (by simp), fun _ reached => absurd reached (by simp)⟩
  | @batchesScanned ids groups index mode at_ =>
    refine ⟨fun _ _ => drained.queues stopped (by rw [at_]; simp), ?_, ?_⟩
    · cases mode <;> exact fun _ reached => absurd reached (by simp [World.afterCancel])
    · cases mode <;> exact fun _ reached => absurd reached (by simp [World.afterCancel])

theorem Drained.closing (drained : Drained world) (controlled : Controlled world)
    (stopped : world.shutdown = true) (step : ClosingStep world next) : Drained next := by
  cases step with
  | notifyIdle at_ =>
    have flag := controlled.running at_ rfl
    rw [stopped] at flag
    exact absurd flag (by simp)
  | notifyAll at_ =>
    exact ⟨fun _ _ => drained.queues stopped (by rw [at_]; simp),
      fun _ _ => drained.batches stopped (Or.inl at_), fun _ _ => rfl⟩
  | cleanup at_ =>
    exact ⟨fun _ _ => ⟨rfl, rfl⟩,
      fun _ reached => absurd reached (by simp [World.cleanupPendingStep]),
      fun _ reached => absurd reached (by simp [World.cleanupPendingStep])⟩
  | clear at_ =>
    exact ⟨fun _ _ => drained.queues stopped (by rw [at_]; simp), fun _ _ => rfl,
      fun _ reached => absurd reached (by simp [World.clearBatchesStep])⟩

theorem Drained.step (drained : Drained world) (controlled : Controlled world)
    (transition : Transition world action next) : Drained next := by
  cases stopped : world.shutdown with
  | false =>
    cases transition with
    | shutdown agenda at_ running =>
      exact ⟨fun _ past => absurd rfl past, fun _ reached => absurd reached (by simp),
        fun _ reached => absurd reached (by simp)⟩
    | jump agenda jump => exact .of_running stopped
    | pending agenda step => exact .of_running ((step.continues controlled).shutdown.trans stopped)
    | active agenda step => exact .of_running ((step.continues controlled).shutdown.trans stopped)
    | cancel agenda step => exact .of_running ((step.continues controlled).shutdown.trans stopped)
    | closing agenda step => exact .of_running ((step.continues controlled).shutdown.trans stopped)
    | agenda step => exact .of_running ((step.continues controlled).shutdown.trans stopped)
    | caller step => exact .of_running ((step.continues controlled).shutdown.trans stopped)
    | handles step => exact .of_running ((step.continues controlled).shutdown.trans stopped)
  | true =>
    cases transition with
    | jump agenda jump => exact drained.jump controlled stopped jump
    | pending agenda step => exact absurd (step.running controlled) (by rw [stopped]; simp)
    | active agenda step => exact absurd (step.running controlled) (by rw [stopped]; simp)
    | cancel agenda step => exact drained.cancel stopped step
    | closing agenda step => exact drained.closing controlled stopped step
    | agenda step =>
      exact drained.unfilled (step.continues controlled).shutdown step.phase_eq step.unfilled
    | shutdown agenda at_ running => exact absurd running (by rw [stopped]; simp)
    | caller step =>
      exact drained.unfilled (step.continues controlled).shutdown step.phase_eq.1
        (step.unfilled stopped)
    | handles step =>
      exact drained.unfilled (step.continues controlled).shutdown step.phase_eq.1 step.unfilled

theorem drained_of_reachable (reachable : managerSystem.Reachable world) : Drained world := by
  refine reachable.induction Drained (.of_running rfl) ?_
  intro state action after reached drained stepped
  exact drained.step (controlled_of_reachable reached) (step_transition stepped)

/-- The flag was raised, and the worker is outside of `process` and `shutdown`. -/
def World.ShutdownReturned (world : World) : Prop :=
  world.shutdown = true ∧ world.phase = .idle ∧ world.agenda = []

instance : DecidablePred World.ShutdownReturned :=
  fun world => inferInstanceAs
    (Decidable (world.shutdown = true ∧ world.phase = .idle ∧ world.agenda = []))

end Kurlyk.Http
