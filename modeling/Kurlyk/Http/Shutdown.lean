/-
This file decides what a shutdown does to the requests that are not finished.
`shutdown` answers the pending and the failed requests of the manager, then the
requests that are to be cancelled, and at last destroys the batches, whose
handlers answer their own requests. A request that waits for a retry inside a
batch is held by none of these: its context is destroyed without a word. After a
shutdown every accepted request has its one final response, and the manager is
empty, if and only if no batch held such a request when the shutdown began.
-/

import Kurlyk.Http.CancelCalls
import Kurlyk.Http.Groups

namespace Kurlyk.Http

variable {world next : World} {action : Action} {token : Token}

/-! ### Contexts that are destroyed unanswered -/

/-- The context is about to be destroyed unanswered, or was. -/
def World.Dropped (world : World) (token : Token) : Prop :=
  .discard token ∈ world.agenda ∨ .abandoned token ∈ world.log

/-- The requests that wait for a retry inside a batch. -/
def World.batchFailed (world : World) : List Token :=
  world.activeRequestBatches.flatMap HttpBatchRequestHandler.failedRequests

/-- What a step makes of the dropped contexts. -/
inductive DropStep (world next : World) : Prop where
  | keep (dropped : ∀ token, next.Dropped token ↔ world.Dropped token)
  | dropFailed (token : Token) (failed : token ∈ world.failedRequests)
    (carried : (world.contexts token).request = none)
  | clear (at_ : world.phase = .clearBatches) (agenda : world.agenda = [])
    (cleared : next = world.clearBatchesStep)

/-- The worker, with nothing on its agenda, takes up calls that drop nothing. -/
theorem DropStep.taken (events : List Event) (agenda : world.agenda = [])
    (kept : ∀ token, .discard token ∉ next.agenda) (logged : next.log = world.log ++ events)
    (silent : ∀ token, .abandoned token ∉ events) : DropStep world next := by
  refine .keep fun token => ?_
  rw [World.Dropped, World.Dropped, agenda, logged, List.mem_append, or_iff_left (silent token),
    or_iff_right (kept token), or_iff_right List.not_mem_nil]

/-- A step that leaves the agenda alone. -/
theorem DropStep.aside (events : List Event) (agenda : next.agenda = world.agenda)
    (logged : next.log = world.log ++ events) (silent : ∀ token, .abandoned token ∉ events) :
    DropStep world next := by
  refine .keep fun token => ?_
  rw [World.Dropped, World.Dropped, agenda, logged, List.mem_append, or_iff_left (silent token)]

/-- The first call of the agenda is replaced by calls that drop nothing. -/
theorem DropStep.called (call : Call) (added rest : List Call) (events : List Event)
    (before : world.agenda = call :: rest) (after : next.agenda = added ++ rest)
    (head : ∀ token, call ≠ .discard token) (kept : ∀ token, .discard token ∉ added)
    (logged : next.log = world.log ++ events) (silent : ∀ token, .abandoned token ∉ events) :
    DropStep world next := by
  refine .keep fun token => ?_
  have other : .discard token ≠ call := fun same => head token same.symm
  rw [World.Dropped, World.Dropped, before, after, logged]
  simp only [List.mem_append, List.mem_cons, other, kept token, silent token, false_or, or_false]

theorem PendingStep.drops {input : World.Input} (agenda : world.agenda = [])
    (step : PendingStep world input next) : DropStep world next := by
  cases step with
  | scanned | noMultiHandle | noEasyHandle =>
    exact .taken [] agenda (by simp) (List.append_nil _).symm (by simp)
  | dispatch | start => exact .aside _ rfl rfl (by simp)
  | badRequest | batchBuilt => exact .aside [] rfl (List.append_nil _).symm (by simp)

theorem ActiveStep.drops {input : World.Input} (agenda : world.agenda = [])
    (step : ActiveStep world input next) : DropStep world next := by
  cases step with
  | processNoMulti | finish | destroyHandlers | extract =>
    exact .taken [] agenda (by simp) (List.append_nil _).symm (by simp)
  | stream | retry | requeue => exact .aside _ rfl rfl (by simp)
  | write | ignoreMessage => exact .aside [] rfl (List.append_nil _).symm (by simp)
  | dropFailed at_ found carried => exact .dropFailed _ (List.mem_of_getElem? found) carried

theorem CancelStep.drops (agenda : world.agenda = []) (step : CancelStep world next) :
    DropStep world next := by
  cases step with
  | _ => exact .taken [] agenda (by simp) (List.append_nil _).symm (by simp)

theorem ClosingStep.drops (agenda : world.agenda = []) (step : ClosingStep world next) :
    DropStep world next := by
  cases step with
  | clear at_ => exact .clear at_ agenda rfl
  | notifyIdle | notifyAll =>
    exact .taken [] agenda (by simp [World.notifyStep]) (List.append_nil _).symm (by simp)
  | cleanup =>
    exact .taken [] agenda (by simp [World.cleanupPendingStep]) (List.append_nil _).symm (by simp)

theorem AgendaStep.drops (step : AgendaStep world next) : DropStep world next := by
  cases step with
  | @discard token rest agenda =>
    refine .keep fun other => ?_
    rw [World.Dropped, World.Dropped, agenda]
    simp only [List.mem_append, List.mem_cons, Call.discard.injEq, List.not_mem_nil, or_false,
      Event.abandoned.injEq]
    tauto
  | @settleGroup token group rest agenda =>
    exact .called _ _ rest [.completed token] agenda rfl (by simp) (by simp) rfl (by simp)
  | @finalCallback token response rest agenda =>
    exact .called _ [.complete token] rest _ agenda rfl (by simp) (by simp) rfl (by simp)
  | @complete token rest agenda =>
    exact .called _ [.onGroupComplete token] rest _ agenda rfl (by simp) (by simp) rfl (by simp)
  | @settle token rest agenda =>
    exact .called _ [] rest _ agenda rfl (by simp) (by simp) rfl (by simp)
  | @notifyWaiter waiter rest agenda =>
    exact .called _ [] rest _ agenda rfl (by simp) (by simp) rfl (by simp)
  | @invokeCancel callback rest agenda =>
    exact .called _ [] rest _ agenda rfl (by simp) (by simp) rfl (by simp)
  | @completeAgain token rest agenda =>
    exact .called _ [] rest [] agenda rfl (by simp) (by simp) (List.append_nil _).symm (by simp)
  | @handlerAnswered call handler rest agenda handled =>
    refine .called call [] rest [] agenda rfl ?_ (by simp) (List.append_nil _).symm (by simp)
    rcases handled with rfl | rfl <;> simp
  | @destroyHandler handler token response rest agenda =>
    exact .called _ [.invokeFinalCallback token (response.closed .abortedDuringDestruction)] rest
      [] agenda rfl (by simp) (by simp) (List.append_nil _).symm (by simp)
  | @cancelHandler handler token response rest agenda =>
    exact .called _ [.invokeFinalCallback token (response.closed .cancelledByUser)] rest
      [] agenda rfl (by simp) (by simp) (List.append_nil _).symm (by simp)

theorem submit_logged (world : World) (request : Option HttpRequest) (callback : Bool) :
    ∃ events, (world.submit request callback).log = world.log ++ events ∧
      ∀ token, .abandoned token ∉ events := by
  rcases submit_cases world request callback with rejected | ⟨_, admitted⟩
  · exact ⟨[], by rw [rejected, List.append_nil]; rfl, by simp⟩
  · exact ⟨_, congrArg World.log admitted, by simp⟩

theorem CallerStep.drops (step : CallerStep world action next) : DropStep world next := by
  cases step with
  | @submit request callback =>
    obtain ⟨events, logged, silent⟩ := submit_logged world request callback
    exact .aside events (submit_phase world request callback).2 logged silent
  | @clientSubmits position client request callback =>
    obtain ⟨events, logged, silent⟩ := submit_logged
      { world with callers := world.callers.eraseIdx position } (some request) callback
    exact .aside events (submit_phase { world with callers := world.callers.eraseIdx position }
      (some request) callback).2 logged silent
  | cancelById | cancelByGroup =>
    unfold World.callCancel
    dsimp only
    split <;> exact .aside _ rfl rfl (by simp)
  | waitNow | waitRegister | cancelWait | callerWaits | callerCancels =>
    exact .aside _ rfl rfl (by simp)
  | _ => exact .aside [] rfl (List.append_nil _).symm (by simp)

theorem HandleStep.drops (step : HandleStep world action next) : DropStep world next := by
  obtain ⟨_, _, _, _, rfl⟩ := step.frame
  exact .aside [] rfl (List.append_nil _).symm (by simp)

theorem Transition.drops (transition : Transition world action next) : DropStep world next := by
  cases transition with
  | jump => exact .aside [] rfl (List.append_nil _).symm (by simp)
  | pending agenda step => exact step.drops agenda
  | active agenda step => exact step.drops agenda
  | cancel agenda step => exact step.drops agenda
  | closing agenda step => exact step.drops agenda
  | agenda step => exact step.drops
  | shutdown => exact .aside _ rfl rfl (by simp)
  | caller step => exact step.drops
  | handles step => exact step.drops

/-- A request that waits for a retry in the manager carries a request. -/
theorem Orderly.failed_request (orderly : Orderly world) (failed : token ∈ world.failedRequests) :
    (world.contexts token).request ≠ none := by
  have member : (token, Place.retrying) ∈ world.holdings := mem_holdings_of_failed failed
  obtain ⟨_, _, _, _, carried⟩ := orderly.custody.fits token _ member
  intro absent
  have missing : (world.status token).2.request = none := absent
  rw [missing] at carried
  exact absurd carried (by simp)

/-- Before a shutdown nothing is dropped. -/
theorem not_dropped_of_running (reachable : managerSystem.Reachable world) :
    world.shutdown = false → ∀ token, ¬ world.Dropped token := by
  refine reachable.induction
    (fun world => world.shutdown = false → ∀ token, ¬ world.Dropped token) ?_ ?_
  · intro _ token dropped
    rcases dropped with onAgenda | logged
    · exact List.not_mem_nil onAgenda
    · exact List.not_mem_nil logged
  · intro state action after reached kept stepped still token
    have transition := step_transition stepped
    have controlled := controlled_of_reachable reached
    have running := transition.running controlled still
    cases transition.drops with
    | keep dropped =>
      rw [dropped]
      exact kept running token
    | dropFailed other failed carried =>
      exact absurd carried ((orderly_of_reachable reached).failed_request failed)
    | clear at_ =>
      have stopped := controlled.phase true (by rw [at_]; rfl)
      rw [running] at stopped
      exact absurd stopped (by simp)

/-! ### The batches during a shutdown -/

theorem batchFailed_set {batches : List HttpBatchRequestHandler} {index : ℕ}
    {batch written : HttpBatchRequestHandler} (found : batches[index]? = some batch)
    (same : written.failedRequests = batch.failedRequests) :
    (batches.set index written).flatMap HttpBatchRequestHandler.failedRequests =
      batches.flatMap HttpBatchRequestHandler.failedRequests := by
  obtain ⟨before, after, split, _, _, set⟩ := exists_split found
  rw [set, split, List.flatMap_append, List.flatMap_append, List.flatMap_cons, List.flatMap_cons,
    same]

/-- The step that destroys the batches. -/
def Clears (world next : World) : Prop :=
  world.phase = .clearBatches ∧ world.agenda = [] ∧ next = world.clearBatchesStep

/-- `shutdown` does not touch the failed requests of a batch until it destroys the batch. -/
theorem Transition.batchFailed (controlled : Controlled world) (stopped : world.shutdown = true)
    (transition : Transition world action next) (other : ¬ Clears world next) :
    next.batchFailed = world.batchFailed := by
  cases transition with
  | jump => rfl
  | pending agenda step => exact absurd (step.running controlled) (by rw [stopped]; simp)
  | active agenda step => exact absurd (step.running controlled) (by rw [stopped]; simp)
  | cancel agenda step =>
    cases step with
    | cancelBatch at_ found => exact batchFailed_set found rfl
    | _ => rfl
  | closing agenda step =>
    cases step with
    | clear at_ => exact absurd ⟨at_, agenda, rfl⟩ other
    | _ => rfl
  | agenda step => rw [World.batchFailed, step.unfilled.batches]; rfl
  | shutdown => rfl
  | caller step => rw [World.batchFailed, (step.unfilled stopped).batches]; rfl
  | handles step => rw [World.batchFailed, step.unfilled.batches]; rfl

/-- The context waits for a retry inside a batch, or is dropped. -/
def World.Doomed (world : World) (token : Token) : Prop :=
  token ∈ world.batchFailed ∨ world.Dropped token

theorem Clears.doomed (clears : Clears world next) (token : Token) :
    next.Doomed token ↔ world.Doomed token := by
  obtain ⟨_, agenda, rfl⟩ := clears
  have gone : token ∉ world.clearBatchesStep.batchFailed := List.not_mem_nil
  have discarded : .discard token ∈ world.clearBatchesStep.agenda ↔ token ∈ world.batchFailed := by
    simp only [World.clearBatchesStep, World.batchFailed, List.mem_flatMap, List.mem_append,
      List.mem_map, Call.discard.injEq, exists_eq_right, reduceCtorEq, and_false, exists_false,
      or_false]
  rw [World.Doomed, World.Doomed, World.Dropped, World.Dropped, or_iff_right gone, discarded,
    agenda, or_iff_right List.not_mem_nil]
  rfl

/-- During a shutdown the doomed contexts stay the same. -/
theorem Transition.doomed (controlled : Controlled world) (orderly : Orderly world)
    (stopped : world.shutdown = true) (transition : Transition world action next) (token : Token) :
    next.Doomed token ↔ world.Doomed token := by
  by_cases clears : Clears world next
  · exact clears.doomed token
  · rw [World.Doomed, World.Doomed, transition.batchFailed controlled stopped clears]
    cases transition.drops with
    | keep dropped => rw [dropped token]
    | dropFailed other failed carried => exact absurd carried (orderly.failed_request failed)
    | clear at_ agenda cleared => exact absurd ⟨at_, agenda, cleared⟩ clears

/-! ### The maps of queued cancellations -/

/-- A thread has read the shutdown flag, and goes on to queue a cancellation. -/
def Caller.inserts : Caller → Bool
  | .insertById _ _ => true
  | .insertByGroup _ _ => true
  | _ => false

/-- The flag is raised, no thread queues a cancellation any more, and the maps are empty once
`shutdown` has taken them. -/
structure Closing (world : World) : Prop where
  stopped : world.shutdown = true
  callers : ∀ caller ∈ world.callers, caller.inserts = false
  maps : world.cancelsTaken = true →
    world.requestsToCancelById.isEmpty = true ∧ world.groupsToCancel.isEmpty = true

theorem Closing.jump {phase : Phase} {clock : TimePoint} (closing : Closing world)
    (controlled : Controlled world) (jump : Jump world action phase) :
    Closing { world with phase, clock } := by
  have taken : ∀ past, world.phase = past → past.beforeTake = false →
      world.requestsToCancelById.isEmpty = true ∧ world.groupsToCancel.isEmpty = true :=
    fun past at_ after => closing.maps (cancelsTaken_iff.mpr ⟨closing.stopped, at_ ▸ after⟩)
  have impossible : ∀ past, world.phase = past → past.stopping = some false → False := by
    intro past at_ running
    have flag := controlled.running at_ running
    rw [closing.stopped] at flag
    exact absurd flag (by simp)
  refine ⟨closing.stopped, closing.callers, fun _ => ?_⟩
  cases jump with
  | nothingToCancel at_ noIds noGroups => exact ⟨noIds, noGroups⟩
  | processAfterShutdown at_ | shutdownAgain at_ | failedScanned at_ | failedKept at_ =>
    exact taken _ at_ rfl
  | process at_ running =>
    rw [closing.stopped] at running
    exact absurd running (by simp)
  | skipScan at_ | enterScan at_ | refused at_ | multiHandle at_ | noBatch at_ | perform at_
  | performed at_ | performFailed at_ | stillRunning at_ | batchGone at_ | nothingToExtract at_
  | retryDone at_ | retryLater at_ => exact (impossible _ at_ rfl).elim

theorem Closing.cancel (closing : Closing world) (step : CancelStep world next) :
    Closing next := by
  have taken : ∀ past, world.phase = past → past.beforeTake = false →
      world.requestsToCancelById.isEmpty = true ∧ world.groupsToCancel.isEmpty = true :=
    fun past at_ after => closing.maps (cancelsTaken_iff.mpr ⟨closing.stopped, at_ ▸ after⟩)
  cases step with
  | takeCancels => exact ⟨closing.stopped, closing.callers, fun _ => ⟨rfl, rfl⟩⟩
  | cancelFailed at_ | cancelBatch at_ | batchesScanned at_ =>
    exact ⟨closing.stopped, closing.callers, fun _ => taken _ at_ rfl⟩

theorem Closing.closing (closing : Closing world) (step : ClosingStep world next) :
    Closing next := by
  have taken : ∀ past, world.phase = past → past.beforeTake = false →
      world.requestsToCancelById.isEmpty = true ∧ world.groupsToCancel.isEmpty = true :=
    fun past at_ after => closing.maps (cancelsTaken_iff.mpr ⟨closing.stopped, at_ ▸ after⟩)
  cases step with
  | cleanup =>
    refine ⟨closing.stopped, closing.callers, fun after => absurd after ?_⟩
    simp [World.cancelsTaken, World.cleanupPendingStep, Phase.beforeTake]
  | notifyIdle at_ | notifyAll at_ | clear at_ =>
    exact ⟨closing.stopped, closing.callers, fun _ => taken _ at_ rfl⟩

/-- A step of another thread that queues nothing. -/
theorem Closing.aside (closing : Closing world) (shutdown : next.shutdown = world.shutdown)
    (phase : next.phase = world.phase)
    (ids : next.requestsToCancelById = world.requestsToCancelById)
    (groups : next.groupsToCancel = world.groupsToCancel)
    (callers : ∀ caller ∈ next.callers, caller ∈ world.callers ∨ caller.inserts = false) :
    Closing next where
  stopped := shutdown.trans closing.stopped
  callers caller member := (callers caller member).elim (closing.callers caller) id
  maps taken := by
    rw [ids, groups]
    exact closing.maps (cancelsTaken_congr shutdown phase ▸ taken)

theorem AgendaStep.sameMaps (step : AgendaStep world next) :
    next.requestsToCancelById = world.requestsToCancelById ∧
      next.groupsToCancel = world.groupsToCancel ∧ next.callers = world.callers := by
  cases step with
  | @settleGroup token group rest agenda captured =>
    obtain ⟨counts, waiters, same⟩ :=
      HttpRequestManager.completeGroupRequest_frame world.toHttpRequestManager group
    exact ⟨by simp only [same], by simp only [same], rfl⟩
  | _ => exact ⟨rfl, rfl, rfl⟩

theorem HandleStep.sameMaps (step : HandleStep world action next) :
    next.requestsToCancelById = world.requestsToCancelById ∧
      next.groupsToCancel = world.groupsToCancel ∧ next.callers = world.callers := by
  obtain ⟨_, _, _, _, rfl⟩ := step.frame
  exact ⟨rfl, rfl, rfl⟩

theorem Closing.caller (closing : Closing world) (step : CallerStep world action next) :
    Closing next := by
  have erased : ∀ {position : ℕ} {caller : Caller},
      caller ∈ world.callers.eraseIdx position → caller ∈ world.callers :=
    fun member => List.mem_of_mem_eraseIdx member
  have noInsertion : ∀ {position : ℕ} {caller : Caller},
      world.callers[position]? = some caller → caller.inserts = true → False := by
    intro position caller found inserts
    have quiet := closing.callers caller (List.mem_of_getElem? found)
    rw [inserts] at quiet
    exact absurd quiet (by simp)
  cases step with
  | submit =>
    rw [submit_stopped closing.stopped]
    exact closing.aside rfl rfl rfl rfl fun _ member => Or.inl member
  | @clientSubmits position client request callback =>
    have stopped : ({ world with callers := world.callers.eraseIdx position } : World).shutdown =
        true := closing.stopped
    unfold World.finishClientSubmit
    rw [submit_stopped stopped]
    exact closing.aside rfl rfl rfl rfl fun _ member => Or.inl (erased member)
  | waitRegister unlocked registered =>
    have running := (HttpRequestManager.registerWaiter_eq_some registered).1.1
    rw [closing.stopped] at running
    exact absurd running (by simp)
  | cancelWait unlocked removed =>
    obtain ⟨_, _, _, rfl⟩ := HttpRequestManager.cancelWait_eq_some removed
    exact closing.aside rfl rfl rfl rfl fun _ member => Or.inl member
  | cancelById | cancelByGroup =>
    unfold World.callCancel
    dsimp only
    rw [if_pos (Or.inl closing.stopped)]
    refine closing.aside rfl rfl rfl rfl fun caller member => ?_
    rcases List.mem_append.mp member with old | new
    · exact Or.inl old
    · obtain ⟨_, _, rfl⟩ := List.mem_map.mp new
      exact Or.inr rfl
  | waitNow =>
    refine closing.aside rfl rfl rfl rfl fun caller member => ?_
    rcases List.mem_append.mp member with old | new
    · exact Or.inl old
    · obtain ⟨_, _, rfl⟩ := List.mem_map.mp new
      exact Or.inr rfl
  | clientBegins =>
    refine closing.aside rfl rfl rfl rfl fun caller member => ?_
    rcases List.mem_append.mp member with old | new
    · exact Or.inl old
    · rw [List.mem_singleton.mp new]
      exact Or.inr rfl
  | callerWaits | callerCancels =>
    exact closing.aside rfl rfl rfl rfl fun _ member => Or.inl (erased member)
  | insertById unlocked found => exact (noInsertion found rfl).elim
  | insertByGroup unlocked found => exact (noInsertion found rfl).elim
  | groupIdle unlocked found => exact (noInsertion found rfl).elim
  | _ => exact closing.aside rfl rfl rfl rfl fun _ member => Or.inl member

theorem Closing.step (closing : Closing world) (controlled : Controlled world)
    (transition : Transition world action next) : Closing next := by
  cases transition with
  | jump agenda jump => exact closing.jump controlled jump
  | pending agenda step => exact absurd (step.running controlled) (by rw [closing.stopped]; simp)
  | active agenda step => exact absurd (step.running controlled) (by rw [closing.stopped]; simp)
  | cancel agenda step => exact closing.cancel step
  | closing agenda step => exact closing.closing step
  | agenda step =>
    obtain ⟨ids, groups, callers⟩ := step.sameMaps
    exact closing.aside (step.continues controlled).shutdown step.phase_eq ids groups
      fun _ member => Or.inl (callers ▸ member)
  | shutdown agenda at_ running =>
    rw [closing.stopped] at running
    exact absurd running (by simp)
  | caller step => exact closing.caller step
  | handles step =>
    obtain ⟨ids, groups, callers⟩ := step.sameMaps
    exact closing.aside (step.continues controlled).shutdown step.phase_eq.1 ids groups
      fun _ member => Or.inl (callers ▸ member)

/-! ### After the shutdown -/

/-- What a shutdown promises: every accepted request was answered with one final response, and
nothing is left in the manager. -/
structure Settled (world : World) : Prop where
  answered : ∀ token, .accepted token ∈ world.log →
    (responses world.log token).countP (·.ready) = 1
  pending : world.pendingRequests = []
  failed : world.failedRequests = []
  batches : world.activeRequestBatches = []
  counts : world.groupRequestCounts.isEmpty = true
  unloaded : world.toHttpRequestManager.isLoaded = false

/-- The worker begins a shutdown. -/
theorem callShutdown_eq {start : World} (running : world.shutdown = false)
    (began : managerSystem.step world .callShutdown = some start) :
    world.agenda = [] ∧ start = { world with
      shutdown := true
      phase := .cleanupPending
      log := world.log ++ [.shutdownBegan] } := by
  cases step_transition began with
  | jump agenda jump =>
    cases jump with
    | shutdownAgain at_ stopped =>
      rw [running] at stopped
      exact absurd stopped (by simp)
  | shutdown agenda => exact ⟨agenda, rfl⟩
  | caller step => cases step
  | handles step => cases step

/-- An accepted request that nobody holds and nobody dropped is done. -/
theorem Orderly.isDone (orderly : Orderly world) (accepted : .accepted token ∈ world.log)
    (kept : .abandoned token ∉ world.log) (free : token ∉ world.holdings.map Prod.fst) :
    (stageOf world.log token).isDone = true := by
  have intact : stageOf world.log token ≠ .broken := (orderly.custody.sound token).1
  have released : (stageOf world.log token).isHeld = false := by
    rw [← Bool.not_eq_true]
    exact fun owed => free (orderly.custody.held token owed)
  rw [accepted_mem_iff intact] at accepted
  rw [abandoned_mem_iff intact] at kept
  cases stage : stageOf world.log token with
  | absent => exact absurd stage accepted
  | broken => exact absurd stage intact
  | done => rfl
  | lost =>
    rw [stage] at kept
    exact absurd rfl kept
  | queued | dispatched | flying | retrying | final | released =>
    rw [stage] at released
    exact absurd released (by simp [Stage.isHeld, Stage.isOpen])

/-- Once `shutdown` has returned, a request is answered unless its context was dropped. -/
theorem done_of_returned (orderly : Orderly world) (drained : Drained world)
    (returned : world.ShutdownReturned) (accepted : .accepted token ∈ world.log)
    (kept : .abandoned token ∉ world.log) : (stageOf world.log token).isDone = true := by
  obtain ⟨stopped, idle, done⟩ := returned
  have nothing : world.holdings = [] := by
    obtain ⟨pending, failed⟩ := drained.queues stopped (by rw [idle]; simp)
    rw [World.holdings, pending, failed, drained.batches stopped (Or.inr idle), idle, done]
    rfl
  refine orderly.isDone accepted kept ?_
  rw [nothing]
  exact List.not_mem_nil

theorem counts_empty (counted : GroupsCounted world)
    (completed : ∀ token, .accepted token ∈ world.log → .completed token ∈ world.log) :
    world.groupRequestCounts.isEmpty = true := by
  rw [Table.isEmpty_iff]
  intro group
  by_cases zero : group = 0
  · rw [zero]
    exact counted.grouped
  · have none : world.outstanding group = ∅ := by
      refine Finset.filter_eq_empty_iff.mpr fun token _ open_ => ?_
      exact open_.2.2 (completed token open_.1)
    have count := counted.counted group zero
    rw [none, Finset.card_empty] at count
    cases found : world.groupRequestCounts.lookup group with
    | none => rfl
    | some value =>
      rw [found, Option.getD_some] at count
      exact absurd found (count ▸ counted.positive group)

/-- A dropped context was never given its final response. -/
theorem Settled.not_abandoned (settled : Settled world) (orderly : Orderly world) :
    .abandoned token ∉ world.log := by
  intro member
  have intact : stageOf world.log token ≠ .broken := (orderly.custody.sound token).1
  have lost := (abandoned_mem_iff intact).mp member
  have accepted : .accepted token ∈ world.log := by
    rw [accepted_mem_iff intact]
    intro absent
    rw [absent] at lost
    exact absurd lost (by simp [Stage.isLost])
  have count := settled.answered token accepted
  rw [countP_ready_responses intact] at count
  cases stage : stageOf world.log token with
  | lost =>
    rw [stage] at count
    exact absurd count (by simp [Stage.finals])
  | _ =>
    rw [stage] at lost
    exact absurd lost (by simp [Stage.isLost])

/-- Unless a context was dropped, the manager is settled once `shutdown` has returned. -/
theorem settled_of_returned (reachable : managerSystem.Reachable world) (closing : Closing world)
    (returned : world.ShutdownReturned) (kept : ∀ token, .abandoned token ∉ world.log) :
    Settled world := by
  have orderly := orderly_of_reachable reachable
  have drained := drained_of_reachable reachable
  have intact : ∀ token, stageOf world.log token ≠ .broken :=
    fun token => (orderly.custody.sound token).1
  have finished : ∀ token, .accepted token ∈ world.log →
      (stageOf world.log token).isDone = true :=
    fun token accepted => done_of_returned orderly drained returned accepted (kept token)
  have counts := counts_empty (groupsCounted_of_reachable reachable)
    fun token accepted => (completed_mem_iff (intact token)).mpr (finished token accepted)
  obtain ⟨stopped, idle, done⟩ := returned
  obtain ⟨pending, failed⟩ := drained.queues stopped (by rw [idle]; simp)
  have batches := drained.batches stopped (Or.inr idle)
  obtain ⟨ids, groups⟩ := closing.maps (cancelsTaken_iff.mpr ⟨stopped, by rw [idle]; rfl⟩)
  refine ⟨fun token accepted => ?_, pending, failed, batches, counts, ?_⟩
  · rw [countP_ready_responses (intact token)]
    have last := finished token accepted
    cases stage : stageOf world.log token with
    | done => rfl
    | _ =>
      rw [stage] at last
      exact absurd last (by simp [Stage.isDone])
  · rw [HttpRequestManager.isLoaded, pending, failed, batches, counts, ids, groups]
    rfl

section Run

variable {start finish : World} {actions : List Action}

/-- A shutdown drops the contexts that wait for a retry inside a batch, and no others. -/
theorem closing_of_runs (reachable : managerSystem.Reachable world)
    (running : world.shutdown = false)
    (returnedCalls : ∀ caller ∈ world.callers, caller.inserts = false)
    (began : managerSystem.step world .callShutdown = some start)
    (runs : managerSystem.Runs start actions finish) :
    Closing finish ∧ ∀ token, finish.Doomed token ↔ token ∈ world.batchFailed := by
  have startReachable := reachable.step began
  obtain ⟨agenda, rfl⟩ := callShutdown_eq running began
  refine runs.induction (fun state => Closing state ∧
    ∀ token, state.Doomed token ↔ token ∈ world.batchFailed) startReachable ?_ ?_
  · refine ⟨⟨rfl, returnedCalls, fun taken => absurd taken ?_⟩, fun token => or_iff_left ?_⟩
    · simp [World.cancelsTaken, Phase.beforeTake]
    · have kept := not_dropped_of_running reachable running token
      intro dropped
      rcases dropped with onAgenda | logged
      · exact kept (Or.inl onAgenda)
      · rcases List.mem_append.mp logged with old | new
        · exact kept (Or.inr old)
        · exact absurd new (by simp)
  · intro state action after reached _ invariant stepped
    have controlled := controlled_of_reachable reached
    have transition := step_transition stepped
    refine ⟨invariant.1.step controlled transition, fun token => ?_⟩
    rw [transition.doomed controlled (orderly_of_reachable reached) invariant.1.stopped]
    exact invariant.2 token

/-- A shutdown that begins while no cancel call is on its way to its section keeps what it
promises if and only if no batch holds a request that waits for a retry. -/
theorem shutdown_settles_iff (reachable : managerSystem.Reachable world)
    (running : world.shutdown = false)
    (returnedCalls : ∀ caller ∈ world.callers, caller.inserts = false)
    (began : managerSystem.step world .callShutdown = some start)
    (runs : managerSystem.Runs start actions finish) (returned : finish.ShutdownReturned) :
    Settled finish ↔ ∀ batch ∈ world.activeRequestBatches, batch.failedRequests = [] := by
  have finishReachable := (reachable.step began).runs runs
  obtain ⟨closing, doomed⟩ := closing_of_runs reachable running returnedCalls began runs
  have abandoned : ∀ token, .abandoned token ∈ finish.log ↔ token ∈ world.batchFailed := by
    intro token
    have batches := (drained_of_reachable finishReachable).batches returned.1 (Or.inr returned.2.1)
    rw [← doomed token, World.Doomed, World.batchFailed, batches, World.Dropped, returned.2.2]
    simp
  rw [← List.flatMap_eq_nil_iff]
  constructor
  · intro settled
    refine List.eq_nil_iff_forall_not_mem.mpr fun token member => ?_
    exact settled.not_abandoned (orderly_of_reachable finishReachable)
      ((abandoned token).mpr member)
  · intro empty
    refine settled_of_returned finishReachable closing returned fun token => ?_
    rw [abandoned, World.batchFailed, empty]
    exact List.not_mem_nil

end Run

/-- Two requests share a batch, and both transfers are running. -/
def twoTransfers : List Action :=
  [.submitRequest (some { requestId := 1, groupId := 7, retryAttempts := 3 }) true,
    .submitRequest (some { requestId := 2, groupId := 7, retryAttempts := 3 }) true,
    .callProcess, .work .proceed, .work (.time 1), .work (.time 1), .work (.time 1),
    .work (.multiInit true), .work (.easyInit true true), .work (.easyInit true true),
    .work .proceed, .work .proceed, .work (.performed true true)]

/-- `process` goes on to its end, and finds nothing to do. -/
def finishProcess : List Action :=
  [.work .noMessage, .work .proceed, .work (.time 3), .work .proceed, .work .proceed]

/-- The two requests of that batch are answered by the destruction of their handlers. -/
theorem shutdown_settles_twoTransfers :
    ∃ world start finish,
      managerSystem.Runs managerSystem.init (twoTransfers ++ finishProcess) world ∧
      managerSystem.step world .callShutdown = some start ∧
      managerSystem.Runs start (List.replicate 12 (.work .proceed)) finish ∧
      finish.ShutdownReturned ∧ .accepted 2 ∈ finish.log ∧ Settled finish := by
  have before : (managerSystem.run managerSystem.init (twoTransfers ++ finishProcess)).any
      (fun world => decide (world.shutdown = false ∧ world.callers = [] ∧
        world.batchFailed = [] ∧
        ((managerSystem.step world .callShutdown).any fun start =>
          (managerSystem.run start (List.replicate 12 (.work .proceed))).any fun finish =>
            decide (finish.ShutdownReturned ∧ .accepted 2 ∈ finish.log)) = true)) = true := by
    decide +kernel
  obtain ⟨world, runs, evaluated⟩ := System.exists_runs before
  obtain ⟨running, nobody, empty, later⟩ := of_decide_eq_true evaluated
  obtain ⟨start, began, after⟩ := (Option.any_eq_true _ _).mp later
  obtain ⟨finish, ends, checked⟩ := System.exists_runs after
  obtain ⟨returned, accepted⟩ := of_decide_eq_true checked
  refine ⟨world, start, finish, runs, began, ends, returned, accepted, ?_⟩
  refine (shutdown_settles_iff ⟨_, runs⟩ running (by rw [nobody]; simp) began ends returned).mpr ?_
  exact List.flatMap_eq_nil_iff.mp empty

/-- The first of the two transfers fails and is to be tried again; the second one still runs. -/
def retryInBatch : List Action :=
  twoTransfers ++ [.work (.message 0 { result := 7, responseCode := 0 } 2)] ++ finishProcess

/-- The first request never gets a final response. -/
theorem shutdown_abandons_retry :
    ¬ ∀ (world start finish : World) (actions : List Action), managerSystem.Reachable world →
      world.shutdown = false → (∀ caller ∈ world.callers, caller.inserts = false) →
      managerSystem.step world .callShutdown = some start →
      managerSystem.Runs start actions finish → finish.ShutdownReturned → Settled finish := by
  intro promised
  have before : (managerSystem.run managerSystem.init retryInBatch).any
      (fun world => decide (world.shutdown = false ∧ world.callers = [] ∧
        ((managerSystem.step world .callShutdown).any fun start =>
          (managerSystem.run start (List.replicate 10 (.work .proceed))).any fun finish =>
            decide (finish.ShutdownReturned ∧ .accepted 1 ∈ finish.log ∧
              (responses finish.log 1).countP (·.ready) = 0)) = true)) = true := by
    decide +kernel
  obtain ⟨world, runs, evaluated⟩ := System.exists_runs before
  obtain ⟨running, nobody, later⟩ := of_decide_eq_true evaluated
  obtain ⟨start, began, after⟩ := (Option.any_eq_true _ _).mp later
  obtain ⟨finish, ends, checked⟩ := System.exists_runs after
  obtain ⟨returned, accepted, unanswered⟩ := of_decide_eq_true checked
  have settled := promised world start finish _ ⟨_, runs⟩ running (by rw [nobody]; simp) began ends
    returned
  have answered := settled.answered 1 accepted
  rw [unanswered] at answered
  exact absurd answered (by simp)

end Kurlyk.Http
