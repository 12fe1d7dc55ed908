/-
This file decides what `process_cancel_requests` does to the requests that match
a queued cancellation. It takes the pending requests out, then walks over the
failed requests of the manager, then over the batches, and invokes the cancel
callbacks at last. Matching requests are answered with `CancelledByUser` before
that, and everything else keeps its place. The walk over the batches looks at
their handlers only: a request that waits for a retry inside a batch has left
its handler, so it is missed. The function does what it promises if and only if
no such request matches.
-/

import Kurlyk.Lib.Log
import Kurlyk.Http.Handlers
import Kurlyk.Http.Shutdown

namespace Kurlyk.Http

variable {world state next : World} {action : Action} {token : Token}

/-! ### The scan -/

/-- The request matches a queued cancellation. -/
def World.cancels (world : World) (token : Token) : Bool :=
  world.contextMatches world.requestsToCancelById world.groupsToCancel token

/-- The request of the handler's context matches a queued cancellation. -/
def World.cancelsHandler (world : World) (handler : HttpRequestHandler) : Bool :=
  world.handlerMatches world.requestsToCancelById world.groupsToCancel handler

theorem cancelsHandler_of_context {handler : HttpRequestHandler}
    (context : handler.requestContext = some token) :
    world.cancelsHandler handler = world.cancels token := by
  rw [World.cancelsHandler, World.handlerMatches, context]
  rfl

/-- The final response of a cancelled request. -/
def HttpResponse.isCancelled (response : HttpResponse) : Bool :=
  response.ready && decide (response.errorCode = .client .cancelledByUser)

/-- An accepted request that matches and has not had its final response. -/
structure World.Due (world : World) (token : Token) : Prop where
  accepted : .accepted token ∈ world.log
  hit : world.cancels token = true
  waits : (responses world.log token).countP (·.ready) = 0

/-- The requests that the scan finds have been answered in the log. -/
def Answered (world : World) (log : List Event) : Prop :=
  ∀ token, world.Due token → token ∉ world.batchFailed →
    ∃ response ∈ responses log token, response.isCancelled = true

/-- The calls the scan puts on the agenda. -/
def World.CancelCall (world : World) : Call → Prop
  | .invokeFinalCallback token response => response.isCancelled = true ∧ world.cancels token = true
  | .cancelHandler handler => world.cancelsHandler handler = true
  | .destroyHandler _ => False
  | .discard _ => False
  | _ => True

/-- What the scan, begun in `world`, has made of the failed requests and the batches when it is
at the statement. -/
def Progress (world state : World) : Phase → Prop
  | .cancelFailed ids groups index .process =>
    ids = world.requestsToCancelById ∧ groups = world.groupsToCancel ∧
      Swept (!world.cancels ·) world.failedRequests state.failedRequests index ∧
      state.activeRequestBatches = world.activeRequestBatches
  | .cancelBatches ids groups index .process =>
    ids = world.requestsToCancelById ∧ groups = world.groupsToCancel ∧
      state.failedRequests = world.failedRequests.filter (!world.cancels ·) ∧
      Rewritten (·.filterHandlers (!world.cancelsHandler ·)) world.activeRequestBatches
        state.activeRequestBatches index
  | .notifyIdle =>
    state.failedRequests = world.failedRequests.filter (!world.cancels ·) ∧
      state.activeRequestBatches =
        world.activeRequestBatches.map (·.filterHandlers (!world.cancelsHandler ·)) ∧
      Answered world state.log
  | .idle => Answered world state.log
  | _ => False

/-- The state while `process_cancel_requests`, begun in `world`, is at work. -/
structure Scanning (world state : World) : Prop where
  counter : world.nextInFlightToken ≤ state.nextInFlightToken
  contexts : ∀ token < world.nextInFlightToken,
    (state.contexts token).request = (world.contexts token).request
  pending : ∃ added, state.pendingRequests =
    world.pendingRequests.filter (!world.cancels ·) ++ added ∧
      ∀ token ∈ added, world.nextInFlightToken ≤ token
  logged : ∃ events, state.log = world.log ++ events ∧ ∀ token response,
    .response token response ∈ events →
      response.isCancelled = true ∧ world.cancels token = true
  agenda : ∀ call ∈ state.agenda, world.CancelCall call
  ordered : ∀ call before after, .cancel call ∈ world.queuedCancels →
    state.log = before ++ .cancelInvoked call :: after → Answered world before
  progress : Progress world state state.phase

theorem Answered.append {log : List Event} (answered : Answered world log) (events : List Event) :
    Answered world (log ++ events) := by
  intro token due outside
  obtain ⟨response, member, cancelled⟩ := answered token due outside
  refine ⟨response, ?_, cancelled⟩
  rw [responses, List.filterMap_append]
  exact List.mem_append_left _ member

theorem Progress.congr {phase : Phase} {events : List Event}
    (progress : Progress world state phase)
    (failed : next.failedRequests = state.failedRequests)
    (batches : next.activeRequestBatches = state.activeRequestBatches)
    (logged : next.log = state.log ++ events) : Progress world next phase := by
  unfold Progress
  rw [failed, batches, logged]
  cases phase with
  | cancelFailed ids groups index mode => cases mode <;> exact progress
  | cancelBatches ids groups index mode => cases mode <;> exact progress
  | notifyIdle => exact ⟨progress.1, progress.2.1, progress.2.2.append events⟩
  | idle => exact Answered.append progress events
  | _ => exact progress

/-- A cancel callback is only invoked when the scan has reached its end. -/
theorem Progress.callbacks {call : CallId} (progress : Progress world state state.phase)
    (phase : next.phase = state.phase) (books : Faithful next)
    (queued : .cancel call ∈ world.queuedCancels) (invoked : .cancelInvoked call ∈ next.log) :
    Answered world state.log := by
  have early : state.phase.promises = world.queuedCancels → False := by
    intro held
    have kept : .cancel call ∈ next.promises := by
      rw [World.promises, phase, held]
      simp [queued]
    refine (books.of_kept kept).2 (List.mem_flatMap.mpr ⟨_, invoked, List.mem_cons_self⟩)
  unfold Progress at progress
  split at progress
  · rename_i at_
    refine (early ?_).elim
    rw [at_, progress.1, progress.2.1]
    exact List.flatMap_append
  · rename_i at_
    refine (early ?_).elim
    rw [at_, progress.1, progress.2.1]
    exact List.flatMap_append
  · exact progress.2.2
  · exact progress
  · exact progress.elim

/-- A step that does not move the scan. -/
theorem Scanning.frame (scanning : Scanning world state) (books : Faithful next)
    (events : List Event) (phase : next.phase = state.phase)
    (failed : next.failedRequests = state.failedRequests)
    (batches : next.activeRequestBatches = state.activeRequestBatches)
    (counter : state.nextInFlightToken ≤ next.nextInFlightToken)
    (pending : ∃ added, next.pendingRequests = state.pendingRequests ++ added ∧
      ∀ token ∈ added, state.nextInFlightToken ≤ token)
    (contexts : ∀ token < state.nextInFlightToken,
      (next.contexts token).request = (state.contexts token).request)
    (logged : next.log = state.log ++ events)
    (answers : ∀ token response, .response token response ∈ events →
      response.isCancelled = true ∧ world.cancels token = true)
    (agenda : ∀ call ∈ next.agenda, world.CancelCall call) : Scanning world next := by
  have progress : Progress world next next.phase := by
    rw [phase]
    exact scanning.progress.congr failed batches logged
  refine ⟨scanning.counter.trans counter, fun token below => ?_, ?_, ?_, agenda, ?_, progress⟩
  · rw [contexts token (Nat.lt_of_lt_of_le below scanning.counter)]
    exact scanning.contexts token below
  · obtain ⟨earlier, kept, fresh⟩ := scanning.pending
    obtain ⟨added, extended, new⟩ := pending
    refine ⟨earlier ++ added, ?_, fun token member => ?_⟩
    · rw [extended, kept, List.append_assoc]
    · rcases List.mem_append.mp member with old | recent
      · exact fresh token old
      · exact scanning.counter.trans (new token recent)
  · obtain ⟨earlier, extended, cancelled⟩ := scanning.logged
    refine ⟨earlier ++ events, by rw [logged, extended, List.append_assoc], ?_⟩
    intro token response member
    rcases List.mem_append.mp member with old | recent
    · exact cancelled token response old
    · exact answers token response recent
  · intro call before after queued split
    rcases Log.split_append (logged.symm.trans split) with ⟨earlier, old⟩ | ⟨middle, rfl, _⟩
    · exact scanning.ordered call before earlier queued old
    · have invoked : .cancelInvoked call ∈ next.log := by
        rw [split]
        exact List.mem_append_right _ List.mem_cons_self
      exact (scanning.progress.callbacks phase books queued invoked).append middle

/-- A step that moves the scan and logs nothing. -/
theorem Scanning.move (scanning : Scanning world state)
    (counter : next.nextInFlightToken = state.nextInFlightToken)
    (contexts : next.contexts = state.contexts)
    (pending : next.pendingRequests = state.pendingRequests) (logged : next.log = state.log)
    (agenda : ∀ call ∈ next.agenda, world.CancelCall call)
    (progress : Progress world next next.phase) : Scanning world next := by
  refine ⟨counter ▸ scanning.counter, ?_, ?_, ?_, agenda, ?_, progress⟩
  · rw [contexts]
    exact scanning.contexts
  · rw [pending]
    exact scanning.pending
  · rw [logged]
    exact scanning.logged
  · rw [logged]
    exact scanning.ordered

theorem Scanning.contextMatches (scanning : Scanning world state)
    (below : token < world.nextInFlightToken) :
    state.contextMatches world.requestsToCancelById world.groupsToCancel token =
      world.cancels token := by
  rw [World.cancels, World.contextMatches, World.contextMatches, scanning.contexts token below]

theorem Scanning.handlerMatches (scanning : Scanning world state) (known : Known world)
    {batch : HttpBatchRequestHandler} (present : batch ∈ world.activeRequestBatches)
    {handler : HttpRequestHandler} (member : handler ∈ batch.handlers) :
    state.handlerMatches world.requestsToCancelById world.groupsToCancel handler =
      world.cancelsHandler handler := by
  rw [World.cancelsHandler, World.handlerMatches, World.handlerMatches]
  cases context : handler.requestContext with
  | none => rfl
  | some token =>
    exact scanning.contextMatches (known handler token (Or.inl ⟨batch, present, member⟩) context)

/-- A request that matches is held by nobody once the scan has reached its end, unless it waits
for a retry inside a batch. -/
theorem Scanning.not_held (scanning : Scanning world state) (agenda : state.agenda = [])
    (phase : state.phase.holdings = [])
    (failed : state.failedRequests = world.failedRequests.filter (!world.cancels ·))
    (batches : state.activeRequestBatches =
      world.activeRequestBatches.map (·.filterHandlers (!world.cancelsHandler ·)))
    (below : token < world.nextInFlightToken) (hit : world.cancels token = true)
    (outside : token ∉ world.batchFailed) : token ∉ state.holdings.map Prod.fst := by
  obtain ⟨added, pending, fresh⟩ := scanning.pending
  have notPending : token ∉ state.pendingRequests := by
    rw [pending, List.mem_append, List.mem_filter, hit]
    rintro (⟨_, kept⟩ | new)
    · exact absurd kept (by simp)
    · exact absurd (fresh token new) (Nat.not_le_of_lt below)
  have notFailed : token ∉ state.failedRequests := by
    rw [failed, List.mem_filter, hit]
    exact fun both => absurd both.2 (by simp)
  have notInBatch : ∀ place, (token, place) ∉ state.activeRequestBatches.flatMap batchHoldings := by
    intro place member
    obtain ⟨batch, present, held⟩ := List.mem_flatMap.mp member
    rw [batches] at present
    obtain ⟨old, found, rfl⟩ := List.mem_map.mp present
    rcases List.mem_append.mp held with flying | retrying
    · obtain ⟨handler, kept, owned⟩ := List.mem_flatMap.mp flying
      have misses := (List.mem_filter.mp kept).2
      unfold handlerHoldings at owned
      split at owned
      · exact absurd owned List.not_mem_nil
      · obtain ⟨carried, context, same⟩ := List.mem_map.mp owned
        rw [Option.mem_toList, (Prod.mk.inj same).1] at context
        rw [cancelsHandler_of_context context, hit] at misses
        exact absurd misses (by simp)
    · obtain ⟨waiting, inside, same⟩ := List.mem_map.mp retrying
      refine outside (List.mem_flatMap.mpr ⟨old, found, ?_⟩)
      rw [← (Prod.mk.inj same).1]
      exact inside
  rintro held
  obtain ⟨⟨other, place⟩, member, rfl⟩ := List.mem_map.mp held
  rw [World.holdings, phase, agenda, List.flatMap_nil, List.append_nil, List.append_nil] at member
  rcases List.mem_append.mp member with queued | inBatch
  · rcases List.mem_append.mp queued with waiting | retrying
    · obtain ⟨_, inside, same⟩ := List.mem_map.mp waiting
      exact notPending ((Prod.mk.inj same).1 ▸ inside)
    · obtain ⟨_, inside, same⟩ := List.mem_map.mp retrying
      exact notFailed ((Prod.mk.inj same).1 ▸ inside)
  · exact notInBatch place inBatch

theorem finals_of_isDone {stage : Stage} (done : stage.isDone = true) : stage.finals = 1 := by
  cases stage with
  | done => rfl
  | _ => exact absurd done (by simp [Stage.isDone])

/-- A final response that is not in the old log is one the scan has sent. -/
theorem Scanning.exists_cancelled (scanning : Scanning world state)
    (before : (responses world.log token).countP (·.ready) = 0)
    (after : (responses state.log token).countP (·.ready) = 1) :
    ∃ response ∈ responses state.log token, response.isCancelled = true := by
  obtain ⟨events, extended, cancelled⟩ := scanning.logged
  rw [extended, responses, List.filterMap_append, List.countP_append] at after
  have positive : 0 < (events.filterMap (Event.responseTo token)).countP (·.ready) := by
    rw [responses] at before
    omega
  obtain ⟨response, member, _⟩ := List.countP_pos_iff.mp positive
  refine ⟨response, ?_, ?_⟩
  · rw [extended, responses, List.filterMap_append]
    exact List.mem_append_right _ member
  · obtain ⟨event, inside, sent⟩ := List.mem_filterMap.mp member
    cases event with
    | response about reply =>
      rw [Event.responseTo] at sent
      split at sent
      · exact Option.some.inj sent ▸ (cancelled about reply inside).1
      · exact absurd sent (by simp)
    | _ => exact absurd sent (by simp [Event.responseTo])

/-- At the end of the scan every request it looks for is answered. -/
theorem Scanning.answered (scanning : Scanning world state) (orderly : Orderly world)
    (stateOrderly : Orderly state) (kept : ∀ token, ¬ state.Dropped token)
    (agenda : state.agenda = []) (phase : state.phase.holdings = [])
    (failed : state.failedRequests = world.failedRequests.filter (!world.cancels ·))
    (batches : state.activeRequestBatches =
      world.activeRequestBatches.map (·.filterHandlers (!world.cancelsHandler ·))) :
    Answered world state.log := by
  intro token due outside
  have accepted : .accepted token ∈ state.log := by
    obtain ⟨events, extended, _⟩ := scanning.logged
    rw [extended]
    exact List.mem_append_left _ due.accepted
  have free := scanning.not_held agenda phase failed batches (orderly.lt_of_accepted due.accepted)
    due.hit outside
  have done := stateOrderly.isDone accepted (fun lost => kept token (Or.inr lost)) free
  refine scanning.exists_cancelled due.waits ?_
  rw [countP_ready_responses (stateOrderly.custody.sound token).1, finals_of_isDone done]

/-! ### The steps of the scan -/

theorem Scanning.jump {phase : Phase} {clock : TimePoint} (scanning : Scanning world state)
    (orderly : Orderly world) (agenda : state.agenda = []) (jump : Jump state action phase)
    (other : action ≠ .callProcess ∧ action ≠ .callShutdown) :
    Scanning world { state with phase, clock } := by
  have progress := scanning.progress
  have nothing : ∀ call ∈ state.agenda, world.CancelCall call := by
    rw [agenda]
    exact fun _ member => absurd member List.not_mem_nil
  cases jump with
  | process | processAfterShutdown => exact absurd rfl other.1
  | shutdownAgain => exact absurd rfl other.2
  | @failedScanned ids groups index mode at_ absent =>
    rw [at_] at progress
    cases mode with
    | shutdown => exact progress.elim
    | process =>
      obtain ⟨sameIds, sameGroups, swept, batches⟩ := progress
      refine scanning.move rfl rfl rfl rfl nothing
        ⟨sameIds, sameGroups, swept.finished absent, ?_⟩
      dsimp only
      rw [batches]
      exact rewritten_start _ _
  | @failedKept ids groups index mode token at_ found kept =>
    rw [at_] at progress
    cases mode with
    | shutdown => exact progress.elim
    | process =>
      obtain ⟨rfl, rfl, swept, batches⟩ := progress
      have below : token < world.nextInFlightToken :=
        orderly.lt_of_mem (mem_holdings_of_failed (swept.mem found))
      rw [scanning.contextMatches below] at kept
      refine scanning.move rfl rfl rfl rfl nothing
        ⟨rfl, rfl, swept.kept found (by rw [kept]; rfl), batches⟩
  | skipScan at_ | enterScan at_ | refused at_ | multiHandle at_ | noBatch at_ | perform at_
  | performed at_ | performFailed at_ | stillRunning at_ | batchGone at_ | nothingToExtract at_
  | retryDone at_ | retryLater at_ | nothingToCancel at_ =>
    rw [at_] at progress
    exact progress.elim

theorem Scanning.cancel (scanning : Scanning world state) (orderly : Orderly world)
    (known : Known world) (stateOrderly : Orderly state)
    (kept : ∀ token, ¬ state.Dropped token) (agenda : state.agenda = [])
    (step : CancelStep state next) : Scanning world next := by
  have progress := scanning.progress
  cases step with
  | takeCancels at_ =>
    rw [at_] at progress
    exact progress.elim
  | @cancelFailed ids groups index mode token at_ found hit =>
    rw [at_] at progress
    cases mode with
    | shutdown => exact progress.elim
    | process =>
      obtain ⟨rfl, rfl, swept, batches⟩ := progress
      have below : token < world.nextInFlightToken :=
        orderly.lt_of_mem (mem_holdings_of_failed (swept.mem found))
      rw [scanning.contextMatches below] at hit
      refine scanning.move rfl rfl rfl rfl ?_ ?_
      · intro call member
        rw [List.mem_singleton.mp member]
        exact ⟨rfl, hit⟩
      · dsimp only
        rw [at_]
        exact ⟨rfl, rfl, swept.erased found (by rw [hit]; rfl), batches⟩
  | @cancelBatch ids groups index mode batch at_ found =>
    rw [at_] at progress
    cases mode with
    | shutdown => exact progress.elim
    | process =>
      obtain ⟨rfl, rfl, failed, rewritten⟩ := progress
      obtain ⟨present, stepped⟩ := rewritten.step found
      have same : ∀ handler ∈ batch.handlers,
          state.handlerMatches world.requestsToCancelById world.groupsToCancel handler =
            world.cancelsHandler handler :=
        fun handler member => scanning.handlerMatches known present member
      have filtered : batch.filterHandlers (!state.handlerMatches world.requestsToCancelById
          world.groupsToCancel ·) = batch.filterHandlers (!world.cancelsHandler ·) := by
        simp only [HttpBatchRequestHandler.filterHandlers, HttpBatchRequestHandler.mk.injEq,
          true_and, and_true]
        exact List.filter_congr fun handler member => by rw [same handler member]
      refine scanning.move rfl rfl rfl rfl ?_ ⟨rfl, rfl, failed, ?_⟩
      · intro call member
        obtain ⟨handler, chosen, rfl⟩ := List.mem_map.mp member
        obtain ⟨inside, hit⟩ := List.mem_filter.mp chosen
        exact (same handler inside).symm.trans hit
      · dsimp only
        rw [filtered]
        exact stepped
  | @batchesScanned ids groups index mode at_ absent =>
    rw [at_] at progress
    cases mode with
    | shutdown => exact progress.elim
    | process =>
      obtain ⟨rfl, rfl, failed, rewritten⟩ := progress
      have batches := rewritten.finished absent
      have answered := scanning.answered orderly stateOrderly kept agenda (by rw [at_]; rfl) failed
        batches
      refine scanning.move rfl rfl rfl rfl ?_ ⟨failed, batches, answered⟩
      intro call member
      obtain ⟨callback, _, rfl⟩ := List.mem_map.mp member
      trivial

theorem Scanning.closing (scanning : Scanning world state) (step : ClosingStep state next) :
    Scanning world next := by
  have progress := scanning.progress
  cases step with
  | notifyIdle at_ =>
    rw [at_] at progress
    refine scanning.move rfl rfl rfl rfl ?_ progress.2.2
    intro call member
    obtain ⟨waiter, _, rfl⟩ := List.mem_map.mp member
    trivial
  | notifyAll at_ | cleanup at_ | clear at_ =>
    rw [at_] at progress
    exact progress.elim

/-- The first call of the agenda is replaced by other calls of the scan. -/
theorem Scanning.called (scanning : Scanning world state) (books : Faithful next) (call : Call)
    (added rest : List Call) (events : List Event) (before : state.agenda = call :: rest)
    (after : next.agenda = added ++ rest) (step : AgendaStep state next)
    (contexts : ∀ token, (next.contexts token).request = (state.contexts token).request)
    (pending : next.pendingRequests = state.pendingRequests)
    (logged : next.log = state.log ++ events)
    (answers : ∀ token response, .response token response ∈ events →
      response.isCancelled = true ∧ world.cancels token = true)
    (calls : ∀ call ∈ added, world.CancelCall call) : Scanning world next := by
  refine scanning.frame books events step.phase_eq step.unfilled.failed step.unfilled.batches
    (Nat.le_of_eq step.counter.symm) ⟨[], by rw [pending, List.append_nil], by simp⟩
    (fun token _ => contexts token) logged answers fun other member => ?_
  rw [after] at member
  rcases List.mem_append.mp member with new | old
  · exact calls other new
  · exact scanning.agenda other (by rw [before]; exact List.mem_cons_of_mem _ old)

theorem Scanning.agendaStep (scanning : Scanning world state) (books : Faithful next)
    (step : AgendaStep state next) : Scanning world next := by
  have head : ∀ {call rest}, state.agenda = call :: rest → world.CancelCall call := by
    intro call rest agenda
    exact scanning.agenda call (by rw [agenda]; exact List.mem_cons_self)
  have stepped := step
  cases step with
  | @finalCallback token response rest agenda =>
    refine scanning.called books _ [.complete token] rest _ agenda rfl stepped (fun _ => rfl) rfl
      rfl ?_ (by simp [World.CancelCall])
    intro other reply member
    rw [List.mem_singleton, Event.response.injEq] at member
    rw [member.1, member.2]
    exact head agenda
  | @completeAgain token rest agenda =>
    exact scanning.called books _ [] rest [] agenda rfl stepped (fun _ => rfl) rfl
      (List.append_nil _).symm (by simp) (by simp)
  | @complete token rest agenda =>
    refine scanning.called books _ [.onGroupComplete token] rest _ agenda rfl stepped
      (fun other => ?_) rfl rfl (by simp) (by simp [World.CancelCall])
    dsimp only
    by_cases same : other = token
    · rw [same, Function.update_self]
    · rw [Function.update_of_ne same]
  | @settle token rest agenda =>
    exact scanning.called books _ [] rest _ agenda rfl stepped (fun _ => rfl) rfl rfl (by simp)
      (by simp)
  | @settleGroup token group rest agenda =>
    exact scanning.called books _ _ rest [.completed token] agenda rfl stepped (fun _ => rfl)
      stepped.unfilled.pending rfl (by simp) (by simp [World.CancelCall])
  | @notifyWaiter waiter rest agenda =>
    exact scanning.called books _ [] rest _ agenda rfl stepped (fun _ => rfl) rfl rfl (by simp)
      (by simp)
  | @invokeCancel callback rest agenda =>
    exact scanning.called books _ [] rest _ agenda rfl stepped (fun _ => rfl) rfl rfl (by simp)
      (by simp)
  | @handlerAnswered call handler rest agenda =>
    exact scanning.called books _ [] rest [] agenda rfl stepped (fun _ => rfl) rfl
      (List.append_nil _).symm (by simp) (by simp)
  | destroyHandler agenda => exact (head agenda).elim
  | @cancelHandler handler token response rest agenda unanswered =>
    refine scanning.called books _
      [.invokeFinalCallback token (response.closed .cancelledByUser)] rest [] agenda rfl stepped
      (fun _ => rfl) rfl (List.append_nil _).symm (by simp) ?_
    intro call member
    rw [List.mem_singleton.mp member]
    have hit : world.cancelsHandler handler = true := head agenda
    have context : handler.requestContext = some token := by
      unfold HttpRequestHandler.unanswered at unanswered
      split at unanswered
      · exact absurd unanswered (by simp)
      · split at unanswered
        · rename_i carried kept context _
          rw [Option.some.injEq, Prod.mk.injEq] at unanswered
          rw [context, unanswered.1]
        · exact absurd unanswered (by simp)
    rw [cancelsHandler_of_context context] at hit
    exact ⟨by simp [HttpResponse.isCancelled, HttpResponse.closed], hit⟩
  | discard agenda => exact (head agenda).elim

theorem Scanning.outside (scanning : Scanning world state) (books : Faithful next)
    (outside : Outside state next) : Scanning world next := by
  obtain ⟨events, logged, silent⟩ := outside.logged
  refine scanning.frame books events outside.phase outside.failed outside.batches outside.counter
    outside.pending (fun token below => by rw [outside.contexts token below]) logged ?_ ?_
  · exact fun token response member => absurd member (silent token response)
  · rw [outside.agenda]
    exact scanning.agenda

/-- While `process_cancel_requests` is at work its invariant is kept. -/
theorem Scanning.step (scanning : Scanning world state) (orderly : Orderly world)
    (known : Known world) (reachable : managerSystem.Reachable state)
    (running : state.shutdown = false) (other : action ≠ .callProcess ∧ action ≠ .callShutdown)
    (stepped : managerSystem.step state action = some next) : Scanning world next := by
  have books := faithful_of_reachable (reachable.step stepped)
  have progress := scanning.progress
  cases step_transition stepped with
  | jump agenda jump => exact scanning.jump orderly agenda jump other
  | pending agenda step =>
    cases step with
    | scanned at_ | badRequest at_ | dispatch at_ | noMultiHandle at_ | start at_
    | noEasyHandle at_ | batchBuilt at_ =>
      rw [at_] at progress
      exact progress.elim
  | active agenda step =>
    cases step with
    | processNoMulti at_ | write at_ | stream at_ | ignoreMessage at_ | retry at_ | finish at_
    | destroyHandlers at_ | extract at_ | dropFailed at_ | requeue at_ =>
      rw [at_] at progress
      exact progress.elim
  | cancel agenda step =>
    exact scanning.cancel orderly known (orderly_of_reachable reachable)
      (not_dropped_of_running reachable running) agenda step
  | closing agenda step => exact scanning.closing step
  | agenda step => exact scanning.agendaStep books step
  | shutdown => exact absurd rfl other.2
  | caller step => exact scanning.outside books step.outside
  | handles step => exact scanning.outside books step.outside

/-! ### From the beginning to the end -/

theorem matchesCancel_empty {ids groups : CancelMap} (noIds : ids.isEmpty = true)
    (noGroups : groups.isEmpty = true) (request : Option HttpRequest) :
    matchesCancel request ids groups = false := by
  rw [Table.isEmpty_iff] at noIds noGroups
  unfold matchesCancel
  cases request with
  | none => rfl
  | some request =>
    dsimp only
    rw [noIds, noGroups]
    simp

theorem handlerMatches_empty (noIds : world.requestsToCancelById.isEmpty = true)
    (noGroups : world.groupsToCancel.isEmpty = true) (handler : HttpRequestHandler) :
    world.cancelsHandler handler = false := by
  rw [World.cancelsHandler, World.handlerMatches]
  cases handler.requestContext with
  | none => rfl
  | some token => exact matchesCancel_empty noIds noGroups _

/-- The section at the beginning of `process_cancel_requests`. -/
theorem scanning_start {start : World} (books : Faithful world)
    (at_ : world.phase = .processCancel .process) (agenda : world.agenda = [])
    (entered : managerSystem.step world (.work .proceed) = some start) : Scanning world start := by
  have begun : start = world.processCancelStep .process := by
    simp only [managerSystem, World.step, World.work, agenda, at_, World.statement,
      Option.some.injEq] at entered
    exact entered.symm
  have unanswered : ∀ call before after, .cancel call ∈ world.queuedCancels →
      world.log = before ++ .cancelInvoked call :: after → Answered world before := by
    intro call before after queued split
    have kept : .cancel call ∈ world.promises := by
      rw [World.promises]
      simp [queued]
    refine absurd ?_ (books.of_kept kept).2
    refine List.mem_flatMap.mpr ⟨.cancelInvoked call, ?_, List.mem_cons_self⟩
    rw [split]
    exact List.mem_append_right _ List.mem_cons_self
  rw [begun]
  unfold World.processCancelStep
  dsimp only
  split
  · rename_i empty
    rw [Bool.and_eq_true] at empty
    have misses : ∀ token, world.cancels token = false :=
      fun token => matchesCancel_empty empty.1 empty.2 _
    have untouched : ∀ tokens : List Token, tokens.filter (!world.cancels ·) = tokens := by
      intro tokens
      refine List.filter_eq_self.mpr fun token _ => ?_
      rw [misses token]
      rfl
    refine ⟨Nat.le_refl _, fun _ _ => rfl, ⟨[], ?_, by simp⟩,
      ⟨[], (List.append_nil _).symm, by simp⟩, ?_, unanswered, ?_, ?_, ?_⟩
    · rw [untouched, List.append_nil]
    · rw [agenda]
      exact fun _ member => absurd member List.not_mem_nil
    · exact (untouched _).symm
    · refine (List.map_id'' (fun batch => ?_) _).symm
      have all : batch.handlers.filter (!world.cancelsHandler ·) = batch.handlers := by
        refine List.filter_eq_self.mpr fun handler _ => ?_
        rw [handlerMatches_empty empty.1 empty.2]
        rfl
      simp only [HttpBatchRequestHandler.filterHandlers, all]
    · intro token due
      have hit := due.hit
      rw [misses token] at hit
      exact absurd hit (by simp)
  · refine ⟨Nat.le_refl _, fun _ _ => rfl, ⟨[], (List.append_nil _).symm, by simp⟩,
      ⟨[], (List.append_nil _).symm, by simp⟩, ?_, unanswered, rfl, rfl, swept_start _ _, rfl⟩
    intro call member
    obtain ⟨token, chosen, rfl⟩ := List.mem_map.mp member
    exact ⟨rfl, (List.mem_filter.mp chosen).2⟩

/-- The log only grows. -/
theorem Transition.logged (controlled : Controlled world)
    (transition : Transition world action next) : ∃ events, next.log = world.log ++ events := by
  have grows : ∀ {after : World}, Continues world after →
      ∃ events, after.log = world.log ++ events :=
    fun continues => continues.logged.imp fun _ both => both.1
  cases transition with
  | jump => exact ⟨[], (List.append_nil _).symm⟩
  | pending agenda step => exact grows (step.continues controlled)
  | active agenda step => exact grows (step.continues controlled)
  | cancel agenda step => exact grows (step.continues controlled)
  | closing agenda step => exact grows (step.continues controlled)
  | agenda step => exact grows (step.continues controlled)
  | shutdown => exact ⟨_, rfl⟩
  | caller step => exact grows (step.continues controlled)
  | handles step => exact grows (step.continues controlled)

theorem log_append_of_runs {actions : List Action} (reachable : managerSystem.Reachable world)
    (runs : managerSystem.Runs world actions next) :
    ∃ events, next.log = world.log ++ events := by
  refine runs.induction (fun state => ∃ events, state.log = world.log ++ events) reachable
    ⟨[], (List.append_nil _).symm⟩ ?_
  intro state action after reached _ grown stepped
  obtain ⟨events, extended⟩ := grown
  obtain ⟨more, logged⟩ := (step_transition stepped).logged (controlled_of_reachable reached)
  exact ⟨events ++ more, by rw [logged, extended, List.append_assoc]⟩

/-- Nothing happens to a request that is done. -/
theorem not_subject_of_done (log events : List Event)
    (done : (stageOf log token).isDone = true)
    (intact : stageOf (log ++ events) token ≠ .broken) :
    ∀ event ∈ events, event.subject ≠ some token := by
  induction events generalizing log with
  | nil => exact fun _ member => absurd member List.not_mem_nil
  | cons head rest inductionHypothesis =>
    have split : log ++ head :: rest = (log ++ [head]) ++ rest := by simp
    rw [split] at intact
    have other : head.subject ≠ some token := by
      intro about
      refine intact (stageOf_append_of_broken ?_)
      rw [stageOf_concat_self about]
      cases stage : stageOf log token with
      | done => cases head <;> rfl
      | _ =>
        rw [stage] at done
        exact absurd done (by simp [Stage.isDone])
    have later := inductionHypothesis (log ++ [head])
      (by rw [stageOf_concat_other other]; exact done) intact
    intro event member
    rcases List.mem_cons.mp member with rfl | behind
    · exact other
    · exact later event behind

/-- What `process_cancel_requests`, begun in `world`, promises when it returns in `finish`: each
matching request that was not final has had its `CancelledByUser` response, before any of the
cancel callbacks, and nothing happens to it afterwards; everything else keeps its place, in
order, and hears nothing. -/
structure CancelsScanned (world finish : World) : Prop where
  answered : ∀ token, world.Due token →
    ∃ response ∈ responses finish.log token, response.isCancelled = true
  ordered : ∀ token call before after, world.Due token → .cancel call ∈ world.queuedCancels →
    finish.log = before ++ .cancelInvoked call :: after →
      ∃ response ∈ responses before token, response.isCancelled = true
  afterwards : ∀ token later actions, world.Due token → managerSystem.Runs finish actions later →
    ∃ events, later.log = finish.log ++ events ∧ ∀ event ∈ events, event.subject ≠ some token
  pending : ∃ added, finish.pendingRequests =
    world.pendingRequests.filter (!world.cancels ·) ++ added ∧
      ∀ token ∈ added, .accepted token ∉ world.log
  failed : finish.failedRequests = world.failedRequests.filter (!world.cancels ·)
  batches : finish.activeRequestBatches =
    world.activeRequestBatches.map (·.filterHandlers (!world.cancelsHandler ·))
  silent : ∀ token, world.cancels token = false →
    responses finish.log token = responses world.log token

/-- A request that does not match gets no response from the scan. -/
theorem Scanning.silent (scanning : Scanning world state) (misses : world.cancels token = false) :
    responses state.log token = responses world.log token := by
  obtain ⟨events, extended, cancelled⟩ := scanning.logged
  have none : events.filterMap (Event.responseTo token) = [] := by
    refine List.filterMap_eq_nil_iff.mpr fun event member => ?_
    cases event with
    | response about reply =>
      rw [Event.responseTo]
      refine if_neg fun same => ?_
      have hit := (cancelled about reply member).2
      rw [same, misses] at hit
      exact absurd hit (by simp)
    | _ => rfl
  rw [extended, responses, List.filterMap_append, none, List.append_nil]
  rfl

/-- A request that waits for a retry inside a batch is due if it matches. -/
theorem Orderly.due_of_batchFailed (orderly : Orderly world) (failed : token ∈ world.batchFailed)
    (hit : world.cancels token = true) : world.Due token := by
  obtain ⟨batch, present, waiting⟩ := List.mem_flatMap.mp failed
  have held : (token, Place.retrying) ∈ world.holdings :=
    mem_holdings_of_batch present (List.mem_append_right _ (List.mem_map.mpr ⟨token, waiting, rfl⟩))
  obtain ⟨sound, retries, stage, _⟩ := orderly.custody.fits token _ held
  have intact : stageOf world.log token ≠ .broken := sound.1
  have retrying : stageOf world.log token = .retrying retries := stage
  refine ⟨?_, hit, ?_⟩
  · rw [accepted_mem_iff intact, retrying]
    simp
  · rw [countP_ready_responses intact, retrying]
    rfl

section Run

variable {start finish : World} {actions : List Action}

/-- `process_cancel_requests` at work, from its section to its return. -/
theorem scanning_of_runs (reachable : managerSystem.Reachable world)
    (at_ : world.phase = .processCancel .process) (agenda : world.agenda = [])
    (entered : managerSystem.step world (.work .proceed) = some start)
    (runs : managerSystem.Runs start actions finish)
    (within : ∀ action ∈ actions, action ≠ .callProcess ∧ action ≠ .callShutdown) :
    Scanning world finish ∧ finish.shutdown = false := by
  have controlled := controlled_of_reachable reachable
  have running : start.shutdown = false :=
    ((step_transition entered).shutdown_eq controlled (by simp)).trans (controlled.running at_ rfl)
  refine runs.induction (fun state => Scanning world state ∧ state.shutdown = false)
    (reachable.step entered)
    ⟨scanning_start (faithful_of_reachable reachable) at_ agenda entered, running⟩ ?_
  intro state action after reached member invariant stepped
  have other := within action member
  refine ⟨invariant.1.step (orderly_of_reachable reachable) (known_of_reachable reachable) reached
    invariant.2 other stepped, ?_⟩
  exact ((step_transition stepped).shutdown_eq (controlled_of_reachable reached) other.2).trans
    invariant.2

/-- The scan does not find a request that waits for a retry inside a batch. -/
theorem CancelsScanned.misses (scanned : CancelsScanned world finish) (orderly : Orderly world)
    (finishOrderly : Orderly finish) :
    ∀ batch ∈ world.activeRequestBatches, ∀ token ∈ batch.failedRequests,
      world.cancels token = false := by
  intro batch present token waiting
  by_contra hit
  rw [Bool.not_eq_false] at hit
  have member : token ∈ world.batchFailed := List.mem_flatMap.mpr ⟨batch, present, waiting⟩
  obtain ⟨response, sent, cancelled⟩ :=
    scanned.answered token (orderly.due_of_batchFailed member hit)
  have kept : batch.filterHandlers (!world.cancelsHandler ·) ∈ finish.activeRequestBatches := by
    rw [scanned.batches]
    exact List.mem_map.mpr ⟨batch, present, rfl⟩
  have held : (token, Place.retrying) ∈ finish.holdings :=
    mem_holdings_of_batch kept (List.mem_append_right _ (List.mem_map.mpr ⟨token, waiting, rfl⟩))
  obtain ⟨sound, retries, stage, _⟩ := finishOrderly.custody.fits token _ held
  have retrying : stageOf finish.log token = .retrying retries := stage
  have unready : (responses finish.log token).countP (·.ready) = 0 := by
    rw [countP_ready_responses sound.1, retrying]
    rfl
  have ready : response.ready = true := (Bool.and_eq_true_iff.mp cancelled).1
  exact (List.countP_eq_zero.mp unready) response sent ready

/-- The scan finds every other request that matches. -/
theorem Scanning.scanned (scanning : Scanning world finish) (orderly : Orderly world)
    (reachable : managerSystem.Reachable finish) (running : finish.shutdown = false)
    (returned : finish.phase = .notifyIdle) (done : finish.agenda = [])
    (misses : ∀ batch ∈ world.activeRequestBatches, ∀ token ∈ batch.failedRequests,
      world.cancels token = false) : CancelsScanned world finish := by
  have outside : ∀ token, world.Due token → token ∉ world.batchFailed := by
    intro token due member
    obtain ⟨batch, present, waiting⟩ := List.mem_flatMap.mp member
    have missed := misses batch present token waiting
    rw [due.hit] at missed
    exact absurd missed (by simp)
  have progress := scanning.progress
  rw [returned] at progress
  obtain ⟨failed, batches, answered⟩ := progress
  have finished : ∀ token, world.Due token → (stageOf finish.log token).isDone = true := by
    intro token due
    refine (orderly_of_reachable reachable).isDone ?_ (fun lost => ?_) ?_
    · obtain ⟨earlier, grown, _⟩ := scanning.logged
      rw [grown]
      exact List.mem_append_left _ due.accepted
    · exact not_dropped_of_running reachable running token (Or.inr lost)
    · exact scanning.not_held done (by rw [returned]; rfl) failed batches
        (orderly.lt_of_accepted due.accepted) due.hit (outside token due)
  refine ⟨fun token due => answered token due (outside token due),
    fun token call before after due queued split =>
      scanning.ordered call before after queued split token due (outside token due),
    fun token later more due further => ?_, ?_, failed, batches, fun token => scanning.silent⟩
  · obtain ⟨events, extended⟩ := log_append_of_runs reachable further
    refine ⟨events, extended, not_subject_of_done finish.log events (finished token due) ?_⟩
    rw [← extended]
    exact ((orderly_of_reachable (reachable.runs further)).custody.sound token).1
  · obtain ⟨added, kept, fresh⟩ := scanning.pending
    refine ⟨added, kept, fun token member accepted => ?_⟩
    exact Nat.not_le_of_lt (orderly.lt_of_accepted accepted) (fresh token member)

/-- `process_cancel_requests` keeps what it promises if and only if no request that waits for a
retry inside a batch matches a queued cancellation. -/
theorem cancel_scan_iff (reachable : managerSystem.Reachable world)
    (at_ : world.phase = .processCancel .process) (agenda : world.agenda = [])
    (entered : managerSystem.step world (.work .proceed) = some start)
    (runs : managerSystem.Runs start actions finish)
    (within : ∀ action ∈ actions, action ≠ .callProcess ∧ action ≠ .callShutdown)
    (returned : finish.phase = .notifyIdle) (done : finish.agenda = []) :
    CancelsScanned world finish ↔
      ∀ batch ∈ world.activeRequestBatches, ∀ token ∈ batch.failedRequests,
        world.cancels token = false := by
  have orderly := orderly_of_reachable reachable
  have finishReachable := (reachable.step entered).runs runs
  obtain ⟨scanning, running⟩ := scanning_of_runs reachable at_ agenda entered runs within
  constructor
  · exact fun scanned => scanned.misses orderly (orderly_of_reachable finishReachable)
  · exact fun misses => scanning.scanned orderly finishReachable running returned done misses

/-! ### Two scans -/

/-- Where the worker enters `process_cancel_requests`, and where it leaves it. -/
def Phase.scanBorder : Phase → Option Bool
  | .processCancel .process => some false
  | .notifyIdle => some true
  | _ => none

theorem scanBorder_entered {phase : Phase} :
    phase.scanBorder = some false ↔ phase = .processCancel .process := by
  cases phase with
  | processCancel mode => cases mode <;> simp [Phase.scanBorder]
  | _ => simp [Phase.scanBorder]

theorem scanBorder_left {phase : Phase} :
    phase.scanBorder = some true ↔ phase = .notifyIdle := by
  cases phase with
  | processCancel mode => cases mode <;> simp [Phase.scanBorder]
  | _ => simp [Phase.scanBorder]

theorem proceeds_within (count : ℕ) : ∀ action ∈ List.replicate count (Action.work .proceed),
    action ≠ .callProcess ∧ action ≠ .callShutdown := by
  intro action member
  rw [List.eq_of_mem_replicate member]
  simp

/-- The first request is cancelled by its id, and `process` goes on to its scan. -/
def cancelFirst : List Action :=
  [.cancelById 1 true, .continueCaller 0, .work .noMessage, .work .proceed, .work (.time 3)]

/-- A transfer that runs is found by the scan. -/
theorem cancel_scan_twoTransfers :
    ∃ world start finish,
      managerSystem.Runs managerSystem.init (twoTransfers ++ cancelFirst) world ∧
      managerSystem.step world (.work .proceed) = some start ∧
      managerSystem.Runs start (List.replicate 8 (.work .proceed)) finish ∧
      world.Due 1 ∧ CancelsScanned world finish := by
  have before : (managerSystem.run managerSystem.init (twoTransfers ++ cancelFirst)).any
      (fun world => decide (world.phase.scanBorder = some false ∧ world.agenda = [] ∧
        .accepted 1 ∈ world.log ∧ world.cancels 1 = true ∧
        (responses world.log 1).countP (·.ready) = 0 ∧ world.batchFailed = [] ∧
        ((managerSystem.step world (.work .proceed)).any fun start =>
          (managerSystem.run start (List.replicate 8 (.work .proceed))).any fun finish =>
            decide (finish.phase.scanBorder = some true ∧ finish.agenda = [])) = true)) = true := by
    decide +kernel
  obtain ⟨world, runs, evaluated⟩ := System.exists_runs before
  obtain ⟨at_, agenda, accepted, hit, waits, empty, later⟩ := of_decide_eq_true evaluated
  obtain ⟨start, entered, after⟩ := (Option.any_eq_true _ _).mp later
  obtain ⟨finish, ends, checked⟩ := System.exists_runs after
  obtain ⟨returned, done⟩ := of_decide_eq_true checked
  refine ⟨world, start, finish, runs, entered, ends, ⟨accepted, hit, waits⟩, ?_⟩
  refine (cancel_scan_iff ⟨_, runs⟩ (scanBorder_entered.mp at_) agenda entered ends
    (proceeds_within 8) (scanBorder_left.mp returned) done).mpr fun batch present token waiting => ?_
  rw [List.flatMap_eq_nil_iff.mp empty batch present] at waiting
  exact absurd waiting List.not_mem_nil

/-- The first transfer fails, and its request waits for a retry inside the batch. -/
def failFirst : List Action :=
  [.work (.message 0 { result := 7, responseCode := 0 } 2)]

/-- The request that waits inside the batch is not answered, although the callback of its
cancellation runs. -/
theorem cancel_scan_misses_retry :
    ¬ ∀ (world start finish : World) (actions : List Action), managerSystem.Reachable world →
      world.phase = .processCancel .process → world.agenda = [] →
      managerSystem.step world (.work .proceed) = some start →
      managerSystem.Runs start actions finish →
      (∀ action ∈ actions, action ≠ .callProcess ∧ action ≠ .callShutdown) →
      finish.phase = .notifyIdle → finish.agenda = [] → CancelsScanned world finish := by
  intro promised
  have before : (managerSystem.run managerSystem.init
      (twoTransfers ++ failFirst ++ cancelFirst)).any
      (fun world => decide (world.phase.scanBorder = some false ∧ world.agenda = [] ∧
        .accepted 1 ∈ world.log ∧ world.cancels 1 = true ∧
        (responses world.log 1).countP (·.ready) = 0 ∧
        ((managerSystem.step world (.work .proceed)).any fun start =>
          (managerSystem.run start (List.replicate 4 (.work .proceed))).any fun finish =>
            decide (finish.phase.scanBorder = some true ∧ finish.agenda = [] ∧
              (responses finish.log 1).all (!·.isCancelled) = true ∧
              .cancelInvoked 0 ∈ finish.log)) = true)) = true := by
    decide +kernel
  obtain ⟨world, runs, evaluated⟩ := System.exists_runs before
  obtain ⟨at_, agenda, accepted, hit, waits, later⟩ := of_decide_eq_true evaluated
  obtain ⟨start, entered, after⟩ := (Option.any_eq_true _ _).mp later
  obtain ⟨finish, ends, checked⟩ := System.exists_runs after
  obtain ⟨returned, done, unanswered, _⟩ := of_decide_eq_true checked
  have scanned := promised world start finish _ ⟨_, runs⟩ (scanBorder_entered.mp at_) agenda entered
    ends (proceeds_within 4) (scanBorder_left.mp returned) done
  obtain ⟨response, sent, cancelled⟩ := scanned.answered 1 ⟨accepted, hit, waits⟩
  have kept := List.all_eq_true.mp unanswered response sent
  rw [cancelled] at kept
  exact absurd kept (by simp)

end Run

end Kurlyk.Http
