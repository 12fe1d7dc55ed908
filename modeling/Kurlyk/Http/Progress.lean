/-
This file proves that `process` and `shutdown` return. The worker runs through
nested loops over lists that other threads extend and that the loops themselves
shorten, and every user callback it invokes may make calls of its own. What is
left of the work is a rank in a lexicographic order: the statement first, then
the rest of the loop at this statement, then the transfers whose messages are
outstanding, and last the agenda. The agenda counts twice. A context that is
being completed may take any number of waiters out, so the calls that complete
contexts weigh more than all others together.

Only libcurl may keep the worker at its place: while `curl_multi_perform`
delivers body data the rank stays as it is.
-/

import Mathlib.Algebra.Ring.Nat
import Mathlib.Data.Prod.Lex
import Kurlyk.Lib.Execution
import Kurlyk.Http.Handlers

namespace Kurlyk.Http

variable {world next : World} {action : Action} {states : ℕ → World} {actions : ℕ → Action}

/-! ### What is left -/

/-- Where a statement stands in `process` and in `shutdown`: each is followed by statements of a
smaller number. The statements of one pass over the active batches share a number. -/
def Phase.order : Phase → ℕ
  | .idle => 0
  | .notifyIdle | .notifyAll => 1
  | .clearBatches => 2
  | .cancelBatches _ _ _ _ => 3
  | .cancelFailed _ _ _ _ => 4
  | .processCancel _ => 5
  | .retryLoop _ => 6
  | .activeLoop _ | .perform _ | .readMessages _ _ | .extractFailed _ => 7
  | .buildBatch _ _ => 8
  | .createBatch _ => 9
  | .pendingLoop _ _ _ => 10
  | .processPending => 11
  | .cleanupPending => 12

namespace World

variable (world : World)

/-- What is left of the loop the worker is in. One batch passes through four statements. -/
def iterations : ℕ :=
  match world.phase with
  | .pendingLoop index _ _ => world.pendingRequests.length - index
  | .buildBatch contextList _ => contextList.length
  | .activeLoop index => 4 * (world.activeRequestBatches.length - index)
  | .perform index => 4 * (world.activeRequestBatches.length - index - 1) + 3
  | .readMessages index _ => 4 * (world.activeRequestBatches.length - index - 1) + 2
  | .extractFailed index => 4 * (world.activeRequestBatches.length - index - 1) + 1
  | .retryLoop index => world.failedRequests.length - index
  | .cancelFailed _ _ index _ => world.failedRequests.length - index
  | .cancelBatches _ _ index _ => world.activeRequestBatches.length - index
  | _ => 0

/-- The transfers of the current batch that may still have a message. -/
def transfers : ℕ :=
  match world.phase with
  | .readMessages index _ =>
    ((world.activeRequestBatches[index]?).map fun batch =>
      batch.handlers.countP HttpRequestHandler.transferring).getD 0
  | _ => 0

/-- How many calls a call makes until its context is completed. -/
def callWeight : Call → ℕ
  | .destroyHandler _ | .cancelHandler _ => 4
  | .invokeFinalCallback _ _ => 3
  | .complete _ => 2
  | .onGroupComplete _ => 1
  | .notifyWaiter _ | .invokeCancel _ | .discard _ => 0

/-- What is left to do before the worker returns. -/
def rank : ℕ ×ₗ ℕ ×ₗ ℕ ×ₗ ℕ ×ₗ ℕ :=
  toLex (world.phase.order, toLex (world.iterations, toLex (world.transfers,
    toLex ((world.agenda.map callWeight).sum, world.agenda.length))))

end World

theorem rank_lt_of_order (before : next.phase.order < world.phase.order) :
    next.rank < world.rank :=
  Prod.Lex.toLex_lt_toLex.mpr (Or.inl before)

theorem rank_lt_of_iterations (order : next.phase.order = world.phase.order)
    (fewer : next.iterations < world.iterations) : next.rank < world.rank :=
  Prod.Lex.toLex_lt_toLex.mpr (Or.inr ⟨order, Prod.Lex.toLex_lt_toLex.mpr (Or.inl fewer)⟩)

theorem rank_lt_of_transfers (order : next.phase.order = world.phase.order)
    (iterations : next.iterations = world.iterations) (fewer : next.transfers < world.transfers) :
    next.rank < world.rank :=
  Prod.Lex.toLex_lt_toLex.mpr (Or.inr ⟨order, Prod.Lex.toLex_lt_toLex.mpr
    (Or.inr ⟨iterations, Prod.Lex.toLex_lt_toLex.mpr (Or.inl fewer)⟩)⟩)

/-! ### The statements of the worker -/

/-- An iteration of the retry loop that only goes on has looked at a request. -/
theorem retryLoop_found {index : ℕ} {now : TimePoint} (agenda : world.agenda = [])
    (at_ : world.phase = .retryLoop index)
    (stepped : managerSystem.step world (.work (.time now)) = some next)
    (later : next.phase = .retryLoop (index + 1)) : index < world.failedRequests.length := by
  have worked : world.work (.time now) = some next := stepped
  rw [World.work, agenda, at_] at worked
  obtain ⟨ticked, tick, rfl⟩ := Option.map_eq_some_iff.mp worked
  obtain rfl := tick_eq_some tick
  by_contra beyond
  have absent : world.failedRequests[index]? = none :=
    List.getElem?_eq_none (Nat.le_of_not_lt beyond)
  unfold World.retryStep at later
  rw [show ({ world with clock := now } : World).failedRequests[index]? = none from absent] at later
  cases later

/-- A message is about a transfer that runs. -/
theorem message_transferring {index position : ℕ} {stillRunning : Bool} {message : CurlMessage}
    {now : TimePoint} {batch : HttpBatchRequestHandler} {handler : HttpRequestHandler}
    (agenda : world.agenda = []) (at_ : world.phase = .readMessages index stillRunning)
    (found : world.activeRequestBatches[index]? = some batch)
    (foundHandler : batch.handlers[position]? = some handler)
    (stepped : managerSystem.step world (.work (.message position message now)) = some next) :
    handler.transferring = true := by
  have worked : world.work (.message position message now) = some next := stepped
  rw [World.work, agenda, at_] at worked
  obtain ⟨ticked, tick, read⟩ := Option.bind_eq_some_iff.mp worked
  obtain rfl := tick_eq_some tick
  unfold World.readMessageStep at read
  rw [show ({ world with clock := now } : World).activeRequestBatches[index]? = some batch
    from found] at read
  dsimp only at read
  rw [foundHandler] at read
  dsimp only at read
  split at read
  · assumption
  · cases read

theorem Jump.rank_lt {phase : Phase} {clock : TimePoint} (agenda : world.agenda = [])
    (busy : world.phase ≠ .idle) (jump : Jump world action phase)
    (stepped : managerSystem.step world action = some { world with phase, clock }) :
    ({ world with phase, clock } : World).rank < world.rank := by
  cases jump with
  | process at_ | processAfterShutdown at_ | shutdownAgain at_ => exact absurd at_ busy
  | skipScan at_ | enterScan at_ | noBatch at_ | retryDone at_ | multiHandle at_
  | failedScanned at_ =>
    refine rank_lt_of_order ?_
    rw [at_]
    dsimp only [Phase.order]
    omega
  | @nothingToCancel mode at_ =>
    refine rank_lt_of_order ?_
    rw [at_]
    cases mode <;> simp [Phase.order, World.afterCancel]
  | refused at_ found | failedKept at_ found =>
    obtain ⟨inside, _⟩ := List.getElem?_eq_some_iff.mp found
    refine rank_lt_of_iterations (by rw [at_]; rfl) ?_
    unfold World.iterations
    rw [at_]
    dsimp only
    omega
  | perform at_ found =>
    obtain ⟨inside, _⟩ := List.getElem?_eq_some_iff.mp found
    refine rank_lt_of_iterations (by rw [at_]; rfl) ?_
    unfold World.iterations
    rw [at_]
    dsimp only
    omega
  | performed at_ | performFailed at_ | stillRunning at_ | batchGone at_ =>
    refine rank_lt_of_iterations (by rw [at_]; rfl) ?_
    unfold World.iterations
    rw [at_]
    dsimp only
    omega
  | nothingToExtract at_ absent =>
    have beyond := List.getElem?_eq_none_iff.mp absent
    refine rank_lt_of_iterations (by rw [at_]; rfl) ?_
    unfold World.iterations
    rw [at_]
    dsimp only
    omega
  | retryLater at_ =>
    have inside := retryLoop_found agenda at_ stepped rfl
    refine rank_lt_of_iterations (by rw [at_]; rfl) ?_
    unfold World.iterations
    rw [at_]
    dsimp only
    omega

theorem PendingStep.rank_lt {input : World.Input} (step : PendingStep world input next) :
    next.rank < world.rank := by
  cases step with
  | @scanned index ready failed now at_ =>
    refine rank_lt_of_order ?_
    rw [at_]
    cases ready with
    | nil => simp [Phase.order]
    | cons => simp [Phase.order]
  | badRequest at_ found | dispatch at_ found =>
    obtain ⟨inside, _⟩ := List.getElem?_eq_some_iff.mp found
    refine rank_lt_of_iterations (by rw [at_]; rfl) ?_
    unfold World.iterations
    rw [at_]
    dsimp only
    rw [List.length_eraseIdx_of_lt inside]
    omega
  | noMultiHandle at_ | batchBuilt at_ =>
    refine rank_lt_of_order ?_
    rw [at_]
    dsimp only [Phase.order]
    omega
  | start at_ | noEasyHandle at_ =>
    refine rank_lt_of_iterations (by rw [at_]; rfl) ?_
    unfold World.iterations
    rw [at_]
    exact Nat.lt_succ_self _

/-- A handler that no longer transfers leaves fewer messages outstanding. -/
theorem countP_setHandler_lt {batch : HttpBatchRequestHandler} {position : ℕ}
    {handler other : HttpRequestHandler} (found : batch.handlers[position]? = some handler)
    (running : handler.transferring = true) (ended : other.transferring = false) :
    (batch.setHandler position other).handlers.countP HttpRequestHandler.transferring <
      batch.handlers.countP HttpRequestHandler.transferring := by
  obtain ⟨inside, rfl⟩ := List.getElem?_eq_some_iff.mp found
  have positive : 0 < batch.handlers.countP HttpRequestHandler.transferring :=
    List.countP_pos_iff.mpr ⟨_, List.getElem_mem inside, running⟩
  have counted := List.countP_set (p := HttpRequestHandler.transferring) (a := other) inside
  rw [running, ended] at counted
  unfold HttpBatchRequestHandler.setHandler
  rw [counted]
  simp only [if_true, Bool.false_eq_true, if_false]
  omega

/-- A message ends a transfer of the current batch. -/
theorem rank_lt_of_message {index : ℕ} {stillRunning : Bool}
    {batch other : HttpBatchRequestHandler}
    (at_ : world.phase = .readMessages index stillRunning)
    (found : world.activeRequestBatches[index]? = some batch) (phase : next.phase = world.phase)
    (batches : next.activeRequestBatches = world.activeRequestBatches.set index other)
    (fewer : other.handlers.countP HttpRequestHandler.transferring <
      batch.handlers.countP HttpRequestHandler.transferring) : next.rank < world.rank := by
  obtain ⟨inside, _⟩ := List.getElem?_eq_some_iff.mp found
  refine rank_lt_of_transfers (by rw [phase]) ?_ ?_
  · unfold World.iterations
    rw [phase, at_, batches, List.length_set]
  · unfold World.transfers
    rw [phase, at_, batches]
    dsimp only
    rw [found, List.getElem?_set_self inside]
    exact fewer

theorem ActiveStep.rank_lt {input : World.Input} (agenda : world.agenda = [])
    (step : ActiveStep world input next)
    (stepped : managerSystem.step world (.work input) = some next)
    (advances : ∀ position data status, input ≠ .write position data status) :
    next.rank < world.rank := by
  cases step with
  | write | stream => exact absurd rfl (advances _ _ _)
  | processNoMulti at_ found | destroyHandlers at_ found =>
    obtain ⟨inside, _⟩ := List.getElem?_eq_some_iff.mp found
    refine rank_lt_of_iterations (by rw [at_]; rfl) ?_
    unfold World.iterations
    rw [at_]
    dsimp only
    rw [List.length_set]
    omega
  | ignoreMessage at_ found foundHandler =>
    have running := message_transferring agenda at_ found foundHandler stepped
    exact rank_lt_of_message at_ found rfl rfl (countP_setHandler_lt foundHandler running rfl)
  | retry at_ found foundHandler running | finish at_ found foundHandler running =>
    exact rank_lt_of_message at_ found rfl rfl (countP_setHandler_lt foundHandler running rfl)
  | extract at_ found =>
    obtain ⟨inside, _⟩ := List.getElem?_eq_some_iff.mp found
    refine rank_lt_of_iterations (by rw [at_]; rfl) ?_
    unfold World.iterations
    rw [at_]
    dsimp only
    rw [List.length_eraseIdx_of_lt inside]
    omega
  | dropFailed at_ found | requeue at_ found =>
    obtain ⟨inside, _⟩ := List.getElem?_eq_some_iff.mp found
    refine rank_lt_of_iterations (by rw [at_]) ?_
    unfold World.iterations
    rw [at_]
    dsimp only
    rw [List.length_eraseIdx_of_lt inside]
    omega

theorem CancelStep.rank_lt (step : CancelStep world next) : next.rank < world.rank := by
  cases step with
  | takeCancels at_ =>
    refine rank_lt_of_order ?_
    rw [at_]
    dsimp only [Phase.order]
    omega
  | cancelFailed at_ found =>
    obtain ⟨inside, _⟩ := List.getElem?_eq_some_iff.mp found
    refine rank_lt_of_iterations (by rw [at_]) ?_
    unfold World.iterations
    rw [at_]
    dsimp only
    rw [List.length_eraseIdx_of_lt inside]
    omega
  | cancelBatch at_ found =>
    obtain ⟨inside, _⟩ := List.getElem?_eq_some_iff.mp found
    refine rank_lt_of_iterations (by rw [at_]; rfl) ?_
    unfold World.iterations
    rw [at_]
    dsimp only
    rw [List.length_set]
    omega
  | @batchesScanned ids groups index mode at_ =>
    refine rank_lt_of_order ?_
    rw [at_]
    cases mode <;> simp [Phase.order, World.afterCancel]

theorem ClosingStep.rank_lt (step : ClosingStep world next) : next.rank < world.rank := by
  cases step with
  | notifyIdle at_ | notifyAll at_ | cleanup at_ | clear at_ =>
    refine rank_lt_of_order ?_
    rw [at_]
    simp [Phase.order, World.notifyStep, World.cleanupPendingStep, World.clearBatchesStep]

/-! ### The agenda -/

theorem iterations_congr (phase : next.phase = world.phase)
    (pending : world.locked = true → next.pendingRequests = world.pendingRequests)
    (failed : next.failedRequests = world.failedRequests)
    (batches : next.activeRequestBatches = world.activeRequestBatches) :
    next.iterations = world.iterations := by
  unfold World.iterations
  rw [phase, failed, batches]
  split
  · rename_i at_
    rw [pending (by unfold World.locked; rw [at_])]
  all_goals rfl

theorem transfers_congr (phase : next.phase = world.phase)
    (batches : next.activeRequestBatches = world.activeRequestBatches) :
    next.transfers = world.transfers := by
  unfold World.transfers
  rw [phase, batches]

/-- The worker stays at its statement, and what it still has to call gets less. -/
theorem rank_lt_of_agenda (phase : next.phase = world.phase)
    (iterations : next.iterations = world.iterations)
    (transfers : next.transfers = world.transfers)
    (less : (next.agenda.map World.callWeight).sum < (world.agenda.map World.callWeight).sum ∨
      (next.agenda.map World.callWeight).sum = (world.agenda.map World.callWeight).sum ∧
        next.agenda.length < world.agenda.length) : next.rank < world.rank :=
  Prod.Lex.toLex_lt_toLex.mpr (Or.inr ⟨by rw [phase], Prod.Lex.toLex_lt_toLex.mpr
    (Or.inr ⟨iterations, Prod.Lex.toLex_lt_toLex.mpr
      (Or.inr ⟨transfers, Prod.Lex.toLex_lt_toLex.mpr less⟩)⟩)⟩)

theorem weight_notifyWaiters (waiters : List GroupWaiter) (rest : List Call) :
    ((waiters.map Call.notifyWaiter ++ rest).map World.callWeight).sum =
      (rest.map World.callWeight).sum := by
  induction waiters with
  | nil => rfl
  | cons waiter waiters inductionHypothesis =>
    rw [List.map_cons, List.cons_append, List.map_cons, List.sum_cons, inductionHypothesis]
    exact Nat.zero_add _

theorem AgendaStep.rank_lt (step : AgendaStep world next) : next.rank < world.rank := by
  have unfilled := step.unfilled
  have iterations := iterations_congr step.phase_eq (fun _ => unfilled.pending) unfilled.failed
    unfilled.batches
  have transfers := transfers_congr step.phase_eq unfilled.batches
  refine rank_lt_of_agenda step.phase_eq iterations transfers ?_
  cases step with
  | finalCallback agenda | completeAgain agenda | complete agenda | settle agenda =>
    rw [agenda]
    simp only [List.map_cons, List.sum_cons, World.callWeight]
    omega
  | settleGroup agenda =>
    rw [agenda, List.map_cons, List.sum_cons]
    refine Or.inl ?_
    dsimp only
    rw [weight_notifyWaiters]
    exact Nat.lt_add_of_pos_left Nat.one_pos
  | notifyWaiter agenda | invokeCancel agenda | discard agenda =>
    rw [agenda]
    exact Or.inr ⟨(Nat.zero_add _).symm, Nat.lt_succ_self _⟩
  | handlerAnswered agenda handled =>
    rw [agenda]
    rcases handled with rfl | rfl <;> exact Or.inl (Nat.lt_add_of_pos_left (Nat.zero_lt_succ 3))
  | destroyHandler agenda | cancelHandler agenda =>
    rw [agenda]
    simp only [List.map_cons, List.sum_cons, World.callWeight]
    omega

/-! ### The other threads -/

theorem CallerStep.pending_of_locked (locked : world.locked = true)
    (step : CallerStep world action next) : next.pendingRequests = world.pendingRequests := by
  cases step with
  | submit unlocked | waitRegister unlocked | cancelWait unlocked | insertByGroup unlocked
  | clientSubmits unlocked =>
    rw [locked] at unlocked
    cases unlocked
  | cancelById | cancelByGroup =>
    unfold World.callCancel
    dsimp only
    split <;> rfl
  | _ => rfl

theorem Outside.rank_eq (outside : Outside world next)
    (pending : world.locked = true → next.pendingRequests = world.pendingRequests) :
    next.rank = world.rank := by
  unfold World.rank
  rw [iterations_congr outside.phase pending outside.failed outside.batches,
    transfers_congr outside.phase outside.batches, outside.phase, outside.agenda]

/-! ### The worker comes to rest -/

/-- The worker is in neither `process` nor `shutdown`. -/
def World.Resting (world : World) : Prop :=
  world.phase = .idle ∧ world.agenda = []

instance : DecidablePred World.Resting :=
  fun world => inferInstanceAs (Decidable (world.phase = .idle ∧ world.agenda = []))

/-- The worker makes a step, and not one of libcurl that delivers body data. -/
def Action.Advances : Action → Prop
  | .work (.write _ _ _) => False
  | .work _ => True
  | _ => False

/-- No step of any thread raises the rank while the worker is busy, and the steps of the worker
lower it. -/
theorem rank_step (busy : ¬ world.Resting) (stepped : managerSystem.step world action = some next) :
    (action.Advances → next.rank < world.rank) ∧ next.rank ≤ world.rank := by
  have lowers (less : next.rank < world.rank) :
      (action.Advances → next.rank < world.rank) ∧ next.rank ≤ world.rank :=
    ⟨fun _ => less, le_of_lt less⟩
  cases step_transition stepped with
  | jump agenda jump => exact lowers (jump.rank_lt agenda (busy ⟨·, agenda⟩) stepped)
  | pending agenda step => exact lowers step.rank_lt
  | @active input _ agenda step =>
    by_cases advances : ∃ position data status, input = .write position data status
    · obtain ⟨position, data, status, rfl⟩ := advances
      refine ⟨False.elim, le_of_eq ?_⟩
      cases step with
      | write at_ | stream at_ => simp [World.rank, World.iterations, World.transfers, at_]
    · exact lowers (step.rank_lt agenda stepped
        fun position data status same => advances ⟨position, data, status, same⟩)
  | cancel agenda step => exact lowers step.rank_lt
  | closing agenda step => exact lowers step.rank_lt
  | agenda step => exact lowers step.rank_lt
  | shutdown agenda at_ => exact absurd ⟨at_, agenda⟩ busy
  | caller step =>
    refine ⟨fun advances => ?_, le_of_eq (step.outside.rank_eq fun locked =>
      step.pending_of_locked locked)⟩
    cases step with
    | _ => exact advances.elim
  | handles step =>
    refine ⟨fun advances => ?_, le_of_eq (step.outside.rank_eq fun _ => ?_)⟩
    · cases step with
      | _ => exact advances.elim
    · exact step.unfilled.pending

/-- The worker is never stuck: while it is busy it can make a step that lowers its rank, whatever
the other threads have done. -/
theorem worker_enabled (busy : ¬ world.Resting) :
    ∃ input next, managerSystem.step world (.work input) = some next ∧
      (Action.work input).Advances := by
  cases agenda : world.agenda with
  | cons call rest =>
    refine ⟨.proceed, world.makeCall rest call, ?_, trivial⟩
    exact show world.work .proceed = _ by rw [World.work, agenda]; rfl
  | nil =>
    have made {input : World.Input} {after : World}
        (stepped : world.statement world.phase input = some after) :
        managerSystem.step world (.work input) = some after := by
      exact show world.work input = _ by rw [World.work, agenda]; exact stepped
    have ticked (made : World → World) : (world.tick world.clock).map made = some (made world) :=
      congrArg (Option.map made) (if_pos (Nat.le_refl _))
    cases at_ : world.phase with
    | idle => exact absurd ⟨at_, agenda⟩ busy
    | pendingLoop | retryLoop =>
      exact ⟨.time world.clock, _, made (by rw [at_]; exact ticked _), trivial⟩
    | createBatch => exact ⟨.multiInit true, _, made (by rw [at_]; rfl), trivial⟩
    | buildBatch contextList =>
      cases contextList with
      | nil => exact ⟨.proceed, _, made (by rw [at_]; rfl), trivial⟩
      | cons => exact ⟨.easyInit true true, _, made (by rw [at_]; rfl), trivial⟩
    | perform => exact ⟨.performed true false, _, made (by rw [at_]; rfl), trivial⟩
    | readMessages => exact ⟨.noMessage, _, made (by rw [at_]; rfl), trivial⟩
    | _ => exact ⟨.proceed, _, made (by rw [at_]; rfl), trivial⟩

/-- A streaming request of a group somebody waits for. Its first attempt fails; the second delivers
one chunk and then ends, and the waiter is notified. -/
def retriedOnce : List Action :=
  [.submitRequest (some
      { requestId := 1, groupId := 7, streaming := true, retryAttempts := 2 }) true,
    .waitRequests 7 true,
    .callProcess, .work .proceed, .work (.time 1), .work (.time 1), .work (.multiInit true),
    .work (.easyInit true true), .work .proceed, .work .proceed, .work (.performed true true),
    .work (.message 0 { result := 7, responseCode := 0 } 1), .work .noMessage, .work .proceed,
    .work (.time 1), .work .proceed, .work .proceed,
    .callProcess, .work .proceed, .work .proceed, .work (.performed true false), .work .noMessage,
    .work .proceed, .work .proceed, .work .proceed, .work (.time 1), .work (.time 1),
    .work .proceed, .work .proceed,
    .callProcess, .work .proceed, .work (.time 2), .work (.time 2), .work (.multiInit true),
    .work (.easyInit true true), .work .proceed, .work .proceed,
    .work (.write 0 [104, 105] 200), .work (.performed true false),
    .work (.message 0 { result := 0, responseCode := 200 } 2), .work .proceed, .work .proceed,
    .work .proceed, .work .proceed, .work .noMessage, .work .proceed, .work .proceed,
    .work .proceed, .work (.time 2), .work .proceed, .work .proceed]

end Kurlyk.Http
