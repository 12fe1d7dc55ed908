/-
This file collects two facts that hold of every step. A handler of a batch
carries the token of a request that was admitted, also after the request was
answered. And a thread other than the worker may admit a request, but touches
none that was admitted before, and moves neither the worker nor the batches.
-/

import Kurlyk.Http.Control
import Kurlyk.Http.Groups

namespace Kurlyk.Http

variable {world next : World} {action : Action} {token : Token}

/-! ### Tokens of handlers -/

/-- The handlers the worker is putting into a new batch. -/
def Phase.handlers : Phase → List HttpRequestHandler
  | .buildBatch _ handlers => handlers
  | _ => []

/-- The handler belongs to a batch, or to one that is being built. -/
def World.Handles (world : World) (handler : HttpRequestHandler) : Prop :=
  (∃ batch ∈ world.activeRequestBatches, handler ∈ batch.handlers) ∨
    handler ∈ world.phase.handlers

/-- The tokens of all handlers were given out, also those of answered requests. -/
def Known (world : World) : Prop :=
  ∀ handler token, world.Handles handler → handler.requestContext = some token →
    token < world.nextInFlightToken

/-- A step that adds no handler: batches are kept, and handlers may leave them. -/
theorem Known.of_batches (known : Known world)
    (counter : world.nextInFlightToken ≤ next.nextInFlightToken)
    (batches : ∀ batch ∈ next.activeRequestBatches, ∃ old ∈ world.activeRequestBatches,
      batch.handlers ⊆ old.handlers)
    (handlers : next.phase.handlers ⊆ world.phase.handlers) : Known next := by
  intro handler token handled context
  refine Nat.lt_of_lt_of_le (known handler token ?_ context) counter
  rcases handled with ⟨batch, present, member⟩ | member
  · obtain ⟨old, found, fewer⟩ := batches batch present
    exact Or.inl ⟨old, found, fewer member⟩
  · exact Or.inr (handlers member)

/-- A step that leaves the batches alone. -/
theorem Known.same (known : Known world)
    (counter : world.nextInFlightToken ≤ next.nextInFlightToken)
    (batches : next.activeRequestBatches = world.activeRequestBatches)
    (handlers : next.phase.handlers ⊆ world.phase.handlers) : Known next :=
  known.of_batches counter (fun batch present => ⟨batch, batches ▸ present, List.Subset.refl _⟩)
    handlers

/-- A step that takes handlers out of one batch. -/
theorem Known.shrink (known : Known world)
    (counter : world.nextInFlightToken ≤ next.nextInFlightToken) {index : ℕ}
    {batch written : HttpBatchRequestHandler}
    (found : world.activeRequestBatches[index]? = some batch)
    (batches : next.activeRequestBatches = world.activeRequestBatches.set index written)
    (fewer : written.handlers ⊆ batch.handlers)
    (handlers : next.phase.handlers ⊆ world.phase.handlers) : Known next := by
  refine known.of_batches counter (fun other present => ?_) handlers
  rw [batches] at present
  rcases List.mem_or_eq_of_mem_set present with old | rfl
  · exact ⟨other, old, List.Subset.refl _⟩
  · exact ⟨batch, List.mem_of_getElem? found, fewer⟩

/-- A step that writes one handler back, with its context or without. -/
theorem Known.write (known : Known world)
    (counter : world.nextInFlightToken ≤ next.nextInFlightToken) {index position : ℕ}
    {batch written : HttpBatchRequestHandler} {handler changed : HttpRequestHandler}
    (found : world.activeRequestBatches[index]? = some batch)
    (foundHandler : batch.handlers[position]? = some handler)
    (batches : next.activeRequestBatches = world.activeRequestBatches.set index written)
    (handlers : written.handlers = batch.handlers.set position changed)
    (context : changed.requestContext = handler.requestContext ∨ changed.requestContext = none)
    (phase : next.phase = world.phase) : Known next := by
  intro any token handled carried
  refine Nat.lt_of_lt_of_le ?_ counter
  rcases handled with ⟨other, present, member⟩ | member
  · rw [batches] at present
    rcases List.mem_or_eq_of_mem_set present with old | rfl
    · exact known any token (Or.inl ⟨other, old, member⟩) carried
    · rw [handlers] at member
      rcases List.mem_or_eq_of_mem_set member with old | rfl
      · exact known any token (Or.inl ⟨batch, List.mem_of_getElem? found, old⟩) carried
      · rcases context with same | none
        · rw [same] at carried
          exact known handler token (Or.inl ⟨batch, List.mem_of_getElem? found,
            List.mem_of_getElem? foundHandler⟩) carried
        · rw [none] at carried
          exact absurd carried (by simp)
  · rw [phase] at member
    exact known any token (Or.inr member) carried

/-- A new batch takes over the handlers the worker has built. -/
theorem Known.push (known : Known world)
    (counter : world.nextInFlightToken ≤ next.nextInFlightToken)
    {batch : HttpBatchRequestHandler}
    (batches : next.activeRequestBatches = world.activeRequestBatches ++ [batch])
    (built : batch.handlers ⊆ world.phase.handlers) (phase : next.phase.handlers = []) :
    Known next := by
  intro handler token handled context
  refine Nat.lt_of_lt_of_le (known handler token ?_ context) counter
  rcases handled with ⟨other, present, member⟩ | building
  · rw [batches] at present
    rcases List.mem_append.mp present with old | new
    · exact Or.inl ⟨other, old, member⟩
    · rw [List.mem_singleton.mp new] at member
      exact Or.inr (built member)
  · rw [phase] at building
    exact absurd building List.not_mem_nil

theorem Jump.handlers {phase : Phase} (jump : Jump world action phase) :
    phase.handlers = [] := by
  cases jump with
  | @nothingToCancel mode => cases mode <;> rfl
  | _ => rfl

theorem PendingStep.known {input : World.Input} (known : Known world) (orderly : Orderly world)
    (step : PendingStep world input next) : Known next := by
  have nothing : ([] : List HttpRequestHandler) ⊆ world.phase.handlers := List.nil_subset _
  cases step with
  | scanned =>
    refine known.same (Nat.le_refl _) rfl ?_
    dsimp only
    split <;> exact nothing
  | badRequest | dispatch => exact known.same (Nat.le_refl _) rfl nothing
  | noMultiHandle => exact known.push (Nat.le_refl _) rfl nothing rfl
  | @start begun contextList handlers added at_ =>
    have held : (begun, Place.dispatched) ∈ world.holdings := by
      refine mem_holdings_of_phase ?_
      rw [at_]
      exact List.mem_append_left _ List.mem_cons_self
    intro handler token handled context
    rcases handled with inBatch | building
    · exact known handler token (Or.inl inBatch) context
    · rcases List.mem_append.mp building with old | new
      · exact known handler token (Or.inr (by rw [at_]; exact old)) context
      · rw [List.mem_singleton.mp new] at context
        exact Option.some.inj context ▸ orderly.lt_of_mem held
  | noEasyHandle at_ =>
    exact known.same (Nat.le_refl _) rfl (by rw [at_]; exact List.Subset.refl _)
  | batchBuilt at_ =>
    exact known.push (Nat.le_refl _) rfl (by rw [at_]; exact List.Subset.refl _) rfl

theorem ActiveStep.known {input : World.Input} (known : Known world)
    (step : ActiveStep world input next) : Known next := by
  have nothing : ([] : List HttpRequestHandler) ⊆ world.phase.handlers := List.nil_subset _
  cases step with
  | processNoMulti at_ found | destroyHandlers at_ found =>
    exact known.shrink (Nat.le_refl _) found rfl (List.nil_subset _) nothing
  | extract at_ found =>
    exact known.of_batches (Nat.le_refl _)
      (fun batch present => ⟨batch, List.mem_of_mem_eraseIdx present, List.Subset.refl _⟩) nothing
  | write at_ found foundHandler | stream at_ found foundHandler
  | ignoreMessage at_ found foundHandler | finish at_ found foundHandler =>
    exact known.write (Nat.le_refl _) found foundHandler rfl rfl (Or.inl rfl) rfl
  | retry at_ found foundHandler =>
    exact known.write (Nat.le_refl _) found foundHandler rfl rfl (Or.inr rfl) rfl
  | dropFailed | requeue => exact known.same (Nat.le_refl _) rfl (List.Subset.refl _)

theorem CancelStep.known (known : Known world) (step : CancelStep world next) : Known next := by
  have nothing : ([] : List HttpRequestHandler) ⊆ world.phase.handlers := List.nil_subset _
  cases step with
  | takeCancels => exact known.same (Nat.le_refl _) rfl nothing
  | cancelFailed => exact known.same (Nat.le_refl _) rfl (List.Subset.refl _)
  | cancelBatch at_ found =>
    exact known.shrink (Nat.le_refl _) found rfl List.filter_sublist.subset nothing
  | @batchesScanned ids groups index mode =>
    refine known.same (Nat.le_refl _) rfl ?_
    cases mode <;> exact nothing

theorem ClosingStep.known (known : Known world) (step : ClosingStep world next) : Known next := by
  have nothing : ([] : List HttpRequestHandler) ⊆ world.phase.handlers := List.nil_subset _
  cases step with
  | clear => exact known.of_batches (Nat.le_refl _) (fun _ present => by cases present) nothing
  | _ => exact known.same (Nat.le_refl _) rfl nothing

/-! ### Steps of other threads -/

/-- A step of a thread other than the worker: it may admit a request, and touches no other. -/
structure Outside (world next : World) : Prop where
  phase : next.phase = world.phase
  agenda : next.agenda = world.agenda
  failed : next.failedRequests = world.failedRequests
  batches : next.activeRequestBatches = world.activeRequestBatches
  counter : world.nextInFlightToken ≤ next.nextInFlightToken
  pending : ∃ added, next.pendingRequests = world.pendingRequests ++ added ∧
    ∀ token ∈ added, world.nextInFlightToken ≤ token
  contexts : ∀ token < world.nextInFlightToken, next.contexts token = world.contexts token
  logged : ∃ events, next.log = world.log ++ events ∧ ∀ token response,
    .response token response ∉ events

/-- A step that admits nothing. -/
theorem Outside.quiet (events : List Event) (phase : next.phase = world.phase)
    (agenda : next.agenda = world.agenda) (failed : next.failedRequests = world.failedRequests)
    (batches : next.activeRequestBatches = world.activeRequestBatches)
    (counter : next.nextInFlightToken = world.nextInFlightToken)
    (pending : next.pendingRequests = world.pendingRequests)
    (contexts : next.contexts = world.contexts) (logged : next.log = world.log ++ events)
    (silent : ∀ token response, .response token response ∉ events) : Outside world next :=
  ⟨phase, agenda, failed, batches, Nat.le_of_eq counter.symm,
    ⟨[], by rw [pending, List.append_nil], by simp⟩, fun _ _ => by rw [contexts],
    ⟨events, logged, silent⟩⟩

theorem submit_outside (world : World) (request : Option HttpRequest) (callback : Bool) :
    Outside world (world.submit request callback) := by
  rcases submit_cases world request callback with rejected | ⟨_, admitted⟩
  · rw [rejected]
    exact .quiet [] rfl rfl rfl rfl rfl rfl rfl (List.append_nil _).symm (by simp)
  · rw [admitted]
    refine ⟨rfl, rfl, rfl, rfl, Nat.le_succ _, ⟨[world.nextInFlightToken], rfl, by simp⟩,
      fun token below => ?_, ⟨_, rfl, by simp⟩⟩
    exact Function.update_of_ne (Nat.ne_of_lt below) _ _

theorem CallerStep.outside (step : CallerStep world action next) : Outside world next := by
  cases step with
  | submit => exact submit_outside _ _ _
  | @clientSubmits position client request callback =>
    obtain ⟨phase, agenda, failed, batches, counter, pending, contexts, logged⟩ := submit_outside
      { world with callers := world.callers.eraseIdx position } (some request) callback
    exact ⟨phase, agenda, failed, batches, counter, pending, contexts, logged⟩
  | waitRegister unlocked registered =>
    obtain ⟨_, rfl⟩ := HttpRequestManager.registerWaiter_eq_some registered
    exact .quiet _ rfl rfl rfl rfl rfl rfl rfl rfl (by simp)
  | cancelWait unlocked removed =>
    obtain ⟨_, _, _, rfl⟩ := HttpRequestManager.cancelWait_eq_some removed
    exact .quiet _ rfl rfl rfl rfl rfl rfl rfl rfl (by simp)
  | insertByGroup unlocked found queued =>
    rw [HttpRequestManager.queueCancelByGroup_eq_some queued]
    exact .quiet [] rfl rfl rfl rfl rfl rfl rfl (List.append_nil _).symm (by simp)
  | cancelById | cancelByGroup =>
    unfold World.callCancel
    dsimp only
    split <;> exact .quiet _ rfl rfl rfl rfl rfl rfl rfl rfl (by simp)
  | waitNow | callerWaits | callerCancels =>
    exact .quiet _ rfl rfl rfl rfl rfl rfl rfl rfl (by simp)
  | _ => exact .quiet [] rfl rfl rfl rfl rfl rfl rfl (List.append_nil _).symm (by simp)

theorem HandleStep.outside (step : HandleStep world action next) : Outside world next := by
  obtain ⟨_, _, _, _, rfl⟩ := step.frame
  exact .quiet [] rfl rfl rfl rfl rfl rfl rfl (List.append_nil _).symm (by simp)

theorem AgendaStep.counter (step : AgendaStep world next) :
    next.nextInFlightToken = world.nextInFlightToken := by
  rcases step.effect with neutral | ⟨token, completes⟩
  · exact neutral.counter
  · exact completes.counter

theorem known_of_reachable (reachable : managerSystem.Reachable world) : Known world := by
  refine reachable.induction Known ?_ ?_
  · rintro handler token (⟨batch, present, _⟩ | building)
    · exact absurd present List.not_mem_nil
    · exact absurd building List.not_mem_nil
  · intro state action after reached known stepped
    cases step_transition stepped with
    | jump agenda jump =>
      refine known.same (Nat.le_refl _) rfl ?_
      rw [jump.handlers]
      exact List.nil_subset _
    | pending agenda step => exact step.known known (orderly_of_reachable reached)
    | active agenda step => exact step.known known
    | cancel agenda step => exact step.known known
    | closing agenda step => exact step.known known
    | agenda step =>
      exact known.same (Nat.le_of_eq step.counter.symm) step.unfilled.batches
        (by rw [step.phase_eq]; exact List.Subset.refl _)
    | shutdown => exact known.same (Nat.le_refl _) rfl (List.nil_subset _)
    | caller step =>
      exact known.same step.outside.counter step.outside.batches
        (by rw [step.outside.phase]; exact List.Subset.refl _)
    | handles step =>
      exact known.same step.outside.counter step.outside.batches
        (by rw [step.outside.phase]; exact List.Subset.refl _)

end Kurlyk.Http
