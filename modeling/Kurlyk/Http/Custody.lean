/-
This file proves that no request is lost or doubled on its way through the
manager. A request's context is at any time in one of the containers of the
manager, in a local variable of the worker, or on its agenda; the lists of all
these places together are the holdings of a state. The stage a request has
reached in the log tells which places it can be in, and every step moves the
contexts it touches in agreement with the events it logs.
-/

import Kurlyk.Http.Lifecycle
import Kurlyk.Http.Transition
import Kurlyk.Lib.Custody

namespace Kurlyk.Http

open RateLimiter

/-! ### Holdings -/

/-- Where the context of an unfinished request is. -/
inductive Place where
  | queued
  | dispatched
  | flying (handler : HttpRequestHandler)
  | retrying
  | finishing (response : HttpResponse)
  | completing
  | grouping
deriving DecidableEq

/-- A handler that has made its last callback does not hold its context any more. -/
def handlerHoldings (handler : HttpRequestHandler) : List (Token × Place) :=
  if handler.callbackCalled then []
  else handler.requestContext.toList.map (·, .flying handler)

def batchHoldings (batch : HttpBatchRequestHandler) : List (Token × Place) :=
  batch.handlers.flatMap handlerHoldings ++ batch.failedRequests.map (·, .retrying)

def Call.holdings : Call → List (Token × Place)
  | .invokeFinalCallback token response => [(token, .finishing response)]
  | .complete token => [(token, .completing)]
  | .onGroupComplete token => [(token, .grouping)]
  | .destroyHandler handler => handlerHoldings handler
  | .cancelHandler handler => handlerHoldings handler
  | .discard token => [(token, .retrying)]
  | _ => []

def Phase.holdings : Phase → List (Token × Place)
  | .pendingLoop _ ready failed => ready.map (·, .dispatched) ++ failed.map (·, .queued)
  | .createBatch contextList => contextList.map (·, .dispatched)
  | .buildBatch contextList handlers =>
    contextList.map (·, .dispatched) ++ handlers.flatMap handlerHoldings
  | _ => []

/-- All contexts of unfinished requests, each with its place. -/
def World.holdings (world : World) : List (Token × Place) :=
  world.pendingRequests.map (·, .queued) ++ world.failedRequests.map (·, .retrying) ++
    world.activeRequestBatches.flatMap batchHoldings ++ world.phase.holdings ++
    world.agenda.flatMap Call.holdings

/-- What is known of a request: its stage and its context. -/
def World.status (world : World) (token : Token) : Stage × HttpRequestContext :=
  (stageOf world.log token, world.contexts token)

/-! ### The rules -/

/-- The failed attempts a stage remembers. -/
def Stage.retries : Stage → ℕ
  | .absent => 0
  | .queued retries => retries
  | .dispatched retries => retries
  | .flying retries _ => retries
  | .retrying retries => retries
  | .final retries _ => retries
  | .released retries _ => retries
  | .done retries _ => retries
  | .lost retries => retries
  | .broken => 0

/-- The stages before the final response. -/
def Stage.isOpen : Stage → Bool
  | .queued _ => true
  | .dispatched _ => true
  | .flying _ _ => true
  | .retrying _ => true
  | _ => false

/-- The stages in which somebody has to hold the context. -/
def Stage.isHeld : Stage → Bool
  | .final _ _ => true
  | .released _ _ => true
  | stage => stage.isOpen

/-- The automaton is not broken, and retries stay below the request's budget. -/
def Sound (status : Stage × HttpRequestContext) : Prop :=
  status.1 ≠ .broken ∧
    (status.1.retries = 0 ∨ (status.1.retries : ℤ) < status.2.retryAttempts)

/-- A request that waits or flies has not been completed, and its context counts its failed
attempts. -/
def Waits (context : HttpRequestContext) (retries : ℕ) : Prop :=
  context.retryAttempt = retries ∧ context.completeCalled = false

/-- The stages that fit a place. -/
def FitsPlace (stage : Stage) (context : HttpRequestContext) : Place → Prop
  | .queued => ∃ retries, stage = .queued retries ∧ Waits context retries ∧
      (0 < retries → context.request.isSome = true)
  | .dispatched => ∃ retries, stage = .dispatched retries ∧ Waits context retries ∧
      context.request.isSome = true
  | .flying handler => ∃ retries chunks, stage = .flying retries chunks ∧ Waits context retries ∧
      context.request.isSome = true ∧ (0 < chunks → handler.hasStreamChunk = true) ∧
      ∃ response, handler.response = some response ∧ response.ready = false ∧
        response.streamChunk = false
  | .retrying => ∃ retries, stage = .retrying retries ∧ Waits context retries ∧
      context.request.isSome = true
  | .finishing response => stage.isOpen = true ∧ context.completeCalled = false ∧
      response.isFinal = true
  | .completing => ∃ retries chunks, stage = .final retries chunks ∧
      context.completeCalled = false
  | .grouping => ∃ retries chunks, stage = .released retries chunks

/-- The rules of custody for requests. -/
def requestRules : Rules (Stage × HttpRequestContext) Place where
  fits status place := Sound status ∧ FitsPlace status.1 status.2 place
  owed status := status.1.isHeld = true
  sound := Sound
  sound_of_fits := And.left

/-- The invariant: every request is in good custody, and tokens not given out are unused. -/
structure Orderly (world : World) : Prop where
  custody : Custody requestRules world.holdings world.status
  fresh : ∀ token, world.nextInFlightToken ≤ token → stageOf world.log token = .absent

variable {world next : World} {token : Token} {source : Place}

theorem FitsPlace.ne_absent {stage : Stage} {context : HttpRequestContext} {place : Place}
    (fits : FitsPlace stage context place) : stage ≠ .absent := by
  rintro rfl
  cases place with
  | finishing response => exact absurd fits.1 (by simp [Stage.isOpen])
  | _ => simp [FitsPlace] at fits

/-- The places of requests whose final response is not decided yet. -/
def Place.isOpen : Place → Bool
  | .queued => true
  | .dispatched => true
  | .flying _ => true
  | .retrying => true
  | _ => false

theorem isOpen_of_mem_map {tokens : List Token} {place : Place} (opened : place.isOpen = true) :
    ∀ entry ∈ tokens.map (·, place), entry.2.isOpen = true := by
  intro entry member
  obtain ⟨token, _, rfl⟩ := List.mem_map.mp member
  exact opened

/-- A request at an open place can be given its final response. -/
theorem FitsPlace.answered {stage : Stage} {context : HttpRequestContext} {place : Place}
    {response : HttpResponse} (fits : FitsPlace stage context place)
    (opened : place.isOpen = true) (final : response.isFinal = true) :
    FitsPlace stage context (.finishing response) := by
  cases place with
  | queued =>
    obtain ⟨retries, rfl, waits, _⟩ := fits
    exact ⟨rfl, waits.2, final⟩
  | dispatched =>
    obtain ⟨retries, rfl, waits, _⟩ := fits
    exact ⟨rfl, waits.2, final⟩
  | flying handler =>
    obtain ⟨retries, chunks, rfl, waits, _⟩ := fits
    exact ⟨rfl, waits.2, final⟩
  | retrying =>
    obtain ⟨retries, rfl, waits, _⟩ := fits
    exact ⟨rfl, waits.2, final⟩
  | _ => exact absurd opened (by simp [Place.isOpen])

/-- A held request was accepted. -/
theorem Orderly.lt_of_mem (orderly : Orderly world) (member : (token, source) ∈ world.holdings) :
    token < world.nextInFlightToken := by
  refine Nat.lt_of_not_le fun beyond => ?_
  exact (orderly.custody.fits token source member).2.ne_absent (orderly.fresh token beyond)

theorem Orderly.lt_of_accepted (orderly : Orderly world) (accepted : .accepted token ∈ world.log) :
    token < world.nextInFlightToken := by
  refine Nat.lt_of_not_le fun beyond => ?_
  have intact : stageOf world.log token ≠ .broken := (orderly.custody.sound token).1
  exact (accepted_mem_iff intact).mp accepted (orderly.fresh token beyond)

/-! ### Steps that move one context -/

theorem update_of_ne (contexts : Token → HttpRequestContext) (context : HttpRequestContext) :
    ∀ other, other ≠ token → Function.update contexts token context other = contexts other :=
  fun _ different => Function.update_of_ne different _ _

/-- What is known of a request after an event about it. -/
theorem status_event {event : Event} (subject : event.subject = some token)
    (logged : next.log = world.log ++ [event]) :
    next.status token = ((stageOf world.log token).next event, next.contexts token) := by
  rw [World.status, logged, stageOf_concat_self subject]

/-- What is known of the other requests after an event about one. -/
theorem status_event_of_ne {event : Event} (subject : event.subject = some token)
    (logged : next.log = world.log ++ [event])
    (contexts : ∀ other, other ≠ token → next.contexts other = world.contexts other)
    (other : Token) (different : other ≠ token) : next.status other = world.status other := by
  have stage : stageOf next.log other = stageOf world.log other := by
    rw [logged]
    exact stageOf_concat_other fun same =>
      different (Option.some.inj (same.symm.trans subject))
  rw [World.status, World.status, stage, contexts other different]

/-- Unused tokens stay unused when an event is about a used one. -/
theorem Orderly.fresh_event (orderly : Orderly world) {event : Event}
    (subject : event.subject = some token) (logged : next.log = world.log ++ [event])
    (counter : next.nextInFlightToken = world.nextInFlightToken)
    (used : token < world.nextInFlightToken) :
    ∀ other, next.nextInFlightToken ≤ other → stageOf next.log other = .absent := by
  intro other beyond
  rw [counter] at beyond
  rw [logged, stageOf_concat_other]
  · exact orderly.fresh other beyond
  · rw [subject]
    exact fun same => Nat.not_le_of_lt used (Option.some.inj same ▸ beyond)

/-- One context moves to another place, and an event about it is logged. -/
theorem Orderly.exchange (orderly : Orderly world) (token : Token) (source target : Place)
    {event : Event}
    (subject : event.subject = some token) (logged : next.log = world.log ++ [event])
    (member : (token, source) ∈ world.holdings)
    (counts : ∀ entry, List.count entry next.holdings + mark entry (token, source) =
      List.count entry world.holdings + mark entry (token, target))
    (contexts : ∀ other, other ≠ token → next.contexts other = world.contexts other)
    (counter : next.nextInFlightToken = world.nextInFlightToken)
    (fitting : ∀ stage, Sound (stage, world.contexts token) →
      FitsPlace stage (world.contexts token) source →
      Sound (stage.next event, next.contexts token) ∧
        FitsPlace (stage.next event) (next.contexts token) target) : Orderly next where
  custody := by
    refine orderly.custody.exchange member counts
      (status_event_of_ne subject logged contexts) fun fits => ?_
    rw [status_event subject logged]
    exact fitting _ fits.1 fits.2
  fresh := orderly.fresh_event subject logged counter (orderly.lt_of_mem member)

/-- One context moves to another place in silence. -/
theorem Orderly.exchange_silent (orderly : Orderly world) (token : Token)
    (source target : Place)
    (logged : next.log = world.log) (member : (token, source) ∈ world.holdings)
    (counts : ∀ entry, List.count entry next.holdings + mark entry (token, source) =
      List.count entry world.holdings + mark entry (token, target))
    (contexts : ∀ other, other ≠ token → next.contexts other = world.contexts other)
    (counter : next.nextInFlightToken = world.nextInFlightToken)
    (fitting : ∀ stage, Sound (stage, world.contexts token) →
      FitsPlace stage (world.contexts token) source →
      Sound (stage, next.contexts token) ∧ FitsPlace stage (next.contexts token) target) :
    Orderly next where
  custody := by
    refine orderly.custody.exchange member counts (fun other different => ?_) fun fits => ?_
    · rw [World.status, World.status, logged, contexts other different]
    · rw [World.status, logged]
      exact fitting _ fits.1 fits.2
  fresh other beyond := by
    rw [counter] at beyond
    rw [logged]
    exact orderly.fresh other beyond

/-- One context is let go, and an event about it is logged. -/
theorem Orderly.discharge (orderly : Orderly world) (token : Token) (source : Place)
    {event : Event}
    (subject : event.subject = some token) (logged : next.log = world.log ++ [event])
    (member : (token, source) ∈ world.holdings)
    (counts : ∀ entry, List.count entry next.holdings + mark entry (token, source) =
      List.count entry world.holdings)
    (contexts : next.contexts = world.contexts)
    (counter : next.nextInFlightToken = world.nextInFlightToken)
    (leaving : ∀ stage, Sound (stage, world.contexts token) →
      FitsPlace stage (world.contexts token) source →
      Sound (stage.next event, world.contexts token) ∧ (stage.next event).isHeld = false) :
    Orderly next where
  custody := by
    have left := leaving _ (orderly.custody.fits token source member).1
      (orderly.custody.fits token source member).2
    refine orderly.custody.discharge member counts
      (status_event_of_ne subject logged fun other _ => congrFun contexts other) ?_ fun _ => ?_
    · rw [status_event subject logged]
      simp [requestRules, left.2]
    · rw [status_event subject logged, contexts]
      exact left.1
  fresh := orderly.fresh_event subject logged counter (orderly.lt_of_mem member)

/-- A step that moves no context and logs nothing about requests. -/
theorem Orderly.frame (orderly : Orderly world)
    (counts : ∀ entry, List.count entry next.holdings = List.count entry world.holdings)
    (events : List Event) (logged : next.log = world.log ++ events)
    (neutral : ∀ event ∈ events, event.subject = none)
    (contexts : next.contexts = world.contexts)
    (counter : next.nextInFlightToken = world.nextInFlightToken) :
    Orderly next where
  custody := by
    have moved := List.perm_iff_count.mpr fun entry => (counts entry).symm
    refine (orderly.custody.perm moved).congr ?_
    intro token
    rw [World.status, World.status, logged, stageOf_append_neutral neutral, contexts]
  fresh token beyond := by
    rw [logged, stageOf_append_neutral neutral]
    rw [counter] at beyond
    exact orderly.fresh token beyond

/-- A step that moves no context and logs nothing. -/
theorem Orderly.quiet (orderly : Orderly world)
    (counts : ∀ entry, List.count entry next.holdings = List.count entry world.holdings)
    (logged : next.log = world.log) (contexts : next.contexts = world.contexts)
    (counter : next.nextInFlightToken = world.nextInFlightToken) : Orderly next :=
  orderly.frame counts [] (by rw [logged, List.append_nil]) (by simp) contexts counter

/-- Contexts of open requests are put on the agenda with a final response. -/
theorem Orderly.answer (orderly : Orderly world) (moved rest : List (Token × Place))
    (response : HttpResponse) (final : response.isFinal = true)
    (opened : ∀ entry ∈ moved, entry.2.isOpen = true)
    (before : ∀ entry, List.count entry world.holdings =
      List.count entry moved + List.count entry rest)
    (after : ∀ entry, List.count entry next.holdings =
      List.count entry (moved.map fun entry => (entry.1, Place.finishing response)) +
        List.count entry rest)
    (logged : next.log = world.log) (contexts : next.contexts = world.contexts)
    (counter : next.nextInFlightToken = world.nextInFlightToken) : Orderly next where
  custody := by
    have same : next.status = world.status := by
      funext token
      rw [World.status, World.status, logged, contexts]
    rw [same]
    refine orderly.custody.regroup moved rest _ before after fun token source member fits => ?_
    exact ⟨fits.1, fits.2.answered (opened (token, source) member) final⟩
  fresh token beyond := by
    rw [logged]
    rw [counter] at beyond
    exact orderly.fresh token beyond

/-! ### The holdings by container -/

theorem count_world (entry : Token × Place) (world : World) :
    List.count entry world.holdings =
      List.count entry (world.pendingRequests.map (·, Place.queued)) +
      List.count entry (world.failedRequests.map (·, Place.retrying)) +
      List.count entry (world.activeRequestBatches.flatMap batchHoldings) +
      List.count entry world.phase.holdings +
      List.count entry (world.agenda.flatMap Call.holdings) := by
  simp only [World.holdings, List.count_append]

theorem mem_holdings_of_pending (member : token ∈ world.pendingRequests) :
    (token, .queued) ∈ world.holdings := by
  simp [World.holdings, member]

theorem mem_holdings_of_failed (member : token ∈ world.failedRequests) :
    (token, .retrying) ∈ world.holdings := by
  simp [World.holdings, member]

theorem mem_holdings_of_phase (member : (token, source) ∈ world.phase.holdings) :
    (token, source) ∈ world.holdings := by
  simp [World.holdings, member]

theorem mem_holdings_of_batch {batch : HttpBatchRequestHandler}
    (found : batch ∈ world.activeRequestBatches) (member : (token, source) ∈ batchHoldings batch) :
    (token, source) ∈ world.holdings := by
  have inside : (token, source) ∈ world.activeRequestBatches.flatMap batchHoldings :=
    List.mem_flatMap.mpr ⟨batch, found, member⟩
  simp [World.holdings, inside]

theorem mem_holdings_of_head {call : Call} {rest : List Call}
    (agenda : world.agenda = call :: rest) (member : (token, source) ∈ call.holdings) :
    (token, source) ∈ world.holdings := by
  simp [World.holdings, agenda, member]

theorem holdings_finalCallbacks (tokens : List Token) (response : HttpResponse) :
    (tokens.map (Call.invokeFinalCallback · response)).flatMap Call.holdings =
      tokens.map (·, Place.finishing response) := by
  induction tokens with
  | nil => rfl
  | cons token rest inductionHypothesis =>
    rw [List.map_cons, List.flatMap_cons, inductionHypothesis]
    rfl

theorem holdings_handlers (call : HttpRequestHandler → Call)
    (holds : ∀ handler, (call handler).holdings = handlerHoldings handler)
    (handlers : List HttpRequestHandler) :
    (handlers.map call).flatMap Call.holdings = handlers.flatMap handlerHoldings := by
  rw [List.flatMap_map]
  simp only [holds]

/-! ### `process_pending_requests` -/

theorem Orderly.pendingStep {input : World.Input} (orderly : Orderly world)
    (agenda : world.agenda = []) (step : PendingStep world input next) : Orderly next := by
  cases step with
  | @scanned index ready failed now at_ absent =>
    refine orderly.answer (failed.map (·, .queued))
      (world.pendingRequests.map (·, .queued) ++ world.failedRequests.map (·, .retrying) ++
        world.activeRequestBatches.flatMap batchHoldings ++ ready.map (·, .dispatched))
      badRequestResponse rfl (isOpen_of_mem_map rfl) ?_ ?_ rfl rfl rfl
    · intro entry
      simp only [count_world, agenda, at_, Phase.holdings, List.flatMap_nil, List.count_append,
        List.count_nil]
      omega
    · intro entry
      have same : (if ready.isEmpty then Phase.activeLoop 0 else .createBatch ready).holdings =
          ready.map (·, .dispatched) := by
        cases ready <;> rfl
      simp only [count_world, holdings_finalCallbacks, same, List.map_map, Function.comp_def,
        List.count_append]
      omega
  | @badRequest index ready failed token now at_ found carried =>
    refine orderly.exchange_silent token .queued .queued rfl
      (mem_holdings_of_pending (List.mem_of_getElem? found)) ?_ (fun _ _ => rfl) rfl
      fun _ sound fits => ⟨sound, fits⟩
    intro entry
    have erased := count_map_eraseIdx found (·, Place.queued) entry
    simp only [count_world, at_, Phase.holdings, List.map_append, List.map_cons, List.map_nil,
      List.count_append, count_cons_mark, List.count_nil]
    omega
  | @dispatch index ready failed token request now at_ found carried allowed =>
    refine orderly.exchange token .queued .dispatched rfl rfl
      (mem_holdings_of_pending (List.mem_of_getElem? found)) ?_ (update_of_ne _ _) rfl ?_
    · intro entry
      have erased := count_map_eraseIdx found (·, Place.queued) entry
      simp only [count_world, at_, Phase.holdings, List.map_append, List.map_cons, List.map_nil,
        List.count_append, count_cons_mark, List.count_nil]
      omega
    · rintro _ sound ⟨retries, rfl, waits, _⟩
      simp only [Function.update_self]
      exact ⟨⟨by simp [Stage.next], sound.2⟩, retries, rfl, waits, by simp [carried]⟩
  | @noMultiHandle contextList at_ =>
    refine orderly.answer (contextList.map (·, .dispatched))
      (world.pendingRequests.map (·, .queued) ++ world.failedRequests.map (·, .retrying) ++
        world.activeRequestBatches.flatMap batchHoldings)
      abortedResponse rfl (isOpen_of_mem_map rfl) ?_ ?_ rfl rfl rfl
    · intro entry
      simp only [count_world, agenda, at_, Phase.holdings, List.flatMap_nil, List.count_append,
        List.count_nil]
      omega
    · intro entry
      simp only [count_world, holdings_finalCallbacks, Phase.holdings, batchHoldings,
        List.map_map, Function.comp_def, List.flatMap_append, List.flatMap_cons, List.flatMap_nil,
        List.map_nil, List.count_append, List.count_nil]
      omega
  | @start token contextList handlers added at_ =>
    refine orderly.exchange token .dispatched
      (.flying { requestContext := some token, transferring := added }) rfl rfl
      (mem_holdings_of_phase (by simp [at_, Phase.holdings])) ?_ (fun _ _ => rfl) rfl ?_
    · intro entry
      simp only [count_world, at_, Phase.holdings, handlerHoldings, List.map_cons, List.map_nil,
        List.flatMap_append, List.flatMap_cons, List.flatMap_nil, Option.toList_some,
        Bool.false_eq_true, if_false, List.count_append, count_cons_mark, List.count_nil]
      omega
    · rintro _ sound ⟨retries, rfl, waits, present⟩
      exact ⟨⟨by simp [Stage.next], sound.2⟩, retries, 0, rfl, waits, present, by simp,
        {}, rfl, rfl, rfl⟩
  | @noEasyHandle token contextList handlers added at_ =>
    refine orderly.exchange_silent token .dispatched (.finishing abortedResponse) rfl
      (mem_holdings_of_phase (by simp [at_, Phase.holdings])) ?_ (fun _ _ => rfl) rfl ?_
    · intro entry
      simp only [count_world, agenda, at_, Phase.holdings, Call.holdings, List.map_cons,
        List.flatMap_cons, List.flatMap_nil, List.count_append, count_cons_mark, List.count_nil]
      omega
    · intro stage sound fits
      exact ⟨sound, fits.answered rfl rfl⟩
  | @batchBuilt handlers at_ =>
    refine orderly.quiet ?_ rfl rfl rfl
    intro entry
    simp only [count_world, at_, Phase.holdings, batchHoldings, List.map_nil,
      List.flatMap_append, List.flatMap_cons, List.flatMap_nil, List.count_append, List.count_nil]
    omega

/-! ### `process_active_requests` and `process_retry_failed_requests` -/

/-- Replacing a handler of a batch exchanges what the handler holds. -/
theorem count_setHandler {index position : ℕ} {batch : HttpBatchRequestHandler}
    {handler : HttpRequestHandler} (found : world.activeRequestBatches[index]? = some batch)
    (foundHandler : batch.handlers[position]? = some handler) (written : HttpRequestHandler)
    (entry : Token × Place) :
    List.count entry ((world.activeRequestBatches.set index
        (batch.setHandler position written)).flatMap batchHoldings) +
        List.count entry (handlerHoldings handler) =
      List.count entry (world.activeRequestBatches.flatMap batchHoldings) +
        List.count entry (handlerHoldings written) := by
  have outer := count_flatMap_set found batchHoldings (batch.setHandler position written) entry
  have inner := count_flatMap_set foundHandler handlerHoldings written entry
  simp only [batchHoldings, HttpBatchRequestHandler.setHandler, List.count_append] at outer inner ⊢
  omega

/-- A handler that has not made its last callback holds its context. -/
theorem handlerHoldings_open {handler : HttpRequestHandler}
    (running : handler.callbackCalled = false) (context : handler.requestContext = some token) :
    handlerHoldings handler = [(token, .flying handler)] := by
  simp [handlerHoldings, running, context]

theorem handlerHoldings_closed {handler : HttpRequestHandler}
    (closed : handler.callbackCalled = true ∨ handler.requestContext = none) :
    handlerHoldings handler = [] := by
  rcases closed with called | none
  · simp [handlerHoldings, called]
  · simp [handlerHoldings, none]

theorem callbackCalled_of_transferring {handler : HttpRequestHandler}
    (running : handler.transferring = true) : handler.callbackCalled = false := by
  cases called : handler.callbackCalled with
  | false => rfl
  | true => exact absurd running (by simp [handler.ended called])

theorem mem_holdings_of_handler {index position : ℕ} {batch : HttpBatchRequestHandler}
    {handler : HttpRequestHandler} (found : world.activeRequestBatches[index]? = some batch)
    (foundHandler : batch.handlers[position]? = some handler)
    (running : handler.callbackCalled = false) (context : handler.requestContext = some token) :
    (token, .flying handler) ∈ world.holdings := by
  refine mem_holdings_of_batch (List.mem_of_getElem? found) (List.mem_append_left _ ?_)
  refine List.mem_flatMap.mpr ⟨handler, List.mem_of_getElem? foundHandler, ?_⟩
  rw [handlerHoldings_open running context]
  exact List.mem_cons_self

/-- Replacing a handler by one that differs in nothing custody depends on. -/
theorem Orderly.rewriteHandler {index position : ℕ} {batch : HttpBatchRequestHandler}
    {handler : HttpRequestHandler} (orderly : Orderly world) (written : HttpRequestHandler)
    (found : world.activeRequestBatches[index]? = some batch)
    (foundHandler : batch.handlers[position]? = some handler)
    (context : written.requestContext = handler.requestContext)
    (called : written.callbackCalled = handler.callbackCalled)
    (chunk : written.hasStreamChunk = handler.hasStreamChunk)
    (response : ∀ old, handler.response = some old → ∃ new, written.response = some new ∧
      new.ready = old.ready ∧ new.streamChunk = old.streamChunk)
    (batches : next.activeRequestBatches =
      world.activeRequestBatches.set index (batch.setHandler position written))
    (pending : next.pendingRequests = world.pendingRequests)
    (failed : next.failedRequests = world.failedRequests)
    (phase : next.phase = world.phase) (agenda : next.agenda = world.agenda)
    (logged : next.log = world.log) (contexts : next.contexts = world.contexts)
    (counter : next.nextInFlightToken = world.nextInFlightToken) : Orderly next := by
  have counted := count_setHandler found foundHandler written
  by_cases closed : handler.callbackCalled = true ∨ handler.requestContext = none
  · refine orderly.quiet ?_ logged contexts counter
    intro entry
    have old := handlerHoldings_closed closed
    have new : handlerHoldings written = [] :=
      handlerHoldings_closed (by rw [called, context]; exact closed)
    have moved := counted entry
    rw [old, new] at moved
    simp only [count_world, batches, pending, failed, phase, agenda]
    omega
  · rw [not_or, Bool.not_eq_true] at closed
    obtain ⟨running, some⟩ := closed
    obtain ⟨token, held⟩ := Option.ne_none_iff_exists'.mp some
    refine orderly.exchange_silent token (.flying handler) (.flying written) logged
      (mem_holdings_of_handler found foundHandler running held) ?_
      (fun other _ => congrFun contexts other) counter ?_
    · intro entry
      have old := handlerHoldings_open running held
      have new := handlerHoldings_open (called.trans running) (context.trans held)
      have moved := counted entry
      rw [old, new] at moved
      simp only [count_world, batches, pending, failed, phase, agenda, count_cons_mark,
        List.count_nil] at moved ⊢
      omega
    · rintro _ sound ⟨retries, chunks, rfl, waits, present, streamed, old, kept, unready, whole⟩
      obtain ⟨new, keeps, sameReady, sameChunk⟩ := response old kept
      rw [contexts]
      exact ⟨sound, retries, chunks, rfl, waits, present, fun more => chunk.trans (streamed more),
        new, keeps, sameReady.trans unready, sameChunk.trans whole⟩

theorem Orderly.stream {index position : ℕ} {batch : HttpBatchRequestHandler}
    {handler : HttpRequestHandler} {data : List UInt8} {status : ℤ} {chunk : HttpResponse}
    (orderly : Orderly world) (found : world.activeRequestBatches[index]? = some batch)
    (foundHandler : batch.handlers[position]? = some handler)
    (running : handler.transferring = true) (context : handler.requestContext = some token)
    (emitted : streamChunk (world.contexts token) data status = some chunk) :
    Orderly { world with
      activeRequestBatches := world.activeRequestBatches.set index
        (batch.setHandler position (handler.appendContent data).streamed)
      log := world.log ++ [.response token chunk] } := by
  have called := callbackCalled_of_transferring running
  have isChunk : chunk.isFinal = false ∧ chunk.isChunk = true := by
    unfold streamChunk at emitted
    split at emitted
    · exact absurd emitted (by simp)
    · split at emitted
      · rw [← Option.some.inj emitted]
        exact ⟨rfl, rfl⟩
      · exact absurd emitted (by simp)
  refine orderly.exchange token (.flying handler)
    (.flying (handler.appendContent data).streamed) rfl rfl
    (mem_holdings_of_handler found foundHandler called context) ?_ (fun _ _ => rfl) rfl ?_
  · intro entry
    have moved := count_setHandler found foundHandler (handler.appendContent data).streamed entry
    have new : handlerHoldings (handler.appendContent data).streamed =
        [(token, .flying (handler.appendContent data).streamed)] :=
      handlerHoldings_open called context
    rw [handlerHoldings_open called context, new] at moved
    simp only [count_world, count_cons_mark, List.count_nil] at moved ⊢
    omega
  · rintro _ sound ⟨retries, chunks, rfl, waits, present, _, old, kept, unready, whole⟩
    simp only [Stage.next, isChunk, Bool.false_eq_true, if_false, if_true]
    refine ⟨⟨by simp, sound.2⟩, retries, chunks + 1, rfl, waits, present, fun _ => rfl,
      { old with content := old.content ++ data }, ?_, unready, whole⟩
    simp [HttpRequestHandler.appendContent, HttpRequestHandler.streamed, kept]

theorem Orderly.retry {index position : ℕ} {batch : HttpBatchRequestHandler}
    {handler : HttpRequestHandler} {request : HttpRequest} {response : HttpResponse}
    {message : CurlMessage} {now : TimePoint}
    (orderly : Orderly world) (found : world.activeRequestBatches[index]? = some batch)
    (foundHandler : batch.handlers[position]? = some handler)
    (running : handler.transferring = true) (context : handler.requestContext = some token)
    (carried : (world.contexts token).request = some request)
    (kept : handler.response = some response)
    (again : shouldRetry request message ((world.contexts token).retryAttempt + 1)
      handler.hasStreamChunk = true) :
    Orderly { world with
      contexts := Function.update world.contexts token
        { world.contexts token with
          retryAttempt := (world.contexts token).retryAttempt + 1, startTime := now }
      activeRequestBatches := world.activeRequestBatches.set index
        ((batch.setHandler position (handler.answered none)).addFailed token)
      log := world.log ++
        [.response token (response.finished message ((world.contexts token).retryAttempt + 1))]
      clock := now } := by
  have called := callbackCalled_of_transferring running
  simp only [shouldRetry, Bool.and_eq_true, decide_eq_true_eq, Bool.not_eq_true'] at again
  obtain ⟨⟨_, below⟩, unstreamed⟩ := again
  refine orderly.exchange token (.flying handler) .retrying rfl rfl
    (mem_holdings_of_handler found foundHandler called context) ?_ (update_of_ne _ _) rfl ?_
  · intro entry
    have outer := count_flatMap_set found batchHoldings
      ((batch.setHandler position (handler.answered none)).addFailed token) entry
    have inner := count_flatMap_set foundHandler handlerHoldings (handler.answered none) entry
    have closed : handlerHoldings (handler.answered none) = [] :=
      handlerHoldings_closed (Or.inl rfl)
    rw [handlerHoldings_open called context, closed] at inner
    simp only [count_world, batchHoldings, HttpBatchRequestHandler.setHandler,
      HttpBatchRequestHandler.addFailed, List.map_append, List.map_cons, List.map_nil,
      List.count_append, count_cons_mark, List.count_nil] at outer inner ⊢
    omega
  · rintro _ sound ⟨retries, chunks, rfl, waits, present, streamed, old, holds, unready, whole⟩
    obtain rfl : old = response := Option.some.inj (holds.symm.trans kept)
    have noChunk : chunks = 0 := by
      by_contra some
      exact absurd (streamed (Nat.pos_of_ne_zero some)) (by simp [unstreamed])
    have intermediate : (old.finished message
        ((world.contexts token).retryAttempt + 1)).isIntermediate (retries + 1) = true := by
      simp [HttpResponse.isIntermediate, HttpResponse.finished, unready, whole, waits.1]
    have notFinal : (old.finished message
        ((world.contexts token).retryAttempt + 1)).isFinal = false := by
      simp [HttpResponse.isFinal, HttpResponse.finished, unready]
    have notChunk : (old.finished message
        ((world.contexts token).retryAttempt + 1)).isChunk = false := by
      simp [HttpResponse.isChunk, HttpResponse.finished, whole]
    simp only [Stage.next, notFinal, notChunk, noChunk, intermediate, Bool.false_eq_true, if_false,
      and_self, if_true, Function.update_self]
    refine ⟨⟨by simp, Or.inr ?_⟩, retries + 1, rfl, ⟨by rw [waits.1], waits.2⟩, present⟩
    simp only [Stage.retries, HttpRequestContext.retryAttempts, carried, Option.map_some,
      Option.getD_some]
    rw [waits.1] at below
    exact below

theorem Orderly.finish {index position : ℕ} {batch : HttpBatchRequestHandler}
    {handler : HttpRequestHandler} {response : HttpResponse} {message : CurlMessage}
    {now : TimePoint} (orderly : Orderly world) (agenda : world.agenda = [])
    (found : world.activeRequestBatches[index]? = some batch)
    (foundHandler : batch.handlers[position]? = some handler)
    (running : handler.transferring = true) (context : handler.requestContext = some token)
    (kept : handler.response = some response) :
    Orderly { world with
      contexts := Function.update world.contexts token
        { world.contexts token with retryAttempt := (world.contexts token).retryAttempt + 1 }
      activeRequestBatches := world.activeRequestBatches.set index
        (batch.setHandler position (handler.answered handler.requestContext))
      agenda := [.invokeFinalCallback token
        { response.finished message ((world.contexts token).retryAttempt + 1) with ready := true }]
      clock := now } := by
  have called := callbackCalled_of_transferring running
  refine orderly.exchange_silent token (.flying handler) (.finishing
    { response.finished message ((world.contexts token).retryAttempt + 1) with ready := true })
    rfl (mem_holdings_of_handler found foundHandler called context) ?_ (update_of_ne _ _) rfl ?_
  · intro entry
    have moved :=
      count_setHandler found foundHandler (handler.answered handler.requestContext) entry
    have closed : handlerHoldings (handler.answered handler.requestContext) = [] :=
      handlerHoldings_closed (Or.inl rfl)
    rw [handlerHoldings_open called context, closed] at moved
    simp only [count_world, agenda, Call.holdings, List.flatMap_cons, List.flatMap_nil,
      List.append_nil, count_cons_mark, List.count_nil] at moved ⊢
    omega
  · rintro _ sound ⟨retries, chunks, rfl, waits, present, _, old, holds, unready, whole⟩
    obtain rfl : old = response := Option.some.inj (holds.symm.trans kept)
    simp only [Function.update_self]
    exact ⟨sound, rfl, waits.2, by simp [HttpResponse.isFinal, HttpResponse.finished, whole]⟩

theorem Orderly.activeStep {input : World.Input} (orderly : Orderly world)
    (agenda : world.agenda = []) (step : ActiveStep world input next) : Orderly next := by
  cases step with
  | @processNoMulti index batch at_ found noMulti =>
    have none : batch.handlers = [] := batch.bare noMulti
    refine orderly.quiet ?_ rfl rfl rfl
    intro entry
    have written := count_flatMap_set found batchHoldings batch.clearHandlers entry
    simp only [count_world, agenda, at_, none, handlerContexts, Phase.holdings, batchHoldings,
      HttpBatchRequestHandler.clearHandlers, List.filterMap_nil, List.map_nil, List.flatMap_nil,
      List.count_append, List.count_nil] at written ⊢
    omega
  | @write index position data status batch handler at_ found foundHandler silent =>
    refine orderly.rewriteHandler (handler.appendContent data) found foundHandler rfl rfl rfl ?_
      rfl rfl rfl rfl rfl rfl rfl rfl
    intro old kept
    refine ⟨{ old with content := old.content ++ data }, ?_, rfl, rfl⟩
    simp [HttpRequestHandler.appendContent, kept]
  | stream at_ found foundHandler running context emitted =>
    exact orderly.stream found foundHandler running context emitted
  | @ignoreMessage index stillRunning position message now batch handler at_ found foundHandler =>
    exact orderly.rewriteHandler handler.removed found foundHandler rfl rfl rfl
      (fun old kept => ⟨old, kept, rfl, rfl⟩) rfl rfl rfl rfl rfl rfl rfl rfl
  | retry at_ found foundHandler running context carried kept again =>
    exact orderly.retry found foundHandler running context carried kept again
  | finish at_ found foundHandler running context carried kept last =>
    exact orderly.finish agenda found foundHandler running context kept
  | @destroyHandlers index batch at_ found =>
    refine orderly.quiet ?_ rfl rfl rfl
    intro entry
    have written := count_flatMap_set found batchHoldings batch.clearHandlers entry
    have handed := holdings_handlers Call.destroyHandler (fun _ => rfl) batch.handlers
    simp only [count_world, agenda, at_, handed, Phase.holdings, batchHoldings,
      HttpBatchRequestHandler.clearHandlers, List.flatMap_nil, List.count_append,
      List.count_nil] at written ⊢
    omega
  | @extract index batch at_ found =>
    refine orderly.quiet ?_ rfl rfl rfl
    intro entry
    have erased := count_flatMap_eraseIdx found batchHoldings entry
    have handed := holdings_handlers Call.destroyHandler (fun _ => rfl) batch.handlers
    simp only [count_world, agenda, at_, handed, Phase.holdings, batchHoldings, List.map_append,
      List.flatMap_nil, List.count_append, List.count_nil] at erased ⊢
    omega
  | @dropFailed index token now at_ found carried =>
    refine orderly.quiet ?_ rfl rfl rfl
    intro entry
    have erased := count_map_eraseIdx found (·, Place.retrying) entry
    simp only [count_world, agenda, Call.holdings, List.flatMap_cons, List.flatMap_nil,
      List.append_nil, count_cons_mark, List.count_nil] at erased ⊢
    omega
  | @requeue index token now at_ found =>
    refine orderly.exchange token .retrying .queued rfl rfl
      (mem_holdings_of_failed (List.mem_of_getElem? found)) ?_ (fun _ _ => rfl) rfl ?_
    · intro entry
      have erased := count_map_eraseIdx found (·, Place.retrying) entry
      simp only [count_world, List.map_append, List.map_cons, List.map_nil, List.count_append,
        count_cons_mark, List.count_nil] at erased ⊢
      omega
    · rintro _ sound ⟨retries, rfl, waits, present⟩
      exact ⟨⟨by simp [Stage.next], sound.2⟩, retries, rfl, waits, fun _ => present⟩

/-! ### `process_cancel_requests` and `shutdown` -/

theorem Orderly.cancelStep (orderly : Orderly world) (agenda : world.agenda = [])
    (step : CancelStep world next) : Orderly next := by
  cases step with
  | @takeCancels mode at_ queued =>
    let test := fun token =>
      world.contextMatches world.requestsToCancelById world.groupsToCancel token
    refine orderly.answer ((world.pendingRequests.filter test).map (·, .queued))
      ((world.pendingRequests.filter (!test ·)).map (·, .queued) ++
        world.failedRequests.map (·, .retrying) ++
        world.activeRequestBatches.flatMap batchHoldings)
      makeCancelledResponse rfl (isOpen_of_mem_map rfl) ?_ ?_ rfl rfl rfl
    · intro entry
      have split := count_map_filter entry (·, Place.queued) test world.pendingRequests
      simp only [count_world, agenda, at_, Phase.holdings, List.flatMap_nil, List.count_append,
        List.count_nil]
      omega
    · intro entry
      simp only [count_world, holdings_finalCallbacks, Phase.holdings, List.map_map,
        Function.comp_def, List.count_append, List.count_nil, test]
      omega
  | @cancelFailed ids groups index mode token at_ found hit =>
    refine orderly.exchange_silent token .retrying (.finishing makeCancelledResponse) rfl
      (mem_holdings_of_failed (List.mem_of_getElem? found)) ?_ (fun _ _ => rfl) rfl ?_
    · intro entry
      have erased := count_map_eraseIdx found (·, Place.retrying) entry
      simp only [count_world, agenda, Call.holdings, List.flatMap_cons, List.flatMap_nil,
        List.append_nil, count_cons_mark, List.count_nil] at erased ⊢
      omega
    · intro stage sound fits
      exact ⟨sound, fits.answered rfl rfl⟩
  | @cancelBatch ids groups index mode batch at_ found =>
    refine orderly.quiet ?_ rfl rfl rfl
    intro entry
    have written := count_flatMap_set found batchHoldings
      (batch.filterHandlers (!world.handlerMatches ids groups ·)) entry
    have split := count_flatMap_filter entry handlerHoldings (world.handlerMatches ids groups)
      batch.handlers
    have handed := holdings_handlers Call.cancelHandler (fun _ => rfl)
      (batch.handlers.filter (world.handlerMatches ids groups))
    simp only [count_world, agenda, at_, handed, Phase.holdings, batchHoldings,
      HttpBatchRequestHandler.filterHandlers, List.flatMap_nil, List.count_append,
      List.count_nil] at written ⊢
    omega
  | @batchesScanned ids groups index mode at_ absent =>
    refine orderly.quiet ?_ rfl rfl rfl
    intro entry
    have silent : ((ids.contents ++ groups.contents).map Call.invokeCancel).flatMap Call.holdings =
        [] := by
      rw [List.flatMap_map, List.flatMap_eq_nil_iff]
      exact fun _ _ => rfl
    have idle : (World.afterCancel mode).holdings = [] := by
      cases mode <;> rfl
    simp only [count_world, silent, idle]
    simp only [agenda, at_, Phase.holdings, List.flatMap_nil, List.count_nil]

theorem holdings_waiters (waiters : List GroupWaiter) :
    (waiters.map Call.notifyWaiter).flatMap Call.holdings = [] := by
  rw [List.flatMap_map, List.flatMap_eq_nil_iff]
  exact fun _ _ => rfl

theorem Orderly.closingStep (orderly : Orderly world) (agenda : world.agenda = [])
    (step : ClosingStep world next) : Orderly next := by
  cases step with
  | notifyIdle at_ =>
    refine orderly.quiet ?_ rfl rfl rfl
    intro entry
    simp only [World.notifyStep, HttpRequestManager.takeIdleWaiters, count_world, agenda, at_,
      holdings_waiters, Phase.holdings, List.flatMap_nil, List.count_nil]
  | notifyAll at_ =>
    refine orderly.quiet ?_ rfl rfl rfl
    intro entry
    simp only [World.notifyStep, HttpRequestManager.takeAllWaiters, count_world, agenda, at_,
      holdings_waiters, Phase.holdings, List.flatMap_nil, List.count_nil]
  | cleanup at_ =>
    refine orderly.answer (world.pendingRequests.map (·, .queued) ++
        world.failedRequests.map (·, .retrying))
      (world.activeRequestBatches.flatMap batchHoldings) cleanupResponse rfl ?_ ?_ ?_ rfl rfl rfl
    · intro entry member
      rcases List.mem_append.mp member with queued | retrying
      · exact isOpen_of_mem_map rfl entry queued
      · exact isOpen_of_mem_map rfl entry retrying
    · intro entry
      simp only [count_world, agenda, at_, Phase.holdings, List.flatMap_nil, List.count_append,
        List.count_nil]
      omega
    · intro entry
      simp only [World.cleanupPendingStep, count_world, holdings_finalCallbacks, Phase.holdings,
        List.map_append, List.flatMap_append, List.map_map, Function.comp_def, List.map_nil,
        List.count_append, List.count_nil]
      omega
  | clear at_ =>
    refine orderly.quiet ?_ rfl rfl rfl
    intro entry
    have handed : ∀ batches : List HttpBatchRequestHandler,
        List.count entry ((batches.flatMap fun batch => batch.failedRequests.map Call.discard ++
          batch.handlers.map .destroyHandler).flatMap Call.holdings) =
        List.count entry (batches.flatMap batchHoldings) := by
      intro batches
      induction batches with
      | nil => rfl
      | cons batch rest inductionHypothesis =>
        have discarded : (batch.failedRequests.map Call.discard).flatMap Call.holdings =
            batch.failedRequests.map (·, Place.retrying) := by
          induction batch.failedRequests with
          | nil => rfl
          | cons token rest inductionHypothesis =>
            rw [List.map_cons, List.flatMap_cons, inductionHypothesis]
            rfl
        have handlers := holdings_handlers Call.destroyHandler (fun _ => rfl)
          batch.handlers
        simp only [List.flatMap_cons, List.flatMap_append, discarded, handlers, batchHoldings,
          List.count_append, inductionHypothesis]
        omega
    simp only [World.clearBatchesStep, count_world, agenda, at_, handed, Phase.holdings,
      List.flatMap_nil, List.count_nil]
    omega

/-! ### The agenda -/

theorem Orderly.finalCallback {response : HttpResponse} {rest : List Call}
    (orderly : Orderly world)
    (agenda : world.agenda = .invokeFinalCallback token response :: rest) :
    Orderly { world with
      agenda := .complete token :: rest, log := world.log ++ [.response token response] } := by
  refine orderly.exchange token (.finishing response) .completing rfl rfl
    (mem_holdings_of_head agenda List.mem_cons_self) ?_
    (fun _ _ => rfl) rfl ?_
  · intro entry
    simp only [count_world, agenda, Call.holdings, List.flatMap_cons, List.count_append,
      count_cons_mark, List.count_nil]
    omega
  · rintro stage sound ⟨opened, unclaimed, final⟩
    cases stage with
    | queued retries =>
      simp only [Stage.next, final, if_true]
      exact ⟨⟨by simp, sound.2⟩, retries, 0, rfl, unclaimed⟩
    | dispatched retries =>
      simp only [Stage.next, final, if_true]
      exact ⟨⟨by simp, sound.2⟩, retries, 0, rfl, unclaimed⟩
    | flying retries chunks =>
      simp only [Stage.next, final, if_true]
      exact ⟨⟨by simp, sound.2⟩, retries, chunks, rfl, unclaimed⟩
    | retrying retries =>
      simp only [Stage.next, final, if_true]
      exact ⟨⟨by simp, sound.2⟩, retries, 0, rfl, unclaimed⟩
    | _ => exact absurd opened (by simp [Stage.isOpen])

/-- A handler on the agenda that was not answered holds its context. -/
theorem holdings_of_unanswered {handler : HttpRequestHandler} {response : HttpResponse}
    (unanswered : handler.unanswered = some (token, response)) :
    handlerHoldings handler = [(token, .flying handler)] ∧ handler.response = some response := by
  unfold HttpRequestHandler.unanswered at unanswered
  split at unanswered
  · exact absurd unanswered (by simp)
  · rename_i open_
    rw [Bool.not_eq_true] at open_
    split at unanswered
    · rename_i context reply held kept
      rw [Option.some.injEq, Prod.mk.injEq] at unanswered
      obtain ⟨rfl, rfl⟩ := unanswered
      exact ⟨handlerHoldings_open open_ held, kept⟩
    · exact absurd unanswered (by simp)

/-- Destroying or cancelling a handler sends its context the given final response. -/
theorem Orderly.closeHandler {handler : HttpRequestHandler} {call : Call}
    {response : HttpResponse} {rest : List Call} (orderly : Orderly world)
    (agenda : world.agenda = call :: rest) (holds : call.holdings = handlerHoldings handler)
    (unanswered : handler.unanswered = some (token, response)) (error : ClientError) :
    Orderly { world with
      agenda := .invokeFinalCallback token (response.closed error) :: rest } := by
  obtain ⟨held, kept⟩ := holdings_of_unanswered unanswered
  refine orderly.exchange_silent token (.flying handler) (.finishing (response.closed error)) rfl
    (mem_holdings_of_head agenda (by rw [holds, held]; exact List.mem_cons_self)) ?_
    (fun _ _ => rfl) rfl ?_
  · intro entry
    simp only [count_world, agenda, List.flatMap_cons, holds, held, List.count_append]
    simp only [Call.holdings, count_cons_mark, List.count_nil]
    omega
  · rintro _ sound ⟨retries, chunks, rfl, waits, _, _, old, same, unready, whole⟩
    obtain rfl : old = response := Option.some.inj (same.symm.trans kept)
    exact ⟨sound, rfl, waits.2, by simp [HttpResponse.isFinal, HttpResponse.closed, whole]⟩

/-- A handler that has nothing to answer holds nothing. -/
theorem Orderly.holdings_of_answered {handler : HttpRequestHandler} {call : Call}
    {rest : List Call} (orderly : Orderly world) (agenda : world.agenda = call :: rest)
    (holds : call.holdings = handlerHoldings handler) (answered : handler.unanswered = none) :
    handlerHoldings handler = [] := by
  by_cases closed : handler.callbackCalled = true ∨ handler.requestContext = none
  · exact handlerHoldings_closed closed
  · rw [not_or, Bool.not_eq_true] at closed
    obtain ⟨running, some⟩ := closed
    obtain ⟨token, held⟩ := Option.ne_none_iff_exists'.mp some
    have member : (token, Place.flying handler) ∈ world.holdings := by
      refine mem_holdings_of_head agenda ?_
      rw [holds, handlerHoldings_open running held]
      exact List.mem_cons_self
    obtain ⟨_, _, _, _, _, _, _, response, kept, _, _⟩ := orderly.custody.fits token _ member
    simp [HttpRequestHandler.unanswered, running, held, kept] at answered

theorem Orderly.settle {rest : List Call} (orderly : Orderly world)
    (agenda : world.agenda = .onGroupComplete token :: rest) (waiters : List GroupWaiter)
    (manager : HttpRequestManager)
    (frame : ∃ counts table, manager = { world.toHttpRequestManager with
      groupRequestCounts := counts, groupWaiters := table }) :
    Orderly { world with
      toHttpRequestManager := manager
      agenda := waiters.map .notifyWaiter ++ rest
      log := world.log ++ [.completed token] } := by
  obtain ⟨counts, table, rfl⟩ := frame
  refine orderly.discharge token .grouping rfl rfl
    (mem_holdings_of_head agenda List.mem_cons_self) ?_
    rfl rfl ?_
  · intro entry
    simp only [count_world, agenda, Call.holdings, holdings_waiters, List.flatMap_append,
      List.flatMap_cons, List.count_append, count_cons_mark, List.count_nil]
    omega
  · rintro _ sound ⟨retries, chunks, rfl⟩
    exact ⟨⟨by simp [Stage.next], sound.2⟩, rfl⟩

theorem Orderly.agendaStep (orderly : Orderly world) (step : AgendaStep world next) :
    Orderly next := by
  cases step with
  | finalCallback agenda => exact orderly.finalCallback agenda
  | @completeAgain token rest agenda claimed =>
    have member : (token, Place.completing) ∈ world.holdings :=
      mem_holdings_of_head agenda List.mem_cons_self
    obtain ⟨_, _, _, _, unclaimed⟩ := orderly.custody.fits token _ member
    exact absurd (claimed.symm.trans unclaimed) (by simp)
  | @complete token rest agenda unclaimed =>
    refine orderly.exchange token .completing .grouping rfl rfl
      (mem_holdings_of_head agenda List.mem_cons_self) ?_
      (update_of_ne _ _) rfl ?_
    · intro entry
      simp only [count_world, agenda, Call.holdings, List.flatMap_cons, List.count_append,
        count_cons_mark, List.count_nil]
      omega
    · rintro _ sound ⟨retries, chunks, rfl, _⟩
      simp only [Function.update_self]
      exact ⟨⟨by simp [Stage.next], sound.2⟩, retries, chunks, rfl⟩
  | settle agenda noGroup => exact orderly.settle agenda [] world.toHttpRequestManager ⟨_, _, rfl⟩
  | @settleGroup token group rest agenda captured =>
    exact orderly.settle agenda _ _ (HttpRequestManager.completeGroupRequest_frame _ group)
  | @notifyWaiter waiter rest agenda =>
    refine orderly.frame ?_ _ rfl (by simp [Event.subject]) rfl rfl
    intro entry
    simp only [count_world, agenda, Call.holdings, List.flatMap_cons, List.nil_append]
  | @invokeCancel callback rest agenda =>
    refine orderly.frame ?_ _ rfl (by simp [Event.subject]) rfl rfl
    intro entry
    simp only [count_world, agenda, Call.holdings, List.flatMap_cons, List.nil_append]
  | @handlerAnswered call handler rest agenda handled answered =>
    have holds : call.holdings = handlerHoldings handler := by
      rcases handled with rfl | rfl <;> rfl
    have empty := orderly.holdings_of_answered agenda holds answered
    refine orderly.quiet ?_ rfl rfl rfl
    intro entry
    simp only [count_world, agenda, List.flatMap_cons, holds, empty, List.nil_append]
  | destroyHandler agenda unanswered => exact orderly.closeHandler agenda rfl unanswered _
  | cancelHandler agenda unanswered => exact orderly.closeHandler agenda rfl unanswered _
  | @discard token rest agenda =>
    refine orderly.discharge token .retrying rfl rfl
      (mem_holdings_of_head agenda List.mem_cons_self) ?_
      rfl rfl ?_
    · intro entry
      simp only [count_world, agenda, Call.holdings, List.flatMap_cons, List.count_append,
        count_cons_mark, List.count_nil]
      omega
    · rintro _ sound ⟨retries, rfl, _⟩
      exact ⟨⟨by simp [Stage.next], sound.2⟩, rfl⟩

/-! ### The other threads -/

/-- A jump carries the contexts in local variables along. -/
theorem Jump.holdings {action : Action} {phase : Phase} (jump : Jump world action phase) :
    phase.holdings = world.phase.holdings := by
  cases jump with
  | @multiHandle contextList at_ => simp [at_, Phase.holdings]
  | @nothingToCancel mode at_ noIds noGroups =>
    cases mode <;> simp [at_, Phase.holdings, World.afterCancel]
  | process at_ running => rw [at_]; rfl
  | processAfterShutdown at_ stopped => rw [at_]; rfl
  | shutdownAgain at_ stopped => rw [at_]; rfl
  | skipScan at_ empty => rw [at_]; rfl
  | enterScan at_ nonempty => rw [at_]; rfl
  | refused at_ found carried answer => rw [at_]; rfl
  | noBatch at_ absent => rw [at_]; rfl
  | perform at_ found multi => rw [at_]; rfl
  | performed at_ => rw [at_]; rfl
  | performFailed at_ => rw [at_]; rfl
  | stillRunning at_ => rw [at_]; rfl
  | batchGone at_ absent => rw [at_]; rfl
  | nothingToExtract at_ absent => rw [at_]; rfl
  | retryDone at_ absent => rw [at_]; rfl
  | retryLater at_ => rw [at_]; rfl
  | failedScanned at_ absent => rw [at_]; rfl
  | failedKept at_ found kept => rw [at_]; rfl

theorem Orderly.submit (orderly : Orderly world) (request : Option HttpRequest)
    (callback : Bool) : Orderly (world.submit request callback) := by
  rcases submit_cases world request callback with rejected | ⟨_, admitted⟩
  · rw [rejected]
    exact orderly.quiet (fun _ => rfl) rfl rfl rfl
  · rw [admitted]
    have fresh := orderly.fresh _ (Nat.le_refl world.nextInFlightToken)
    have absent : world.nextInFlightToken ∉ world.holdings.map Prod.fst := by
      intro held
      obtain ⟨⟨token, place⟩, member, rfl⟩ := List.mem_map.mp held
      exact Nat.lt_irrefl _ (orderly.lt_of_mem member)
    refine ⟨?_, ?_⟩
    · refine (orderly.custody.take .queued absent
        (status_event_of_ne rfl rfl (update_of_ne _ _)) ?_).perm
        (List.perm_iff_count.mpr fun entry => ?_)
      · rw [status_event rfl rfl, fresh]
        simp only [Function.update_self]
        exact ⟨⟨by simp [Stage.next], Or.inl rfl⟩, 0, rfl, ⟨rfl, rfl⟩, by simp⟩
      · simp only [count_cons_mark, count_world, List.map_append, List.map_cons, List.map_nil,
          List.count_append, List.count_nil]
        omega
    · intro other beyond
      have different : other ≠ world.nextInFlightToken := Nat.ne_of_gt beyond
      have older := orderly.fresh other (Nat.le_of_lt beyond)
      rw [← older]
      exact stageOf_concat_other fun same => different (Option.some.inj same).symm

theorem Orderly.callCancel (orderly : Orderly world) (identifier : ℕ) (given : Bool)
    (insert : Option CallId → Caller) : Orderly (world.callCancel identifier given insert) := by
  unfold World.callCancel
  dsimp only
  split
  · exact orderly.frame (fun _ => rfl) _ rfl (by simp [Event.subject]) rfl rfl
  · exact orderly.frame (fun _ => rfl) _ rfl (by simp [Event.subject]) rfl rfl

theorem Orderly.callerStep {action : Action} (orderly : Orderly world)
    (step : CallerStep world action next) : Orderly next := by
  cases step with
  | submit unlocked held => exact orderly.submit _ _
  | @clientSubmits position client request callback unlocked found =>
    have left : Orderly { world with callers := world.callers.eraseIdx position } :=
      orderly.quiet (fun _ => rfl) rfl rfl rfl
    exact (left.submit _ _).quiet (fun _ => rfl) rfl rfl rfl
  | waitRegister unlocked registered =>
    obtain ⟨_, rfl⟩ := HttpRequestManager.registerWaiter_eq_some registered
    exact orderly.frame (fun _ => rfl) _ rfl (by simp [Event.subject]) rfl rfl
  | cancelWait unlocked removed =>
    obtain ⟨waiters, _, _, rfl⟩ := HttpRequestManager.cancelWait_eq_some removed
    exact orderly.frame (fun _ => rfl) _ rfl (by simp [Event.subject]) rfl rfl
  | insertByGroup unlocked found queued =>
    rw [HttpRequestManager.queueCancelByGroup_eq_some queued]
    exact orderly.quiet (fun _ => rfl) rfl rfl rfl
  | cancelById => exact orderly.callCancel _ _ _
  | cancelByGroup => exact orderly.callCancel _ _ _
  | waitNow unlocked idle =>
    exact orderly.frame (fun _ => rfl) _ rfl (by simp [Event.subject]) rfl rfl
  | callerWaits found => exact orderly.frame (fun _ => rfl) _ rfl (by simp [Event.subject]) rfl rfl
  | callerCancels found =>
    exact orderly.frame (fun _ => rfl) _ rfl (by simp [Event.subject]) rfl rfl
  | cancelWaitMissed => exact orderly
  | clientRejected => exact orderly
  | _ => exact orderly.quiet (fun _ => rfl) rfl rfl rfl

theorem Orderly.handleStep {action : Action} (orderly : Orderly world)
    (step : HandleStep world action next) : Orderly next := by
  obtain ⟨_, _, _, _, rfl⟩ := step.frame
  exact orderly.quiet (fun _ => rfl) rfl rfl rfl

theorem Orderly.transition {action : Action} (orderly : Orderly world)
    (transition : Transition world action next) : Orderly next := by
  cases transition with
  | jump agenda jump =>
    refine orderly.quiet (fun entry => ?_) rfl rfl rfl
    simp only [count_world, jump.holdings]
  | pending agenda step => exact orderly.pendingStep agenda step
  | active agenda step => exact orderly.activeStep agenda step
  | cancel agenda step => exact orderly.cancelStep agenda step
  | closing agenda step => exact orderly.closingStep agenda step
  | agenda step => exact orderly.agendaStep step
  | shutdown agenda at_ running =>
    refine orderly.frame (fun entry => ?_) _ rfl (by simp [Event.subject]) rfl rfl
    simp only [count_world, at_, Phase.holdings]
  | caller step => exact orderly.callerStep step
  | handles step => exact orderly.handleStep step

/-- In every reachable state every request is in good custody. -/
theorem orderly_of_reachable (reachable : managerSystem.Reachable world) : Orderly world := by
  refine reachable.induction Orderly ?_ ?_
  · refine ⟨⟨List.nodup_nil, by simp [World.holdings, managerSystem, Phase.holdings], ?_, ?_⟩,
      fun _ _ => rfl⟩
    · intro token owed
      exact absurd owed (by simp [requestRules, World.status, managerSystem, stageOf_nil,
        Stage.isHeld, Stage.isOpen])
    · intro token
      exact ⟨by simp [World.status, managerSystem, stageOf_nil], Or.inl rfl⟩
  · intro state action after _ orderly stepped
    exact orderly.transition (step_transition stepped)

end Kurlyk.Http
