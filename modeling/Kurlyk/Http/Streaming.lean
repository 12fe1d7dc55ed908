/-
This file proves that streaming loses no byte of a body and shows none twice. A
handler collects the body of its own attempt, while the chunks a callback sees
are those of all attempts of the request. The two agree because no attempt
follows one that emitted a chunk: in every reachable state each body that is
kept for a streaming request, whether a handler still collects it, a final
response carries it on the agenda, or the callback has received it, consists of
the chunks the callback has seen.

A request that waits in a queue has shown no chunk, which is why the responses
that the manager makes up for it may be empty.
-/

import Kurlyk.Http.Callbacks
import Kurlyk.Http.Handlers

namespace Kurlyk.Http

open RateLimiter

variable {world next : World} {action : Action} {token : Token} {body : List UInt8}

/-! ### Chunks -/

/-- The contents of the stream chunks among some responses, in order. -/
def chunkBytes (seen : List HttpResponse) : List UInt8 :=
  (seen.filter (·.streamChunk)).flatMap (·.content)

/-- What `emit_stream_chunk` asks of a context: its request streams and has a callback. -/
def HttpRequestContext.streams (context : HttpRequestContext) : Bool :=
  (context.request.map HttpRequest.streaming).getD false && context.callback

theorem chunkBytes_append (seen later : List HttpResponse) :
    chunkBytes (seen ++ later) = chunkBytes seen ++ chunkBytes later := by
  simp [chunkBytes]

/-- A response that is no chunk adds nothing. -/
theorem chunkBytes_concat {seen : List HttpResponse} {response : HttpResponse}
    (whole : response.streamChunk = false) : chunkBytes (seen ++ [response]) = chunkBytes seen := by
  rw [chunkBytes_append]
  simp [chunkBytes, whole]

theorem Shape.chunkBytes_eq_nil {retries : ℕ} {seen : List HttpResponse}
    (shape : Shape retries 0 0 seen) : chunkBytes seen = [] := by
  obtain ⟨first, second, third, rfl, _, noChunk, noFinal, numbered, _, _⟩ := shape.split
  rw [List.length_eq_zero_iff] at noChunk noFinal
  rw [noChunk, noFinal, List.append_nil, List.append_nil]
  have whole : ∀ response ∈ first, response.streamChunk = false := by
    intro response member
    obtain ⟨position, found⟩ := List.mem_iff_getElem?.mp member
    have intermediate := numbered position response found
    simp only [HttpResponse.isIntermediate, Bool.and_eq_true, Bool.not_eq_true'] at intermediate
    exact intermediate.1.2
  simp only [chunkBytes, List.flatMap_eq_nil_iff, List.mem_filter]
  intro response kept
  exact absurd kept.2 (by simp [whole response kept.1])

/-- A streaming request is told about every block that is not empty. -/
theorem data_eq_nil_of_silent {context : HttpRequestContext} {data : List UInt8} {status : ℤ}
    (streams : context.streams = true) (silent : streamChunk context data status = none) :
    data = [] := by
  unfold HttpRequestContext.streams at streams
  unfold streamChunk at silent
  cases carried : context.request with
  | none => simp [carried] at streams
  | some request =>
    simp only [carried, Option.map_some, Option.getD_some, Bool.and_eq_true] at streams
    simp only [carried, streams.1, streams.2, and_true] at silent
    by_contra filled
    simp [filled] at silent

/-- What a chunk holds. -/
theorem streamChunk_eq_some {context : HttpRequestContext} {data : List UInt8} {status : ℤ}
    {chunk : HttpResponse} (emitted : streamChunk context data status = some chunk) :
    chunk.content = data ∧ chunk.streamChunk = true ∧ chunk.ready = false := by
  unfold streamChunk at emitted
  split at emitted
  · exact absurd emitted (by simp)
  · split at emitted
    · rw [← Option.some.inj emitted]
      exact ⟨rfl, rfl, rfl⟩
    · exact absurd emitted (by simp)

/-! ### Responses in the log -/

theorem responses_append (log events : List Event) (token : Token) :
    responses (log ++ events) token =
      responses log token ++ events.filterMap (Event.responseTo token) :=
  List.filterMap_append ..

/-- Events that are no responses. -/
theorem responses_append_silent {log events : List Event}
    (silent : ∀ about response, .response about response ∉ events) (token : Token) :
    responses (log ++ events) token = responses log token := by
  have none : events.filterMap (Event.responseTo token) = [] := by
    rw [List.filterMap_eq_nil_iff]
    intro event member
    cases event with
    | response about response => exact absurd member (silent about response)
    | _ => rfl
  rw [responses_append, none, List.append_nil]

theorem responses_response_self (log : List Event) (token : Token) (response : HttpResponse) :
    responses (log ++ [.response token response]) token = responses log token ++ [response] := by
  rw [responses_append]
  simp [Event.responseTo]

theorem responses_response_other (log : List Event) {about : Token} (response : HttpResponse)
    (different : about ≠ token) :
    responses (log ++ [.response about response]) token = responses log token := by
  rw [responses_append]
  simp [Event.responseTo, different]

/-- A request that waits for its next attempt has shown no chunk. -/
theorem Orderly.unstreamed {source : Place} (orderly : Orderly world)
    (member : (token, source) ∈ world.holdings)
    (waits : source = .queued ∨ source = .dispatched ∨ source = .retrying) :
    chunkBytes (responses world.log token) = [] := by
  have fits := (orderly.custody.fits token source member).2
  have describes := stageOf_describes world.log token
  rcases waits with rfl | rfl | rfl
  all_goals
    obtain ⟨retries, stage, _⟩ := fits
    change stageOf world.log token = _ at stage
    rw [stage] at describes
    exact describes.1.chunkBytes_eq_nil

/-- A request in flight has not been given a final response. -/
theorem Orderly.unready {handler : HttpRequestHandler} (orderly : Orderly world)
    (member : (token, .flying handler) ∈ world.holdings) :
    ∀ response ∈ responses world.log token, response.ready = false := by
  obtain ⟨sound, retries, chunks, stage, _⟩ := orderly.custody.fits token _ member
  change stageOf world.log token = _ at stage
  have intact : stageOf world.log token ≠ .broken := sound.1
  have counted := countP_ready_responses intact
  rw [stage] at counted
  intro response seen
  exact Bool.eq_false_iff.mpr (List.countP_eq_zero.mp counted response seen)

/-! ### The bodies of a request -/

/-- The handler a call destroys or cancels. -/
def Call.handlers : Call → List HttpRequestHandler
  | .destroyHandler handler => [handler]
  | .cancelHandler handler => [handler]
  | _ => []

/-- The handler is in a batch or is being put into one, or it is about to be closed. -/
def World.Keeps (world : World) (handler : HttpRequestHandler) : Prop :=
  world.Handles handler ∨ ∃ call ∈ world.agenda, handler ∈ call.handlers

/-- The bodies that exist for a request: what a handler has collected, what a final response
carries to the callback, and what a final response has carried there. -/
inductive Body (world : World) (token : Token) : List UInt8 → Prop where
  | collected {handler response} (kept : world.Keeps handler)
    (unanswered : handler.unanswered = some (token, response)) : Body world token response.content
  | returned {response} (called : .invokeFinalCallback token response ∈ world.agenda) :
    Body world token response.content
  | delivered {response} (seen : response ∈ responses world.log token)
    (ready : response.ready = true) : Body world token response.content

/-- Every body of a streaming request is what its chunks make up. -/
def Consistent (world : World) : Prop :=
  ∀ token body, (world.contexts token).streams = true → Body world token body →
    body = chunkBytes (responses world.log token)

/-- The body was there before, or it is empty and no chunk has been shown. -/
def Stems (world : World) (token : Token) (body : List UInt8) : Prop :=
  Body world token body ∨ body = [] ∧ chunkBytes (responses world.log token) = []

theorem unanswered_iff {handler : HttpRequestHandler} {response : HttpResponse} :
    handler.unanswered = some (token, response) ↔
      handler.callbackCalled = false ∧ handler.requestContext = some token ∧
        handler.response = some response := by
  obtain ⟨context, held, called, chunked, done, transferring, ended⟩ := handler
  cases called <;> cases context <;> cases held <;> simp [HttpRequestHandler.unanswered]

/-- The place of an unanswered handler. -/
theorem World.Keeps.flying {handler : HttpRequestHandler} {response : HttpResponse}
    (kept : world.Keeps handler) (unanswered : handler.unanswered = some (token, response)) :
    (token, .flying handler) ∈ world.holdings := by
  have own : (token, Place.flying handler) ∈ handlerHoldings handler := by
    rw [(holdings_of_unanswered unanswered).1]
    exact List.mem_cons_self
  rcases kept with (⟨batch, present, member⟩ | building) | ⟨call, called, member⟩
  · exact mem_holdings_of_batch present
      (List.mem_append_left _ (List.mem_flatMap.mpr ⟨handler, member, own⟩))
  · refine mem_holdings_of_phase ?_
    cases at_ : world.phase with
    | buildBatch contextList handlers =>
      rw [at_] at building
      exact List.mem_append_right _ (List.mem_flatMap.mpr ⟨handler, building, own⟩)
    | _ =>
      rw [at_] at building
      exact absurd building List.not_mem_nil
  · have held : (token, Place.flying handler) ∈ call.holdings := by
      cases call with
      | destroyHandler closing =>
        rw [List.mem_singleton.mp member] at own
        rw [List.mem_singleton.mp member]
        exact own
      | cancelHandler closing =>
        rw [List.mem_singleton.mp member] at own
        rw [List.mem_singleton.mp member]
        exact own
      | _ => exact absurd member List.not_mem_nil
    have onAgenda : (token, Place.flying handler) ∈ world.agenda.flatMap Call.holdings :=
      List.mem_flatMap.mpr ⟨call, called, held⟩
    simp [World.holdings, onAgenda]

/-- Only requests that were admitted have a body. -/
theorem Body.lt (bodies : Body world token body) (orderly : Orderly world) :
    token < world.nextInFlightToken := by
  cases bodies with
  | collected kept unanswered => exact orderly.lt_of_mem (kept.flying unanswered)
  | @returned response called =>
    have held : (token, Place.finishing response) ∈ world.agenda.flatMap Call.holdings :=
      List.mem_flatMap.mpr ⟨_, called, List.mem_cons_self⟩
    have member : (token, Place.finishing response) ∈ world.holdings := by
      simp [World.holdings, held]
    exact orderly.lt_of_mem member
  | @delivered response seen ready =>
    refine Nat.lt_of_not_le fun beyond => ?_
    obtain ⟨event, logged, answer⟩ := List.mem_filterMap.mp seen
    refine not_subject_of_absent (orderly.fresh token beyond) event logged ?_
    by_contra other
    rw [responseTo_of_other other] at answer
    exact absurd answer (by simp)

/-- A step that shows no chunk and makes no body out of nothing. -/
theorem Consistent.follow (consistent : Consistent world) (orderly : Orderly world)
    (contexts : ∀ token < world.nextInFlightToken,
      (next.contexts token).streams = (world.contexts token).streams)
    (chunks : ∀ token, chunkBytes (responses next.log token) =
      chunkBytes (responses world.log token))
    (stems : ∀ token body, (next.contexts token).streams = true → Body next token body →
      Stems world token body) : Consistent next := by
  intro token body streams present
  rw [chunks token]
  rcases stems token body streams present with before | ⟨empty, unstreamed⟩
  · rw [contexts token (before.lt orderly)] at streams
    exact consistent token body streams before
  · rw [empty, unstreamed]

/-- A step that shows the callback nothing, and touches no handler in flight. -/
theorem Consistent.silent (consistent : Consistent world) (orderly : Orderly world)
    (contexts : ∀ token < world.nextInFlightToken,
      (next.contexts token).streams = (world.contexts token).streams)
    (seen : ∀ token, responses next.log token = responses world.log token)
    (handlers : ∀ handler, handler.callbackCalled = false → next.Keeps handler →
      world.Keeps handler)
    (answers : ∀ token response, .invokeFinalCallback token response ∈ next.agenda →
      Stems world token response.content) : Consistent next := by
  refine consistent.follow orderly contexts (fun token => by rw [seen token]) ?_
  intro token body streams present
  cases present with
  | collected kept unanswered =>
    exact Or.inl (.collected (handlers _ (unanswered_iff.mp unanswered).1 kept) unanswered)
  | returned called => exact answers token _ called
  | delivered shown ready => exact Or.inl (.delivered (seen token ▸ shown) ready)

/-- A step that shows the callback of one request a response that is no chunk. -/
theorem Consistent.reply {response : HttpResponse} (consistent : Consistent world)
    (orderly : Orderly world)
    (contexts : ∀ token < world.nextInFlightToken,
      (next.contexts token).streams = (world.contexts token).streams)
    (logged : next.log = world.log ++ [.response token response])
    (whole : response.streamChunk = false)
    (final : response.ready = true → Stems world token response.content)
    (handlers : ∀ handler, handler.callbackCalled = false → next.Keeps handler →
      world.Keeps handler)
    (answers : ∀ about reply, .invokeFinalCallback about reply ∈ next.agenda →
      Stems world about reply.content) : Consistent next := by
  refine consistent.follow orderly contexts (fun about => ?_) fun about body streams present => ?_
  · rw [logged]
    by_cases same : token = about
    · rw [← same, responses_response_self, chunkBytes_concat whole]
    · rw [responses_response_other _ _ same]
  · cases present with
    | collected kept unanswered =>
      exact Or.inl (.collected (handlers _ (unanswered_iff.mp unanswered).1 kept) unanswered)
    | returned called => exact answers about _ called
    | @delivered reply shown ready =>
      rw [logged] at shown
      by_cases same : token = about
      · subst same
        rw [responses_response_self, List.mem_append, List.mem_singleton] at shown
        rcases shown with old | rfl
        · exact Or.inl (.delivered old ready)
        · exact final ready
      · rw [responses_response_other _ _ same] at shown
        exact Or.inl (.delivered shown ready)

/-! ### What steps do to handlers and contexts -/

/-- Updating what `emit_stream_chunk` does not read. -/
theorem streams_update {about : Token} {context : HttpRequestContext}
    (same : context.streams = (world.contexts about).streams) (token : Token) :
    (Function.update world.contexts about context token).streams =
      (world.contexts token).streams := by
  by_cases equal : token = about
  · rw [equal, Function.update_self, same]
  · rw [Function.update_of_ne equal]

/-- The handlers of a state, by where they are. -/
theorem keeps_of {handler : HttpRequestHandler} (kept : next.Keeps handler)
    (batches : ∀ batch ∈ next.activeRequestBatches, handler ∈ batch.handlers → world.Keeps handler)
    (phase : handler ∈ next.phase.handlers → world.Keeps handler)
    (calls : ∀ call ∈ next.agenda, handler ∈ call.handlers → world.Keeps handler) :
    world.Keeps handler := by
  rcases kept with (⟨batch, present, member⟩ | building) | ⟨call, called, member⟩
  · exact batches batch present member
  · exact phase building
  · exact calls call called member

theorem keeps_of_batch {handler : HttpRequestHandler} {batch : HttpBatchRequestHandler}
    (present : batch ∈ world.activeRequestBatches) (member : handler ∈ batch.handlers) :
    world.Keeps handler :=
  Or.inl (Or.inl ⟨batch, present, member⟩)

theorem keeps_of_phase {handler : HttpRequestHandler} (member : handler ∈ world.phase.handlers) :
    world.Keeps handler :=
  Or.inl (Or.inr member)

/-- A step that leaves the batches alone and closes no handler. -/
theorem keeps_of_same {handler : HttpRequestHandler} (kept : next.Keeps handler)
    (batches : next.activeRequestBatches = world.activeRequestBatches)
    (phase : next.phase.handlers ⊆ world.phase.handlers)
    (calls : ∀ call ∈ next.agenda, call.handlers = []) : world.Keeps handler := by
  refine keeps_of kept (fun batch present => ?_) (fun building => keeps_of_phase (phase building))
    fun call called member => ?_
  · rw [batches] at present
    exact keeps_of_batch present
  · rw [calls call called] at member
    exact absurd member List.not_mem_nil

/-- Responses that the manager makes up for requests that have shown no chunk. -/
theorem stems_of_made {made : HttpResponse} (empty : made.content = []) (tokens : List Token)
    (unstreamed : ∀ token ∈ tokens, chunkBytes (responses world.log token) = []) :
    ∀ token response,
      .invokeFinalCallback token response ∈ tokens.map (Call.invokeFinalCallback · made) →
        Stems world token response.content := by
  intro token response called
  obtain ⟨about, member, same⟩ := List.mem_map.mp called
  rw [Call.invokeFinalCallback.injEq] at same
  rw [← same.1, ← same.2]
  exact Or.inr ⟨empty, unstreamed about member⟩

theorem handlers_of_mem_finalCallbacks {tokens : List Token} {made : HttpResponse} {call : Call}
    (called : call ∈ tokens.map (Call.invokeFinalCallback · made)) : call.handlers = [] := by
  obtain ⟨about, _, rfl⟩ := List.mem_map.mp called
  rfl

theorem handlers_of_mem_notifications {waiters : List GroupWaiter} {call : Call}
    (called : call ∈ waiters.map Call.notifyWaiter) : call.handlers = [] := by
  obtain ⟨waiter, _, rfl⟩ := List.mem_map.mp called
  rfl

/-! ### `process_pending_requests` -/

theorem Consistent.pendingStep {input : World.Input} (consistent : Consistent world)
    (orderly : Orderly world) (agenda : world.agenda = [])
    (step : PendingStep world input next) : Consistent next := by
  have uncalled : ∀ call ∈ world.agenda, call.handlers = [] := by simp [agenda]
  have unanswered : ∀ token response, .invokeFinalCallback token response ∈ world.agenda →
      Stems world token response.content := by simp [agenda]
  cases step with
  | @scanned index ready failed now at_ absent =>
    refine consistent.silent orderly (fun _ _ => rfl) (fun _ => rfl) (fun handler _ kept => ?_)
      (stems_of_made rfl failed fun token member => ?_)
    · refine keeps_of_same kept rfl ?_ fun call => handlers_of_mem_finalCallbacks
      dsimp only
      split <;> exact List.nil_subset _
    · exact orderly.unstreamed (mem_holdings_of_phase (by simp [at_, Phase.holdings, member]))
        (Or.inl rfl)
  | badRequest at_ found carried =>
    exact consistent.silent orderly (fun _ _ => rfl) (fun _ => rfl)
      (fun _ _ kept => keeps_of_same kept rfl (List.nil_subset _) uncalled) unanswered
  | dispatch at_ found carried allowed =>
    exact consistent.silent orderly (fun token _ => streams_update (by rfl) token)
      (responses_append_silent (by simp))
      (fun _ _ kept => keeps_of_same kept rfl (List.nil_subset _) uncalled) unanswered
  | @noMultiHandle contextList at_ =>
    refine consistent.silent orderly (fun _ _ => rfl) (fun _ => rfl) (fun handler _ kept => ?_)
      (stems_of_made rfl contextList fun token member => ?_)
    · refine keeps_of kept (fun batch present member => ?_)
        (fun building => absurd building List.not_mem_nil) fun call called member => ?_
      · rcases List.mem_append.mp present with old | new
        · exact keeps_of_batch old member
        · rw [List.mem_singleton.mp new] at member
          exact absurd member List.not_mem_nil
      · rw [handlers_of_mem_finalCallbacks called] at member
        exact absurd member List.not_mem_nil
    · exact orderly.unstreamed (mem_holdings_of_phase (by simp [at_, Phase.holdings, member]))
        (Or.inr (Or.inl rfl))
  | @start started contextList handlers added at_ =>
    have waited : chunkBytes (responses world.log started) = [] :=
      orderly.unstreamed (mem_holdings_of_phase (by simp [at_, Phase.holdings]))
        (Or.inr (Or.inl rfl))
    have seen : ∀ token,
        responses (world.log ++ [.started started]) token = responses world.log token :=
      responses_append_silent (by simp)
    refine consistent.follow orderly (fun _ _ => rfl) (fun token => by rw [seen token]) ?_
    intro token body _ present
    cases present with
    | @collected handler response kept open_ =>
      -- Only the new handler was not there before, and it has collected nothing.
      rcases kept with (inBatch | building) | ⟨call, called, _⟩
      · exact Or.inl (.collected (Or.inl (Or.inl inBatch)) open_)
      · rcases List.mem_append.mp building with old | new
        · exact Or.inl (.collected (keeps_of_phase (by rw [at_]; exact old)) open_)
        · rw [List.mem_singleton.mp new] at open_
          obtain ⟨rfl, rfl⟩ := Prod.mk.inj (Option.some.inj open_)
          exact Or.inr ⟨rfl, waited⟩
      · exact absurd called (by simp [agenda])
    | returned called => exact absurd called (by simp [agenda])
    | delivered shown ready => exact Or.inl (.delivered (seen token ▸ shown) ready)
  | @noEasyHandle token contextList handlers added at_ =>
    refine consistent.silent orderly (fun _ _ => rfl) (fun _ => rfl) (fun handler _ kept => ?_)
      (stems_of_made rfl [token] fun other member => ?_)
    · refine keeps_of_same kept rfl ?_ fun call called => ?_
      · rw [at_]
        exact List.Subset.refl _
      · rw [List.mem_singleton.mp called]
        rfl
    · rw [List.mem_singleton.mp member]
      exact orderly.unstreamed (mem_holdings_of_phase (by simp [at_, Phase.holdings]))
        (Or.inr (Or.inl rfl))
  | @batchBuilt handlers at_ =>
    refine consistent.silent orderly (fun _ _ => rfl) (fun _ => rfl) (fun handler _ kept => ?_)
      unanswered
    refine keeps_of kept (fun batch present member => ?_)
      (fun building => absurd building List.not_mem_nil) fun call called => by
        rw [uncalled call called]
        exact fun member => absurd member List.not_mem_nil
    rcases List.mem_append.mp present with old | new
    · exact keeps_of_batch old member
    · rw [List.mem_singleton.mp new] at member
      exact keeps_of_phase (by rw [at_]; exact member)

/-! ### `process_active_requests` and `process_retry_failed_requests` -/

/-- A step that writes one handler back. -/
theorem keeps_of_write {index position : ℕ} {batch written : HttpBatchRequestHandler}
    {handler changed : HttpRequestHandler} (kept : next.Keeps handler)
    (found : world.activeRequestBatches[index]? = some batch)
    (batches : next.activeRequestBatches = world.activeRequestBatches.set index written)
    (handlers : written.handlers = batch.handlers.set position changed)
    (phase : next.phase = world.phase) (calls : ∀ call ∈ next.agenda, call.handlers = []) :
    handler = changed ∨ world.Keeps handler := by
  rcases kept with (⟨other, present, member⟩ | building) | ⟨call, called, member⟩
  · rw [batches] at present
    rcases List.mem_or_eq_of_mem_set present with old | rfl
    · exact Or.inr (keeps_of_batch old member)
    · rw [handlers] at member
      rcases List.mem_or_eq_of_mem_set member with old | same
      · exact Or.inr (keeps_of_batch (List.mem_of_getElem? found) old)
      · exact Or.inl same
  · rw [phase] at building
    exact Or.inr (keeps_of_phase building)
  · rw [calls call called] at member
    exact absurd member List.not_mem_nil

/-- A handler that is gone from its batch, or about to be closed, was in the batch. -/
theorem keeps_of_closing {index : ℕ} {batch : HttpBatchRequestHandler}
    {handler : HttpRequestHandler} (closing : List HttpRequestHandler)
    (close : HttpRequestHandler → Call) (kept : next.Keeps handler)
    (found : world.activeRequestBatches[index]? = some batch)
    (batches : ∀ other ∈ next.activeRequestBatches,
      other ∈ world.activeRequestBatches ∨ other.handlers ⊆ batch.handlers)
    (phase : next.phase.handlers = []) (agenda : next.agenda = closing.map close)
    (closes : ∀ handler, (close handler).handlers = [handler])
    (fewer : closing ⊆ batch.handlers) : world.Keeps handler := by
  have present := List.mem_of_getElem? found
  refine keeps_of kept (fun other there member => ?_) (fun building => ?_)
    fun call called member => ?_
  · rcases batches other there with old | part
    · exact keeps_of_batch old member
    · exact keeps_of_batch present (part member)
  · rw [phase] at building
    exact absurd building List.not_mem_nil
  · rw [agenda] at called
    obtain ⟨closed, inside, rfl⟩ := List.mem_map.mp called
    rw [closes closed, List.mem_singleton] at member
    rw [member]
    exact keeps_of_batch present (fewer inside)

/-- What a handler has collected after a block. -/
theorem appendContent_unanswered (handler : HttpRequestHandler) {data : List UInt8}
    {response : HttpResponse}
    (unanswered : (handler.appendContent data).unanswered = some (token, response)) :
    ∃ old, handler.unanswered = some (token, old) ∧ response.content = old.content ++ data := by
  obtain ⟨running, context, appended⟩ := unanswered_iff.mp unanswered
  obtain ⟨old, kept, rfl⟩ := Option.map_eq_some_iff.mp appended
  exact ⟨old, unanswered_iff.mpr ⟨running, context, kept⟩, rfl⟩

/-- A batch that loses handlers. -/
theorem set_shrinks {index : ℕ} {batches : List HttpBatchRequestHandler}
    {batch written : HttpBatchRequestHandler} (fewer : written.handlers ⊆ batch.handlers) :
    ∀ other ∈ batches.set index written, other ∈ batches ∨ other.handlers ⊆ batch.handlers := by
  intro other there
  rcases List.mem_or_eq_of_mem_set there with old | rfl
  · exact Or.inl old
  · exact Or.inr fewer

/-- A block that is appended in silence: the request does not stream, or the block is empty. -/
theorem Consistent.write {index position : ℕ} {batch : HttpBatchRequestHandler}
    {handler : HttpRequestHandler} {data : List UInt8} {status : ℤ}
    (consistent : Consistent world) (orderly : Orderly world) (agenda : world.agenda = [])
    (found : world.activeRequestBatches[index]? = some batch)
    (foundHandler : batch.handlers[position]? = some handler)
    (silent : handler.requestContext.bind (fun token =>
      (streamChunk (world.contexts token) data status).map (Event.response token)) = none) :
    Consistent { world with
      activeRequestBatches := world.activeRequestBatches.set index
        (batch.setHandler position (handler.appendContent data)) } := by
  refine consistent.follow orderly (fun _ _ => rfl) (fun _ => rfl) ?_
  intro token body streams present
  cases present with
  | @collected written response kept unanswered =>
    rcases keeps_of_write kept found rfl rfl rfl (by simp [agenda]) with rfl | before
    · obtain ⟨old, unansweredBefore, content⟩ := appendContent_unanswered handler unanswered
      have context := (unanswered_iff.mp unansweredBefore).2.1
      rw [context, Option.bind_some, Option.map_eq_none_iff] at silent
      rw [content, data_eq_nil_of_silent streams silent, List.append_nil]
      exact Or.inl (.collected (keeps_of_batch (List.mem_of_getElem? found)
        (List.mem_of_getElem? foundHandler)) unansweredBefore)
    · exact Or.inl (.collected before unanswered)
  | returned called => exact Or.inl (.returned called)
  | delivered shown ready => exact Or.inl (.delivered shown ready)

/-- A block is shown as a chunk: the handler's body and the chunks grow by the same bytes. -/
theorem Consistent.stream {index position : ℕ} {batch : HttpBatchRequestHandler}
    {handler : HttpRequestHandler} {data : List UInt8} {status : ℤ} {chunk : HttpResponse}
    (consistent : Consistent world) (orderly : Orderly world) (agenda : world.agenda = [])
    (found : world.activeRequestBatches[index]? = some batch)
    (foundHandler : batch.handlers[position]? = some handler)
    (running : handler.transferring = true) (context : handler.requestContext = some token)
    (emitted : streamChunk (world.contexts token) data status = some chunk) :
    Consistent { world with
      activeRequestBatches := world.activeRequestBatches.set index
        (batch.setHandler position (handler.appendContent data).streamed)
      log := world.log ++ [.response token chunk] } := by
  have orderlyNext := orderly.stream found foundHandler running context emitted
  obtain ⟨content, isChunk, unready⟩ := streamChunk_eq_some emitted
  have called := callbackCalled_of_transferring running
  have present : world.Keeps handler :=
    keeps_of_batch (List.mem_of_getElem? found) (List.mem_of_getElem? foundHandler)
  intro other body streams exists_
  by_cases same : other = token
  · subst same
    have grown : chunkBytes (responses (world.log ++ [.response other chunk]) other) =
        chunkBytes (responses world.log other) ++ data := by
      rw [responses_response_self, chunkBytes_append]
      simp [chunkBytes, isChunk, content]
    cases exists_ with
    | @collected written response kept unanswered =>
      -- The request is held once, so the handler can only be the one that was written.
      have held : (other, Place.flying (handler.appendContent data).streamed) ∈
          World.holdings { world with
            activeRequestBatches := world.activeRequestBatches.set index
              (batch.setHandler position (handler.appendContent data).streamed)
            log := world.log ++ [.response other chunk] } :=
        mem_holdings_of_handler (List.getElem?_set_self (List.getElem?_eq_some_iff.mp found).1)
          (List.getElem?_set_self (List.getElem?_eq_some_iff.mp foundHandler).1) called context
      have ours := orderlyNext.custody.unique (kept.flying unanswered) held
      rw [Place.flying.injEq] at ours
      subst ours
      obtain ⟨old, before, appended⟩ := appendContent_unanswered handler unanswered
      rw [appended, consistent other old.content streams (.collected present before)]
      exact grown.symm
    | returned waiting => exact absurd waiting (by simp [agenda])
    | @delivered response shown ready =>
      have unfinished := orderly.unready
        (mem_holdings_of_handler found foundHandler called context)
      change response ∈ responses (world.log ++ [.response other chunk]) other at shown
      rw [responses_response_self, List.mem_append, List.mem_singleton] at shown
      rcases shown with old | rfl
      · exact absurd ready (by simp [unfinished response old])
      · exact absurd ready (by simp [unready])
  · have seen := responses_response_other world.log chunk (Ne.symm same)
    have before : Body world other body := by
      cases exists_ with
      | @collected written response kept unanswered =>
        rcases keeps_of_write kept found rfl rfl rfl (by simp [agenda]) with rfl | before
        · have carried := (unanswered_iff.mp unanswered).2.1
          exact absurd (Option.some.inj (carried.symm.trans context)) same
        · exact .collected before unanswered
      | returned waiting => exact .returned waiting
      | delivered shown ready => exact .delivered (seen ▸ shown) ready
    rw [consistent other body streams before]
    exact congrArg chunkBytes seen.symm

theorem Consistent.activeStep {input : World.Input} (consistent : Consistent world)
    (orderly : Orderly world) (agenda : world.agenda = [])
    (step : ActiveStep world input next) : Consistent next := by
  have uncalled : ∀ call ∈ world.agenda, call.handlers = [] := by simp [agenda]
  have unanswered : ∀ token response, .invokeFinalCallback token response ∈ world.agenda →
      Stems world token response.content := by simp [agenda]
  cases step with
  | @processNoMulti index batch at_ found noMulti =>
    have none : (handlerContexts batch.handlers).map (Call.invokeFinalCallback · abortedResponse) =
        [] := by
      rw [batch.bare noMulti]
      rfl
    refine consistent.silent orderly (fun _ _ => rfl) (fun _ => rfl) (fun handler _ kept => ?_) ?_
    · exact keeps_of_closing [] Call.destroyHandler kept found (set_shrinks (List.nil_subset _))
        rfl none (fun _ => rfl) (List.nil_subset _)
    · rw [none]
      simp
  | write at_ found foundHandler silent =>
    exact consistent.write orderly agenda found foundHandler silent
  | stream at_ found foundHandler running context emitted =>
    exact consistent.stream orderly agenda found foundHandler running context emitted
  | @ignoreMessage index stillRunning position message now batch handler at_ found foundHandler =>
    refine consistent.follow orderly (fun _ _ => rfl) (fun _ => rfl) ?_
    intro token body _ present
    cases present with
    | @collected written response kept open_ =>
      rcases keeps_of_write kept found rfl rfl rfl uncalled with rfl | before
      · exact Or.inl (.collected (keeps_of_batch (List.mem_of_getElem? found)
          (List.mem_of_getElem? foundHandler)) open_)
      · exact Or.inl (.collected before open_)
    | returned called => exact Or.inl (.returned called)
    | delivered shown ready => exact Or.inl (.delivered shown ready)
  | @retry index stillRunning position message now batch handler token request response at_ found
      foundHandler running context carried kept again =>
    obtain ⟨_, _, _, _, _, _, _, old, holds, unready, whole⟩ := orderly.custody.fits token _
      (mem_holdings_of_handler found foundHandler (callbackCalled_of_transferring running) context)
    obtain rfl : old = response := Option.some.inj (holds.symm.trans kept)
    refine consistent.reply orderly (fun other _ => streams_update (by rfl) other) rfl whole
      (fun ready => absurd (ready.symm.trans unready) (by simp)) (fun written open_ kept => ?_)
      unanswered
    rcases keeps_of_write kept found rfl rfl rfl uncalled with rfl | before
    · exact absurd open_ (by simp [HttpRequestHandler.answered])
    · exact before
  | @finish index stillRunning position message now batch handler token request response at_ found
      foundHandler running context carried kept last =>
    refine consistent.silent orderly (fun other _ => streams_update (by rfl) other) (fun _ => rfl)
      (fun written open_ kept => ?_) fun about reply called => ?_
    · rcases keeps_of_write kept found rfl rfl rfl (by simp [Call.handlers]) with rfl | before
      · exact absurd open_ (by simp [HttpRequestHandler.answered])
      · exact before
    · obtain ⟨rfl, rfl⟩ := Call.invokeFinalCallback.inj (List.mem_singleton.mp called)
      have collected : Body world about response.content :=
        .collected (keeps_of_batch (List.mem_of_getElem? found)
            (List.mem_of_getElem? foundHandler))
          (unanswered_iff.mpr ⟨callbackCalled_of_transferring running, context, kept⟩)
      exact Or.inl collected
  | @destroyHandlers index batch at_ found =>
    exact consistent.silent orderly (fun _ _ => rfl) (fun _ => rfl)
      (fun handler _ kept => keeps_of_closing _ _ kept found (set_shrinks (List.nil_subset _)) rfl rfl
        (fun _ => rfl) (List.Subset.refl _)) (by simp)
  | @extract index batch at_ found =>
    exact consistent.silent orderly (fun _ _ => rfl) (fun _ => rfl)
      (fun handler _ kept => keeps_of_closing _ _ kept found
        (fun other there => Or.inl (List.mem_of_mem_eraseIdx there)) rfl rfl
        (fun _ => rfl) (List.Subset.refl _)) (by simp)
  | dropFailed at_ found carried =>
    exact consistent.silent orderly (fun _ _ => rfl) (fun _ => rfl)
      (fun _ _ kept => keeps_of_same kept rfl (List.Subset.refl _) (by simp [Call.handlers]))
      (by simp)
  | requeue at_ found =>
    exact consistent.silent orderly (fun _ _ => rfl) (responses_append_silent (by simp))
      (fun _ _ kept => keeps_of_same kept rfl (List.Subset.refl _) uncalled) unanswered

/-! ### `process_cancel_requests` and `shutdown` -/

theorem Consistent.cancelStep (consistent : Consistent world) (orderly : Orderly world)
    (step : CancelStep world next) : Consistent next := by
  cases step with
  | @takeCancels mode at_ queued =>
    refine consistent.silent orderly (fun _ _ => rfl) (fun _ => rfl)
      (fun _ _ kept => keeps_of_same kept rfl (List.nil_subset _) fun call =>
        handlers_of_mem_finalCallbacks)
      (stems_of_made rfl _ fun token member => ?_)
    exact orderly.unstreamed (mem_holdings_of_pending (List.mem_of_mem_filter member)) (Or.inl rfl)
  | @cancelFailed ids groups index mode token at_ found hit =>
    refine consistent.silent orderly (fun _ _ => rfl) (fun _ => rfl)
      (fun _ _ kept => keeps_of_same kept rfl (List.Subset.refl _) (by simp [Call.handlers]))
      (stems_of_made rfl [token] fun other member => ?_)
    rw [List.mem_singleton.mp member]
    exact orderly.unstreamed (mem_holdings_of_failed (List.mem_of_getElem? found))
      (Or.inr (Or.inr rfl))
  | @cancelBatch ids groups index mode batch at_ found =>
    exact consistent.silent orderly (fun _ _ => rfl) (fun _ => rfl)
      (fun handler _ kept => keeps_of_closing _ _ kept found
        (set_shrinks List.filter_sublist.subset) rfl rfl (fun _ => rfl)
        List.filter_sublist.subset) (by simp)
  | @batchesScanned ids groups index mode at_ absent =>
    refine consistent.silent orderly (fun _ _ => rfl) (fun _ => rfl)
      (fun _ _ kept => keeps_of_same kept rfl ?_ ?_) (by simp)
    · cases mode <;> exact List.nil_subset _
    · intro call called
      obtain ⟨callback, _, rfl⟩ := List.mem_map.mp called
      rfl

theorem Consistent.closingStep (consistent : Consistent world) (orderly : Orderly world)
    (step : ClosingStep world next) : Consistent next := by
  cases step with
  | notifyIdle at_ =>
    exact consistent.silent orderly (fun _ _ => rfl) (fun _ => rfl)
      (fun _ _ kept => keeps_of_same kept rfl (List.nil_subset _) fun call =>
        handlers_of_mem_notifications)
      (by simp [World.notifyStep])
  | notifyAll at_ =>
    exact consistent.silent orderly (fun _ _ => rfl) (fun _ => rfl)
      (fun _ _ kept => keeps_of_same kept rfl (List.nil_subset _) fun call =>
        handlers_of_mem_notifications)
      (by simp [World.notifyStep])
  | cleanup at_ =>
    refine consistent.silent orderly (fun _ _ => rfl) (fun _ => rfl)
      (fun _ _ kept => keeps_of_same kept rfl (List.nil_subset _) fun call =>
        handlers_of_mem_finalCallbacks) (stems_of_made rfl _ fun token member => ?_)
    rcases List.mem_append.mp member with pending | failed
    · exact orderly.unstreamed (mem_holdings_of_pending pending) (Or.inl rfl)
    · exact orderly.unstreamed (mem_holdings_of_failed failed) (Or.inr (Or.inr rfl))
  | clear at_ =>
    refine consistent.silent orderly (fun _ _ => rfl) (fun _ => rfl) (fun handler _ kept => ?_)
      (by simp [World.clearBatchesStep])
    refine keeps_of kept (fun batch present => absurd present List.not_mem_nil)
      (fun building => absurd building List.not_mem_nil) fun call called member => ?_
    obtain ⟨batch, present, inside⟩ := List.mem_flatMap.mp called
    rcases List.mem_append.mp inside with discarded | destroyed
    · obtain ⟨token, _, rfl⟩ := List.mem_map.mp discarded
      exact absurd member List.not_mem_nil
    · obtain ⟨closed, there, rfl⟩ := List.mem_map.mp destroyed
      rw [List.mem_singleton.mp member]
      exact keeps_of_batch present there

/-! ### The agenda and the other threads -/

/-- The call at the head of the agenda is made and leaves others in its place. -/
theorem keeps_of_call {call : Call} {rest : List Call} {handler : HttpRequestHandler}
    (made : List Call) (kept : next.Keeps handler) (agenda : world.agenda = call :: rest)
    (after : next.agenda = made ++ rest) (quiet : ∀ call ∈ made, call.handlers = [])
    (batches : next.activeRequestBatches = world.activeRequestBatches)
    (phase : next.phase = world.phase) : world.Keeps handler := by
  refine keeps_of kept (fun batch present member => ?_) (fun building => ?_)
    fun other called member => ?_
  · rw [batches] at present
    exact keeps_of_batch present member
  · rw [phase] at building
    exact keeps_of_phase building
  · rw [after] at called
    rcases List.mem_append.mp called with new | old
    · rw [quiet other new] at member
      exact absurd member List.not_mem_nil
    · refine Or.inr ⟨other, ?_, member⟩
      rw [agenda]
      exact List.mem_cons_of_mem _ old

/-- What is left on the agenda was on it before. -/
theorem stems_of_call {call : Call} {rest : List Call} (made : List Call)
    (agenda : world.agenda = call :: rest)
    (answers : ∀ about reply, .invokeFinalCallback about reply ∈ made →
      Stems world about reply.content) :
    ∀ about reply, .invokeFinalCallback about reply ∈ made ++ rest →
      Stems world about reply.content := by
  intro about reply called
  rcases List.mem_append.mp called with new | old
  · exact answers about reply new
  · refine Or.inl (.returned ?_)
    rw [agenda]
    exact List.mem_cons_of_mem _ old

/-- A call that shows no response. -/
theorem Consistent.call {call : Call} {rest : List Call} (made : List Call)
    (consistent : Consistent world) (orderly : Orderly world)
    (agenda : world.agenda = call :: rest) (after : next.agenda = made ++ rest)
    (contexts : ∀ token < world.nextInFlightToken,
      (next.contexts token).streams = (world.contexts token).streams)
    (seen : ∀ token, responses next.log token = responses world.log token)
    (quiet : ∀ call ∈ made, call.handlers = [])
    (answers : ∀ about reply, .invokeFinalCallback about reply ∈ made →
      Stems world about reply.content)
    (batches : next.activeRequestBatches = world.activeRequestBatches)
    (phase : next.phase = world.phase) : Consistent next := by
  refine consistent.silent orderly contexts seen
    (fun handler _ kept => keeps_of_call made kept agenda after quiet batches phase) ?_
  rw [after]
  exact stems_of_call made agenda answers

/-- A handler is closed with the body it has collected. -/
theorem Consistent.closeHandler {handler : HttpRequestHandler} {call : Call} {rest : List Call}
    {response : HttpResponse} (consistent : Consistent world) (orderly : Orderly world)
    (agenda : world.agenda = call :: rest) (closes : handler ∈ call.handlers)
    (unanswered : handler.unanswered = some (token, response)) (error : ClientError) :
    Consistent { world with
      agenda := .invokeFinalCallback token (response.closed error) :: rest } := by
  refine consistent.call [.invokeFinalCallback token (response.closed error)] orderly agenda rfl
    (fun _ _ => rfl) (fun _ => rfl) (by simp [Call.handlers]) (fun about reply called => ?_) rfl rfl
  obtain ⟨rfl, rfl⟩ := Call.invokeFinalCallback.inj (List.mem_singleton.mp called)
  have kept : world.Keeps handler := Or.inr ⟨call, by rw [agenda]; exact List.mem_cons_self, closes⟩
  have collected : Body world about response.content := .collected kept unanswered
  exact Or.inl collected

theorem Consistent.agendaStep (consistent : Consistent world) (orderly : Orderly world)
    (step : AgendaStep world next) : Consistent next := by
  cases step with
  | @finalCallback token response rest agenda =>
    have waiting : .invokeFinalCallback token response ∈ world.agenda := by
      rw [agenda]
      exact List.mem_cons_self
    have final : response.isFinal = true :=
      (orderly.custody.fits token (.finishing response)
        (mem_holdings_of_head agenda List.mem_cons_self)).2.2.2
    simp only [HttpResponse.isFinal, Bool.and_eq_true, Bool.not_eq_true'] at final
    exact consistent.reply orderly (fun _ _ => rfl) rfl final.2
      (fun _ => Or.inl (.returned waiting))
      (fun handler _ kept => keeps_of_call [.complete token] kept agenda rfl
        (by simp [Call.handlers]) rfl rfl)
      (stems_of_call [.complete token] agenda (by simp))
  | completeAgain agenda claimed =>
    exact consistent.call [] orderly agenda rfl (fun _ _ => rfl) (fun _ => rfl) (by simp) (by simp)
      rfl rfl
  | @complete token rest agenda unclaimed =>
    exact consistent.call [.onGroupComplete token] orderly agenda rfl
      (fun other _ => streams_update (by rfl) other) (responses_append_silent (by simp))
      (by simp [Call.handlers]) (by simp) rfl rfl
  | settle agenda noGroup =>
    exact consistent.call [] orderly agenda rfl (fun _ _ => rfl) (responses_append_silent (by simp))
      (by simp) (by simp) rfl rfl
  | @settleGroup token group rest agenda captured =>
    obtain ⟨counts, table, frame⟩ := HttpRequestManager.completeGroupRequest_frame
      world.toHttpRequestManager group
    refine consistent.call _ orderly agenda rfl (fun _ _ => rfl)
      (responses_append_silent (by simp)) (fun call => handlers_of_mem_notifications) (by simp) ?_
      rfl
    dsimp only
    rw [frame]
  | notifyWaiter agenda =>
    exact consistent.call [] orderly agenda rfl (fun _ _ => rfl) (responses_append_silent (by simp))
      (by simp) (by simp) rfl rfl
  | invokeCancel agenda =>
    exact consistent.call [] orderly agenda rfl (fun _ _ => rfl) (responses_append_silent (by simp))
      (by simp) (by simp) rfl rfl
  | handlerAnswered agenda handled answered =>
    exact consistent.call [] orderly agenda rfl (fun _ _ => rfl) (fun _ => rfl) (by simp) (by simp)
      rfl rfl
  | destroyHandler agenda unanswered =>
    exact consistent.closeHandler orderly agenda List.mem_cons_self unanswered _
  | cancelHandler agenda unanswered =>
    exact consistent.closeHandler orderly agenda List.mem_cons_self unanswered _
  | discard agenda =>
    exact consistent.call [] orderly agenda rfl (fun _ _ => rfl) (responses_append_silent (by simp))
      (by simp) (by simp) rfl rfl

/-- The steps of other threads leave every request alone that was admitted before. -/
theorem Consistent.outside (consistent : Consistent world) (orderly : Orderly world)
    (outside : Outside world next) : Consistent next := by
  obtain ⟨events, logged, silent⟩ := outside.logged
  refine consistent.silent orderly (fun token below => by rw [outside.contexts token below])
    (fun token => by rw [logged, responses_append_silent silent]) (fun handler _ kept => ?_) ?_
  · refine keeps_of kept (fun batch present => ?_) (fun building => ?_) fun call called member => ?_
    · rw [outside.batches] at present
      exact keeps_of_batch present
    · rw [outside.phase] at building
      exact keeps_of_phase building
    · rw [outside.agenda] at called
      exact Or.inr ⟨call, called, member⟩
  · intro about reply called
    rw [outside.agenda] at called
    exact Or.inl (.returned called)

theorem Consistent.transition (consistent : Consistent world) (orderly : Orderly world)
    (transition : Transition world action next) : Consistent next := by
  cases transition with
  | jump agenda jump =>
    refine consistent.silent orderly (fun _ _ => rfl) (fun _ => rfl)
      (fun handler _ kept => keeps_of_same kept rfl ?_ (by simp [agenda])) (by simp [agenda])
    rw [jump.handlers]
    exact List.nil_subset _
  | pending agenda step => exact consistent.pendingStep orderly agenda step
  | active agenda step => exact consistent.activeStep orderly agenda step
  | cancel agenda step => exact consistent.cancelStep orderly step
  | closing agenda step => exact consistent.closingStep orderly step
  | agenda step => exact consistent.agendaStep orderly step
  | shutdown agenda at_ running =>
    exact consistent.silent orderly (fun _ _ => rfl) (responses_append_silent (by simp))
      (fun handler _ kept => keeps_of_same kept rfl (List.nil_subset _) (by simp [agenda]))
      (by simp [agenda])
  | caller step => exact consistent.outside orderly step.outside
  | handles step => exact consistent.outside orderly step.outside

theorem consistent_of_reachable (reachable : managerSystem.Reachable world) :
    Consistent world := by
  refine reachable.induction Consistent ?_ ?_
  · intro token body _ present
    cases present with
    | collected kept unanswered =>
      rcases kept with (⟨batch, present, _⟩ | building) | ⟨call, called, _⟩
      · exact absurd present List.not_mem_nil
      · exact absurd building List.not_mem_nil
      · exact absurd called List.not_mem_nil
    | returned called => exact absurd called List.not_mem_nil
    | delivered shown ready => exact absurd shown List.not_mem_nil
  · intro state action after reached consistent stepped
    exact consistent.transition (orderly_of_reachable reached) (step_transition stepped)

/-! ### The result -/

/-- For a streaming request with a callback, the chunks the callback has seen make up the
content of the final response, however the request ended. -/
theorem chunks_make_up_content (reachable : managerSystem.Reachable world) {request : HttpRequest}
    (carried : (world.contexts token).request = some request)
    (streaming : request.streaming = true) (callback : (world.contexts token).callback = true)
    {response : HttpResponse} (seen : response ∈ world.callbackResponses token)
    (final : response.ready = true) :
    ((world.callbackResponses token).filter (·.streamChunk)).flatMap (·.content) =
      response.content := by
  have streams : (world.contexts token).streams = true := by
    simp [HttpRequestContext.streams, carried, streaming, callback]
  rw [World.callbackResponses, callback, if_pos rfl] at seen ⊢
  exact (consistent_of_reachable reachable token _ streams (.delivered seen final)).symm

/-- The request that failed once and then delivered one block. -/
theorem chunks_make_up_content_retryThenStream :
    ∃ world response, managerSystem.Reachable world ∧ response ∈ world.callbackResponses 1 ∧
      response.content = [104, 105] ∧
      ((world.callbackResponses 1).filter (·.streamChunk)).flatMap (·.content) =
        response.content := by
  have checked : (managerSystem.run managerSystem.init retryThenStream).any
      (fun world => decide (((world.contexts 1).request.map (·.streaming) = some true ∧
        (world.contexts 1).callback = true) ∧
        ∃ response ∈ world.callbackResponses 1, response.ready = true ∧
          response.content = [104, 105])) = true := by
    decide +kernel
  obtain ⟨world, runs, facts⟩ := System.exists_runs checked
  obtain ⟨⟨streams, callback⟩, response, seen, final, content⟩ := of_decide_eq_true facts
  obtain ⟨request, carried, streaming⟩ := Option.map_eq_some_iff.mp streams
  exact ⟨world, response, ⟨_, runs⟩, seen, content,
    chunks_make_up_content ⟨_, runs⟩ carried streaming callback seen final⟩

end Kurlyk.Http
