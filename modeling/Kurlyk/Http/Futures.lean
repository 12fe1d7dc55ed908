/-
This file follows the futures that `HttpClient` and the free `http_request`
functions return. A promise is captured by the callback of its request and by the
thread that submits it. `safe_set_response` lets only ready responses through; a
second one would make `set_value` throw, and the exception would be handed to the
error handlers. The thread that submits sets the promise itself when the request
is rejected.

The manager runs as before. Each of its steps is followed by what the callbacks
invoked in it do to their promises.
-/

import Kurlyk.Http.CancelScan
import Kurlyk.Http.Streaming

namespace Kurlyk.Http

open RateLimiter

/-! ### Promises -/

/-- `ClientErrorCategory::message`. -/
def ClientError.message : ClientError → String
  | .cancelledByUser => "Request was cancelled by the user"
  | .abortedDuringDestruction => "Request was aborted due to handler destruction"
  | .clientNotInitialized => "Client was not initialized properly"
  | .invalidConfiguration => "Invalid or missing client configuration"
  | .notConnected => "Operation failed: client is not connected"
  | .queueLimitExceeded => "Operation was rejected because the queue limit was exceeded"
  | .shuttingDown => "Operation was rejected because the client is shutting down"

/-- `make_submit_error_response`. -/
def makeSubmitErrorResponse (error : ClientError) : HttpResponse :=
  { errorCode := .client error, errorMessage := error.message, statusCode := 0, ready := true }

/-- What holds a promise that a future waits for: the callback of a request that was accepted, or
a submission that holds the `m_submit_mutex` of a client. -/
inductive Holder where
  | callback (token : Token)
  | submission (client : ℕ)
deriving DecidableEq

/-- The manager with the promises of its futures. A promise is named by a number, and
`handledErrors` counts the exceptions of `set_value`. -/
structure Futures where
  world : World := {}
  value : ℕ → Option HttpResponse := fun _ => none
  nextPromise : ℕ := 0
  held : Holder → Option ℕ := fun _ => none
  handledErrors : ℕ := 0

namespace Futures

variable (futures : Futures)

/-- `promise->set_value`, for a promise without a value. -/
def setValue (promise : ℕ) (response : HttpResponse) : Futures :=
  { futures with value := Function.update futures.value promise (some response) }

/-- `safe_set_response`. -/
def safeSetResponse (promise : ℕ) (response : HttpResponse) : Futures :=
  if response.ready then
    match futures.value promise with
    | none => futures.setValue promise response
    | some _ => { futures with handledErrors := futures.handledErrors + 1 }
  else futures

/-- A response is passed to the callback of its request. -/
def notice : Event → Futures
  | .response token response =>
    match futures.held (.callback token) with
    | none => futures
    | some promise => futures.safeSetResponse promise response
  | _ => futures

/-- The manager has made a step, and the callbacks it has invoked have returned. -/
def resume (next : World) : Futures :=
  (next.log.drop futures.world.log.length).foldl notice { futures with world := next }

/-- A promise is made. -/
def create : Futures :=
  { futures with nextPromise := futures.nextPromise + 1 }

/-- A promise is given to a holder. -/
def hold (holder : Holder) (promise : ℕ) : Futures :=
  { futures with held := Function.update futures.held holder (some promise) }

/-- A promise is taken from its holder. -/
def release (holder : Holder) : Futures :=
  { futures with held := Function.update futures.held holder none }

/-- `submit_request` has returned to the thread that holds the promise. -/
def submitted (promise : ℕ) (answer : Except ClientError (Token × HttpRequestManager)) :
    Futures :=
  match answer with
  | .ok (token, _) => futures.hold (.callback token) promise
  | .error error => futures.safeSetResponse promise (makeSubmitErrorResponse error)

/-- The test of `HttpClient::submit_request`: its group has as many requests as it may have. -/
def clientFull (client : ℕ) : Bool :=
  (futures.world.clients[client]?).any fun client =>
    decide (client.maxInFlight ≠ 0 ∧
      futures.world.toHttpRequestManager.groupRequestCount client.groupId ≥ client.maxInFlight)

/-- A free `http_request` that returns a future. -/
def httpRequest (request : HttpRequest) : Option Futures :=
  (futures.world.step (.submitRequest (some request) true)).map fun next =>
    (futures.resume next).create.submitted futures.nextPromise
      (futures.world.toHttpRequestManager.submitRequest (some request))

/-- `submit_future_request` up to the end of the count that `submit_request` reads. -/
def clientRequest (client : ℕ) (request : HttpRequest) : Option Futures :=
  (futures.world.step (.clientSubmit client request true)).map fun next =>
    let opened := (futures.resume next).create
    if futures.clientFull client then
      opened.safeSetResponse futures.nextPromise (makeSubmitErrorResponse .queueLimitExceeded)
    else opened.hold (.submission client) futures.nextPromise

/-- The submission that a step of a caller finishes, if it has a promise: the promise and the
request. -/
def finishing : Action → Option (ℕ × ℕ × HttpRequest)
  | .continueCaller position =>
    match futures.world.callers[position]? with
    | some (.submitting client request _) =>
      (futures.held (.submission client)).map fun promise => (client, promise, request)
    | _ => none
  | _ => none

/-- Any step of the manager's threads. -/
def manage (action : Action) : Option Futures :=
  (futures.world.step action).map fun next =>
    match futures.finishing action with
    | none => futures.resume next
    | some (client, promise, request) =>
      ((futures.resume next).release (.submission client)).submitted promise
        (futures.world.toHttpRequestManager.submitRequest (some request))

end Futures

/-- The steps of all threads, those that return futures among them. -/
inductive FutureAction where
  | manage (action : Action)
  | httpRequest (request : HttpRequest)
  | clientRequest (client : ℕ) (request : HttpRequest)

/-- One step of one thread. -/
def Futures.step (futures : Futures) : FutureAction → Option Futures
  | .manage action => futures.manage action
  | .httpRequest request => futures.httpRequest request
  | .clientRequest client request => futures.clientRequest client request

/-- The manager and the futures, as a system. -/
def futureSystem : System Futures FutureAction where
  init := {}
  step := Futures.step

variable {futures next : Futures} {world after : World} {log : List Event} {promise : ℕ}
  {hand : Option ℕ} {token : Token}

/-! ### Who holds a promise -/

/-- The promises stand as the log of the manager says. `hand` is a promise that a thread holds in
the middle of a step. -/
structure Promised (futures : Futures) (log : List Event) (hand : Option ℕ) : Prop where
  created : ∀ holder promise, futures.held holder = some promise → promise < futures.nextPromise
  unique : ∀ holder other promise, futures.held holder = some promise →
    futures.held other = some promise → holder = other
  unused : ∀ promise, futures.nextPromise ≤ promise → futures.value promise = none
  answered : ∀ token promise, futures.held (.callback token) = some promise →
    futures.value promise = (responses log token).find? (·.ready)
  waiting : ∀ client promise, futures.held (.submission client) = some promise →
    futures.value promise = none
  inHand : ∀ promise, hand = some promise → promise < futures.nextPromise ∧
    futures.value promise = none ∧ ∀ holder, futures.held holder ≠ some promise
  rejected : ∀ promise < futures.nextPromise, hand ≠ some promise →
    (∀ holder, futures.held holder ≠ some promise) →
    ∃ error, (error = .queueLimitExceeded ∨ error = .shuttingDown) ∧
      futures.value promise = some (makeSubmitErrorResponse error)
  unhandled : futures.handledErrors = 0

theorem find?_ready_concat (seen : List HttpResponse) {response : HttpResponse}
    (unready : response.ready = false) :
    (seen ++ [response]).find? (·.ready) = seen.find? (·.ready) := by
  rw [List.find?_append, List.find?_cons, unready, List.find?_nil, Option.or_none]

/-- A first ready response is found at the end. -/
theorem find?_ready_last {seen : List HttpResponse} {response : HttpResponse}
    (ready : response.ready = true) (few : (seen ++ [response]).countP (·.ready) ≤ 1) :
    seen.find? (·.ready) = none ∧ (seen ++ [response]).find? (·.ready) = some response := by
  have counted : seen.countP (·.ready) = 0 := by
    rw [List.countP_append, List.countP_singleton, ready, if_pos rfl] at few
    omega
  have none : seen.find? (·.ready) = none := by
    rw [List.find?_eq_none]
    exact List.countP_eq_zero.mp counted
  refine ⟨none, ?_⟩
  rw [List.find?_append, none, Option.none_or, List.find?_cons, ready]

theorem safeSetResponse_unready {response : HttpResponse} (unready : response.ready = false) :
    futures.safeSetResponse promise response = futures := by
  unfold Futures.safeSetResponse
  rw [unready, if_neg Bool.false_ne_true]

theorem value_setValue_self {response : HttpResponse} :
    (futures.setValue promise response).value promise = some response :=
  Function.update_self ..

theorem value_setValue_of_ne {response : HttpResponse} {other : ℕ} (different : other ≠ promise) :
    (futures.setValue promise response).value other = futures.value other :=
  Function.update_of_ne different _ _

theorem safeSetResponse_unset {response : HttpResponse} (ready : response.ready = true)
    (unset : futures.value promise = none) :
    futures.safeSetResponse promise response = futures.setValue promise response := by
  unfold Futures.safeSetResponse
  rw [ready, if_pos rfl, unset]

/-- A callback sets its promise at most once, and to the response it was given. -/
theorem Promised.notice {event : Event} (promised : Promised futures log none)
    (few : ∀ token, (responses (log ++ [event]) token).countP (·.ready) ≤ 1) :
    Promised (futures.notice event) (log ++ [event]) none := by
  have silent (other : ∀ about response, event ≠ .response about response) :
      Promised futures (log ++ [event]) none := by
    refine { promised with answered := fun token promise captured => ?_ }
    rw [responses_append_silent (by simpa [eq_comm] using other)]
    exact promised.answered token promise captured
  cases event with
  | response token response =>
    cases captured : futures.held (.callback token) with
    | none =>
      have same : futures.notice (.response token response) = futures := by
        unfold Futures.notice
        dsimp only
        rw [captured]
      rw [same]
      refine { promised with answered := fun other promise caught => ?_ }
      have different : token ≠ other := by
        rintro rfl
        rw [captured] at caught
        cases caught
      rw [responses_response_other log response different]
      exact promised.answered other promise caught
    | some promise =>
      have current := promised.answered token promise captured
      have alone (other : Token) (caught : futures.held (.callback other) = some promise) :
          other = token :=
        Holder.callback.inj (promised.unique (.callback other) (.callback token) promise caught
          captured)
      have sets : futures.notice (.response token response) =
          futures.safeSetResponse promise response := by
        unfold Futures.notice
        dsimp only
        rw [captured]
      rw [sets]
      cases ready : response.ready with
      | false =>
        rw [safeSetResponse_unready ready]
        refine { promised with answered := fun other kept caught => ?_ }
        by_cases same : token = other
        · subst same
          rw [responses_response_self, find?_ready_concat _ ready]
          exact promised.answered token kept caught
        · rw [responses_response_other log response same]
          exact promised.answered other kept caught
      | true =>
        have counted := few token
        rw [responses_response_self] at counted
        obtain ⟨unset, found⟩ := find?_ready_last ready counted
        rw [safeSetResponse_unset ready (current.trans unset)]
        have below := promised.created (.callback token) promise captured
        refine ⟨promised.created, promised.unique, fun other beyond => ?_,
          fun other waiting caught => ?_, fun client other submits => ?_, fun _ => by simp,
          fun other created free unheld => ?_, promised.unhandled⟩
        · have different : other ≠ promise := fun same =>
            absurd below (Nat.not_lt_of_le (same ▸ beyond))
          rw [value_setValue_of_ne different]
          exact promised.unused other beyond
        · by_cases same : waiting = promise
          · subst same
            rw [alone other caught, value_setValue_self, responses_response_self, found]
          · have different : token ≠ other := by
              rintro rfl
              exact same (Option.some.inj (caught.symm.trans captured))
            rw [value_setValue_of_ne same, responses_response_other log response different]
            exact promised.answered other waiting caught
        · have different : other ≠ promise := by
            rintro rfl
            cases promised.unique (.submission client) (.callback token) other submits captured
          rw [value_setValue_of_ne different]
          exact promised.waiting client other submits
        · have different : other ≠ promise := by
            rintro rfl
            exact unheld (.callback token) captured
          rw [value_setValue_of_ne different]
          exact promised.rejected other created free unheld
  | _ => exact silent (by simp)

theorem Promised.notices (promised : Promised futures log none) (events : List Event)
    (few : ∀ token, (responses (log ++ events) token).countP (·.ready) ≤ 1) :
    Promised (events.foldl Futures.notice futures) (log ++ events) none := by
  induction events generalizing futures log with
  | nil => rwa [List.append_nil]
  | cons event events inductionHypothesis =>
    have split : log ++ event :: events = (log ++ [event]) ++ events := by
      rw [List.append_assoc, List.singleton_append]
    rw [split] at few ⊢
    refine inductionHypothesis (promised.notice fun token => ?_) few
    have counted := few token
    rw [responses_append, List.countP_append] at counted
    exact Nat.le_trans (Nat.le_add_right _ _) counted

/-! ### A promise in the hands of a thread -/

/-- A new promise is made. -/
theorem Promised.create (promised : Promised futures log none) :
    Promised futures.create log (some futures.nextPromise) where
  created holder promise held := Nat.lt_succ_of_lt (promised.created holder promise held)
  unique := promised.unique
  unused promise beyond := promised.unused promise (Nat.le_of_succ_le beyond)
  answered := promised.answered
  waiting := promised.waiting
  inHand promise same := by
    obtain rfl := Option.some.inj same
    exact ⟨Nat.lt_succ_self _, promised.unused _ (Nat.le_refl _), fun holder held =>
      Nat.lt_irrefl _ (promised.created holder _ held)⟩
  rejected promise below free unheld := by
    have earlier : promise ≠ futures.nextPromise := fun same => free (congrArg some same.symm)
    exact promised.rejected promise (Nat.lt_of_le_of_ne (Nat.le_of_lt_succ below) earlier)
      (by simp) unheld
  unhandled := promised.unhandled

theorem held_hold {holder other : Holder} {kept : ℕ} :
    (futures.hold holder promise).held other = some kept ↔
      other = holder ∧ promise = kept ∨ other ≠ holder ∧ futures.held other = some kept := by
  unfold Futures.hold
  dsimp only
  by_cases same : other = holder
  · rw [same, Function.update_self]
    simp
  · rw [Function.update_of_ne same]
    simp [same]

/-- The thread gives the promise away: to a callback that was never invoked, or to a submission
that begins. -/
theorem Promised.hold {holder : Holder} (promised : Promised futures log (some promise))
    (free : futures.held holder = none)
    (unanswered : ∀ token, holder = .callback token → responses log token = []) :
    Promised (futures.hold holder promise) log none := by
  obtain ⟨below, unset, unheld⟩ := promised.inHand promise rfl
  refine ⟨fun other kept now => ?_, fun other another kept now too => ?_, promised.unused,
    fun token kept now => ?_, fun client kept now => ?_, by simp,
    fun other created _ unheldNow => ?_, promised.unhandled⟩
  · rcases held_hold.mp now with ⟨_, rfl⟩ | ⟨_, before⟩
    · exact below
    · exact promised.created other kept before
  · rcases held_hold.mp now with ⟨rfl, rfl⟩ | ⟨_, before⟩
    · rcases held_hold.mp too with ⟨rfl, _⟩ | ⟨_, earlier⟩
      · rfl
      · exact absurd earlier (unheld another)
    · rcases held_hold.mp too with ⟨rfl, rfl⟩ | ⟨_, earlier⟩
      · exact absurd before (unheld other)
      · exact promised.unique other another kept before earlier
  · rcases held_hold.mp now with ⟨same, rfl⟩ | ⟨_, before⟩
    · rw [unanswered token same.symm]
      exact unset
    · exact promised.answered token kept before
  · rcases held_hold.mp now with ⟨_, rfl⟩ | ⟨_, before⟩
    · exact unset
    · exact promised.waiting client kept before
  · refine promised.rejected other created (fun same => ?_) fun another before => ?_
    · exact unheldNow holder (held_hold.mpr (Or.inl ⟨rfl, Option.some.inj same⟩))
    · have different : another ≠ holder := by
        rintro rfl
        cases free.symm.trans before
      exact unheldNow another (held_hold.mpr (Or.inr ⟨different, before⟩))

theorem held_release {holder other : Holder} :
    (futures.release holder).held other = some promise ↔
      other ≠ holder ∧ futures.held other = some promise := by
  unfold Futures.release
  dsimp only
  by_cases same : other = holder
  · rw [same, Function.update_self]
    simp
  · rw [Function.update_of_ne same]
    simp [same]

/-- The thread takes the promise of a submission back. -/
theorem Promised.release {client : ℕ} (promised : Promised futures log none)
    (submits : futures.held (.submission client) = some promise) :
    Promised (futures.release (.submission client)) log (some promise) := by
  refine ⟨fun holder kept now => promised.created holder kept (held_release.mp now).2,
    fun holder other kept now too =>
      promised.unique holder other kept (held_release.mp now).2 (held_release.mp too).2,
    promised.unused, fun token kept now => promised.answered token kept (held_release.mp now).2,
    fun about kept now => promised.waiting about kept (held_release.mp now).2, fun other same => ?_,
    fun other created apart unheld => ?_, promised.unhandled⟩
  · obtain rfl := Option.some.inj same
    refine ⟨promised.created _ _ submits, promised.waiting client promise submits,
      fun holder now => (held_release.mp now).1 ?_⟩
    exact promised.unique holder _ promise (held_release.mp now).2 submits
  · refine promised.rejected other created (by simp) fun holder before => ?_
    have different : holder ≠ .submission client := by
      rintro rfl
      exact apart (submits.symm.trans before)
    exact unheld holder (held_release.mpr ⟨different, before⟩)

/-- The thread sets the promise to say why the request was rejected. -/
theorem Promised.reject {error : ClientError} (promised : Promised futures log (some promise))
    (reason : error = .queueLimitExceeded ∨ error = .shuttingDown) :
    Promised (futures.safeSetResponse promise (makeSubmitErrorResponse error)) log none := by
  obtain ⟨below, unset, unheld⟩ := promised.inHand promise rfl
  rw [safeSetResponse_unset rfl unset]
  have apart {holder : Holder} {other : ℕ} (held : futures.held holder = some other) :
      other ≠ promise := by
    rintro rfl
    exact unheld holder held
  refine ⟨promised.created, promised.unique, fun other beyond => ?_, fun about other captured => ?_,
    fun client other submits => ?_, by simp, fun other created _ free => ?_, promised.unhandled⟩
  · have different : other ≠ promise := fun same =>
      absurd below (Nat.not_lt_of_le (same ▸ beyond))
    rw [value_setValue_of_ne different]
    exact promised.unused other beyond
  · rw [value_setValue_of_ne (apart captured)]
    exact promised.answered about other captured
  · rw [value_setValue_of_ne (apart submits)]
    exact promised.waiting client other submits
  · by_cases same : other = promise
    · subst same
      exact ⟨error, reason, value_setValue_self⟩
    · rw [value_setValue_of_ne same]
      exact promised.rejected other created (fun hand => same (Option.some.inj hand).symm) free

/-! ### Steps of the manager -/

/-- Setting promises changes neither the manager nor who holds what. -/
structure SameHolding (futures next : Futures) : Prop where
  world : next.world = futures.world
  held : next.held = futures.held
  created : next.nextPromise = futures.nextPromise

theorem safeSetResponse_same (futures : Futures) (promise : ℕ) (response : HttpResponse) :
    SameHolding futures (futures.safeSetResponse promise response) := by
  unfold Futures.safeSetResponse
  split
  · split <;> exact ⟨rfl, rfl, rfl⟩
  · exact ⟨rfl, rfl, rfl⟩

theorem notice_same (futures : Futures) (event : Event) :
    SameHolding futures (futures.notice event) := by
  unfold Futures.notice
  split
  · split
    · exact ⟨rfl, rfl, rfl⟩
    · exact safeSetResponse_same futures _ _
  · exact ⟨rfl, rfl, rfl⟩

theorem notices_same (futures : Futures) (events : List Event) :
    SameHolding futures (events.foldl Futures.notice futures) := by
  induction events generalizing futures with
  | nil => exact ⟨rfl, rfl, rfl⟩
  | cons event events inductionHypothesis =>
    have here := notice_same futures event
    have later := inductionHypothesis (futures.notice event)
    exact ⟨later.world.trans here.world, later.held.trans here.held,
      later.created.trans here.created⟩

theorem resume_same (futures : Futures) (after : World) :
    (futures.resume after).world = after ∧ (futures.resume after).held = futures.held ∧
      (futures.resume after).nextPromise = futures.nextPromise := by
  have same := notices_same { futures with world := after }
    (after.log.drop futures.world.log.length)
  exact ⟨same.world, same.held, same.created⟩

theorem countP_ready_le_one (reachable : managerSystem.Reachable world) (token : Token) :
    (responses world.log token).countP (·.ready) ≤ 1 := by
  have intact : stageOf world.log token ≠ .broken :=
    ((orderly_of_reachable reachable).custody.sound token).1
  rw [countP_ready_responses intact]
  unfold Stage.finals
  split <;> omega

theorem Promised.resume {action : Action} (promised : Promised futures futures.world.log none)
    (reachable : managerSystem.Reachable futures.world)
    (stepped : managerSystem.step futures.world action = some after) :
    Promised (futures.resume after) after.log none := by
  obtain ⟨events, logged⟩ :=
    (step_transition stepped).logged (controlled_of_reachable reachable)
  have anew : after.log.drop futures.world.log.length = events := by
    rw [logged, List.drop_left]
  unfold Futures.resume
  rw [anew]
  have moved : Promised { futures with world := after } futures.world.log none :=
    { promised with }
  have delivered := moved.notices events fun token => by
    rw [← logged]
    exact countP_ready_le_one (reachable.step stepped) token
  rwa [← logged] at delivered

/-! ### Submissions -/

/-- What `submit_request` has done when it returns. -/
theorem submit_answer (world : World) (request : HttpRequest) (callback : Bool) :
    (∃ manager, world.toHttpRequestManager.submitRequest (some request) =
        .ok (world.nextInFlightToken, manager) ∧
      (world.submit (some request) callback).log =
        world.log ++ [.accepted world.nextInFlightToken]) ∨
    ∃ error, world.toHttpRequestManager.submitRequest (some request) = .error error ∧
      (error = .queueLimitExceeded ∨ error = .shuttingDown) ∧
      (world.submit (some request) callback).log = world.log := by
  unfold World.submit
  cases answer : world.toHttpRequestManager.submitRequest (some request) with
  | ok accepted =>
    obtain ⟨token, manager⟩ := accepted
    obtain ⟨_, rfl, _⟩ := HttpRequestManager.submitRequest_eq_ok answer
    exact Or.inl ⟨manager, rfl, rfl⟩
  | error error =>
    refine Or.inr ⟨error, rfl, ?_, rfl⟩
    unfold HttpRequestManager.submitRequest at answer
    split at answer
    · exact Or.inr (Except.error.inj answer).symm
    · split at answer
      · exact Or.inl (Except.error.inj answer).symm
      · cases answer

theorem submit_of_step {request : HttpRequest} {callback : Bool}
    (stepped : managerSystem.step world (.submitRequest (some request) callback) = some after) :
    after = world.submit (some request) callback := by
  have step : World.step world (.submitRequest (some request) callback) = some after := stepped
  unfold World.step at step
  dsimp only at step
  split at step
  · cases step
  · exact (Option.some.inj step).symm

/-- A submission that returns settles what becomes of the promise. -/
theorem Promised.submitted {opened : Futures}
    {answer : Except ClientError (Token × HttpRequestManager)}
    (promised : Promised opened after.log (some promise))
    (outcome : (∃ manager, answer = .ok (token, manager) ∧ after.log = log ++ [.accepted token]) ∨
      ∃ error, answer = .error error ∧ (error = .queueLimitExceeded ∨ error = .shuttingDown) ∧
        after.log = log)
    (fresh : stageOf log token = .absent) (free : opened.held (.callback token) = none) :
    Promised (opened.submitted promise answer) after.log none ∧
      (opened.submitted promise answer).world = opened.world ∧
      ∀ holder kept, (opened.submitted promise answer).held holder = some kept →
        opened.held holder = some kept ∨
          holder = .callback token ∧ .accepted token ∈ after.log := by
  rcases outcome with ⟨manager, rfl, accepted⟩ | ⟨error, rfl, reason, rejected⟩
  · refine ⟨promised.hold free ?_, rfl, fun holder kept now => ?_⟩
    · intro about same
      obtain rfl := Holder.callback.inj same
      have described := stageOf_describes log token
      rw [fresh] at described
      rw [accepted, responses_append_silent (by simp)]
      exact described.1
    · rcases held_hold.mp now with ⟨same, _⟩ | ⟨_, before⟩
      · exact Or.inr ⟨same, accepted ▸ List.mem_append_right _ List.mem_cons_self⟩
      · exact Or.inl before
  · have same := safeSetResponse_same opened promise (makeSubmitErrorResponse error)
    exact ⟨promised.reject reason, same.world, fun holder kept now =>
      Or.inl ((congrFun same.held holder).symm.trans now)⟩

/-- A client whose `m_submit_mutex` is held keeps it until the submission continues. -/
theorem submitting_kept {action : Action} {client : ℕ} {record : HttpClient}
    (transition : Transition world action after) (found : world.clients[client]? = some record)
    (busy : record.submitting = true) :
    (∃ record, after.clients[client]? = some record ∧ record.submitting = true) ∨
      ∃ position request callback, action = .continueCaller position ∧
        world.callers[position]? = some (.submitting client request callback) := by
  have same (clients : after.clients = world.clients) :
      ∃ record, after.clients[client]? = some record ∧ record.submitting = true :=
    ⟨record, clients ▸ found, busy⟩
  rcases transition.split with ⟨unchanged, _⟩ | step
  · exact Or.inl (same unchanged.clients)
  · cases step with
    | submit => exact Or.inl (same (submit_sameClients _ _ _).clients)
    | waitRegister unlocked registered =>
      obtain ⟨_, rfl⟩ := HttpRequestManager.registerWaiter_eq_some registered
      exact Or.inl (same rfl)
    | cancelById | cancelByGroup =>
      refine Or.inl (same ?_)
      unfold World.callCancel
      dsimp only
      split <;> rfl
    | newClient =>
      refine Or.inl ⟨record, ?_, busy⟩
      rw [List.getElem?_append_left (List.getElem?_eq_some_iff.mp found).1]
      exact found
    | @clientBegins index request callback opened present =>
      refine Or.inl ?_
      by_cases here : index = client
      · subst here
        exact ⟨_, List.getElem?_set_self (List.getElem?_eq_some_iff.mp found).1, rfl⟩
      · exact ⟨record, (List.getElem?_set_ne here).trans found, busy⟩
    | @clientSubmits position index request callback unlocked present =>
      by_cases here : index = client
      · subst here
        exact Or.inr ⟨position, request, callback, rfl, present⟩
      · refine Or.inl ⟨record, ?_, busy⟩
        unfold World.finishClientSubmit
        dsimp only
        rw [(submit_sameClients _ _ _).clients, List.getElem?_modify, Option.map_eq_map]
        exact Option.map_eq_some_iff.mpr ⟨record, found, if_neg here⟩
    | _ => exact Or.inl (same rfl)

/-! ### Every step keeps the promises -/

/-- The invariant: the promises stand as the log says, a callback that holds one belongs to an
accepted request, and a submission that holds one holds the mutex of its client. -/
structure Kept (futures : Futures) : Prop where
  reachable : managerSystem.Reachable futures.world
  promised : Promised futures futures.world.log none
  accepted : ∀ token promise, futures.held (.callback token) = some promise →
    .accepted token ∈ futures.world.log
  occupied : ∀ client promise, futures.held (.submission client) = some promise →
    ∃ record, futures.world.clients[client]? = some record ∧ record.submitting = true

theorem Kept.of_world (world : futures.world = after)
    (reachable : managerSystem.Reachable after) (promised : Promised futures after.log none)
    (accepted : ∀ token promise, futures.held (.callback token) = some promise →
      .accepted token ∈ after.log)
    (occupied : ∀ client promise, futures.held (.submission client) = some promise →
      ∃ record, after.clients[client]? = some record ∧ record.submitting = true) :
    Kept futures := by
  subst world
  exact ⟨reachable, promised, accepted, occupied⟩

theorem Kept.fresh (kept : Kept futures) :
    stageOf futures.world.log futures.world.nextInFlightToken = .absent ∧
      futures.held (.callback futures.world.nextInFlightToken) = none := by
  have orderly := orderly_of_reachable kept.reachable
  refine ⟨orderly.fresh _ (Nat.le_refl _), ?_⟩
  cases held : futures.held (.callback futures.world.nextInFlightToken) with
  | none => rfl
  | some promise =>
    exact absurd (orderly.lt_of_accepted (kept.accepted _ _ held)) (Nat.lt_irrefl _)

theorem Kept.accepted_after {action : Action} (kept : Kept futures)
    (stepped : managerSystem.step futures.world action = some after) {promise : ℕ}
    (held : futures.held (.callback token) = some promise) : .accepted token ∈ after.log := by
  obtain ⟨events, logged⟩ :=
    (step_transition stepped).logged (controlled_of_reachable kept.reachable)
  rw [logged]
  exact List.mem_append_left _ (kept.accepted token promise held)

theorem Kept.httpRequest {request : HttpRequest} (kept : Kept futures)
    (stepped : futures.httpRequest request = some next) : Kept next := by
  obtain ⟨after, moved, rfl⟩ := Option.map_eq_some_iff.mp stepped
  replace moved : managerSystem.step futures.world (.submitRequest (some request) true) =
    some after := moved
  have resumed := kept.promised.resume kept.reachable moved
  obtain ⟨world, held, created⟩ := resume_same futures after
  obtain ⟨fresh, free⟩ := kept.fresh
  have submitted := submit_of_step moved
  have outcome := submit_answer futures.world request true
  rw [← submitted] at outcome
  have promised := resumed.create
  rw [created] at promised
  obtain ⟨settled, same, holds⟩ := promised.submitted outcome fresh
    ((congrFun held _).trans free)
  refine .of_world (same.trans world) (kept.reachable.step moved) settled
    (fun token promise now => ?_) fun client promise now => ?_
  · rcases holds _ _ now with before | ⟨about, accepted⟩
    · exact kept.accepted_after moved ((congrFun held _).symm.trans before)
    · exact Holder.callback.inj about ▸ accepted
  · rcases holds _ _ now with before | ⟨about, _⟩
    · obtain ⟨record, found, busy⟩ :=
        kept.occupied client promise ((congrFun held _).symm.trans before)
      rcases submitting_kept (step_transition moved) found busy with still | ⟨_, _, _, other, _⟩
      · exact still
      · cases other
    · cases about

/-- The submission that a step finishes. -/
theorem finishing_iff {action : Action} {client : ℕ} {request : HttpRequest} :
    futures.finishing action = some (client, promise, request) ↔
      ∃ position callback, action = .continueCaller position ∧
        futures.world.callers[position]? = some (.submitting client request callback) ∧
        futures.held (.submission client) = some promise := by
  unfold Futures.finishing
  cases action with
  | continueCaller position =>
    dsimp only
    split
    · rename_i about carried callback found
      rw [Option.map_eq_some_iff]
      constructor
      · rintro ⟨kept, held, same⟩
        rw [Prod.mk.injEq, Prod.mk.injEq] at same
        obtain ⟨rfl, rfl, rfl⟩ := same
        exact ⟨position, callback, rfl, found, held⟩
      · rintro ⟨other, given, same, present, held⟩
        obtain rfl := Action.continueCaller.inj same
        obtain ⟨rfl, rfl, rfl⟩ := Caller.submitting.inj (Option.some.inj (found.symm.trans present))
        exact ⟨promise, held, rfl⟩
    · rename_i none_
      constructor
      · intro impossible
        cases impossible
      · rintro ⟨other, given, same, present, _⟩
        obtain rfl := Action.continueCaller.inj same
        exact absurd present (none_ client request given)
  | _ => simp

/-- What the submission of a client has done when it returns. -/
theorem continue_answer {position client : ℕ} {request : HttpRequest} {callback : Bool}
    (found : world.callers[position]? = some (.submitting client request callback))
    (stepped : managerSystem.step world (.continueCaller position) = some after) :
    (∃ manager, world.toHttpRequestManager.submitRequest (some request) =
        .ok (world.nextInFlightToken, manager) ∧
      after.log = world.log ++ [.accepted world.nextInFlightToken]) ∨
    ∃ error, world.toHttpRequestManager.submitRequest (some request) = .error error ∧
      (error = .queueLimitExceeded ∨ error = .shuttingDown) ∧ after.log = world.log := by
  have continued : world.continueCaller position = some after := stepped
  unfold World.continueCaller at continued
  rw [found] at continued
  dsimp only at continued
  split at continued
  · cases continued
  · rw [← Option.some.inj continued]
    exact submit_answer { world with callers := world.callers.eraseIdx position } request callback

theorem Kept.manage {action : Action} (kept : Kept futures)
    (stepped : futures.manage action = some next) : Kept next := by
  obtain ⟨after, moved, rfl⟩ := Option.map_eq_some_iff.mp stepped
  replace moved : managerSystem.step futures.world action = some after := moved
  have resumed := kept.promised.resume kept.reachable moved
  obtain ⟨world, held, created⟩ := resume_same futures after
  have reachable := kept.reachable.step moved
  cases finished : futures.finishing action with
  | none =>
    dsimp only
    refine .of_world world reachable resumed (fun token promise now => ?_)
      fun client promise now => ?_
    · exact kept.accepted_after moved ((congrFun held _).symm.trans now)
    · have before := (congrFun held _).symm.trans now
      obtain ⟨record, found, busy⟩ := kept.occupied client promise before
      rcases submitting_kept (step_transition moved) found busy with still | ⟨position, request,
        callback, rfl, present⟩
      · exact still
      · have finishes := finishing_iff.mpr ⟨position, callback, rfl, present, before⟩
        cases finished.symm.trans finishes
  | some finishing =>
    obtain ⟨client, promise, request⟩ := finishing
    obtain ⟨position, callback, rfl, present, submits⟩ := finishing_iff.mp finished
    obtain ⟨fresh, free⟩ := kept.fresh
    have outcome := continue_answer present moved
    have released := resumed.release ((congrFun held _).trans submits)
    have earlier {holder : Holder} {other : ℕ}
        (now : ((futures.resume after).release (.submission client)).held holder = some other) :
        holder ≠ .submission client ∧ futures.held holder = some other :=
      (held_release.mp now).imp id fun before => (congrFun held holder).symm.trans before
    have unheld : ((futures.resume after).release (.submission client)).held
        (.callback futures.world.nextInFlightToken) = none := by
      refine Option.eq_none_iff_forall_ne_some.mpr fun other now => ?_
      cases free.symm.trans (earlier now).2
    obtain ⟨settled, same, holds⟩ := released.submitted outcome fresh unheld
    refine .of_world (same.trans world) reachable settled (fun token promise now => ?_)
      fun other promise now => ?_
    · rcases holds _ _ now with before | ⟨about, accepted⟩
      · exact kept.accepted_after moved (earlier before).2
      · exact Holder.callback.inj about ▸ accepted
    · rcases holds _ _ now with before | ⟨about, _⟩
      · obtain ⟨different, before⟩ := earlier before
        obtain ⟨record, found, busy⟩ := kept.occupied other promise before
        rcases submitting_kept (step_transition moved) found busy with still | ⟨there, carried,
          given, same, here⟩
        · exact still
        · obtain rfl := Action.continueCaller.inj same
          obtain ⟨rfl, _⟩ := Caller.submitting.inj (Option.some.inj (present.symm.trans here))
          exact absurd rfl different
      · cases about

/-- What the first half of a client's submission does. -/
theorem clientSubmit_cases {client : ℕ} {request : HttpRequest} {callback : Bool}
    (stepped : managerSystem.step futures.world (.clientSubmit client request callback) =
      some after) :
    futures.clientFull client = true ∧ after = futures.world ∨
      futures.clientFull client = false ∧ after.log = futures.world.log ∧
        ∃ record, futures.world.clients[client]? = some record ∧ record.submitting = false ∧
          after.clients = futures.world.clients.set client { record with submitting := true } := by
  have called : futures.world.callClientSubmit client request callback = some after := stepped
  unfold World.callClientSubmit at called
  cases found : futures.world.clients[client]? with
  | none =>
    rw [found] at called
    cases called
  | some record =>
    rw [found] at called
    dsimp only at called
    unfold Futures.clientFull
    rw [found, Option.any_some]
    split at called
    · cases called
    · rename_i free
      rw [not_or, Bool.not_eq_true] at free
      split at called
      · rename_i full
        exact Or.inl ⟨decide_eq_true full, (Option.some.inj called).symm⟩
      · rename_i below
        obtain rfl := Option.some.inj called
        exact Or.inr ⟨decide_eq_false below, rfl, record, rfl, free.1, rfl⟩

theorem Kept.clientRequest {client : ℕ} {request : HttpRequest} (kept : Kept futures)
    (stepped : futures.clientRequest client request = some next) : Kept next := by
  obtain ⟨after, moved, rfl⟩ := Option.map_eq_some_iff.mp stepped
  replace moved : managerSystem.step futures.world (.clientSubmit client request true) =
    some after := moved
  have resumed := kept.promised.resume kept.reachable moved
  obtain ⟨world, held, created⟩ := resume_same futures after
  have reachable := kept.reachable.step moved
  have promised := resumed.create
  rw [created] at promised
  dsimp only
  rcases clientSubmit_cases moved with ⟨full, same⟩ | ⟨below, logged, record, found, free, clients⟩
  · rw [full, if_pos rfl]
    have alike := safeSetResponse_same (futures.resume after).create futures.nextPromise
      (makeSubmitErrorResponse .queueLimitExceeded)
    have whole := alike.world.trans world
    refine .of_world whole reachable (promised.reject (Or.inl rfl)) (fun token promise now => ?_)
      fun other promise now => ?_
    · have before := (congrFun (alike.held.trans held) _).symm.trans now
      rw [same]
      exact kept.accepted token promise before
    · have before := (congrFun (alike.held.trans held) _).symm.trans now
      rw [same]
      exact kept.occupied other promise before
  · rw [below, if_neg Bool.false_ne_true]
    have unoccupied : futures.held (.submission client) = none := by
      cases submits : futures.held (.submission client) with
      | none => rfl
      | some promise =>
        obtain ⟨other, present, busy⟩ := kept.occupied client promise submits
        obtain rfl := Option.some.inj (found.symm.trans present)
        cases free.symm.trans busy
    have settled := promised.hold ((congrFun held (.submission client)).trans unoccupied) (by simp)
    have inside := (List.getElem?_eq_some_iff.mp found).1
    refine .of_world world reachable settled (fun token promise now => ?_)
      fun other promise now => ?_
    · rcases held_hold.mp now with ⟨same, _⟩ | ⟨_, before⟩
      · cases same
      · rw [logged]
        exact kept.accepted token promise ((congrFun held _).symm.trans before)
    · rw [clients]
      by_cases same : client = other
      · subst same
        exact ⟨_, List.getElem?_set_self inside, rfl⟩
      · rcases held_hold.mp now with ⟨about, _⟩ | ⟨_, before⟩
        · exact absurd (Holder.submission.inj about).symm same
        · rw [List.getElem?_set_ne same]
          exact kept.occupied other promise ((congrFun held _).symm.trans before)

theorem kept_of_reachable (reachable : futureSystem.Reachable futures) : Kept futures := by
  refine reachable.induction Kept ?_ ?_
  · refine ⟨System.reachable_init, ?_, by rintro _ _ ⟨⟩, by rintro _ _ ⟨⟩⟩
    exact ⟨by rintro _ _ ⟨⟩, by rintro _ _ _ ⟨⟩, fun _ _ => rfl, by rintro _ _ ⟨⟩,
      by rintro _ _ ⟨⟩, by simp, fun _ below => absurd below (Nat.not_lt_zero _), rfl⟩
  · intro state action next _ kept stepped
    cases action with
    | manage => exact kept.manage stepped
    | httpRequest => exact kept.httpRequest stepped
    | clientRequest => exact kept.clientRequest stepped

/-! ### What a future gives -/

/-- What becomes of the promise of a future: it is with a submission that has not returned, or it
was set to say why the request was rejected, or it is in the callback of one accepted request, and
is set to the one ready response that this callback was given, if it was. -/
inductive Outcome (futures : Futures) (promise : ℕ) : Prop where
  | submitting {client : ℕ} (submits : futures.held (.submission client) = some promise)
    (unset : futures.value promise = none) : Outcome futures promise
  | rejected {error : ClientError} (reason : error = .queueLimitExceeded ∨ error = .shuttingDown)
    (value : futures.value promise = some (makeSubmitErrorResponse error))
    (free : ∀ token, futures.held (.callback token) ≠ some promise) : Outcome futures promise
  | captured {token : Token} (held : futures.held (.callback token) = some promise)
    (alone : ∀ other, futures.held (.callback other) = some promise → other = token)
    (accepted : .accepted token ∈ futures.world.log)
    (once : (responses futures.world.log token).countP (·.ready) ≤ 1)
    (value : futures.value promise = (responses futures.world.log token).find? (·.ready)) :
    Outcome futures promise

theorem Kept.outcome (kept : Kept futures) (created : promise < futures.nextPromise) :
    Outcome futures promise := by
  by_cases held : ∃ holder, futures.held holder = some promise
  · obtain ⟨holder, held⟩ := held
    cases holder with
    | submission client => exact .submitting held (kept.promised.waiting client promise held)
    | callback token =>
      have alone (other : Token) (caught : futures.held (.callback other) = some promise) :
          other = token :=
        Holder.callback.inj (kept.promised.unique _ _ promise caught held)
      exact .captured held alone (kept.accepted token promise held)
        (countP_ready_le_one kept.reachable token) (kept.promised.answered token promise held)
  · have free : ∀ holder, futures.held holder ≠ some promise :=
      fun holder now => held ⟨holder, now⟩
    obtain ⟨error, reason, value⟩ := kept.promised.rejected promise created (by simp) free
    exact .rejected reason value fun token => free (.callback token)

/-- No promise is ever set twice, and every promise that was made has one of the outcomes. -/
theorem future_outcome (reachable : futureSystem.Reachable futures) :
    futures.handledErrors = 0 ∧ ∀ promise < futures.nextPromise, Outcome futures promise := by
  have kept := kept_of_reachable reachable
  exact ⟨kept.promised.unhandled, fun promise created => kept.outcome created⟩

/-- Once `shutdown` has returned, the callback of a request whose context was not destroyed
unanswered has had its final response. -/
theorem answered_of_returned (reachable : managerSystem.Reachable world)
    (returned : world.ShutdownReturned) (accepted : .accepted token ∈ world.log)
    (answered : .abandoned token ∉ world.log) :
    ∃ response, (responses world.log token).find? (·.ready) = some response := by
  have orderly := orderly_of_reachable reachable
  have done := done_of_returned orderly (drained_of_reachable reachable) returned accepted answered
  have once : (responses world.log token).countP (·.ready) = 1 := by
    rw [countP_ready_responses (orderly.custody.sound token).1]
    exact finals_of_isDone done
  obtain ⟨ready, member, isReady⟩ := List.countP_pos_iff.mp (once ▸ Nat.one_pos)
  exact Option.isSome_iff_exists.mp (List.find?_isSome.mpr ⟨ready, member, isReady⟩)

/-- Once `shutdown` has returned, nobody waits for ever on a future whose submission has returned:
it has a ready response, unless the context of its request was destroyed unanswered, and then its
promise is broken. -/
theorem future_ready_after_shutdown (reachable : futureSystem.Reachable futures)
    (returned : futures.world.ShutdownReturned) (created : promise < futures.nextPromise)
    (submitted : ∀ client, futures.held (.submission client) ≠ some promise) :
    (∃ response, futures.value promise = some response ∧ response.ready = true) ∨
      ∃ token, futures.held (.callback token) = some promise ∧
        .abandoned token ∈ futures.world.log := by
  have kept := kept_of_reachable reachable
  cases kept.outcome created with
  | submitting submits => exact absurd submits (submitted _)
  | rejected _ value => exact Or.inl ⟨_, value, rfl⟩
  | @captured token held _ accepted _ value =>
    by_cases abandoned : .abandoned token ∈ futures.world.log
    · exact Or.inr ⟨token, held, abandoned⟩
    · obtain ⟨response, found⟩ := answered_of_returned kept.reachable returned accepted abandoned
      exact Or.inl ⟨response, value.trans found, List.find?_some found⟩

/-! ### One request answered, one rejected -/

/-- Of two requests the second is rejected, and the first is transferred. -/
def oneAnswered : List FutureAction :=
  [.manage (.setMaxPendingRequests 1), .httpRequest {}, .httpRequest {}, .manage .callProcess] ++
    [.proceed, .time 0, .time 0, .multiInit true, .easyInit true true, .proceed, .proceed,
      .performed true false, .message 0 { result := 0, responseCode := 200 } 0, .proceed].map
        fun input => .manage (.work input)

theorem future_outcome_oneAnswered : ∃ futures,
    futureSystem.Runs futureSystem.init oneAnswered futures ∧
      ((futures.value 0).map (·.statusCode) = some 200 ∧
        (futures.value 1).map (·.errorCode) = some (.client .queueLimitExceeded)) ∧
      futures.handledErrors = 0 ∧ Outcome futures 0 ∧ Outcome futures 1 := by
  have evaluated : (futureSystem.run futureSystem.init oneAnswered).any (fun futures =>
      decide (((futures.value 0).map (·.statusCode) = some 200 ∧
        (futures.value 1).map (·.errorCode) = some (.client .queueLimitExceeded)) ∧
          futures.nextPromise = 2)) = true := by decide +kernel
  obtain ⟨futures, runs, checked⟩ := System.exists_runs evaluated
  obtain ⟨values, two⟩ := of_decide_eq_true checked
  obtain ⟨unhandled, outcome⟩ := future_outcome ⟨_, runs⟩
  exact ⟨futures, runs, values, unhandled, outcome 0 (two ▸ Nat.two_pos),
    outcome 1 (two ▸ Nat.one_lt_two)⟩

/-- The manager is shut down while the request is pending. -/
theorem future_ready_after_shutdown_pending : ∃ futures,
    futureSystem.Runs futureSystem.init (.httpRequest {} :: .manage .callShutdown ::
      List.replicate 7 (.manage (.work .proceed))) futures ∧
    ((∃ response, futures.value 0 = some response ∧ response.ready = true) ∨
      ∃ token, futures.held (.callback token) = some 0 ∧
        .abandoned token ∈ futures.world.log) := by
  have evaluated : (futureSystem.run futureSystem.init (.httpRequest {} :: .manage .callShutdown ::
      List.replicate 7 (.manage (.work .proceed)))).any (fun futures =>
        decide (futures.world.ShutdownReturned ∧ futures.nextPromise = 1 ∧
          futures.held (.callback 1) = some 0)) = true := by decide +kernel
  obtain ⟨futures, runs, checked⟩ := System.exists_runs evaluated
  obtain ⟨returned, one, held⟩ := of_decide_eq_true checked
  have kept := kept_of_reachable ⟨_, runs⟩
  refine ⟨futures, runs, future_ready_after_shutdown ⟨_, runs⟩ returned (one ▸ Nat.one_pos) ?_⟩
  intro client submits
  cases kept.promised.unique _ _ 0 held submits

end Kurlyk.Http
