/-
This file is about the two lists in which requests wait. `m_pending_requests` is
bounded for submissions: requests that were never sent fill no more than
`max_pending_requests` places of it, and only retries are added beyond. A request
whose attempt failed waits in `m_failed_requests` for its `retry_delay_ms`, and no
run sends it again before.
-/

import Kurlyk.Http.Streaming
import Kurlyk.Http.LimiterCalls

namespace Kurlyk.Http

open RateLimiter

variable {world next start finish : World} {action : Action} {actions : List Action}
  {token : Token}

/-! ### What a step logs -/

/-- The step of `process_retry_failed_requests` that moves the request to the pending list. -/
structure Requeues (world next : World) (action : Action) (token : Token) : Prop where
  agenda : world.agenda = []
  phase : ∃ index, world.phase = .retryLoop index ∧ world.failedRequests[index]? = some token
  time : ∃ now, action = .work (.time now)
  logged : next.log = world.log ++ [.requeued token]

/-- The events tell neither of a failed attempt of the request nor of its being sent again. -/
def Silent (events : List Event) (token : Token) : Prop :=
  .requeued token ∉ events ∧
    ∀ response, .response token response ∈ events →
      response.ready = true ∨ response.streamChunk = true

/-- What a step tells of the attempts of a request. -/
inductive Tells (world next : World) (action : Action) (token : Token) : Prop where
  | silent (events : List Event) (logged : next.log = world.log ++ events)
    (silent : Silent events token) : Tells world next action token
  | requeues (requeues : Requeues world next action token) : Tells world next action token
  | fails (response : HttpResponse) (logged : next.log = world.log ++ [.response token response])
    (started : (next.contexts token).startTime = next.clock) : Tells world next action token

theorem tells_of_eq (same : next.log = world.log) : Tells world next action token :=
  .silent [] (same.trans (List.append_nil _).symm) ⟨List.not_mem_nil, by simp⟩

theorem submit_silent (base : World) (request : Option HttpRequest) (callback : Bool) :
    ∃ events, (base.submit request callback).log = base.log ++ events ∧ Silent events token := by
  rcases submit_cases base request callback with rejected | ⟨_, admitted⟩
  · rw [rejected]
    exact ⟨[], (List.append_nil _).symm, List.not_mem_nil, by simp⟩
  · rw [admitted]
    exact ⟨_, rfl, by simp [Silent]⟩

theorem CallerStep.tells (step : CallerStep world action next) : Tells world next action token := by
  cases step with
  | @submit request callback =>
    obtain ⟨events, logged, silent⟩ := submit_silent world request callback
    exact .silent events logged silent
  | @clientSubmits position client request callback =>
    obtain ⟨events, logged, silent⟩ :=
      submit_silent { world with callers := world.callers.eraseIdx position } (some request) callback
    exact .silent events logged silent
  | cancelById | cancelByGroup =>
    unfold World.callCancel
    dsimp only
    split <;> exact .silent _ rfl (by simp [Silent])
  | waitNow | waitRegister | cancelWait | callerWaits | callerCancels =>
    exact .silent _ rfl (by simp [Silent])
  | _ => exact tells_of_eq rfl

theorem AgendaStep.tells (orderly : Orderly world) (step : AgendaStep world next) :
    Tells world next action token := by
  cases step with
  | @finalCallback about response rest agenda =>
    have held : (about, Place.finishing response) ∈ world.holdings :=
      mem_holdings_of_head agenda List.mem_cons_self
    have final := (orderly.custody.fits _ _ held).2.2.2
    refine .silent _ rfl ⟨by simp, fun other member => Or.inl ?_⟩
    rw [(Event.response.inj (List.mem_singleton.mp member)).2]
    exact (Bool.and_eq_true_iff.mp final).1
  | complete | settle | settleGroup | notifyWaiter | invokeCancel | discard =>
    exact .silent _ rfl (by simp [Silent])
  | _ => exact tells_of_eq rfl

theorem Transition.tells (orderly : Orderly world) (transition : Transition world action next)
    (token : Token) : Tells world next action token := by
  cases transition with
  | jump => exact tells_of_eq rfl
  | pending agenda step =>
    cases step with
    | dispatch | start => exact .silent _ rfl (by simp [Silent])
    | _ => exact tells_of_eq rfl
  | active agenda step =>
    cases step with
    | @requeue index about now at_ found =>
      by_cases same : about = token
      · obtain rfl := same
        exact .requeues ⟨agenda, ⟨index, at_, found⟩, ⟨now, rfl⟩, rfl⟩
      · exact .silent _ rfl (by simp [Silent, Ne.symm same])
    | stream at_ found foundHandler running context emitted =>
      refine .silent _ rfl ⟨by simp, fun response member => Or.inr ?_⟩
      rw [(Event.response.inj (List.mem_singleton.mp member)).2]
      exact (streamChunk_eq_some emitted).2.1
    | @retry index stillRunning position message now batch handler about =>
      by_cases same : about = token
      · obtain rfl := same
        refine .fails _ rfl ?_
        dsimp only
        rw [Function.update_self]
      · refine .silent _ rfl ⟨by simp, fun response member => ?_⟩
        exact absurd (Event.response.inj (List.mem_singleton.mp member)).1.symm same
    | _ => exact tells_of_eq rfl
  | cancel agenda step =>
    cases step with
    | _ => exact tells_of_eq rfl
  | closing agenda step =>
    cases step with
    | _ => exact tells_of_eq rfl
  | agenda step => exact step.tells orderly
  | shutdown => exact .silent _ rfl (by simp [Silent])
  | caller step => exact step.tells
  | handles step =>
    refine tells_of_eq ?_
    cases step with
    | remove =>
      unfold World.removeRateLimit
      dsimp only
      split <;> rfl
    | _ => rfl

theorem tells_of_step (reachable : managerSystem.Reachable world)
    (stepped : managerSystem.step world action = some next) (token : Token) :
    Tells world next action token :=
  (step_transition stepped).tells (orderly_of_reachable reachable) token

/-! ### Retries are spaced -/

/-- The stages of a request that is not under way: it waits for a retry, or was answered. -/
def Stage.rests : Stage → Bool
  | .retrying _ | .final _ _ | .released _ _ | .done _ _ | .lost _ | .broken => true
  | _ => false

theorem Stage.rests_advance {stage : Stage} {event : Event} (rests : stage.rests = true)
    (other : event ≠ .requeued token) : (stage.advance token event).rests = true := by
  unfold Stage.advance
  split
  · rename_i subject
    cases stage with
    | retrying retries =>
      cases event with
      | requeued about =>
        obtain rfl := Option.some.inj subject
        exact absurd rfl other
      | response about response =>
        unfold Stage.next
        dsimp only
        split <;> rfl
      | _ => rfl
    | final | released => cases event <;> rfl
    | done | lost | broken => cases event <;> rfl
    | absent | queued | dispatched | flying => cases rests
  · exact rests

/-- Nothing but sending it again ends the rest of a request. -/
theorem rests_append {log events : List Event} (rests : (stageOf log token).rests = true)
    (silent : .requeued token ∉ events) : (stageOf (log ++ events) token).rests = true := by
  induction events using List.reverseRecOn with
  | nil => rwa [List.append_nil]
  | append_singleton earlier event inductionHypothesis =>
    rw [← List.append_assoc, stageOf_concat]
    refine Stage.rests_advance (inductionHypothesis fun member => ?_) fun same => ?_
    · exact silent (List.mem_append_left _ member)
    · exact silent (List.mem_append_right _ (List.mem_singleton.mpr same.symm))

/-- The retry of a request comes when its delay has passed since the start of the wait. -/
theorem Requeues.due (requeues : Requeues world next action token)
    (stepped : managerSystem.step world action = some next) :
    ∃ request, (world.contexts token).request = some request ∧
      request.retryDelayMs ≤ elapsedMs next.clock (world.contexts token).startTime := by
  obtain ⟨index, at_, found⟩ := requeues.phase
  obtain ⟨now, rfl⟩ := requeues.time
  have worked : world.work (.time now) = some next := stepped
  rw [World.work, requeues.agenda, at_] at worked
  obtain ⟨ticked, passed, same⟩ := Option.map_eq_some_iff.mp worked
  obtain rfl := tick_eq_some passed
  have logged := requeues.logged
  have clock : next.clock = now := by rw [← same, retryStep_clock]
  have unmoved : next.log ≠ world.log := by
    rw [logged]
    exact fun same => absurd (congrArg List.length same) (by simp)
  rw [World.retryStep, found] at same
  dsimp only at same
  split at same
  · exact absurd (congrArg World.log same).symm unmoved
  · rename_i request carried
    split at same
    · rename_i elapsed
      exact ⟨request, carried, clock ▸ elapsed⟩
    · exact absurd (congrArg World.log same).symm unmoved

/-- Rewriting a context without its start time leaves all start times alone. -/
theorem startTime_update {contexts : Token → HttpRequestContext} {about : Token}
    {context : HttpRequestContext} (same : context.startTime = (contexts about).startTime)
    (token : Token) :
    (Function.update contexts about context token).startTime = (contexts token).startTime := by
  by_cases here : token = about
  · rw [here, Function.update_self, same]
  · rw [Function.update_of_ne here]

/-- The start time of a request is set to the instant of the step, or left alone. -/
theorem startTime_step (orderly : Orderly world) (accepted : .accepted token ∈ world.log)
    (transition : Transition world action next) :
    (next.contexts token).startTime = (world.contexts token).startTime ∨
      (next.contexts token).startTime = next.clock := by
  have submitted : ∀ (base : World) (request : Option HttpRequest) (callback : Bool),
      base.contexts = world.contexts → base.nextInFlightToken = world.nextInFlightToken →
      ((base.submit request callback).contexts token).startTime =
        (world.contexts token).startTime := by
    intro base request callback contexts counter
    rcases submit_cases base request callback with rejected | ⟨_, admitted⟩
    · rw [rejected, ← contexts]
      rfl
    · rw [admitted]
      dsimp only
      rw [Function.update_of_ne, contexts]
      rw [counter]
      exact Nat.ne_of_lt (orderly.lt_of_accepted accepted)
  cases transition with
  | pending agenda step =>
    cases step with
    | dispatch =>
      refine Or.inl (startTime_update ?_ token)
      rfl
    | _ => exact Or.inl rfl
  | active agenda step =>
    cases step with
    | @retry index stillRunning position message now batch handler about =>
      by_cases same : token = about
      · refine Or.inr ?_
        dsimp only
        rw [same, Function.update_self]
      · refine Or.inl ?_
        dsimp only
        rw [Function.update_of_ne same]
    | finish =>
      refine Or.inl (startTime_update ?_ token)
      rfl
    | _ => exact Or.inl rfl
  | agenda step =>
    cases step with
    | complete =>
      refine Or.inl (startTime_update ?_ token)
      rfl
    | _ => exact Or.inl rfl
  | caller step =>
    refine Or.inl ?_
    cases step with
    | submit => exact submitted _ _ _ rfl rfl
    | clientSubmits => exact submitted _ _ _ rfl rfl
    | cancelById | cancelByGroup =>
      unfold World.callCancel
      dsimp only
      split <;> rfl
    | _ => rfl
  | handles step =>
    refine Or.inl ?_
    cases step with
    | remove =>
      unfold World.removeRateLimit
      dsimp only
      split <;> rfl
    | _ => rfl
  | cancel agenda step =>
    cases step with
    | _ => exact Or.inl rfl
  | closing agenda step =>
    cases step with
    | _ => exact Or.inl rfl
  | jump | shutdown => exact Or.inl rfl

/-- A delay that has elapsed since a start has passed since every earlier instant. -/
theorem add_le_of_due {delay : ℤ} {since startTime now : ℕ}
    (due : delay ≤ elapsedMs now startTime) (started : since ≤ startTime) (passed : since ≤ now) :
    since + delay.toNat * nanosPerMilli ≤ now := by
  rcases le_or_gt delay 0 with none | some
  · rw [Int.toNat_of_nonpos none, Nat.zero_mul, Nat.add_zero]
    exact passed
  · have order : startTime ≤ now := by
      by_contra early
      have positive : (0 : ℤ) ≤ ((startTime : ℤ) - now).tdiv (nanosPerMilli : ℤ) :=
        Int.tdiv_nonneg (by omega) (by decide)
      have negative : elapsedMs now startTime ≤ 0 := by
        rw [elapsedMs, ← Int.neg_sub, Int.neg_tdiv]
        exact Int.neg_nonpos_of_nonneg positive
      omega
    exact le_trans (Nat.add_le_add_right started _) ((le_elapsedMs_iff order delay).mp due)

/-- Since the instant, the delay of the request has passed or the request has rested. -/
structure Rested (token : Token) (request : HttpRequest) (since : TimePoint) (world : World) :
    Prop where
  accepted : .accepted token ∈ world.log
  carried : (world.contexts token).request = some request
  passed : since ≤ world.clock
  waited : since + request.retryDelayMs.toNat * nanosPerMilli ≤ world.clock ∨
    ((stageOf world.log token).rests = true ∧ since ≤ (world.contexts token).startTime)

theorem Rested.step {request : HttpRequest} {since : TimePoint}
    (reachable : managerSystem.Reachable world) (rested : Rested token request since world)
    (stepped : managerSystem.step world action = some next) :
    Rested token request since next := by
  have clock := clock_le_of_step stepped
  have single : managerSystem.Runs world [action] next :=
    System.runs_cons.mpr ⟨next, stepped, System.runs_nil.mpr rfl⟩
  have carried := (request_of_runs reachable single rested.accepted).trans rested.carried
  have passed := le_trans rested.passed clock
  have kept : ∀ events, next.log = world.log ++ events → .accepted token ∈ next.log :=
    fun events logged => logged ▸ List.mem_append_left _ rested.accepted
  have started : since ≤ (world.contexts token).startTime →
      since ≤ (next.contexts token).startTime := by
    intro before
    rcases startTime_step (orderly_of_reachable reachable) rested.accepted
      (step_transition stepped) with same | now
    · exact same.symm ▸ before
    · exact now.symm ▸ passed
  cases tells_of_step reachable stepped token with
  | silent events logged silent =>
    refine ⟨kept _ logged, carried, passed, ?_⟩
    exact rested.waited.imp (fun enough => le_trans enough clock) fun ⟨rests, before⟩ =>
      ⟨logged ▸ rests_append rests silent.1, started before⟩
  | requeues requeues =>
    -- The delay has passed since the request began to wait, which was no earlier.
    obtain ⟨own, present, due⟩ := requeues.due stepped
    obtain rfl : own = request := Option.some.inj (present.symm.trans rested.carried)
    refine ⟨kept _ requeues.logged, carried, passed, Or.inl ?_⟩
    rcases rested.waited with enough | ⟨_, before⟩
    · exact le_trans enough clock
    · exact add_le_of_due due before passed
  | fails response logged now =>
    refine ⟨kept _ logged, carried, passed, ?_⟩
    exact rested.waited.imp (fun enough => le_trans enough clock) fun ⟨rests, before⟩ =>
      ⟨logged ▸ rests_append rests (by simp), started before⟩

/-- A response that is neither final nor a chunk tells of a failed attempt, and its request begins
to wait. -/
theorem rests_of_response {response : HttpResponse} {log : List Event}
    (intact : stageOf (log ++ [.response token response]) token ≠ .broken)
    (unready : response.ready = false) (whole : response.streamChunk = false) :
    ∃ retries, stageOf (log ++ [.response token response]) token = .retrying retries := by
  have notFinal : response.isFinal = false := by rw [HttpResponse.isFinal, unready, Bool.false_and]
  have notChunk : response.isChunk = false := by rw [HttpResponse.isChunk, whole, Bool.and_false]
  rw [stageOf_concat_self rfl] at intact ⊢
  cases stage : stageOf log token with
  | flying retries chunks =>
    rw [stage] at intact
    simp only [Stage.next, notFinal, notChunk, Bool.false_eq_true, if_false] at intact ⊢
    split at intact
    · rename_i fails
      exact ⟨retries + 1, if_pos fails⟩
    · exact absurd rfl intact
  | _ =>
    rw [stage] at intact
    simp [Stage.next, notFinal] at intact

theorem rested_of_response {request : HttpRequest} {response : HttpResponse}
    (reachable : managerSystem.Reachable world)
    (stepped : managerSystem.step world action = some next)
    (told : next.log = world.log ++ [.response token response])
    (unready : response.ready = false) (whole : response.streamChunk = false)
    (carried : (next.contexts token).request = some request) :
    Rested token request next.clock next := by
  have intact : stageOf next.log token ≠ .broken :=
    ((orderly_of_reachable (reachable.step stepped)).custody.sound token).1
  have accepted := (accepted_mem_iff intact).mpr
  obtain ⟨retries, stage⟩ := rests_of_response (told ▸ intact) unready whole
  rw [← told] at stage
  rw [stage] at accepted
  refine ⟨accepted Stage.noConfusion, carried, Nat.le_refl _, Or.inr ⟨by rw [stage]; rfl, ?_⟩⟩
  have same : ∀ {events}, next.log = world.log ++ events → events = [.response token response] :=
    fun logged => List.append_cancel_left (logged.symm.trans told)
  cases tells_of_step reachable stepped token with
  | silent events logged silent =>
    rcases silent.2 response (same logged ▸ List.mem_singleton_self _) with ready | chunk
    · rw [unready] at ready
      cases ready
    · rw [whole] at chunk
      cases chunk
  | requeues requeues => cases (List.cons.inj (same requeues.logged)).1
  | fails _ _ started => exact started.ge

theorem rested_of_runs {request : HttpRequest} {since : TimePoint}
    (reachable : managerSystem.Reachable start) (rested : Rested token request since start)
    (runs : managerSystem.Runs start actions finish) : Rested token request since finish :=
  runs.induction (Rested token request since) reachable rested
    fun _ _ _ reached _ holds stepped => holds.step reached stepped

/-- In every run, whatever the threads do, a request whose attempt failed is not sent again before
its retry delay has passed since the failure was told. -/
theorem retries_spaced {failed before after : World} {fails dispatches : Action}
    {request : HttpRequest} {response : HttpResponse}
    (reachable : managerSystem.Reachable start)
    (failing : managerSystem.step start fails = some failed)
    (told : failed.log = start.log ++ [.response token response])
    (unready : response.ready = false) (whole : response.streamChunk = false)
    (runs : managerSystem.Runs failed actions before)
    (dispatching : managerSystem.step before dispatches = some after)
    (sent : after.log = before.log ++ [.dispatched token])
    (carried : (failed.contexts token).request = some request) :
    failed.clock + request.retryDelayMs.toNat * nanosPerMilli ≤ after.clock := by
  have reached := reachable.step failing
  have rested := rested_of_runs reached
    (rested_of_response reachable failing told unready whole carried) runs
  have later := rested.step (reached.runs runs) dispatching
  rcases later.waited with enough | ⟨rests, _⟩
  · exact enough
  · have sound := ((orderly_of_reachable ((reached.runs runs).step dispatching)).custody.sound
      token).1
    rw [World.status, sent, stageOf_concat_self rfl] at sound
    rw [sent, stageOf_concat_self rfl] at rests
    cases stage : stageOf before.log token <;> rw [stage] at sound rests <;>
      simp [Stage.next, Stage.rests] at sound rests

/-! ### A request that fails once -/

/-- A request with one retry after ten milliseconds. -/
def retriedRequest : HttpRequest :=
  { retryAttempts := 2, retryDelayMs := 10 }

/-- The request is transferred. -/
def firstTransfer : List Action :=
  [.submitRequest (some retriedRequest) true, .callProcess, .work .proceed, .work (.time 0),
    .work (.time 0), .work (.multiInit true), .work (.easyInit true true), .work .proceed,
    .work .proceed, .work (.performed true false)]

/-- The transfer fails after a millisecond. -/
def firstFailure : Action :=
  .work (.message 0 { result := 7, responseCode := 0 } 1000000)

/-- The rest of this pass, and a pass in which the delay is over. -/
def waitForRetry : List Action :=
  [.work .noMessage, .work .proceed, .work .proceed, .work .proceed, .work (.time 1000000),
    .work (.time 1000000), .work .proceed, .work .proceed,
    .callProcess, .work .proceed, .work .proceed, .work (.time 11000000), .work (.time 11000000),
    .work .proceed, .work .proceed, .callProcess, .work .proceed]

/-- What the callback is told of the failure. -/
def firstFailureTold : HttpResponse :=
  { errorCode := .curl 7, statusCode := 451, retryAttempt := 1 }

theorem retries_spaced_firstFailure :
    ∃ failed after : World, failed.clock = 1000000 ∧
      failed.clock + 10 * nanosPerMilli ≤ after.clock := by
  have evaluated : (managerSystem.run managerSystem.init firstTransfer).any (fun start =>
      (managerSystem.step start firstFailure).any fun failed =>
        (managerSystem.run failed waitForRetry).any fun before =>
          (managerSystem.step before (.work (.time 11000000))).any fun after =>
            decide (failed.log = start.log ++ [.response 1 firstFailureTold] ∧
              after.log = before.log ++ [.dispatched 1] ∧ failed.clock = 1000000 ∧
              (failed.contexts 1).request = some retriedRequest)) = true := by
    decide +kernel
  obtain ⟨start, reaches, evaluated⟩ := System.exists_runs evaluated
  obtain ⟨failed, failing, evaluated⟩ := (Option.any_eq_true _ _).mp evaluated
  obtain ⟨before, runs, evaluated⟩ := System.exists_runs evaluated
  obtain ⟨after, dispatching, checked⟩ := (Option.any_eq_true _ _).mp evaluated
  obtain ⟨told, sent, clock, carried⟩ := of_decide_eq_true checked
  have spaced := retries_spaced ⟨firstTransfer, reaches⟩ failing told rfl rfl runs dispatching sent
    carried
  have delay : retriedRequest.retryDelayMs.toNat = 10 := rfl
  rw [delay] at spaced
  exact ⟨failed, after, clock, spaced⟩

/-! ### The pending list is bounded -/

/-- The pending requests that wait for their first attempt. -/
def World.firstAttempts (world : World) : ℕ :=
  world.pendingRequests.countP fun token => !world.log.contains (.requeued token)

/-- What a step does to the pending list: it only takes requests away, it adds an admitted request
within the limit, or a retry. -/
inductive PendingChange (world next : World) : Prop where
  | fewer (sublist : next.pendingRequests.Sublist world.pendingRequests) : PendingChange world next
  | admits {token : Token}
    (within : world.maxPendingRequests = 0 ∨
      world.pendingRequests.length < world.maxPendingRequests)
    (pending : next.pendingRequests = world.pendingRequests ++ [token]) : PendingChange world next
  | retries {token : Token} (pending : next.pendingRequests = world.pendingRequests ++ [token])
    (told : .requeued token ∈ next.log) : PendingChange world next

theorem submit_pending (base : World) (request : Option HttpRequest) (callback : Bool) :
    PendingChange base (base.submit request callback) := by
  unfold World.submit
  split
  · exact .fewer (List.Sublist.refl _)
  · rename_i token manager accepted
    have within : base.maxPendingRequests = 0 ∨
        base.pendingRequests.length < base.maxPendingRequests := by
      unfold HttpRequestManager.submitRequest at accepted
      split at accepted
      · cases accepted
      · split at accepted
        · cases accepted
        · rename_i room
          by_contra full
          rw [not_or, Nat.not_lt] at full
          exact room full
    obtain ⟨_, _, rfl⟩ := HttpRequestManager.submitRequest_eq_ok accepted
    exact .admits within rfl

theorem CallerStep.pendingChange (step : CallerStep world action next) :
    PendingChange world next := by
  cases step with
  | submit => exact submit_pending _ _ _
  | @clientSubmits position client request callback =>
    have change := submit_pending { world with callers := world.callers.eraseIdx position }
      (some request) callback
    cases change with
    | fewer sublist => exact .fewer sublist
    | admits within pending => exact .admits within pending
    | retries pending told => exact .retries pending told
  | waitRegister unlocked registered =>
    obtain ⟨_, rfl⟩ := HttpRequestManager.registerWaiter_eq_some registered
    exact .fewer (List.Sublist.refl _)
  | cancelWait unlocked removed =>
    obtain ⟨_, _, _, rfl⟩ := HttpRequestManager.cancelWait_eq_some removed
    exact .fewer (List.Sublist.refl _)
  | insertByGroup unlocked found queued =>
    rw [HttpRequestManager.queueCancelByGroup_eq_some queued]
    exact .fewer (List.Sublist.refl _)
  | cancelById | cancelByGroup =>
    unfold World.callCancel
    dsimp only
    split <;> exact .fewer (List.Sublist.refl _)
  | _ => exact .fewer (List.Sublist.refl _)

theorem Transition.pendingChange (transition : Transition world action next) :
    PendingChange world next := by
  cases transition with
  | pending agenda step =>
    cases step with
    | badRequest | dispatch => exact .fewer (List.eraseIdx_sublist _ _)
    | _ => exact .fewer (List.Sublist.refl _)
  | active agenda step =>
    cases step with
    | requeue => exact .retries rfl (List.mem_append_right _ List.mem_cons_self)
    | _ => exact .fewer (List.Sublist.refl _)
  | cancel agenda step =>
    cases step with
    | takeCancels => exact .fewer List.filter_sublist
    | _ => exact .fewer (List.Sublist.refl _)
  | closing agenda step =>
    cases step with
    | cleanup => exact .fewer (List.nil_sublist _)
    | _ => exact .fewer (List.Sublist.refl _)
  | agenda step =>
    exact .fewer (step.unfilled.pending ▸ List.Sublist.refl _)
  | caller step => exact step.pendingChange
  | handles step => exact .fewer (step.unfilled.pending ▸ List.Sublist.refl _)
  | jump | shutdown => exact .fewer (List.Sublist.refl _)

/-- With a limit in force, a step leaves no more first attempts pending than the limit allows. -/
theorem firstAttempts_step {limit : ℕ} (reachable : managerSystem.Reachable world)
    (stepped : managerSystem.step world action = some next)
    (positive : 0 < world.maxPendingRequests) (below : world.maxPendingRequests ≤ limit)
    (bounded : world.firstAttempts ≤ limit) : next.firstAttempts ≤ limit := by
  have grows : ∀ token, .requeued token ∈ world.log → .requeued token ∈ next.log := by
    intro token member
    cases tells_of_step reachable stepped token with
    | silent events logged => exact logged ▸ List.mem_append_left _ member
    | requeues requeues => exact requeues.logged ▸ List.mem_append_left _ member
    | fails response logged => exact logged ▸ List.mem_append_left _ member
  have older : next.firstAttempts ≤
      next.pendingRequests.countP fun token => !world.log.contains (.requeued token) := by
    refine List.countP_mono_left fun token _ first => ?_
    simp only [Bool.not_eq_true', List.contains_eq_mem, decide_eq_false_iff_not] at first ⊢
    exact fun member => first (grows token member)
  cases (step_transition stepped).pendingChange with
  | fewer sublist => exact older.trans ((sublist.countP_le).trans bounded)
  | @admits token within pending =>
    have room := within.resolve_left (Nat.ne_of_gt positive)
    rw [pending, List.countP_append] at older
    have some_ := List.countP_le_length (l := world.pendingRequests)
      (p := fun token => !world.log.contains (.requeued token))
    have one := List.countP_le_length (l := [token])
      (p := fun token => !world.log.contains (.requeued token))
    rw [List.length_singleton] at one
    omega
  | @retries token pending told =>
    have none : [token].countP (fun token => !next.log.contains (.requeued token)) = 0 := by
      rw [List.countP_eq_zero]
      intro other member
      rw [List.mem_singleton.mp member, List.contains_iff_mem.mpr told]
      decide
    rw [World.firstAttempts, pending, List.countP_append, none, Nat.add_zero]
    refine (List.countP_mono_left fun token _ first => ?_).trans bounded
    simp only [Bool.not_eq_true', List.contains_eq_mem, decide_eq_false_iff_not] at first ⊢
    exact fun member => first (grows token member)

theorem submit_limit (base : World) (request : Option HttpRequest) (callback : Bool) :
    (base.submit request callback).maxPendingRequests = base.maxPendingRequests := by
  rcases submit_cases base request callback with rejected | ⟨_, admitted⟩
  · rw [rejected]
    rfl
  · rw [admitted]

/-- Only `set_max_pending_requests` changes the limit. -/
theorem Transition.limit (transition : Transition world action next) :
    next.maxPendingRequests = world.maxPendingRequests ∨
      ∃ limit, action = .setMaxPendingRequests limit ∧ next.maxPendingRequests = limit := by
  cases transition with
  | pending agenda step =>
    cases step with
    | _ => exact Or.inl rfl
  | active agenda step =>
    cases step with
    | _ => exact Or.inl rfl
  | cancel agenda step =>
    cases step with
    | _ => exact Or.inl rfl
  | closing agenda step =>
    cases step with
    | _ => exact Or.inl rfl
  | agenda step =>
    cases step with
    | @settleGroup token group rest agenda captured =>
      obtain ⟨counts, waiters, same⟩ :=
        HttpRequestManager.completeGroupRequest_frame world.toHttpRequestManager group
      refine Or.inl ?_
      simp only [same]
    | _ => exact Or.inl rfl
  | caller step =>
    cases step with
    | setMaxPending => exact Or.inr ⟨_, rfl, rfl⟩
    | submit => exact Or.inl (submit_limit _ _ _)
    | clientSubmits => exact Or.inl (submit_limit _ _ _)
    | waitRegister unlocked registered =>
      obtain ⟨_, rfl⟩ := HttpRequestManager.registerWaiter_eq_some registered
      exact Or.inl rfl
    | cancelWait unlocked removed =>
      obtain ⟨_, _, _, rfl⟩ := HttpRequestManager.cancelWait_eq_some removed
      exact Or.inl rfl
    | insertByGroup unlocked found queued =>
      rw [HttpRequestManager.queueCancelByGroup_eq_some queued]
      exact Or.inl rfl
    | cancelById | cancelByGroup =>
      unfold World.callCancel
      dsimp only
      split <;> exact Or.inl rfl
    | _ => exact Or.inl rfl
  | handles step =>
    cases step with
    | remove =>
      unfold World.removeRateLimit
      dsimp only
      split <;> exact Or.inl rfl
    | _ => exact Or.inl rfl
  | jump | shutdown => exact Or.inl rfl

/-- While a limit is in force, whatever the threads do, the pending list holds no more requests
than the limit beyond those that are sent again, provided that it held no more of them at first: a
limit that is lowered removes nothing. -/
theorem first_attempts_bounded {limit : ℕ} (reachable : managerSystem.Reachable start)
    (positive : 0 < start.maxPendingRequests) (below : start.maxPendingRequests ≤ limit)
    (fits : start.firstAttempts ≤ limit)
    (set : ∀ other, .setMaxPendingRequests other ∈ actions → 0 < other ∧ other ≤ limit)
    (runs : managerSystem.Runs start actions finish) : finish.firstAttempts ≤ limit := by
  have invariant : (0 < finish.maxPendingRequests ∧ finish.maxPendingRequests ≤ limit) ∧
      finish.firstAttempts ≤ limit := by
    refine runs.induction (fun world => (0 < world.maxPendingRequests ∧
      world.maxPendingRequests ≤ limit) ∧ world.firstAttempts ≤ limit) reachable
      ⟨⟨positive, below⟩, fits⟩ ?_
    rintro world action next reached member ⟨⟨some_, within⟩, bounded⟩ stepped
    refine ⟨?_, firstAttempts_step reached stepped some_ within bounded⟩
    rcases (step_transition stepped).limit with same | ⟨other, rfl, changed⟩
    · rw [same]
      exact ⟨some_, within⟩
    · rw [changed]
      exact set other member
  exact invariant.2

/-- With a limit of one, the second of two submissions is rejected. -/
theorem first_attempts_bounded_one :
    ∃ finish : World, managerSystem.Runs managerSystem.init
      [.setMaxPendingRequests 1, .submitRequest (some retriedRequest) true,
        .submitRequest (some retriedRequest) true] finish ∧ finish.firstAttempts ≤ 1 := by
  have evaluated : (managerSystem.run managerSystem.init [.setMaxPendingRequests 1]).any
      (fun start => decide (start.maxPendingRequests = 1 ∧ start.firstAttempts ≤ 1) &&
        (managerSystem.run start [.submitRequest (some retriedRequest) true,
          .submitRequest (some retriedRequest) true]).any fun _ => true) = true := by
    decide +kernel
  obtain ⟨start, sets, evaluated⟩ := System.exists_runs evaluated
  obtain ⟨limited, evaluated⟩ := Bool.and_eq_true_iff.mp evaluated
  obtain ⟨limit, fits⟩ := of_decide_eq_true limited
  obtain ⟨finish, runs, _⟩ := System.exists_runs evaluated
  have whole := System.runs_append.mpr ⟨start, sets, runs⟩
  refine ⟨finish, whole, ?_⟩
  exact first_attempts_bounded ⟨_, sets⟩ (limit ▸ Nat.one_pos) limit.le fits (by simp) runs

end Kurlyk.Http
