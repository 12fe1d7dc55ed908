/-
This file is about the order in which requests with the same limits and keys are
dispatched. The scan of the pending list passes over a request that is refused
and asks for the next one, at a later instant. In between the limiter may change
its answer: the window that refused the first request ends, or a user releases
the token that was in its way. Then the second request is dispatched before the
first one, although it was submitted after it.

As long as neither happens between two requests, and no user asks with the token
of the second one, the first is dispatched before the second: what refused the
first one is still there when the second one is asked for.
-/

import Kurlyk.Http.Sequential
import Kurlyk.RateLimiter.Obstruction

namespace Kurlyk.Http

open RateLimiter

variable {world next : World} {action : Action} {token earlier later : Token}

/-! ### The order of submission -/

/-- The token of a submission. -/
def Event.acceptedToken : Event → Option Token
  | .accepted token => some token
  | _ => none

/-- Requests get the tokens one, two, three and so on. -/
theorem acceptedTokens_eq (reachable : managerSystem.Reachable world) :
    1 ≤ world.nextInFlightToken ∧ world.log.filterMap Event.acceptedToken =
      List.range' 1 (world.nextInFlightToken - 1) := by
  refine reachable.induction (fun world => 1 ≤ world.nextInFlightToken ∧
    world.log.filterMap Event.acceptedToken = List.range' 1 (world.nextInFlightToken - 1))
    ⟨Nat.le_refl _, rfl⟩ ?_
  rintro state action after _ ⟨positive, numbered⟩ stepped
  rcases (step_transition stepped).effect with
    neutral | ⟨request, callback, admits⟩ | ⟨_, completes⟩
  · obtain ⟨events, logged, silent⟩ := neutral.logged
    have silence : events.filterMap Event.acceptedToken = [] := by
      refine List.filterMap_eq_nil_iff.mpr fun event member => ?_
      cases event with
      | accepted token => exact absurd member (silent token).1
      | _ => rfl
    rw [neutral.counter, logged, List.filterMap_append, silence, List.append_nil]
    exact ⟨positive, numbered⟩
  · rw [admits.counter, admits.logged, List.filterMap_append, numbered]
    refine ⟨Nat.le_add_left _ _, ?_⟩
    obtain ⟨count, same⟩ := Nat.exists_eq_add_of_le' positive
    rw [same, Nat.add_sub_cancel, Nat.add_sub_cancel, List.range'_concat, Nat.one_mul,
      Nat.add_comm 1]
    rfl
  · rw [completes.counter, completes.logged, List.filterMap_append]
    exact ⟨positive, (List.append_nil _).trans numbered⟩

theorem accepted_iff (reachable : managerSystem.Reachable world) :
    .accepted token ∈ world.log ↔ 1 ≤ token ∧ token < world.nextInFlightToken := by
  obtain ⟨positive, numbered⟩ := acceptedTokens_eq reachable
  have listed : .accepted token ∈ world.log ↔
      token ∈ world.log.filterMap Event.acceptedToken := by
    rw [List.mem_filterMap]
    constructor
    · intro member
      exact ⟨_, member, rfl⟩
    · rintro ⟨event, member, same⟩
      cases event with
      | accepted other => exact Option.some.inj same ▸ member
      | _ => cases same
  rw [listed, numbered, List.mem_range'_1, Nat.add_sub_cancel' positive]

theorem lt_of_accepted_before (reachable : managerSystem.Reachable world)
    (order : [.accepted earlier, .accepted later].Sublist world.log) : earlier < later := by
  have listed := order.filterMap Event.acceptedToken
  rw [(acceptedTokens_eq reachable).2] at listed
  have sorted := List.Pairwise.sublist listed List.pairwise_lt_range'
  exact List.rel_of_pairwise_cons sorted List.mem_cons_self

/-! ### A step during the scan -/

/-- The first call of the agenda is made, and a final response is logged by its call. -/
theorem AgendaStep.taken (step : AgendaStep world next) :
    ∃ call rest, world.agenda = call :: rest ∧ rest ⊆ next.agenda ∧
      ∀ token response, call = .invokeFinalCallback token response →
        .response token response ∈ next.log := by
  cases step with
  | finalCallback agenda =>
    refine ⟨_, _, agenda, List.subset_cons_self _ _, fun about given same => ?_⟩
    cases same
    exact List.mem_append_right _ List.mem_cons_self
  | handlerAnswered agenda handled =>
    refine ⟨_, _, agenda, List.Subset.refl _, fun about given same => ?_⟩
    rcases handled with is | is <;> rw [is] at same <;> cases same
  | settleGroup agenda =>
    refine ⟨_, _, agenda, List.subset_append_right _ _, fun about given same => ?_⟩
    cases same
  | complete agenda | destroyHandler agenda | cancelHandler agenda =>
    refine ⟨_, _, agenda, List.subset_cons_self _ _, fun about given same => ?_⟩
    cases same
  | completeAgain agenda | settle agenda | notifyWaiter agenda | invokeCancel agenda
  | discard agenda =>
    refine ⟨_, _, agenda, List.Subset.refl _, fun about given same => ?_⟩
    cases same

/-- A step that leads into the scan begins it, or goes on with it. -/
theorem Transition.scans (transition : Transition world action next) (locked : next.locked = true) :
    (next.phase = .pendingLoop 0 [] [] ∧ next.agenda = []) ∨
      (world.locked = true ∧ (world.agenda = [] → next.agenda = [])) := by
  cases transition with
  | jump agenda jump =>
    cases jump with
    | enterScan => exact Or.inl ⟨rfl, agenda⟩
    | refused at_ => exact Or.inr ⟨by rw [World.locked, at_], id⟩
    | @nothingToCancel mode => cases mode <;> cases locked
    | _ => cases locked
  | pending agenda step =>
    cases step with
    | badRequest at_ | dispatch at_ => exact Or.inr ⟨by rw [World.locked, at_], id⟩
    | @scanned index ready failed now =>
      cases empty : ready.isEmpty <;> simp [World.locked, empty] at locked
    | _ => cases locked
  | active agenda step =>
    cases step with
    | _ at_ => simp [World.locked, at_] at locked
  | cancel agenda step =>
    cases step with
    | @batchesScanned ids groups index mode => cases mode <;> cases locked
    | cancelFailed at_ => simp [World.locked, at_] at locked
    | _ => cases locked
  | closing agenda step =>
    cases step with
    | _ => cases locked
  | agenda step =>
    obtain ⟨call, rest, agenda, _⟩ := step.taken
    refine Or.inr ⟨?_, fun empty => absurd (agenda.symm.trans empty) (List.cons_ne_nil _ _)⟩
    rw [World.locked, ← step.phase_eq]
    exact locked
  | shutdown => cases locked
  | caller step =>
    rw [World.locked, step.phase_eq.1] at locked
    exact Or.inr ⟨locked, fun empty => step.phase_eq.2.trans empty⟩
  | handles step =>
    rw [World.locked, step.phase_eq.1] at locked
    exact Or.inr ⟨locked, fun empty => step.phase_eq.2.trans empty⟩

/-- While it scans, the worker has nothing else to do. -/
theorem scan_agenda (reachable : managerSystem.Reachable world) (locked : world.locked = true) :
    world.agenda = [] := by
  refine reachable.induction (fun world => world.locked = true → world.agenda = [])
    (fun _ => rfl) ?_ locked
  intro state action after _ empty stepped scanning
  rcases (step_transition stepped).scans scanning with ⟨_, nothing⟩ | ⟨before, stays⟩
  · exact nothing
  · exact stays (empty before)

/-- The limiter and the instant at which a request is asked for, or would be: a step may read the
clock, or release a token. -/
def World.faced (world : World) : Action → HttpRateLimiter × TimePoint
  | .work (.time now) => (world.rateLimiter, now)
  | .allowRequest _ now => (world.rateLimiter, now)
  | .releaseRequest call => (call.release world.rateLimiter, world.clock)
  | _ => (world.rateLimiter, world.clock)

/-- What a step can do while the scan is at the index. -/
inductive ScanStep (world next : World) (index : ℕ) : Action → Prop where
  | leave {action : Action} (unlocked : next.locked = false) : ScanStep world next index action
  | refuse {token : Token} {request : HttpRequest} {now : TimePoint} {ready failed : List Token}
    (found : world.pendingRequests[index]? = some token)
    (carried : (world.contexts token).request = some request)
    (refused : ((request.call token).allow world.rateLimiter now).1 = false)
    (phase : next.phase = .pendingLoop (index + 1) ready failed)
    (pending : next.pendingRequests = world.pendingRequests)
    (limiter : next.rateLimiter = world.rateLimiter) (clock : next.clock = now) :
    ScanStep world next index (.work (.time now))
  | erase {token : Token} {now : TimePoint} {ready failed : List Token}
    (found : world.pendingRequests[index]? = some token)
    (phase : next.phase = .pendingLoop index ready failed)
    (pending : next.pendingRequests = world.pendingRequests.eraseIdx index)
    (limiter : next.rateLimiter = world.rateLimiter ∨
      ∃ request, (world.contexts token).request = some request ∧
        next.rateLimiter = ((request.call token).allow world.rateLimiter now).2)
    (clock : next.clock = now) :
    ScanStep world next index (.work (.time now))
  | aside {action : Action} (faced : world.faced action = (world.rateLimiter, world.clock))
    (phase : next.phase = world.phase) (pending : next.pendingRequests = world.pendingRequests)
    (retires : Retires world.rateLimiter next.rateLimiter) (clock : next.clock = world.clock) :
    ScanStep world next index action
  | allow {call : RequestCall} {now : TimePoint} (held : call.handles ⊆ world.userHandles)
    (direct : next = { world with
      rateLimiter := (call.allow world.rateLimiter now).2
      clock := now }) :
    ScanStep world next index (.allowRequest call now)
  | release {call : RequestCall}
    (direct : next = { world with rateLimiter := call.release world.rateLimiter }) :
    ScanStep world next index (.releaseRequest call)

section Scan

variable {index : ℕ} {ready failed : List Token}

theorem scan_clock {now : TimePoint} (agenda : world.agenda = [])
    (at_ : world.phase = .pendingLoop index ready failed)
    (stepped : managerSystem.step world (.work (.time now)) = some next) : next.clock = now := by
  have worked : world.work (.time now) = some next := stepped
  rw [World.work, agenda, at_] at worked
  obtain ⟨ticked, tick, rfl⟩ := Option.map_eq_some_iff.mp worked
  obtain rfl := tick_eq_some tick
  unfold World.pendingStep
  split
  · rfl
  · split
    · rfl
    · dsimp only
      split <;> rfl

theorem CallerStep.scan (locked : world.locked = true) (step : CallerStep world action next) :
    ScanStep world next index action := by
  cases step with
  | submit unlocked | waitNow unlocked | waitRegister unlocked | cancelWait unlocked
  | insertById unlocked | insertByGroup unlocked | groupIdle unlocked | clientSubmits unlocked =>
    rw [locked] at unlocked
    cases unlocked
  | cancelById | cancelByGroup =>
    unfold World.callCancel
    dsimp only
    split <;> exact .aside rfl rfl rfl (.refl _) rfl
  | setMaxPending | cancelWaitMissed | callerWaits | callerCancels | newClient | clientRejected
  | clientBegins => exact .aside rfl rfl rfl (.refl _) rfl

theorem HandleStep.scan (supported : Supported world) (step : HandleStep world action next) :
    ScanStep world next index action := by
  cases step with
  | create => exact .aside rfl rfl rfl (.create supported _ _ _) rfl
  | get | copy => exact .aside rfl rfl rfl (.refl _) rfl
  | @remove id =>
    have removed := Retires.removeLimit world.rateLimiter id
    unfold World.removeRateLimit
    dsimp only
    split
    · exact .aside rfl rfl rfl (removed.trans (retires_dropAll _ _ _)) rfl
    · exact .aside rfl rfl rfl removed rfl
  | drop | destroy => exact .aside rfl rfl rfl (retires_dropAll _ _ _) rfl
  | allow held => exact .allow held rfl
  | release => exact .release rfl

theorem scan_step (reachable : managerSystem.Reachable world)
    (at_ : world.phase = .pendingLoop index ready failed)
    (stepped : managerSystem.step world action = some next) :
    ScanStep world next index action := by
  have locked : world.locked = true := by rw [World.locked, at_]
  have agenda := scan_agenda reachable locked
  cases step_transition stepped with
  | jump empty jump =>
    cases jump with
    | refused here found carried answer =>
      obtain ⟨rfl, rfl, rfl⟩ := Phase.pendingLoop.inj (here.symm.trans at_)
      exact .refuse found carried answer rfl rfl rfl (scan_clock agenda at_ stepped)
    | _ here =>
      rw [at_] at here
      cases here
  | pending empty step =>
    cases step with
    | @scanned _ begun =>
      refine .leave ?_
      cases begun.isEmpty <;> rfl
    | badRequest here found carried =>
      obtain ⟨rfl, rfl, rfl⟩ := Phase.pendingLoop.inj (here.symm.trans at_)
      exact .erase found rfl rfl (Or.inl rfl) rfl
    | dispatch here found carried allowed =>
      obtain ⟨rfl, rfl, rfl⟩ := Phase.pendingLoop.inj (here.symm.trans at_)
      exact .erase found rfl rfl (Or.inr ⟨_, carried, rfl⟩) rfl
    | noMultiHandle here | start here | noEasyHandle here | batchBuilt here =>
      rw [at_] at here
      cases here
  | active empty step =>
    cases step with
    | _ here =>
      rw [at_] at here
      cases here
  | cancel empty step =>
    cases step with
    | _ here =>
      rw [at_] at here
      cases here
  | closing empty step =>
    cases step with
    | _ here =>
      rw [at_] at here
      cases here
  | agenda step =>
    obtain ⟨call, rest, filled, _⟩ := step.taken
    rw [agenda] at filled
    cases filled
  | shutdown empty here =>
    rw [at_] at here
    cases here
  | caller step => exact step.scan locked
  | handles step => exact step.scan (guarded_of_reachable reachable).supported

end Scan

/-! ### The pending list -/

/-- What a step does to the pending list. -/
inductive LineStep (world next : World) : Prop where
  | keep (counter : next.nextInFlightToken = world.nextInFlightToken)
    (pending : next.pendingRequests = world.pendingRequests)
  | join (counter : next.nextInFlightToken = world.nextInFlightToken + 1)
    (unlocked : next.locked = false)
    (pending : next.pendingRequests = world.pendingRequests ++ [world.nextInFlightToken])
  | take {index : ℕ} {token : Token}
    (counter : next.nextInFlightToken = world.nextInFlightToken)
    (found : world.pendingRequests[index]? = some token)
    (pending : next.pendingRequests = world.pendingRequests.eraseIdx index)
    (reason : (world.contexts token).request = none ∨ .dispatched token ∈ next.log)
  | requeue {token : Token} (counter : next.nextInFlightToken = world.nextInFlightToken)
    (agenda : world.agenda = []) (failed : token ∈ world.failedRequests)
    (pending : next.pendingRequests = world.pendingRequests ++ [token])
  | cancel (hit : Token → Bool) (counter : next.nextInFlightToken = world.nextInFlightToken)
    (pending : next.pendingRequests = world.pendingRequests.filter (!hit ·))
    (agenda : next.agenda = (world.pendingRequests.filter hit).map
      (.invokeFinalCallback · makeCancelledResponse))
  | cleanup (stopped : next.shutdown = true)

theorem submit_line (world : World) (request : Option HttpRequest) (callback : Bool) :
    ((world.submit request callback).nextInFlightToken = world.nextInFlightToken ∧
        (world.submit request callback).pendingRequests = world.pendingRequests) ∨
      ((world.submit request callback).nextInFlightToken = world.nextInFlightToken + 1 ∧
        (world.submit request callback).pendingRequests =
          world.pendingRequests ++ [world.nextInFlightToken]) := by
  rcases submit_cases world request callback with rejected | ⟨_, admitted⟩
  · rw [rejected]
    exact Or.inl ⟨rfl, rfl⟩
  · rw [admitted]
    exact Or.inr ⟨rfl, rfl⟩

theorem CallerStep.line (step : CallerStep world action next) : LineStep world next := by
  have submitted : world.locked = false →
      (next.nextInFlightToken = world.nextInFlightToken ∧
          next.pendingRequests = world.pendingRequests) ∨
        (next.nextInFlightToken = world.nextInFlightToken + 1 ∧
          next.pendingRequests = world.pendingRequests ++ [world.nextInFlightToken]) →
      LineStep world next := by
    rintro unlocked (⟨counter, same⟩ | ⟨counter, added⟩)
    · exact .keep counter same
    · refine .join counter ?_ added
      rw [World.locked, step.phase_eq.1]
      exact unlocked
  cases step with
  | submit unlocked | clientSubmits unlocked => exact submitted unlocked (submit_line _ _ _)
  | waitRegister unlocked registered =>
    obtain ⟨_, rfl⟩ := HttpRequestManager.registerWaiter_eq_some registered
    exact .keep rfl rfl
  | cancelWait unlocked removed =>
    obtain ⟨_, _, _, rfl⟩ := HttpRequestManager.cancelWait_eq_some removed
    exact .keep rfl rfl
  | insertByGroup unlocked found queued =>
    rw [HttpRequestManager.queueCancelByGroup_eq_some queued]
    exact .keep rfl rfl
  | cancelById | cancelByGroup =>
    unfold World.callCancel
    dsimp only
    split <;> exact .keep rfl rfl
  | _ => exact .keep rfl rfl

theorem Transition.line (controlled : Controlled world)
    (transition : Transition world action next) : LineStep world next := by
  cases transition with
  | jump => exact .keep rfl rfl
  | pending agenda step =>
    cases step with
    | badRequest at_ found carried => exact .take rfl found rfl (Or.inl carried)
    | dispatch at_ found =>
      exact .take rfl found rfl (Or.inr (List.mem_append_right _ List.mem_cons_self))
    | _ => exact .keep rfl rfl
  | active agenda step =>
    cases step with
    | requeue at_ found => exact .requeue rfl agenda (List.mem_of_getElem? found) rfl
    | _ => exact .keep rfl rfl
  | cancel agenda step =>
    cases step with
    | takeCancels => exact .cancel _ rfl rfl rfl
    | _ => exact .keep rfl rfl
  | closing agenda step =>
    cases step with
    | cleanup at_ => exact .cleanup (controlled.phase true (by rw [at_]; rfl))
    | _ => exact .keep rfl rfl
  | agenda step =>
    rcases step.effect with neutral | ⟨_, completes⟩
    · exact .keep neutral.counter step.unfilled.pending
    · exact .keep completes.counter step.unfilled.pending
  | shutdown => exact .keep rfl rfl
  | caller step => exact step.line
  | handles step => exact .keep step.neutral.counter step.unfilled.pending

/-- A call that tells of a cancellation stays on the agenda until it is made. -/
theorem Transition.cancelled (transition : Transition world action next)
    (called : .invokeFinalCallback token makeCancelledResponse ∈ world.agenda) :
    .invokeFinalCallback token makeCancelledResponse ∈ next.agenda ∨
      .response token makeCancelledResponse ∈ next.log := by
  have idle : world.agenda = [] → .invokeFinalCallback token makeCancelledResponse ∈ next.agenda ∨
      .response token makeCancelledResponse ∈ next.log := by
    intro empty
    rw [empty] at called
    exact absurd called List.not_mem_nil
  cases transition with
  | jump agenda | pending agenda | active agenda | cancel agenda | closing agenda
  | shutdown agenda => exact idle agenda
  | agenda step =>
    obtain ⟨call, rest, agenda, stays, answered⟩ := step.taken
    rw [agenda] at called
    rcases List.mem_cons.mp called with here | behind
    · exact Or.inr (answered _ _ here.symm)
    · exact Or.inl (stays behind)
  | caller step => exact Or.inl (step.phase_eq.2 ▸ called)
  | handles step => exact Or.inl (step.phase_eq.2 ▸ called)

/-! ### Two requests and the scan -/

/-- The requests have the same limits and keys. -/
def HttpRequest.SameLimits (first second : HttpRequest) : Prop :=
  first.generalRateLimit = second.generalRateLimit ∧
    first.generalRateLimitKey = second.generalRateLimitKey ∧
    first.specificRateLimit = second.specificRateLimit ∧
    first.specificRateLimitKey = second.specificRateLimitKey

instance (first second : HttpRequest) : Decidable (first.SameLimits second) :=
  inferInstanceAs (Decidable (_ ∧ _ ∧ _ ∧ _))

/-- The contexts carry requests with the same limits and keys. -/
def World.SharesLimits (world : World) (earlier later : Token) : Prop :=
  ∃ first second, (world.contexts earlier).request = some first ∧
    (world.contexts later).request = some second ∧ first.SameLimits second

/-- The pending requests that the scan has passed over. -/
def World.passed (world : World) : List Token :=
  match world.phase with
  | .pendingLoop index _ _ => world.pendingRequests.take index
  | _ => []

/-- The pending requests that the scan is still to reach. -/
def World.ahead (world : World) : List Token :=
  match world.phase with
  | .pendingLoop index _ _ => world.pendingRequests.drop index
  | _ => []

/-- The scan has passed over the first request, which was never dispatched, and is still to reach
the second one. -/
def World.Between (world : World) (earlier later : Token) : Prop :=
  .dispatched earlier ∉ world.log ∧ earlier ∈ world.passed ∧ later ∈ world.ahead

instance (world : World) (earlier later : Token) : Decidable (world.Between earlier later) :=
  inferInstanceAs (Decidable (_ ∧ _ ∧ _))

theorem World.scanning_of_passed (member : token ∈ world.passed) :
    ∃ index ready failed, world.phase = .pendingLoop index ready failed := by
  unfold World.passed at member
  split at member
  · rename_i index ready failed at_
    exact ⟨index, ready, failed, at_⟩
  · exact absurd member List.not_mem_nil

theorem World.between_iff {index : ℕ} {ready failed : List Token}
    (at_ : world.phase = .pendingLoop index ready failed) :
    world.Between earlier later ↔ .dispatched earlier ∉ world.log ∧
      earlier ∈ world.pendingRequests.take index ∧ later ∈ world.pendingRequests.drop index := by
  rw [World.Between, World.passed, World.ahead, at_]

/-- With this limiter and at this instant, something is in the way of the request. -/
def World.obstructed (world : World) (token : Token) (limiter : HttpRateLimiter)
    (now : TimePoint) : Bool :=
  (world.contexts token).request.any fun request => (request.call token).obstructed limiter now

/-- Between the two requests, the way does not become free by this change of the limiter or the
clock. -/
def World.StaysObstructed (world : World) (earlier later : Token) (limiter : HttpRateLimiter)
    (now : TimePoint) : Prop :=
  world.Between earlier later → world.obstructed earlier world.rateLimiter world.clock = true →
    world.obstructed earlier limiter now = true

instance (world : World) (earlier later : Token) (limiter : HttpRateLimiter) (now : TimePoint) :
    Decidable (world.StaysObstructed earlier later limiter now) :=
  inferInstanceAs (Decidable (_ → _ → _))

/-- A user calls `allow_request` with the token. -/
def Action.asksWith (token : Token) : Action → Bool
  | .allowRequest call _ => call.token == token
  | _ => false

/-- The condition on a step. Between the two requests, the clock does not reach the end of the
window that was in the way, and no user releases the token that was. No user asks with the token
of the second request. -/
def Undisturbed (earlier later : Token) (world : World) (action : Action) : Prop :=
  action.asksWith later = false ∧
    world.StaysObstructed earlier later (world.faced action).1 (world.faced action).2

instance (earlier later : Token) (world : World) (action : Action) :
    Decidable (Undisturbed earlier later world action) :=
  inferInstanceAs (Decidable (_ ∧ _))

theorem World.obstructed_of_carried {request : HttpRequest}
    (carried : (world.contexts token).request = some request) (limiter : HttpRateLimiter)
    (now : TimePoint) :
    world.obstructed token limiter now = (request.call token).obstructed limiter now := by
  rw [World.obstructed, carried]
  rfl

theorem HttpRequest.SameLimits.obstructed {first second : HttpRequest}
    (same : first.SameLimits second) (earlier later : Token) (limiter : HttpRateLimiter)
    (now : TimePoint) :
    (first.call earlier).obstructed limiter now = (second.call later).obstructed limiter now := by
  obtain ⟨general, generalKey, specific, specificKey⟩ := same
  simp only [RequestCall.obstructed, HttpRequest.call, general, generalKey, specific, specificKey]

/-- The handles of a pending request are held. -/
theorem pending_held (reachable : managerSystem.Reachable world)
    (pending : token ∈ world.pendingRequests) {request : HttpRequest}
    (carried : (world.contexts token).request = some request) :
    (request.call token).Held world.rateLimiter := by
  have guarded := guarded_of_reachable reachable
  exact guarded.supported.request_held (guarded.live_of_held (orderly_of_reachable reachable)
    (mem_holdings_of_pending pending)) carried

theorem counted_of_reachable (reachable : managerSystem.Reachable world) :
    Counted world.rateLimiter := by
  refine reachable.induction (fun world => Counted world.rateLimiter) ?_ ?_
  · intro id key params mark state header
    cases header
  · intro state action after reached counted stepped
    have guarded := guarded_of_reachable reached
    have orderly := orderly_of_reachable reached
    cases asks_of_step reached stepped with
    | calm calm => exact counted.retires guarded.supported calm.retires
    | dispatch dispatches =>
      rw [dispatches.limiter]
      exact counted.allow (dispatches.held guarded orderly) _
    | complete claims =>
      rcases claims.effect guarded orderly with ⟨same, _⟩ | ⟨request, _, held, released⟩
      · rw [same]
        exact counted
      · rw [released]
        exact counted.release held
    | allow held direct =>
      rw [direct]
      exact counted.allow (guarded.supported.user_held held) _
    | release held direct =>
      rw [direct]
      exact counted.release (guarded.supported.user_held held)

/-! ### In turn -/

/-- The request was dispatched, or its callback was told that it is cancelled. -/
def World.Served (world : World) (token : Token) : Prop :=
  .dispatched token ∈ world.log ∨ .response token makeCancelledResponse ∈ world.log

/-- The request waits for its first dispatch. -/
structure World.Waiting (world : World) (token : Token) : Prop where
  accepted : .accepted token ∈ world.log
  carried : ∃ request, (world.contexts token).request = some request
  running : world.shutdown = false
  unserved : ¬ world.Served token

/-- A request that waits is in the pending list, before the requests submitted after it, or is
about to be told that it is cancelled. If the scan has passed over it, it is still obstructed. -/
structure InTurn (earlier later : Token) (world : World) : Prop where
  queued : earlier ∈ world.pendingRequests ∨
    .invokeFinalCallback earlier makeCancelledResponse ∈ world.agenda
  line : ¬ [later, earlier].Sublist world.pendingRequests
  obstructed : world.Between earlier later →
    world.obstructed earlier world.rateLimiter world.clock = true

theorem sublist_of_concat {values : List Token} {value : Token}
    (order : [later, earlier].Sublist (values ++ [value])) (other : earlier ≠ value) :
    [later, earlier].Sublist values := by
  obtain ⟨left, right, same, first, second⟩ := List.sublist_append_iff.mp order
  rcases List.sublist_singleton.mp second with rfl | rfl
  · rw [List.append_nil] at same
    exact same ▸ first
  · have last := congrArg List.getLast? same
    rw [List.getLast?_append] at last
    exact absurd (by simpa using last) other

/-- A request that waits after the step waited before it, or was submitted by it. -/
theorem World.Waiting.before (waiting : next.Waiting token)
    (reachable : managerSystem.Reachable world)
    (stepped : managerSystem.step world action = some next)
    (accepted : .accepted token ∈ world.log) : world.Waiting token := by
  have asks := asks_of_step reachable stepped
  obtain ⟨events, logged, _⟩ := asks.logged
  refine ⟨accepted, ?_, ?_, fun served => waiting.unserved ?_⟩
  · rw [← asks.request_eq accepted]
    exact waiting.carried
  · exact (step_transition stepped).running (controlled_of_reachable reachable) waiting.running
  · rw [World.Served, logged]
    exact served.imp (List.mem_append_left _) (List.mem_append_left _)

/-- A request that has just been submitted is the last one. -/
theorem inTurn_of_fresh (reachable : managerSystem.Reachable world)
    (stepped : managerSystem.step world action = some next) (order : earlier < later)
    (waiting : next.Waiting earlier) (fresh : .accepted earlier ∉ world.log) :
    InTurn earlier later next := by
  have known := (accepted_iff (reachable.step stepped)).mp waiting.accepted
  rw [accepted_iff reachable, not_and, Nat.not_lt] at fresh
  have beyond := fresh known.1
  have grown : next.nextInFlightToken ≠ world.nextInFlightToken :=
    fun same => Nat.not_lt_of_le beyond (same ▸ known.2)
  cases (step_transition stepped).line (controlled_of_reachable reachable) with
  | keep counter | take counter | requeue counter | cancel _ counter => exact absurd counter grown
  | cleanup stopped =>
    have running := waiting.running
    rw [stopped] at running
    cases running
  | join counter unlocked pending =>
    obtain rfl : earlier = world.nextInFlightToken := by
      rw [counter] at known
      exact Nat.le_antisymm (Nat.le_of_lt_succ known.2) beyond
    refine ⟨Or.inl ?_, fun line => ?_, fun between => ?_⟩
    · rw [pending]
      exact List.mem_append_right _ List.mem_cons_self
    · have member : later ∈ next.pendingRequests := line.subset List.mem_cons_self
      have accepted := ((orderly_of_reachable (reachable.step stepped)).unfinished
        (mem_holdings_of_pending member)).1
      have below := ((accepted_iff (reachable.step stepped)).mp accepted).2
      rw [counter] at below
      exact absurd order (Nat.not_lt_of_le (Nat.le_of_lt_succ below))
    · obtain ⟨index, ready, failed, at_⟩ := World.scanning_of_passed between.2.1
      rw [World.locked, at_] at unlocked
      cases unlocked

theorem InTurn.queued_step (inTurn : InTurn earlier later world)
    (reachable : managerSystem.Reachable world)
    (stepped : managerSystem.step world action = some next) (before : world.Waiting earlier)
    (waiting : next.Waiting earlier) :
    earlier ∈ next.pendingRequests ∨
      .invokeFinalCallback earlier makeCancelledResponse ∈ next.agenda := by
  have transition := step_transition stepped
  rcases inTurn.queued with member | called
  · cases transition.line (controlled_of_reachable reachable) with
    | keep _ pending =>
      rw [pending]
      exact Or.inl member
    | join _ _ pending | requeue _ _ _ pending =>
      rw [pending]
      exact Or.inl (List.mem_append_left _ member)
    | @take index token _ found pending reason =>
      have other : token ≠ earlier := by
        rintro rfl
        rcases reason with nothing | dispatched
        · obtain ⟨request, carried⟩ := before.carried
          rw [nothing] at carried
          cases carried
        · exact waiting.unserved (Or.inl dispatched)
      obtain ⟨position, here⟩ := List.mem_iff_getElem?.mp member
      rw [pending]
      refine Or.inl (List.mem_eraseIdx_iff_getElem?.mpr ⟨position, ?_, here⟩)
      rintro rfl
      exact other (Option.some.inj (found.symm.trans here))
    | cancel hit _ pending agenda =>
      rw [pending, agenda]
      cases hits : hit earlier with
      | true =>
        exact Or.inr (List.mem_map.mpr ⟨earlier, List.mem_filter.mpr ⟨member, hits⟩, rfl⟩)
      | false => exact Or.inl (List.mem_filter.mpr ⟨member, by rw [hits]; rfl⟩)
    | cleanup stopped =>
      have running := waiting.running
      rw [stopped] at running
      cases running
  · rcases transition.cancelled called with still | answered
    · exact Or.inr still
    · exact absurd (Or.inr answered) waiting.unserved

theorem InTurn.line_step (inTurn : InTurn earlier later world)
    (reachable : managerSystem.Reachable world)
    (stepped : managerSystem.step world action = some next) (before : world.Waiting earlier)
    (waiting : next.Waiting earlier) : ¬ [later, earlier].Sublist next.pendingRequests := by
  have orderly := orderly_of_reachable reachable
  intro order
  refine inTurn.line ?_
  cases (step_transition stepped).line (controlled_of_reachable reachable) with
  | keep _ pending => exact pending ▸ order
  | take _ found pending => exact (pending ▸ order).trans (List.eraseIdx_sublist _ _)
  | cancel hit _ pending => exact (pending ▸ order).trans List.filter_sublist
  | join _ _ pending =>
    rw [pending] at order
    exact sublist_of_concat order (Nat.ne_of_lt (orderly.lt_of_accepted before.accepted))
  | requeue _ agenda failed pending =>
    rw [pending] at order
    refine sublist_of_concat order ?_
    rintro rfl
    -- A request that was never dispatched is in the pending list, and in no other.
    have member : earlier ∈ world.pendingRequests := by
      refine inTurn.queued.resolve_right fun called => ?_
      rw [agenda] at called
      exact absurd called List.not_mem_nil
    obtain ⟨_, retries, queued, _⟩ :=
      orderly.custody.fits _ _ (mem_holdings_of_pending member)
    obtain ⟨_, others, retrying, _⟩ := orderly.custody.fits _ _ (mem_holdings_of_failed failed)
    exact absurd (queued.symm.trans retrying) (by simp)
  | cleanup stopped =>
    have running := waiting.running
    rw [stopped] at running
    cases running

theorem World.scanning_of_locked (locked : world.locked = true) :
    ∃ index ready failed, world.phase = .pendingLoop index ready failed := by
  unfold World.locked at locked
  split at locked
  · rename_i index ready failed at_
    exact ⟨index, ready, failed, at_⟩
  · cases locked

/-- An entry is taken out where the scan is. -/
theorem mem_of_eraseIdx {values : List Token} {index : ℕ} (found : values[index]? = some token)
    (passed : earlier ∈ (values.eraseIdx index).take index)
    (ahead : later ∈ (values.eraseIdx index).drop index) :
    earlier ∈ values.take index ∧ later ∈ values.drop index := by
  have inside : index < values.length := (List.getElem?_eq_some_iff.mp found).1
  have length : (values.take index).length = index := List.length_take_of_le (Nat.le_of_lt inside)
  rw [List.eraseIdx_eq_take_drop_succ] at passed ahead
  rw [List.take_left' length] at passed
  rw [List.drop_left' length] at ahead
  exact ⟨passed, (List.drop_sublist_drop_left _ (Nat.le_succ _)).subset ahead⟩

/-- The scan comes between the two requests when it refuses the first one. -/
theorem ScanStep.between {index : ℕ} {ready failed : List Token}
    (step : ScanStep world next index action)
    (at_ : world.phase = .pendingLoop index ready failed) (nextLocked : next.locked = true)
    (undispatched : .dispatched earlier ∉ world.log) (between : next.Between earlier later) :
    world.Between earlier later ∨ ∃ request, (world.contexts earlier).request = some request ∧
      ((request.call earlier).allow world.rateLimiter next.clock).1 = false ∧
      next.rateLimiter = world.rateLimiter := by
  rw [World.between_iff at_]
  cases step with
  | leave unlocked =>
    rw [nextLocked] at unlocked
    cases unlocked
  | refuse found carried refused phase pending limiter clock =>
    rw [World.between_iff phase, pending, List.take_add_one, found] at between
    obtain ⟨_, passed, ahead⟩ := between
    rcases List.mem_append.mp passed with old | new
    · exact Or.inl
        ⟨undispatched, old, (List.drop_sublist_drop_left _ (Nat.le_succ _)).subset ahead⟩
    · obtain rfl := List.mem_singleton.mp new
      rw [clock]
      exact Or.inr ⟨_, carried, refused, limiter⟩
  | erase found phase pending =>
    rw [World.between_iff phase, pending] at between
    exact Or.inl ⟨undispatched, mem_of_eraseIdx found between.2.1 between.2.2⟩
  | aside _ phase pending =>
    rw [World.between_iff (phase.trans at_), pending] at between
    exact Or.inl ⟨undispatched, between.2⟩
  | allow _ direct | release direct =>
    subst direct
    exact Or.inl ((World.between_iff at_).mp between)

/-- What is in the way of a pending request that the step faces, is there after the step. -/
theorem ScanStep.obstructed {index : ℕ} {request : HttpRequest}
    (step : ScanStep world next index action) (reachable : managerSystem.Reachable world)
    (nextLocked : next.locked = true) (held : (request.call earlier).Held world.rateLimiter)
    (heldNext : (request.call earlier).Held next.rateLimiter)
    (faced : (request.call earlier).obstructed (world.faced action).1 (world.faced action).2 =
      true) :
    (request.call earlier).obstructed next.rateLimiter next.clock = true := by
  have supported := (guarded_of_reachable reachable).supported
  have counted := counted_of_reachable reachable
  cases step with
  | leave unlocked =>
    rw [nextLocked] at unlocked
    cases unlocked
  | refuse found carried refused phase pending limiter clock =>
    rw [limiter, clock]
    exact faced
  | erase found phase pending limiter clock =>
    rw [clock]
    rcases limiter with same | ⟨other, carried, committed⟩
    · rw [same]
      exact faced
    · rw [committed]
      exact obstructed_allow counted held
        (pending_held reachable (List.mem_of_getElem? found) carried) faced
  | aside unchanged phase pending retires clock =>
    rw [unchanged] at faced
    rw [clock]
    exact obstructed_retires supported retires heldNext faced
  | allow userHeld direct =>
    subst direct
    exact obstructed_allow counted held (supported.user_held userHeld) faced
  | release direct =>
    subst direct
    exact faced

/-- What has refused the first request is in its way until the scan has reached the second one. -/
theorem InTurn.obstructed_step (inTurn : InTurn earlier later world)
    (undisturbed : Undisturbed earlier later world action)
    (reachable : managerSystem.Reachable world)
    (stepped : managerSystem.step world action = some next) (before : world.Waiting earlier)
    (between : next.Between earlier later) :
    next.obstructed earlier next.rateLimiter next.clock = true := by
  obtain ⟨request, carried⟩ := before.carried
  have carriedNext := ((asks_of_step reachable stepped).request_eq before.accepted).trans carried
  rw [World.obstructed_of_carried carriedNext]
  obtain ⟨position, _, _, nextAt⟩ := World.scanning_of_passed between.2.1
  have nextLocked : next.locked = true := by rw [World.locked, nextAt]
  have pendingNext := List.mem_of_mem_take ((World.between_iff nextAt).mp between).2.1
  rcases (step_transition stepped).scans nextLocked with ⟨begun, _⟩ | ⟨locked, _⟩
  · rw [World.between_iff begun] at between
    exact absurd between.2.1 List.not_mem_nil
  have pending : earlier ∈ world.pendingRequests := by
    refine inTurn.queued.resolve_right fun called => ?_
    rw [scan_agenda reachable locked] at called
    exact absurd called List.not_mem_nil
  have held := pending_held reachable pending carried
  obtain ⟨index, ready, failed, at_⟩ := World.scanning_of_locked locked
  have step := scan_step reachable at_ stepped
  rcases step.between at_ nextLocked (fun old => before.unserved (Or.inl old)) between with
    still | ⟨again, carriedAgain, refused, limiter⟩
  · refine step.obstructed reachable nextLocked held
      (pending_held (reachable.step stepped) pendingNext carriedNext) ?_
    rw [← World.obstructed_of_carried carried]
    exact undisturbed.2 still (inTurn.obstructed still)
  · obtain rfl := Option.some.inj (carriedAgain.symm.trans carried)
    rw [limiter]
    exact obstructed_of_refused held refused

theorem InTurn.step (inTurn : InTurn earlier later world)
    (undisturbed : Undisturbed earlier later world action)
    (reachable : managerSystem.Reachable world)
    (stepped : managerSystem.step world action = some next) (before : world.Waiting earlier)
    (waiting : next.Waiting earlier) : InTurn earlier later next :=
  ⟨inTurn.queued_step reachable stepped before waiting,
    inTurn.line_step reachable stepped before waiting,
    inTurn.obstructed_step undisturbed reachable stepped before⟩

theorem inTurn_of_runs {actions : List Action} (order : earlier < later)
    (runs : managerSystem.Runs managerSystem.init actions world)
    (undisturbed : managerSystem.Throughout (Undisturbed earlier later) managerSystem.init actions)
    (waiting : world.Waiting earlier) : InTurn earlier later world := by
  refine runs.induction_throughout undisturbed
    (fun world => world.Waiting earlier → InTurn earlier later world) System.reachable_init
    (fun nobody => absurd nobody.accepted List.not_mem_nil) ?_ waiting
  intro state action after reached met inTurn stepped still
  by_cases accepted : .accepted earlier ∈ state.log
  · have before := still.before reached stepped accepted
    exact (inTurn before).step met reached stepped before still
  · exact inTurn_of_fresh reached stepped order still accepted

/-- The token of the second request is on no coordinate before the request is dispatched. -/
theorem seated_of_runs {actions : List Action}
    (runs : managerSystem.Runs managerSystem.init actions world)
    (undisturbed : managerSystem.Throughout (Undisturbed earlier later) managerSystem.init
      actions) : Seated later world := by
  refine runs.induction_throughout undisturbed (Seated later) System.reachable_init
    (fun _ _ member => absurd member (Finset.notMem_empty _)) ?_
  intro state action after reached met seated stepped
  refine seated.step reached (asks_of_step reached stepped) fun call now same => ?_
  have foreign := met.1
  rw [same] at foreign
  simpa [Action.asksWith] using foreign

/-- The log only grows. -/
theorem log_prefix_of_step (stepped : managerSystem.step world action = some next) :
    world.log <+: next.log := by
  rcases (step_transition stepped).effect with neutral | ⟨_, _, admits⟩ | ⟨_, completes⟩
  · obtain ⟨events, logged, _⟩ := neutral.logged
    exact ⟨events, logged.symm⟩
  · exact ⟨_, admits.logged.symm⟩
  · exact ⟨_, completes.logged.symm⟩

/-- An admitted context keeps its request in every run. -/
theorem request_of_runs {actions : List Action} {finish : World}
    (reachable : managerSystem.Reachable world) (runs : managerSystem.Runs world actions finish)
    (accepted : .accepted token ∈ world.log) :
    (finish.contexts token).request = (world.contexts token).request := by
  have kept : .accepted token ∈ finish.log ∧
      (finish.contexts token).request = (world.contexts token).request := by
    refine runs.induction (fun state => .accepted token ∈ state.log ∧
      (state.contexts token).request = (world.contexts token).request) reachable
      ⟨accepted, rfl⟩ ?_
    rintro state action after reached _ ⟨there, same⟩ stepped
    exact ⟨(log_prefix_of_step stepped).subset there,
      ((asks_of_step reached stepped).request_eq there).trans same⟩
  exact kept.2

theorem HandleStep.log_eq (step : HandleStep world action next) : next.log = world.log := by
  obtain ⟨_, _, _, _, rfl⟩ := step.frame
  rfl

/-- The step that dispatches a request for the first time. -/
theorem dispatch_of_logged (reachable : managerSystem.Reachable world)
    (stepped : managerSystem.step world action = some next)
    (old : .dispatched token ∉ world.log) (new : .dispatched token ∈ next.log) :
    ∃ index ready failed request now, world.phase = .pendingLoop index ready failed ∧
      world.pendingRequests[index]? = some token ∧
      (world.contexts token).request = some request ∧
      ((request.call token).allow world.rateLimiter now).1 = true ∧
      action = .work (.time now) ∧ next.log = world.log ++ [.dispatched token] := by
  have supported := (guarded_of_reachable reachable).supported
  have orderly := orderly_of_reachable reachable
  have calm : ¬ Calm world next := by
    intro calm
    obtain ⟨events, logged, silent⟩ := calm.logged
    rw [logged] at new
    exact (List.mem_append.mp new).elim old (silent token).1
  cases step_transition stepped with
  | jump => exact absurd new old
  | pending agenda step =>
    cases step with
    | @dispatch index ready failed begun request now at_ found carried allowed =>
      obtain rfl : token = begun := by simpa [old] using new
      exact ⟨index, ready, failed, request, now, at_, found, carried, allowed, rfl, rfl⟩
    | start => exact absurd (by simpa using new) old
    | _ => exact absurd new old
  | active agenda step => exact absurd (step.calm supported) calm
  | cancel agenda step => exact absurd (step.calm supported) calm
  | closing agenda step => exact absurd (step.calm supported) calm
  | caller step => exact absurd (step.calm supported orderly) calm
  | agenda step =>
    cases step with
    | completeAgain | handlerAnswered | destroyHandler | cancelHandler => exact absurd new old
    | _ => exact absurd (by simpa using new) old
  | shutdown => exact absurd (by simpa using new) old
  | handles step =>
    rw [step.log_eq] at new
    exact absurd new old

/-- When the second request is dispatched for the first time, the first one does not wait. -/
theorem InTurn.not_dispatch (inTurn : InTurn earlier later world)
    (waiting : world.Waiting earlier) (undisturbed : Undisturbed earlier later world action)
    (seated : Seated later world) (order : earlier < later)
    (shares : world.SharesLimits earlier later) (reachable : managerSystem.Reachable world)
    (stepped : managerSystem.step world action = some next)
    (old : .dispatched later ∉ world.log) : .dispatched later ∉ next.log := by
  intro new
  obtain ⟨index, ready, failed, request, now, at_, found, carried, allowed, rfl, _⟩ :=
    dispatch_of_logged reachable stepped old new
  obtain ⟨first, second, firstCarried, secondCarried, same⟩ := shares
  obtain rfl := Option.some.inj (carried.symm.trans secondCarried)
  have here : world.pendingRequests.drop index =
      later :: world.pendingRequests.drop (index + 1) := by
    obtain ⟨inside, equal⟩ := List.getElem?_eq_some_iff.mp found
    rw [List.drop_eq_getElem_cons inside, equal]
  have pending : earlier ∈ world.pendingRequests := by
    refine inTurn.queued.resolve_right fun called => ?_
    rw [scan_agenda reachable (by rw [World.locked, at_])] at called
    exact absurd called List.not_mem_nil
  have passed : earlier ∈ world.pendingRequests.take index := by
    rw [← List.take_append_drop index world.pendingRequests, here] at pending
    rcases List.mem_append.mp pending with passed | ahead
    · exact passed
    · rcases List.mem_cons.mp ahead with equal | behind
      · exact absurd equal (Nat.ne_of_lt order)
      · refine absurd ?_ inTurn.line
        have line := (List.singleton_sublist.mpr behind).cons_cons later
        rw [← here] at line
        exact line.trans (List.drop_sublist _ _)
  have between : world.Between earlier later := by
    rw [World.between_iff at_, here]
    exact ⟨fun dispatched => waiting.unserved (Or.inl dispatched), passed, List.mem_cons_self⟩
  have obstructed := undisturbed.2 between (inTurn.obstructed between)
  rw [World.obstructed_of_carried firstCarried, same.obstructed earlier later] at obstructed
  have accepted := ((orderly_of_reachable reachable).unfinished
    (mem_holdings_of_pending (List.mem_of_getElem? found))).1
  have refused := refused_of_obstructed
    (pending_held reachable (List.mem_of_getElem? found) carried) obstructed
    (token_ne_zero reachable accepted) fun id key member => old (seated id key member).2.1
  rw [World.faced] at refused
  rw [refused] at allowed
  cases allowed

/-- In every run, for every clock that does not go back: if between two requests with the same
limits and keys the way never becomes free, and no user asks with the token of the second one, then
before any dispatch of the second one the first was dispatched, or told that it is cancelled. -/
theorem dispatched_in_order {actions : List Action} {finish : World} {before after : List Event}
    (runs : managerSystem.Runs managerSystem.init actions finish)
    (undisturbed : managerSystem.Throughout (Undisturbed earlier later) managerSystem.init actions)
    (order : [.accepted earlier, .accepted later].Sublist finish.log)
    (shares : finish.SharesLimits earlier later)
    (dispatched : finish.log = before ++ .dispatched later :: after) :
    .dispatched earlier ∈ before ∨ .response earlier makeCancelledResponse ∈ before := by
  have below := lt_of_accepted_before ⟨_, runs⟩ order
  have known := (accepted_iff ⟨_, runs⟩).mp (order.subset List.mem_cons_self)
  -- The first dispatch of the second request.
  obtain ⟨start, rest, split, never⟩ := List.eq_append_cons_of_mem
    (List.mem_append_right before (List.mem_singleton_self (Event.dispatched later)))
  have first : finish.log = start ++ .dispatched later :: (rest ++ after) := by
    rw [dispatched, ← List.singleton_append, ← List.append_assoc, split, List.append_assoc,
      List.cons_append]
  have inside : ∀ event ∈ start, event ∈ before := by
    intro event member
    have either : event ∈ before ++ [.dispatched later] := by
      rw [split]
      exact List.mem_append_left _ member
    refine (List.mem_append.mp either).resolve_right fun last => never ?_
    exact List.mem_singleton.mp last ▸ member
  obtain ⟨earlierActions, action, laterActions, state, next, rfl, reaches, stepped, held, tail,
    logged⟩ := runs.exists_appending (fun _ _ _ => log_prefix_of_step) first (Nat.zero_le _)
  have reached : managerSystem.Reachable state := ⟨_, reaches⟩
  have remaining : managerSystem.Runs state (action :: laterActions) finish := by
    obtain ⟨middle, first, second⟩ := System.runs_append.mp runs
    exact Option.some.inj (first.symm.trans reaches) ▸ second
  have old : .dispatched later ∉ state.log := fun member => never (held.subset member)
  have new : .dispatched later ∈ next.log := by
    rw [logged]
    exact List.mem_append_right _ List.mem_cons_self
  obtain ⟨index, ready, failed, _, _, at_, found, _⟩ :=
    dispatch_of_logged reached stepped old new
  have laterAccepted := ((orderly_of_reachable reached).unfinished
    (mem_holdings_of_pending (List.mem_of_getElem? found))).1
  have earlierAccepted : .accepted earlier ∈ state.log :=
    (accepted_iff reached).mpr
      ⟨known.1, below.trans ((accepted_iff reached).mp laterAccepted).2⟩
  have sharesBefore : state.SharesLimits earlier later := by
    rw [World.SharesLimits, ← request_of_runs reached remaining earlierAccepted,
      ← request_of_runs reached remaining laterAccepted]
    exact shares
  by_cases served : state.Served earlier
  · exact served.imp (fun member => inside _ (held.subset member))
      fun member => inside _ (held.subset member)
  · have running := (controlled_of_reachable reached).running at_ rfl
    have waiting : state.Waiting earlier :=
      ⟨earlierAccepted, sharesBefore.imp fun _ both => both.choose_spec.1, running, served⟩
    have inTurn := inTurn_of_runs below reaches undisturbed.of_append waiting
    exact absurd new (inTurn.not_dispatch waiting (undisturbed.here reaches)
      (seated_of_runs reaches undisturbed.of_append) below sharesBefore reached stepped old)

/-! ### Three requests and a limit of one in ten milliseconds -/

/-- Three requests with the same key of a sequential limit are submitted. -/
def threeSerial : List Action :=
  [.createRateLimit 1 10 true, .submitRequest (some serialRequest) true,
    .submitRequest (some serialRequest) true, .submitRequest (some serialRequest) true]

/-- `process` scans the pending list at these instants, and the one request that it dispatches is
transferred. -/
def transferOne (readings : List TimePoint) (now : TimePoint) : List Action :=
  List.flatten [[.callProcess, .work .proceed], readings.map fun reading => .work (.time reading),
    [.work (.multiInit true), .work (.easyInit true true), .work .proceed, .work .proceed,
      .work (.performed true false), .work (.message 0 { result := 0, responseCode := 200 } now)],
    List.replicate 3 (.work .proceed), [.work .noMessage], List.replicate 3 (.work .proceed),
    [.work (.time now), .work .proceed, .work .proceed]]

/-- The requests are dispatched in three passes, at twenty, thirty-two and sixty milliseconds. -/
def threeInTurn : List Action :=
  List.flatten [threeSerial, transferOne [20000000, 20000000, 20000000, 20000000] 21000000,
    transferOne [32000000, 32000000, 33000000] 34000000,
    [.callProcess, .work .proceed, .work (.time 60000000)]]

theorem dispatched_in_order_threeInTurn :
    ∃ finish before, managerSystem.Runs managerSystem.init threeInTurn finish ∧
      finish.log = before ++ [.dispatched 3] ∧
      (.dispatched 2 ∈ before ∨ .response 2 makeCancelledResponse ∈ before) := by
  have evaluated : (managerSystem.run managerSystem.init threeInTurn).any (fun finish =>
      decide ((finish.contexts 2).request = some serialRequest ∧
        (finish.contexts 3).request = some serialRequest ∧
        [.accepted 2, .accepted 3].Sublist finish.log ∧
        finish.log = finish.log.dropLast ++ [.dispatched 3])) = true := by
    decide +kernel
  have undisturbed : managerSystem.Throughout (Undisturbed 2 3) managerSystem.init threeInTurn := by
    decide +kernel
  obtain ⟨finish, runs, checked⟩ := System.exists_runs evaluated
  obtain ⟨first, second, order, logged⟩ := of_decide_eq_true checked
  have shares : finish.SharesLimits 2 3 := ⟨_, _, first, second, by decide⟩
  exact ⟨finish, _, runs, logged, dispatched_in_order runs undisturbed order shares logged⟩

/-- The second request is refused a millisecond before the period of the first one ends, and the
third is asked for when it has ended. -/
def overtaking : List Action :=
  List.flatten [threeSerial, transferOne [20000000, 20000000, 20000000, 20000000] 21000000,
    [.callProcess, .work .proceed, .work (.time 29000000), .work (.time 30000000)]]

theorem third_dispatched_first :
    ¬ ∀ (actions : List Action) (finish : World) (earlier later : Token) (request : HttpRequest)
      (id : LimitId) (key : String) (params : LimitParams) (before after : List Event),
      managerSystem.Runs managerSystem.init actions finish →
      [.accepted earlier, .accepted later].Sublist finish.log →
      finish.SharesLimits earlier later → (finish.contexts earlier).request = some request →
      (request.call earlier).Names id key → Registered finish.rateLimiter id params →
      params.sequential = true → finish.log = before ++ .dispatched later :: after →
        .dispatched earlier ∈ before ∨ .response earlier makeCancelledResponse ∈ before := by
  intro promised
  have evaluated : (managerSystem.run managerSystem.init overtaking).any (fun finish =>
      decide ((finish.contexts 2).request = some serialRequest ∧
        (finish.contexts 3).request = some serialRequest ∧
        headerAt finish.rateLimiter 1 = some (⟨1, 10, true⟩, false) ∧
        [.accepted 2, .accepted 3].Sublist finish.log ∧
        finish.log = finish.log.dropLast ++ [.dispatched 3] ∧ .dispatched 2 ∉ finish.log ∧
        .response 2 makeCancelledResponse ∉ finish.log)) = true := by
    decide +kernel
  obtain ⟨finish, runs, checked⟩ := System.exists_runs evaluated
  obtain ⟨first, second, header, order, logged, undispatched, uncancelled⟩ :=
    of_decide_eq_true checked
  have shares : finish.SharesLimits 2 3 := ⟨_, _, first, second, by decide⟩
  rcases promised overtaking finish 2 3 serialRequest 1 "k" ⟨1, 10, true⟩ _ [] runs order shares first
    (by decide) ⟨by decide, header⟩ rfl logged with dispatched | cancelled
  · exact undispatched (List.mem_of_mem_dropLast dispatched)
  · exact uncancelled (List.mem_of_mem_dropLast cancelled)

end Kurlyk.Http
