/-
This file is about the manager and its rate limiter. The manager asks it when it
dispatches a request and releases it when it completes one; users may call it
directly; everything else only creates limits and drops handles. So every step
is one of five (`Asks`), and the invariant says that the limits of all live
handles are in place, that the context of an uncompleted request is alive, that
`on_complete` is armed exactly since the first dispatch, and that a coordinate is
a lock.
-/

import Kurlyk.RateLimiter.Tokens
import Kurlyk.Http.Handlers
import Kurlyk.Http.Shutdown

namespace Kurlyk.Http

open RateLimiter

variable {world next : World} {action : Action} {token : Token}

/-! ### Handles -/

theorem mem_heldHandles_iff {id : LimitId} :
    id ∈ world.heldHandles ↔ id ∈ world.userHandles ∨
      (∃ token ∈ world.live, id ∈ (world.contexts token).handles) ∨
      ∃ caller ∈ world.callers, id ∈ caller.handles := by
  rw [World.heldHandles, List.mem_append, List.mem_append, List.mem_flatMap, List.mem_flatMap,
    or_assoc]

/-- The limits of all live handles are in place. -/
def Supported (world : World) : Prop :=
  Supports world.rateLimiter (· ∈ world.heldHandles)

/-- A call with handles its user holds. -/
theorem Supported.user_held (supported : Supported world) {call : RequestCall}
    (held : call.handles ⊆ world.userHandles) : call.Held world.rateLimiter :=
  supported.call_held fun _ member => mem_heldHandles_iff.mpr (Or.inl (held member))

/-- The call of a request whose context is alive. -/
theorem Supported.request_held (supported : Supported world) {request : HttpRequest}
    (alive : token ∈ world.live) (carried : (world.contexts token).request = some request) :
    (request.call token).Held world.rateLimiter := by
  refine supported.call_held fun id member => mem_heldHandles_iff.mpr (Or.inr (Or.inl ?_))
  refine ⟨token, alive, ?_⟩
  rw [HttpRequestContext.handles, carried]
  exact member

/-! ### What a step asks of the limiter -/

/-- The step leaves the requests of admitted contexts and their `on_complete` alone. -/
def KeepsCalls (world next : World) : Prop :=
  ∀ token, .accepted token ∈ world.log →
    (next.contexts token).request = (world.contexts token).request ∧
      (next.contexts token).onComplete = (world.contexts token).onComplete

/-- A step that makes no call of the limiter. Limits and handles may come and go, and one request
may be admitted. -/
structure Calm (world next : World) : Prop where
  retires : Retires world.rateLimiter next.rateLimiter
  supported : Supported next
  contexts : KeepsCalls world next
  live : ∀ token ∈ world.live, token ∈ next.live ∨ token ∉ world.owned
  logged : ∃ events, next.log = world.log ++ events ∧ ∀ token,
    .dispatched token ∉ events ∧ .completing token ∉ events ∧
      (.accepted token ∈ events → token ∈ next.live ∧ (next.contexts token).onComplete = none ∧
        stageOf world.log token = .absent)

/-- The handles and the contexts that hold them stay. -/
structure SameHolders (world next : World) : Prop where
  live : next.live = world.live
  users : next.userHandles = world.userHandles
  callers : next.callers = world.callers
  requests : ∀ token, (next.contexts token).request = (world.contexts token).request

theorem SameHolders.mem_iff (same : SameHolders world next) {id : LimitId} :
    id ∈ next.heldHandles ↔ id ∈ world.heldHandles := by
  simp only [mem_heldHandles_iff, HttpRequestContext.handles, same.live, same.users, same.callers,
    same.requests]

theorem SameHolders.supports (same : SameHolders world next) {limiter : HttpRateLimiter}
    (supports : Supports limiter (· ∈ world.heldHandles)) :
    Supports limiter (· ∈ next.heldHandles) :=
  supports.mono fun _ member => Or.inl (same.mem_iff.mp member)

/-- The scan of the pending list dispatches a request. -/
structure Dispatches (world next : World) (token : Token) (request : HttpRequest)
    (now : TimePoint) : Prop where
  pending : token ∈ world.pendingRequests
  carried : (world.contexts token).request = some request
  allowed : ((request.call token).allow world.rateLimiter now).1 = true
  limiter : next.rateLimiter = ((request.call token).allow world.rateLimiter now).2
  contexts : next.contexts = Function.update world.contexts token
    { world.contexts token with onComplete := some (request.call token) }
  holders : SameHolders world next
  logged : next.log = world.log ++ [.dispatched token]

/-- `complete` claims a context and releases its limits. -/
structure Claims (world next : World) (token : Token) : Prop where
  agenda : ∃ rest, world.agenda = .complete token :: rest
  limiter : next.rateLimiter = ((world.contexts token).onComplete.map
    (·.release world.rateLimiter)).getD world.rateLimiter
  contexts : KeepsCalls world next
  holders : SameHolders world next
  logged : next.log = world.log ++ [.completing token]

/-- What a step asks of the limiter. -/
inductive Asks (world next : World) : Action → Prop where
  | calm {action : Action} (calm : Calm world next) : Asks world next action
  | dispatch {action : Action} {token : Token} {request : HttpRequest} {now : TimePoint}
    (dispatches : Dispatches world next token request now) : Asks world next action
  | complete {action : Action} {token : Token} (claims : Claims world next token) :
    Asks world next action
  | allow {call : RequestCall} {now : TimePoint} (held : call.handles ⊆ world.userHandles)
    (direct : next = { world with
      rateLimiter := (call.allow world.rateLimiter now).2
      clock := now }) :
    Asks world next (.allowRequest call now)
  | release {call : RequestCall} (held : call.handles ⊆ world.userHandles)
    (direct : next = { world with rateLimiter := call.release world.rateLimiter }) :
    Asks world next (.releaseRequest call)

/-- A step that the limiter does not notice. -/
theorem Calm.quiet (supported : Supported world) (events : List Event)
    (limiter : next.rateLimiter = world.rateLimiter) (holders : SameHolders world next)
    (armed : ∀ token, (next.contexts token).onComplete = (world.contexts token).onComplete)
    (logged : next.log = world.log ++ events)
    (silent : ∀ token, .dispatched token ∉ events ∧ .completing token ∉ events ∧
      .accepted token ∉ events) : Calm world next := by
  refine ⟨limiter ▸ .refl _, ?_, fun token _ => ⟨holders.requests token, armed token⟩, ?_,
    events, logged, fun token => ⟨(silent token).1, (silent token).2.1, fun accepted =>
      absurd accepted (silent token).2.2⟩⟩
  · rw [Supported, limiter]
    exact holders.supports supported
  · rw [holders.live]
    exact fun _ alive => Or.inl alive

/-- A step that rewrites one context, but not its request or its `on_complete`. -/
theorem Calm.update (supported : Supported world) (events : List Event)
    {context : HttpRequestContext}
    (limiter : next.rateLimiter = world.rateLimiter)
    (contexts : next.contexts = Function.update world.contexts token context)
    (request : context.request = (world.contexts token).request)
    (armed : context.onComplete = (world.contexts token).onComplete)
    (live : next.live = world.live) (users : next.userHandles = world.userHandles)
    (callers : next.callers = world.callers) (logged : next.log = world.log ++ events)
    (silent : ∀ token, .dispatched token ∉ events ∧ .completing token ∉ events ∧
      .accepted token ∉ events) : Calm world next := by
  have fields : ∀ about, (next.contexts about).request = (world.contexts about).request ∧
      (next.contexts about).onComplete = (world.contexts about).onComplete := by
    intro about
    rw [contexts]
    by_cases same : about = token
    · rw [same, Function.update_self]
      exact ⟨request, armed⟩
    · rw [Function.update_of_ne same]
      exact ⟨rfl, rfl⟩
  exact .quiet supported events limiter ⟨live, users, callers, fun about => (fields about).1⟩
    (fun about => (fields about).2) logged silent

/-! ### The worker -/

theorem PendingStep.asks {input : World.Input} (supported : Supported world)
    (step : PendingStep world input next) : Asks world next (.work input) := by
  have same : ∀ token, (world.contexts token).request = (world.contexts token).request :=
    fun _ => rfl
  cases step with
  | @dispatch index ready failed token request now at_ found carried allowed =>
    refine .dispatch ⟨List.mem_of_getElem? found, carried, allowed, rfl, rfl,
      ⟨rfl, rfl, rfl, fun about => ?_⟩, rfl⟩
    by_cases about_ : about = token
    · rw [about_]
      dsimp only
      rw [Function.update_self]
    · dsimp only
      rw [Function.update_of_ne about_]
  | start =>
    exact .calm (.quiet supported _ rfl ⟨rfl, rfl, rfl, same⟩ (fun _ => rfl) rfl (by simp))
  | _ =>
    exact .calm (.quiet supported [] rfl ⟨rfl, rfl, rfl, same⟩ (fun _ => rfl)
      (List.append_nil _).symm (by simp))

theorem ActiveStep.calm {input : World.Input} (supported : Supported world)
    (step : ActiveStep world input next) : Calm world next := by
  cases step with
  | stream | requeue =>
    exact .quiet supported _ rfl ⟨rfl, rfl, rfl, fun _ => rfl⟩ (fun _ => rfl) rfl (by simp)
  | retry => exact .update supported _ rfl rfl rfl rfl rfl rfl rfl rfl (by simp)
  | finish =>
    exact .update supported [] rfl rfl rfl rfl rfl rfl rfl (List.append_nil _).symm (by simp)
  | _ =>
    exact .quiet supported [] rfl ⟨rfl, rfl, rfl, fun _ => rfl⟩ (fun _ => rfl)
      (List.append_nil _).symm (by simp)

theorem CancelStep.calm (supported : Supported world) (step : CancelStep world next) :
    Calm world next := by
  cases step with
  | _ =>
    exact .quiet supported [] rfl ⟨rfl, rfl, rfl, fun _ => rfl⟩ (fun _ => rfl)
      (List.append_nil _).symm (by simp)

theorem ClosingStep.calm (supported : Supported world) (step : ClosingStep world next) :
    Calm world next := by
  cases step with
  | _ =>
    exact .quiet supported [] rfl ⟨rfl, rfl, rfl, fun _ => rfl⟩ (fun _ => rfl)
      (List.append_nil _).symm (by simp)

theorem AgendaStep.asks (supported : Supported world) (step : AgendaStep world next) :
    Asks world next (.work .proceed) := by
  cases step with
  | @complete token rest agenda unclaimed =>
    have fields : ∀ about, (Function.update world.contexts token
        { world.contexts token with completeCalled := true } about).request =
          (world.contexts about).request ∧
        (Function.update world.contexts token
          { world.contexts token with completeCalled := true } about).onComplete =
          (world.contexts about).onComplete := by
      intro about
      by_cases same : about = token
      · rw [same, Function.update_self]
        exact ⟨rfl, rfl⟩
      · rw [Function.update_of_ne same]
        exact ⟨rfl, rfl⟩
    exact .complete ⟨⟨rest, agenda⟩, rfl, fun about _ => fields about,
      ⟨rfl, rfl, rfl, fun about => (fields about).1⟩, rfl⟩
  | @settleGroup token group rest agenda captured =>
    obtain ⟨counts, waiters, same⟩ :=
      HttpRequestManager.completeGroupRequest_frame world.toHttpRequestManager group
    refine .calm (.quiet supported _ ?_ ⟨rfl, rfl, rfl, fun _ => rfl⟩ (fun _ => rfl) rfl (by simp))
    simp only [same]
  | finalCallback | settle | notifyWaiter | invokeCancel | discard =>
    exact .calm (.quiet supported _ rfl ⟨rfl, rfl, rfl, fun _ => rfl⟩ (fun _ => rfl) rfl (by simp))
  | _ =>
    exact .calm (.quiet supported [] rfl ⟨rfl, rfl, rfl, fun _ => rfl⟩ (fun _ => rfl)
      (List.append_nil _).symm (by simp))

/-! ### The other threads -/

/-- A step that copies handles, or forgets some of which a copy remains. -/
theorem Calm.copies (supported : Supported world) (events : List Event)
    (limiter : next.rateLimiter = world.rateLimiter) (contexts : next.contexts = world.contexts)
    (live : next.live = world.live)
    (users : ∀ id ∈ next.userHandles, id ∈ world.userHandles ∨ id ∈ world.rateLimiter.ownedHandles)
    (callers : ∀ caller ∈ next.callers, caller ∈ world.callers ∨
      caller.handles ⊆ world.userHandles)
    (logged : next.log = world.log ++ events)
    (silent : ∀ token, .dispatched token ∉ events ∧ .completing token ∉ events ∧
      .accepted token ∉ events) : Calm world next := by
  refine ⟨limiter ▸ .refl _, ?_, fun _ _ => by rw [contexts]; exact ⟨rfl, rfl⟩, ?_, events, logged,
    fun token => ⟨(silent token).1, (silent token).2.1, fun accepted =>
      absurd accepted (silent token).2.2⟩⟩
  · rw [Supported, limiter]
    refine supported.mono fun id member => ?_
    rw [mem_heldHandles_iff]
    rcases mem_heldHandles_iff.mp member with user | ⟨token, alive, held⟩ | ⟨caller, called, held⟩
    · rcases users id user with old | owned
      · exact Or.inl (Or.inl old)
      · exact Or.inr owned
    · rw [live] at alive
      rw [contexts] at held
      exact Or.inl (Or.inr (Or.inl ⟨token, alive, held⟩))
    · rcases callers caller called with old | given
      · exact Or.inl (Or.inr (Or.inr ⟨caller, old, held⟩))
      · exact Or.inl (Or.inl (given held))
  · rw [live]
    exact fun _ alive => Or.inl alive

/-- A request is rejected and its handles are destroyed, or it is admitted with its handles. -/
theorem submit_calm (orderly : Orderly world) (request : Option HttpRequest) (callback : Bool)
    {held : LimitId → Prop} (supports : Supports world.rateLimiter held)
    (still : ∀ id ∈ world.heldHandles, held id)
    (brings : ∀ id ∈ (request.map HttpRequest.handles).getD [], held id) :
    Calm world (world.submit request callback) := by
  rcases submit_cases world request callback with rejected | ⟨_, admitted⟩
  · rw [rejected]
    exact ⟨retires_dropAll _ _ _, supports.dropAll _ still, fun _ _ => ⟨rfl, rfl⟩,
      fun _ alive => Or.inl alive, [], (List.append_nil _).symm, by simp⟩
  · rw [admitted]
    refine ⟨.refl _, ?_, fun token old => ?_,
      fun _ alive => Or.inl (List.mem_cons_of_mem _ alive), _, rfl, fun token => ?_⟩
    · refine supports.mono fun id member => Or.inl ?_
      rcases mem_heldHandles_iff.mp member with user | ⟨about, alive, kept⟩ | called
      · exact still id (mem_heldHandles_iff.mpr (Or.inl user))
      · dsimp only at alive kept
        by_cases new : about = world.nextInFlightToken
        · rw [new, Function.update_self] at kept
          exact brings id kept
        · rw [Function.update_of_ne new] at kept
          have old := (List.mem_cons.mp alive).resolve_left new
          exact still id (mem_heldHandles_iff.mpr (Or.inr (Or.inl ⟨about, old, kept⟩)))
      · exact still id (mem_heldHandles_iff.mpr (Or.inr (Or.inr called)))
    · dsimp only
      rw [Function.update_of_ne (Nat.ne_of_lt (orderly.lt_of_accepted old))]
      exact ⟨rfl, rfl⟩
    · refine ⟨by simp, by simp, fun fresh => ?_⟩
      obtain rfl : token = world.nextInFlightToken := by simpa using fresh
      refine ⟨List.mem_cons_self, ?_, orderly.fresh _ (Nat.le_refl _)⟩
      dsimp only
      rw [Function.update_self]
      rfl

theorem CallerStep.calm (supported : Supported world) (orderly : Orderly world)
    (step : CallerStep world action next) : Calm world next := by
  have users : ∀ id ∈ world.userHandles,
      id ∈ world.userHandles ∨ id ∈ world.rateLimiter.ownedHandles := fun _ => Or.inl
  have stays : ∀ caller ∈ world.callers, caller ∈ world.callers ∨
      caller.handles ⊆ world.userHandles := fun _ => Or.inl
  have leaves : ∀ position, ∀ caller ∈ world.callers.eraseIdx position, caller ∈ world.callers ∨
      caller.handles ⊆ world.userHandles := fun _ _ member => Or.inl (List.mem_of_mem_eraseIdx member)
  have joins : ∀ (callers added : List Caller),
      (∀ caller ∈ callers, caller ∈ world.callers ∨ caller.handles ⊆ world.userHandles) →
      (∀ caller ∈ added, caller.handles ⊆ world.userHandles) →
      ∀ caller ∈ callers ++ added, caller ∈ world.callers ∨ caller.handles ⊆ world.userHandles := by
    intro callers added old new caller member
    rcases List.mem_append.mp member with first | second
    · exact old caller first
    · exact Or.inr (new caller second)
  cases step with
  | @submit request callback unlocked held =>
    exact submit_calm orderly request callback supported (fun _ member => member)
      fun id member => mem_heldHandles_iff.mpr (Or.inl (held member))
  | @clientSubmits position client request callback unlocked found =>
    have left : Orderly { world with callers := world.callers.eraseIdx position } :=
      ⟨orderly.custody, orderly.fresh⟩
    have calm := submit_calm left (some request) callback supported
      (fun id member => ?_) (fun id member => ?_)
    · exact ⟨calm.retires, calm.supported, calm.contexts, calm.live, calm.logged⟩
    · rw [mem_heldHandles_iff] at member ⊢
      refine member.imp_right (Or.imp_right ?_)
      rintro ⟨caller, kept, held⟩
      exact ⟨caller, List.mem_of_mem_eraseIdx kept, held⟩
    · refine mem_heldHandles_iff.mpr (Or.inr (Or.inr ⟨_, List.mem_of_getElem? found, ?_⟩))
      exact member
  | waitRegister unlocked registered =>
    obtain ⟨_, rfl⟩ := HttpRequestManager.registerWaiter_eq_some registered
    exact .copies supported _ rfl rfl rfl users stays rfl (by simp)
  | cancelWait unlocked removed =>
    obtain ⟨_, _, _, rfl⟩ := HttpRequestManager.cancelWait_eq_some removed
    exact .copies supported _ rfl rfl rfl users stays rfl (by simp)
  | insertByGroup unlocked found queued =>
    rw [HttpRequestManager.queueCancelByGroup_eq_some queued]
    exact .copies supported [] rfl rfl rfl users (leaves _) (List.append_nil _).symm (by simp)
  | cancelById | cancelByGroup =>
    unfold World.callCancel
    dsimp only
    split <;>
      exact .copies supported _ rfl rfl rfl users
        (joins _ _ stays (by simp [Caller.handles])) rfl (by simp)
  | waitNow =>
    exact .copies supported _ rfl rfl rfl users (joins _ _ stays (by simp [Caller.handles])) rfl
      (by simp)
  | groupIdle =>
    exact .copies supported [] rfl rfl rfl users (joins _ _ (leaves _) (by simp [Caller.handles]))
      (List.append_nil _).symm (by simp)
  | @clientBegins index request callback client found free held =>
    refine .copies supported [] rfl rfl rfl users (joins _ _ stays ?_) (List.append_nil _).symm
      (by simp)
    intro caller new
    rw [List.mem_singleton.mp new]
    exact held
  | callerWaits | callerCancels =>
    exact .copies supported _ rfl rfl rfl users (leaves _) rfl (by simp)
  | insertById =>
    exact .copies supported [] rfl rfl rfl users (leaves _) (List.append_nil _).symm (by simp)
  | setMaxPending | cancelWaitMissed | newClient | clientRejected =>
    exact .copies supported [] rfl rfl rfl users stays (List.append_nil _).symm (by simp)

/-- The last copy of a handle may be among those destroyed. -/
theorem Calm.drops {left : World} {held : LimitId → Prop} (ids : List LimitId)
    (retires : Retires world.rateLimiter left.rateLimiter)
    (supports : Supports left.rateLimiter held) (still : ∀ id ∈ left.heldHandles, held id)
    (contexts : left.contexts = world.contexts)
    (live : ∀ token ∈ world.live, token ∈ left.live ∨ token ∉ world.owned)
    (logged : left.log = world.log) : Calm world (left.dropHandles ids) := by
  refine ⟨retires.trans (retires_dropAll _ _ _), supports.dropAll _ still, fun _ _ => ?_, live, [],
    by rw [List.append_nil]; exact logged, by simp⟩
  dsimp only [World.dropHandles]
  rw [contexts]
  exact ⟨rfl, rfl⟩

theorem HandleStep.asks (supported : Supported world) (step : HandleStep world action next) :
    Asks world next action := by
  cases step with
  | @create requestsPerPeriod periodMs sequential =>
    refine .calm ⟨.create supported _ _ _, ?_, fun _ _ => ⟨rfl, rfl⟩, fun _ alive => Or.inl alive,
      [], (List.append_nil _).symm, by simp⟩
    refine (supported.create _ _ _).mono fun id member => Or.inl ?_
    rw [mem_heldHandles_iff]
    rcases mem_heldHandles_iff.mp member with user | other
    · exact (List.mem_cons.mp user).imp_right Or.inl
    · exact Or.inr (Or.inr other)
  | @get id =>
    refine .calm (.copies supported [] rfl rfl rfl (fun other member => ?_) (fun _ => Or.inl)
      (List.append_nil _).symm (by simp))
    rcases List.mem_append.mp member with new | old
    · unfold getLimit at new
      split at new
      · rename_i owned
        rw [Option.toList_some, List.mem_singleton] at new
        exact Or.inr (new ▸ owned)
      · exact absurd new List.not_mem_nil
    · exact Or.inl old
  | @remove id =>
    have supports := supported.removeLimit id
    unfold World.removeRateLimit
    dsimp only
    split
    · exact .calm (.drops [id] (.removeLimit _ _) supports (fun _ member => Or.inl member) rfl
        (fun _ alive => Or.inl alive) rfl)
    · exact .calm ⟨.removeLimit _ _, supports.mono fun _ member => Or.inl (Or.inl member),
        fun _ _ => ⟨rfl, rfl⟩, fun _ alive => Or.inl alive, [], (List.append_nil _).symm, by simp⟩
  | @copy id held =>
    refine .calm (.copies supported [] rfl rfl rfl (fun other member => Or.inl ?_)
      (fun _ => Or.inl) (List.append_nil _).symm (by simp))
    rcases List.mem_cons.mp member with rfl | old
    · exact held
    · exact old
  | @drop id held =>
    refine .calm (.drops [id] (.refl _) supported (fun other member => ?_) rfl
      (fun _ alive => Or.inl alive) rfl)
    rw [mem_heldHandles_iff] at member ⊢
    exact member.imp_left List.mem_of_mem_erase
  | @destroy token alive unowned =>
    refine .calm (.drops _ (.refl _) supported (fun other member => ?_) rfl
      (fun about before => ?_) rfl)
    · rw [mem_heldHandles_iff] at member ⊢
      refine member.imp_right (Or.imp_left ?_)
      rintro ⟨about, kept, held⟩
      exact ⟨about, List.mem_of_mem_erase kept, held⟩
    · by_cases same : about = token
      · exact Or.inr (same ▸ unowned)
      · exact Or.inl ((List.mem_erase_of_ne same).mpr before)
  | allow held => exact .allow held rfl
  | release held => exact .release held rfl

theorem Transition.asks (supported : Supported world) (orderly : Orderly world)
    (transition : Transition world action next) : Asks world next action := by
  cases transition with
  | jump =>
    exact .calm (.quiet supported [] rfl ⟨rfl, rfl, rfl, fun _ => rfl⟩ (fun _ => rfl)
      (List.append_nil _).symm (by simp))
  | pending agenda step => exact step.asks supported
  | active agenda step => exact .calm (step.calm supported)
  | cancel agenda step => exact .calm (step.calm supported)
  | closing agenda step => exact .calm (step.calm supported)
  | agenda step => exact step.asks supported
  | shutdown =>
    exact .calm (.quiet supported _ rfl ⟨rfl, rfl, rfl, fun _ => rfl⟩ (fun _ => rfl) rfl (by simp))
  | caller step => exact .calm (step.calm supported orderly)
  | handles step => exact step.asks supported

/-! ### The invariant -/

/-- The manager and its limiter agree. -/
structure Guarded (world : World) : Prop where
  supported : Supported world
  alive : ∀ token, .accepted token ∈ world.log → .completed token ∉ world.log →
    .abandoned token ∉ world.log → token ∈ world.live
  armed : ∀ token, .accepted token ∈ world.log → (world.contexts token).onComplete =
    if .dispatched token ∈ world.log then (world.contexts token).request.map (·.call token)
    else none
  locked : Locked world.rateLimiter

theorem mem_owned_of_mem_holdings {place : Place} (held : (token, place) ∈ world.holdings) :
    token ∈ world.owned := by
  have ofHandler : ∀ handler, (token, place) ∈ handlerHoldings handler →
      handler.requestContext = some token := by
    intro handler member
    unfold handlerHoldings at member
    split at member
    · exact absurd member List.not_mem_nil
    · obtain ⟨carried, context, same⟩ := List.mem_map.mp member
      rw [(Prod.mk.inj same).1] at context
      exact Option.mem_toList.mp context
  have ofHandlers : ∀ handlers, (token, place) ∈ handlers.flatMap handlerHoldings →
      token ∈ handlerContexts handlers := by
    intro handlers member
    obtain ⟨handler, present, inside⟩ := List.mem_flatMap.mp member
    exact List.mem_filterMap.mpr ⟨handler, present, ofHandler handler inside⟩
  have ofTokens : ∀ (tokens : List Token) (at_ : Place), (token, place) ∈ tokens.map (·, at_) →
      token ∈ tokens := by
    intro tokens at_ member
    obtain ⟨about, present, same⟩ := List.mem_map.mp member
    exact (Prod.mk.inj same).1 ▸ present
  rw [World.holdings] at held
  rw [World.owned]
  simp only [List.mem_append] at held ⊢
  rcases held with (((pending | failed) | inBatch) | building) | called
  · exact Or.inl (Or.inl (Or.inl (Or.inl (ofTokens _ _ pending))))
  · exact Or.inl (Or.inl (Or.inl (Or.inr (ofTokens _ _ failed))))
  · refine Or.inl (Or.inl (Or.inr ?_))
    obtain ⟨batch, present, inside⟩ := List.mem_flatMap.mp inBatch
    refine List.mem_flatMap.mpr ⟨batch, present, List.mem_append.mpr ?_⟩
    rcases List.mem_append.mp inside with flying | retrying
    · exact Or.inr (ofHandlers _ flying)
    · exact Or.inl (ofTokens _ _ retrying)
  · refine Or.inl (Or.inr ?_)
    cases phase : world.phase with
    | pendingLoop index ready failed =>
      rw [phase] at building
      rcases List.mem_append.mp building with first | second
      · exact List.mem_append_left _ (ofTokens _ _ first)
      · exact List.mem_append_right _ (ofTokens _ _ second)
    | createBatch contextList =>
      rw [phase] at building
      exact ofTokens _ _ building
    | buildBatch contextList handlers =>
      rw [phase] at building
      rcases List.mem_append.mp building with first | second
      · exact List.mem_append_left _ (ofTokens _ _ first)
      · exact List.mem_append_right _ (ofHandlers _ second)
    | _ =>
      rw [phase] at building
      exact absurd building List.not_mem_nil
  · refine Or.inr ?_
    obtain ⟨call, present, inside⟩ := List.mem_flatMap.mp called
    refine List.mem_flatMap.mpr ⟨call, present, ?_⟩
    cases call with
    | destroyHandler handler => exact Option.mem_toList.mpr (ofHandler handler inside)
    | cancelHandler handler => exact Option.mem_toList.mpr (ofHandler handler inside)
    | notifyWaiter | invokeCancel => exact absurd inside List.not_mem_nil
    | _ =>
      obtain same := List.mem_singleton.mp inside
      exact List.mem_singleton.mpr (Prod.mk.inj same).1

theorem isHeld_of_isOpen {stage : Stage} (opened : stage.isOpen = true) :
    stage.isHeld = true := by
  cases stage with
  | final | released => rfl
  | _ => exact opened

theorem FitsPlace.isHeld {stage : Stage} {context : HttpRequestContext} {place : Place}
    (fits : FitsPlace stage context place) : stage.isHeld = true := by
  cases place with
  | queued | dispatched | retrying =>
    obtain ⟨retries, rfl, _⟩ := fits
    rfl
  | flying | completing | grouping =>
    obtain ⟨retries, chunks, rfl, _⟩ := fits
    rfl
  | finishing => exact isHeld_of_isOpen fits.1

/-- A request that somebody holds is neither completed nor lost. -/
theorem Orderly.unfinished (orderly : Orderly world) {place : Place}
    (held : (token, place) ∈ world.holdings) :
    .accepted token ∈ world.log ∧ .completed token ∉ world.log ∧
      .abandoned token ∉ world.log := by
  obtain ⟨sound, fits⟩ := orderly.custody.fits token place held
  have intact : stageOf world.log token ≠ .broken := sound.1
  have stage : (stageOf world.log token).isHeld = true := fits.isHeld
  rw [accepted_mem_iff intact, completed_mem_iff intact, abandoned_mem_iff intact]
  cases kind : stageOf world.log token <;> rw [kind] at stage <;>
    simp_all [Stage.isHeld, Stage.isOpen, Stage.isDone, Stage.isLost]

theorem Guarded.live_of_held (guarded : Guarded world) (orderly : Orderly world) {place : Place}
    (held : (token, place) ∈ world.holdings) : token ∈ world.live := by
  obtain ⟨accepted, uncompleted, kept⟩ := orderly.unfinished held
  exact guarded.alive token accepted uncompleted kept

section Step

variable {request : HttpRequest} {now : TimePoint}

theorem Dispatches.held (dispatches : Dispatches world next token request now)
    (guarded : Guarded world) (orderly : Orderly world) :
    (request.call token).Held world.rateLimiter :=
  guarded.supported.request_held
    (guarded.live_of_held orderly (mem_holdings_of_pending dispatches.pending)) dispatches.carried

/-- What `complete` does to the limiter: a request that was dispatched is released. -/
theorem Claims.effect (claims : Claims world next token) (guarded : Guarded world)
    (orderly : Orderly world) :
    (next.rateLimiter = world.rateLimiter ∧ (.dispatched token ∈ world.log →
        (world.contexts token).request = none)) ∨
      ∃ request, (world.contexts token).request = some request ∧
        (request.call token).Held world.rateLimiter ∧
        next.rateLimiter = (request.call token).release world.rateLimiter := by
  obtain ⟨rest, agenda⟩ := claims.agenda
  have held : (token, Place.completing) ∈ world.holdings :=
    mem_holdings_of_head agenda List.mem_cons_self
  have armed := guarded.armed token (orderly.unfinished held).1
  have limiter := claims.limiter
  rw [armed] at limiter
  split at limiter
  · cases carried : (world.contexts token).request with
    | none =>
      rw [carried] at limiter
      exact Or.inl ⟨limiter, fun _ => rfl⟩
    | some request =>
      rw [carried] at limiter
      have alive := guarded.live_of_held orderly held
      exact Or.inr ⟨request, rfl, guarded.supported.request_held alive carried, limiter⟩
  · rename_i never
    exact Or.inl ⟨limiter, fun dispatched => absurd dispatched never⟩

/-- The limiter supports the handles after the step, and its coordinates are locks. -/
theorem Guarded.limiter (guarded : Guarded world) (orderly : Orderly world)
    (asks : Asks world next action) : Supported next ∧ Locked next.rateLimiter := by
  have supported := guarded.supported
  cases asks with
  | calm calm => exact ⟨calm.supported, calm.retires.locked supported guarded.locked⟩
  | dispatch dispatches =>
    have held := dispatches.held guarded orderly
    rw [Supported, dispatches.limiter]
    exact ⟨dispatches.holders.supports (supported.allow held _), guarded.locked.allow held _⟩
  | complete claims =>
    rw [Supported]
    rcases claims.effect guarded orderly with ⟨same, _⟩ | ⟨request, _, held, released⟩
    · rw [same]
      exact ⟨claims.holders.supports supported, guarded.locked⟩
    · rw [released]
      exact ⟨claims.holders.supports (supported.release _), guarded.locked.release held⟩
  | allow held direct =>
    have callHeld := supported.user_held held
    rw [direct]
    exact ⟨supported.allow callHeld _, guarded.locked.allow callHeld _⟩
  | release held direct =>
    rw [direct]
    exact ⟨supported.release _, guarded.locked.release (supported.user_held held)⟩

/-- A calm step destroys the context of no uncompleted request. -/
theorem Calm.alive (calm : Calm world next) (guarded : Guarded world) (orderly : Orderly world)
    (accepted : .accepted token ∈ next.log) (uncompleted : .completed token ∉ next.log)
    (kept : .abandoned token ∉ next.log) : token ∈ next.live := by
  obtain ⟨events, logged, spec⟩ := calm.logged
  rw [logged, List.mem_append] at accepted uncompleted kept
  rw [not_or] at uncompleted kept
  rcases accepted with old | new
  · rcases calm.live token (guarded.alive token old uncompleted.1 kept.1) with alive | unowned
    · exact alive
    · have free : token ∉ world.holdings.map Prod.fst := by
        intro member
        obtain ⟨⟨_, place⟩, held, rfl⟩ := List.mem_map.mp member
        exact unowned (mem_owned_of_mem_holdings held)
      have done := orderly.isDone old kept.1 free
      rw [← completed_mem_iff (orderly.custody.sound token).1] at done
      exact absurd done uncompleted.1
  · exact ((spec token).2.2 new).1

/-- A step that logs one event of a request leaves the contexts alive. -/
theorem Guarded.alive_of_holders (guarded : Guarded world) (holders : SameHolders world next)
    {event : Event} (logged : next.log = world.log ++ [event])
    (other : ∀ token, event ≠ .accepted token) (accepted : .accepted token ∈ next.log)
    (uncompleted : .completed token ∉ next.log) (kept : .abandoned token ∉ next.log) :
    token ∈ next.live := by
  rw [logged, List.mem_append] at accepted uncompleted kept
  rw [not_or] at uncompleted kept
  rcases accepted with old | new
  · rw [holders.live]
    exact guarded.alive token old uncompleted.1 kept.1
  · exact absurd (List.mem_singleton.mp new).symm (other token)

theorem Guarded.step (guarded : Guarded world) (orderly : Orderly world)
    (asks : Asks world next action) : Guarded next := by
  obtain ⟨supported, locked⟩ := guarded.limiter orderly asks
  refine ⟨supported, fun token accepted uncompleted kept => ?_, fun token accepted => ?_, locked⟩
  · cases asks with
    | calm calm => exact calm.alive guarded orderly accepted uncompleted kept
    | dispatch dispatches =>
      exact guarded.alive_of_holders dispatches.holders dispatches.logged (by simp) accepted
        uncompleted kept
    | complete claims =>
      exact guarded.alive_of_holders claims.holders claims.logged (by simp) accepted uncompleted
        kept
    | allow held direct | release held direct =>
      rw [direct] at accepted uncompleted kept ⊢
      exact guarded.alive token accepted uncompleted kept
  · cases asks with
    | calm calm =>
      obtain ⟨events, logged, spec⟩ := calm.logged
      obtain ⟨undispatched, _, admitted⟩ := spec token
      rw [logged, List.mem_append] at accepted
      simp only [logged, List.mem_append, or_iff_left undispatched]
      rcases accepted with old | new
      · obtain ⟨request, armed⟩ := calm.contexts token old
        rw [request, armed]
        exact guarded.armed token old
      · obtain ⟨_, unarmed, absent⟩ := admitted new
        rw [unarmed, if_neg fun dispatched => not_subject_of_absent absent _ dispatched rfl]
    | @dispatch _ begun request now dispatches =>
      have old : .accepted token ∈ world.log := by
        rw [dispatches.logged] at accepted
        simpa using accepted
      rw [dispatches.contexts, dispatches.logged]
      by_cases same : token = begun
      · rw [same, Function.update_self, if_pos (by simp)]
        dsimp only
        rw [dispatches.carried]
        rfl
      · rw [Function.update_of_ne same, guarded.armed token old]
        simp [same]
    | complete claims =>
      have old : .accepted token ∈ world.log := by
        rw [claims.logged] at accepted
        simpa using accepted
      obtain ⟨request, armed⟩ := claims.contexts token old
      rw [request, armed, claims.logged, guarded.armed token old]
      simp
    | allow held direct | release held direct =>
      rw [direct] at accepted ⊢
      exact guarded.armed token accepted

end Step

theorem guarded_of_reachable (reachable : managerSystem.Reachable world) : Guarded world := by
  refine reachable.induction Guarded ⟨?_, ?_, ?_, ?_⟩ ?_
  · exact ⟨Nat.one_pos, fun _ _ found => absurd found (by simp [headerAt, managerSystem]),
      fun _ member => absurd member List.not_mem_nil,
      fun _ member => absurd member List.not_mem_nil⟩
  · exact fun _ accepted => absurd accepted List.not_mem_nil
  · exact fun _ accepted => absurd accepted List.not_mem_nil
  · exact ⟨fun _ _ _ _ member => absurd member (Finset.notMem_empty _),
      fun _ _ _ _ _ member => absurd member (Finset.notMem_empty _)⟩
  · intro state action after reached guarded stepped
    have orderly := orderly_of_reachable reached
    exact guarded.step orderly ((step_transition stepped).asks guarded.supported orderly)

theorem asks_of_step (reachable : managerSystem.Reachable world)
    (stepped : managerSystem.step world action = some next) : Asks world next action :=
  (step_transition stepped).asks (guarded_of_reachable reachable).supported
    (orderly_of_reachable reachable)

end Kurlyk.Http
