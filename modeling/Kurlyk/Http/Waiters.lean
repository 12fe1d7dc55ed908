/-
This file is about threads that wait for a group. A waiter's callback is taken
out of the map by four pieces of code that race with its registration and its
removal: the registration itself when the group is idle, the completion of the
group's last request, the sweep at the end of `process`, and `shutdown`. The
callback is invoked exactly once unless the waiter was removed, and before a
shutdown it is invoked only when every request of the group that was admitted
before the registration has delivered its final response.
-/

import Kurlyk.Lib.Log
import Kurlyk.Http.Control
import Kurlyk.Http.Groups
import Kurlyk.Http.Promises

namespace Kurlyk.Http

variable {world next : World} {action : Action}

/-! ### What a step does to the waiters -/

/-- The promises of callbacks that are about to be invoked. -/
def World.notified (world : World) : List Promise :=
  world.agenda.flatMap Call.promises ++ world.callers.flatMap Caller.promises

/-- Events that register or invoke a waiter. -/
def Event.waits : Event → Bool
  | .waitCalled _ _ => true
  | .waiterInvoked _ => true
  | _ => false

/-- What a step makes of the waiters. In `ripen` waiters may leave the map, and those that are
to be notified belong to an idle group unless `shutdown` takes them. -/
inductive WaitStep (world next : World) : Prop where
  | ripen (events : List Event)
    (fewer : ∀ group waiters, next.groupWaiters.lookup group = some waiters →
      ∃ more, world.groupWaiters.lookup group = some more ∧ waiters ⊆ more)
    (notified : ∀ call, .waiter call ∈ next.notified →
      .waiter call ∈ world.notified ∨ next.shutdown = true ∨
        ∃ group waiters waiter, world.groupWaiters.lookup group = some waiters ∧
          waiter ∈ waiters ∧ waiter.callback = some call ∧
          next.toHttpRequestManager.groupRequestCount group = 0)
    (logged : next.log = world.log ++ events) (silent : ∀ event ∈ events, event.waits = false)
  | register (group : ℕ) (given : Bool)
    (waiters : ∃ id, next.groupWaiters = world.groupWaiters.insert group
      ((world.groupWaiters.lookup group).getD [] ++ [⟨id, world.freshCallback given⟩]))
    (notified : next.notified = world.notified)
    (logged : next.log =
      world.log ++ (world.freshCallback given).toList.map (Event.waitCalled · group))
  | now (group : ℕ) (given : Bool)
    (idle : next.shutdown = true ∨ group = 0 ∨
      next.toHttpRequestManager.groupRequestCount group = 0)
    (waiters : next.groupWaiters = world.groupWaiters)
    (notified : next.notified =
      world.notified ++ (world.freshCallback given).toList.map Promise.waiter)
    (logged : next.log =
      world.log ++ (world.freshCallback given).toList.map (Event.waitCalled · group))
  | invoke (call : CallId) (due : .waiter call ∈ world.notified)
    (waiters : next.groupWaiters = world.groupWaiters)
    (notified : next.notified ⊆ world.notified)
    (logged : next.log = world.log ++ [.waiterInvoked call])

/-- A step that leaves the waiters alone. -/
theorem WaitStep.aside (events : List Event) (waiters : next.groupWaiters = world.groupWaiters)
    (notified : ∀ call, .waiter call ∈ next.notified → .waiter call ∈ world.notified)
    (logged : next.log = world.log ++ events)
    (silent : ∀ event ∈ events, event.waits = false) : WaitStep world next :=
  .ripen events (fun _ found present => ⟨found, waiters ▸ present, List.Subset.refl _⟩)
    (fun call member => Or.inl (notified call member)) logged silent

/-- A step of the worker that puts no waiter on its agenda. -/
theorem WaitStep.work (events : List Event) (waiters : next.groupWaiters = world.groupWaiters)
    (callers : next.callers = world.callers)
    (agenda : ∀ call, .waiter call ∉ next.agenda.flatMap Call.promises)
    (logged : next.log = world.log ++ events)
    (silent : ∀ event ∈ events, event.waits = false) : WaitStep world next := by
  refine .aside events waiters (fun call member => ?_) logged silent
  rw [World.notified, List.mem_append, or_iff_right (agenda call), callers] at member
  exact List.mem_append_right _ member

theorem PendingStep.waits {input : World.Input} (agenda : world.agenda = [])
    (step : PendingStep world input next) : WaitStep world next := by
  have silent : ∀ call, .waiter call ∉ next.agenda.flatMap Call.promises := by
    rw [step.agenda_promises agenda]
    exact fun _ => List.not_mem_nil
  cases step with
  | dispatch | start => exact .work _ rfl rfl silent rfl (by simp [Event.waits])
  | _ => exact .work [] rfl rfl silent (List.append_nil _).symm (by simp)

theorem ActiveStep.waits {input : World.Input} (agenda : world.agenda = [])
    (step : ActiveStep world input next) : WaitStep world next := by
  have silent : ∀ call, .waiter call ∉ next.agenda.flatMap Call.promises := by
    rw [step.agenda_promises agenda]
    exact fun _ => List.not_mem_nil
  cases step with
  | stream | retry | requeue => exact .work _ rfl rfl silent rfl (by simp [Event.waits])
  | _ => exact .work [] rfl rfl silent (List.append_nil _).symm (by simp)

theorem CancelStep.waits (step : CancelStep world next) : WaitStep world next := by
  have noWaiter : ∀ {Value : Type} {call : Value → Call} (values : List Value),
      (∀ value, (call value).promises = []) → ∀ waiting,
        Promise.waiter waiting ∉ (values.map call).flatMap Call.promises := by
    intro Value call values none waiting
    rw [flatMap_promises_map none]
    exact List.not_mem_nil
  cases step with
  | takeCancels | cancelBatch =>
    exact .work [] rfl rfl (noWaiter _ fun _ => rfl) (List.append_nil _).symm (by simp)
  | cancelFailed =>
    exact .work [] rfl rfl (by simp [Call.promises]) (List.append_nil _).symm (by simp)
  | batchesScanned =>
    refine .work [] rfl rfl (fun call => ?_) (List.append_nil _).symm (by simp)
    dsimp only
    rw [flatMap_promises_invokeCancel]
    simp [cancelPromises]

/-- The callbacks of waiters that were taken out of the map. -/
theorem mem_promises_notify {waiters : List GroupWaiter} {call : CallId} :
    .waiter call ∈ (waiters.map Call.notifyWaiter).flatMap Call.promises ↔
      ∃ waiter ∈ waiters, waiter.callback = some call := by
  rw [flatMap_promises_notifyWaiter, List.mem_flatMap]
  refine exists_congr fun waiter => and_congr_right fun _ => ?_
  cases given : waiter.callback with
  | none => simp [GroupWaiter.promises, given]
  | some other => simp [GroupWaiter.promises, given, eq_comm]

theorem ClosingStep.waits (controlled : Controlled world) (step : ClosingStep world next) :
    WaitStep world next := by
  cases step with
  | notifyIdle at_ =>
    refine .ripen [] (fun group waiters present => ?_) (fun call member => ?_)
      (List.append_nil _).symm (by simp)
    · have swept : (world.groupWaiters.sweep fun group waiters =>
          if world.toHttpRequestManager.groupRequestCount group = 0 then none
          else some waiters).lookup group = some waiters := present
      rw [Table.lookup_sweep] at swept
      obtain ⟨more, found, kept⟩ := Option.bind_eq_some_iff.mp swept
      split at kept
      · exact absurd kept (by simp)
      · exact ⟨more, found, by rw [Option.some.inj kept]; exact List.Subset.refl _⟩
    · rcases List.mem_append.mp member with taken | waiting
      · obtain ⟨waiter, inside, given⟩ := mem_promises_notify.mp taken
        obtain ⟨group, waiters, found, listed⟩ := Table.mem_contents_iff.mp inside
        rw [Table.lookup_sweep] at found
        obtain ⟨more, present, chosen⟩ := Option.bind_eq_some_iff.mp found
        split at chosen
        · rename_i idle
          rw [← Option.some.inj chosen] at listed
          exact Or.inr (Or.inr ⟨group, more, waiter, present, listed, given, idle⟩)
        · exact absurd chosen (by simp)
      · exact Or.inl (List.mem_append_right _ waiting)
  | notifyAll at_ =>
    refine .ripen [] (fun group waiters present => ?_) (fun call member => ?_)
      (List.append_nil _).symm (by simp)
    · exact absurd present (by simp [World.notifyStep, HttpRequestManager.takeAllWaiters])
    · exact Or.inr (Or.inl (controlled.phase true (by rw [at_]; rfl)))
  | cleanup at_ =>
    refine .work [] rfl rfl (fun call => ?_) (List.append_nil _).symm (by simp)
    simp only [World.cleanupPendingStep]
    rw [flatMap_promises_map (fun _ => rfl)]
    exact List.not_mem_nil
  | clear at_ =>
    refine .work [] rfl rfl (fun call => ?_) (List.append_nil _).symm (by simp)
    simp only [World.clearBatchesStep]
    rw [flatMap_promises_clear]
    exact List.not_mem_nil

/-- The waiters that the completion of a request takes out belong to a group without requests. -/
theorem completeGroupRequest_waiters (manager : HttpRequestManager) (group : ℕ) :
    ((manager.completeGroupRequest group).1 = [] ∧
      (manager.completeGroupRequest group).2.groupWaiters = manager.groupWaiters) ∨
    ((manager.completeGroupRequest group).1 = (manager.groupWaiters.lookup group).getD [] ∧
      (manager.completeGroupRequest group).2.groupWaiters = manager.groupWaiters.erase group ∧
      (manager.completeGroupRequest group).2.groupRequestCount group = 0) := by
  unfold HttpRequestManager.completeGroupRequest
  split
  · exact Or.inl ⟨rfl, rfl⟩
  · split
    · exact Or.inl ⟨rfl, rfl⟩
    · split
      · exact Or.inl ⟨rfl, rfl⟩
      · refine Or.inr ⟨rfl, rfl, ?_⟩
        rw [HttpRequestManager.groupRequestCount, AList.lookup_erase, Option.getD_none, ite_self]

theorem AgendaStep.waits (step : AgendaStep world next) : WaitStep world next := by
  cases step with
  | @settleGroup token group rest agenda captured =>
    have notified : ∀ call, .waiter call ∈ World.notified { world with
        toHttpRequestManager := (world.toHttpRequestManager.completeGroupRequest group).2
        agenda := (world.toHttpRequestManager.completeGroupRequest group).1.map .notifyWaiter ++
          rest
        log := world.log ++ [.completed token] } →
        (∃ waiter ∈ (world.toHttpRequestManager.completeGroupRequest group).1,
          waiter.callback = some call) ∨ .waiter call ∈ world.notified := by
      intro call member
      rw [World.notified] at member ⊢
      rw [agenda, List.flatMap_cons]
      dsimp only at member
      rw [List.flatMap_append, List.append_assoc, List.mem_append, mem_promises_notify] at member
      exact member
    rcases completeGroupRequest_waiters world.toHttpRequestManager group with
      ⟨nobody, same⟩ | ⟨taken, erased, idle⟩
    · refine .aside [.completed token] same (fun call member => ?_) rfl (by simp [Event.waits])
      refine (notified call member).resolve_left ?_
      rw [nobody]
      simp
    · refine .ripen [.completed token] (fun other waiters present => ?_) (fun call member => ?_)
        rfl (by simp [Event.waits])
      · dsimp only at present
        rw [erased, Table.lookup_erase_eq] at present
        split at present
        · exact absurd present (by simp)
        · exact ⟨waiters, present, List.Subset.refl _⟩
      · rcases notified call member with ⟨waiter, listed, given⟩ | old
        · rw [taken] at listed
          cases found : world.groupWaiters.lookup group with
          | none =>
            rw [found] at listed
            exact absurd listed (by simp)
          | some waiters =>
            rw [found] at listed
            exact Or.inr (Or.inr ⟨group, waiters, waiter, found, listed, given, idle⟩)
        · exact Or.inl old
  | @notifyWaiter waiter rest agenda =>
    cases given : waiter.callback with
    | none =>
      refine .aside [] rfl (fun call member => ?_) rfl (by simp)
      rw [World.notified, agenda, List.flatMap_cons, List.append_assoc]
      exact List.mem_append_right _ member
    | some call =>
      refine .invoke call ?_ rfl ?_ rfl
      · rw [World.notified, agenda, List.flatMap_cons]
        simp [Call.promises, GroupWaiter.promises, given]
      · intro promise member
        rw [World.notified, agenda, List.flatMap_cons, List.append_assoc]
        exact List.mem_append_right _ member
  | finalCallback agenda | complete agenda | settle agenda | discard agenda =>
    refine .aside _ rfl (fun call member => ?_) rfl (by simp [Event.waits])
    rw [World.notified, agenda]
    exact member
  | completeAgain agenda | destroyHandler agenda | cancelHandler agenda =>
    refine .aside [] rfl (fun call member => ?_) (List.append_nil _).symm (by simp)
    rw [World.notified, agenda]
    exact member
  | handlerAnswered agenda handled =>
    refine .aside [] rfl (fun call member => ?_) (List.append_nil _).symm (by simp)
    rw [World.notified, agenda, List.flatMap_cons, List.append_assoc]
    exact List.mem_append_right _ member
  | @invokeCancel callback rest agenda =>
    refine .aside _ rfl (fun call member => ?_) rfl (by simp [Event.waits])
    rw [World.notified, agenda, List.flatMap_cons, List.append_assoc]
    exact List.mem_append_right _ member

/-- A call in progress ends, and another one may begin. -/
theorem notified_of_callers (world : World) (left added : List Caller) {promise : Promise}
    (fewer : left ⊆ world.callers)
    (member : promise ∈ world.agenda.flatMap Call.promises ++
      (left ++ added).flatMap Caller.promises) :
    promise ∈ world.notified ∨ promise ∈ added.flatMap Caller.promises := by
  rcases List.mem_append.mp member with onAgenda | withCaller
  · exact Or.inl (List.mem_append_left _ onAgenda)
  · rw [List.flatMap_append] at withCaller
    rcases List.mem_append.mp withCaller with old | new
    · obtain ⟨caller, present, kept⟩ := List.mem_flatMap.mp old
      exact Or.inl (List.mem_append_right _ (List.mem_flatMap.mpr ⟨caller, fewer present, kept⟩))
    · exact Or.inr new

theorem notified_of_eraseIdx (world : World) (position : ℕ) {promise : Promise}
    (member : promise ∈ world.agenda.flatMap Call.promises ++
      (world.callers.eraseIdx position).flatMap Caller.promises) :
    promise ∈ world.notified := by
  refine (notified_of_callers world (world.callers.eraseIdx position) [] List.eraseIdx_subset
    ?_).resolve_right List.not_mem_nil
  rw [List.append_nil]
  exact member

theorem submit_waiters (world : World) (request : Option HttpRequest) (callback : Bool) :
    (world.submit request callback).groupWaiters = world.groupWaiters ∧
      (world.submit request callback).notified = world.notified ∧
      ∃ events, (world.submit request callback).log = world.log ++ events ∧
        ∀ event ∈ events, event.waits = false := by
  rcases submit_cases world request callback with rejected | ⟨_, admitted⟩
  · rw [rejected]
    exact ⟨rfl, rfl, [], (List.append_nil _).symm, by simp⟩
  · rw [admitted]
    exact ⟨rfl, rfl, _, rfl, by simp [Event.waits]⟩

theorem callCancel_waits (world : World) (identifier : ℕ) (given : Bool)
    {insert : Option CallId → Caller}
    (keeps : ∀ callback, (insert callback).promises = cancelPromises callback) :
    WaitStep world (world.callCancel identifier given insert) := by
  unfold World.callCancel
  dsimp only
  split
  · refine .aside _ rfl (fun call member => ?_) rfl (by simp [Event.waits])
    refine (notified_of_callers world _ _ (List.Subset.refl _) member).resolve_right ?_
    cases world.freshCallback given <;> simp [Caller.promises]
  · refine .aside _ rfl (fun call member => ?_) rfl (by simp [Event.waits])
    refine (notified_of_callers world _ _ (List.Subset.refl _) member).resolve_right ?_
    simp [keeps, cancelPromises]

theorem CallerStep.waits (step : CallerStep world action next) : WaitStep world next := by
  cases step with
  | @submit request callback =>
    obtain ⟨waiters, notified, events, logged, silent⟩ := submit_waiters world request callback
    exact .aside events waiters (fun _ member => notified ▸ member) logged silent
  | @clientSubmits position client request callback unlocked found =>
    obtain ⟨waiters, notified, events, logged, silent⟩ := submit_waiters
      { world with callers := world.callers.eraseIdx position } (some request) callback
    refine .aside events waiters (fun call member => ?_) logged silent
    exact notified_of_eraseIdx world position (Eq.mp (congrArg (_ ∈ ·) notified) member)
  | @waitNow group given unlocked idle =>
    refine .now group given (HttpRequestManager.registerWaiter_eq_none idle) rfl ?_ rfl
    rw [World.notified, World.notified, List.flatMap_append, List.append_assoc]
    cases world.freshCallback given <;> rfl
  | @waitRegister group given manager unlocked registered =>
    obtain ⟨_, rfl⟩ := HttpRequestManager.registerWaiter_eq_some registered
    exact .register group given ⟨_, rfl⟩ rfl rfl
  | @cancelWait group waiterId waiter manager unlocked removed =>
    obtain ⟨waiters, present, found, rfl⟩ := HttpRequestManager.cancelWait_eq_some removed
    refine .ripen _ (fun other left remaining => ?_) (fun _ member => Or.inl member) rfl
      (by simp [Event.waits])
    dsimp only at remaining
    split at remaining
    · rw [Table.lookup_erase_eq] at remaining
      split at remaining
      · exact absurd remaining (by simp)
      · exact ⟨left, remaining, List.Subset.refl _⟩
    · rw [Table.lookup_insert_eq] at remaining
      split at remaining
      · rename_i same
        rw [← Option.some.inj remaining, same]
        exact ⟨waiters, present, List.eraseP_subset⟩
      · exact ⟨left, remaining, List.Subset.refl _⟩
  | cancelById => exact callCancel_waits _ _ _ fun _ => rfl
  | cancelByGroup => exact callCancel_waits _ _ _ fun _ => rfl
  | @callerWaits position call found =>
    refine .invoke call ?_ rfl (fun promise member => ?_) rfl
    · exact List.mem_append_right _ (List.mem_flatMap.mpr
        ⟨_, List.mem_of_getElem? found, List.mem_cons_self⟩)
    · exact notified_of_eraseIdx world position member
  | @callerCancels position =>
    exact .aside _ rfl (fun _ member => notified_of_eraseIdx world position member) rfl
      (by simp [Event.waits])
  | @insertById position =>
    exact .aside [] rfl (fun _ member => notified_of_eraseIdx world position member)
      (List.append_nil _).symm (by simp)
  | @insertByGroup position group callback manager unlocked found queued =>
    rw [HttpRequestManager.queueCancelByGroup_eq_some queued]
    exact .aside [] rfl (fun _ member => notified_of_eraseIdx world position member)
      (List.append_nil _).symm (by simp)
  | @groupIdle position group callback unlocked found idle =>
    refine .aside [] rfl (fun _ member => ?_) (List.append_nil _).symm (by simp)
    refine (notified_of_callers world _ _ List.eraseIdx_subset member).resolve_right ?_
    cases callback <;> simp [Caller.promises]
  | clientBegins =>
    refine .aside [] rfl (fun _ member => ?_) (List.append_nil _).symm (by simp)
    exact (notified_of_callers world _ _ (List.Subset.refl _) member).resolve_right
      (by simp [Caller.promises])
  | _ => exact .aside [] rfl (fun _ member => member) (List.append_nil _).symm (by simp)

theorem HandleStep.waits (step : HandleStep world action next) : WaitStep world next := by
  obtain ⟨_, _, _, _, rfl⟩ := step.frame
  exact .aside [] rfl (fun _ member => member) (List.append_nil _).symm (by simp)

theorem Transition.waits (controlled : Controlled world)
    (transition : Transition world action next) : WaitStep world next := by
  cases transition with
  | jump => exact .aside [] rfl (fun _ member => member) (List.append_nil _).symm (by simp)
  | pending agenda step => exact step.waits agenda
  | active agenda step => exact step.waits agenda
  | cancel agenda step => exact step.waits
  | closing agenda step => exact step.waits controlled
  | agenda step => exact step.waits
  | shutdown => exact .aside _ rfl (fun _ member => member) rfl (by simp [Event.waits])
  | caller step => exact step.waits
  | handles step => exact step.waits

/-! ### The order of the final responses -/

/-- Every request of the waiter's group that was admitted before the wait call has delivered its
final response. Requests of the group zero belong to no group. -/
def EarlyDone (log : List Event) (contexts : Token → HttpRequestContext) (call : CallId) : Prop :=
  ∀ before group after, log = before ++ .waitCalled call group :: after → group ≠ 0 →
    ∀ token, .accepted token ∈ before → (contexts token).groupId = group →
      ∃ response ∈ responses log token, response.ready = true

/-- The waiters in the map are under their groups, those that are to be notified are ripe unless
`shutdown` took them, and so was every waiter that was invoked before a shutdown. -/
structure Waiting (world : World) : Prop where
  keyed : ∀ group waiters waiter call, world.groupWaiters.lookup group = some waiters →
    waiter ∈ waiters → waiter.callback = some call → .waitCalled call group ∈ world.log
  ripe : world.shutdown = false → ∀ call, .waiter call ∈ world.notified →
    EarlyDone world.log world.contexts call
  invoked : ∀ first rest call, world.log = first ++ .waiterInvoked call :: rest →
    .shutdownBegan ∉ first → EarlyDone first world.contexts call

theorem EarlyDone.congr {log : List Event} {contexts later : Token → HttpRequestContext}
    {call : CallId} (early : EarlyDone log contexts call)
    (same : ∀ token, .accepted token ∈ log → (later token).groupId = (contexts token).groupId) :
    EarlyDone log later call := by
  intro before group after split nonzero token accepted inside
  have logged : .accepted token ∈ log := split ▸ List.mem_append_left _ accepted
  exact early before group after split nonzero token accepted (same token logged ▸ inside)

/-- More events do not matter, unless they register the waiter again. -/
theorem EarlyDone.append {log events : List Event} {contexts : Token → HttpRequestContext}
    {call : CallId} (early : EarlyDone log contexts call)
    (absent : ∀ group, .waitCalled call group ∉ events) :
    EarlyDone (log ++ events) contexts call := by
  intro before group after split nonzero token accepted inside
  obtain ⟨earlier, old⟩ := Log.split_of_not_mem (absent group) split
  obtain ⟨response, member, ready⟩ := early before group earlier old nonzero token accepted inside
  refine ⟨response, ?_, ready⟩
  rw [responses, List.filterMap_append]
  exact List.mem_append_left _ member

/-- The group of an admitted request never changes. -/
theorem Transition.groupId (orderly : Orderly world) (transition : Transition world action next)
    {token : Token} (accepted : .accepted token ∈ world.log) :
    (next.contexts token).groupId = (world.contexts token).groupId := by
  rcases transition.effect with neutral | ⟨request, callback, admits⟩ | ⟨done, completes⟩
  · exact neutral.groupId token
  · have old : token ≠ world.nextInFlightToken := by
      rintro rfl
      exact orderly.not_mem_log.1 accepted
    rw [admits.contexts, Function.update_of_ne old]
  · rw [completes.contexts]

/-- While a group has no outstanding request, all its requests have delivered their final
response. -/
theorem ready_of_idle (orderly : Orderly world) (counted : GroupsCounted world) {group : ℕ}
    (nonzero : group ≠ 0) (idle : world.toHttpRequestManager.groupRequestCount group = 0)
    {token : Token} (accepted : .accepted token ∈ world.log)
    (inside : (world.contexts token).groupId = group) :
    ∃ response ∈ responses world.log token, response.ready = true := by
  have intact : stageOf world.log token ≠ .broken := (orderly.custody.sound token).1
  have completed : .completed token ∈ world.log := by
    by_contra open_
    rw [HttpRequestManager.groupRequestCount, if_neg nonzero, counted.counted group nonzero,
      Finset.card_eq_zero] at idle
    have member : token ∈ world.outstanding group := by
      rw [World.outstanding, Finset.mem_filter, Finset.mem_range]
      refine ⟨Nat.lt_of_not_le fun beyond => ?_, accepted, inside, open_⟩
      have absent := orderly.fresh token beyond
      rw [accepted_mem_iff intact] at accepted
      exact accepted absent
    rw [idle] at member
    exact absurd member (by simp)
  have final : (stageOf world.log token).finals = 1 := by
    have done := (completed_mem_iff intact).mp completed
    cases stage : stageOf world.log token with
    | done => rfl
    | _ =>
      rw [stage] at done
      exact absurd done (by simp [Stage.isDone])
  rw [← countP_ready_responses intact] at final
  exact List.countP_pos_iff.mp (Nat.lt_of_lt_of_eq Nat.one_pos final.symm)

theorem waitCalled_mem_iff {log : List Event} {call : CallId} :
    .waiter call ∈ log.flatMap Event.opens ↔ ∃ group, .waitCalled call group ∈ log := by
  rw [List.mem_flatMap]
  constructor
  · rintro ⟨event, member, opened⟩
    cases event with
    | waitCalled other group =>
      rw [Event.opens, List.mem_singleton, Promise.waiter.injEq] at opened
      exact ⟨group, opened ▸ member⟩
    | _ => simp [Event.opens] at opened
  · rintro ⟨group, member⟩
    exact ⟨_, member, List.mem_cons_self⟩

/-- A call waits for one group only. -/
theorem Faithful.group_unique (books : Faithful world) {call : CallId} {group other : ℕ}
    (one : .waitCalled call group ∈ world.log) (two : .waitCalled call other ∈ world.log) :
    group = other := by
  by_contra different
  obtain ⟨before, after, split⟩ := List.append_of_mem one
  have elsewhere : .waitCalled call other ∈ before ++ after := by
    rw [split] at two
    simp only [List.mem_append, List.mem_cons, Event.waitCalled.injEq, true_and] at two ⊢
    exact two.imp_right fun later => later.resolve_left fun same => different same.symm
  have once := books.once (.waiter call)
  have again : 0 < List.count (.waiter call) ((before ++ after).flatMap Event.opens) :=
    List.count_pos_iff.mpr (waitCalled_mem_iff.mpr ⟨other, elsewhere⟩)
  rw [split, List.flatMap_append, List.flatMap_cons, List.count_append, List.count_append] at once
  rw [List.flatMap_append, List.count_append] at again
  simp only [Event.opens, count_cons_mark, List.count_nil, mark_self] at once
  omega

/-- A waiter of a group that is idle now is ripe. -/
theorem earlyDone_of_idle (orderly : Orderly world) (counted : GroupsCounted world)
    (books : Faithful world) {call : CallId} {group : ℕ}
    (called : .waitCalled call group ∈ world.log)
    (idle : group = 0 ∨ world.toHttpRequestManager.groupRequestCount group = 0) :
    EarlyDone world.log world.contexts call := by
  intro before other after split nonzero token accepted inside
  have again : .waitCalled call other ∈ world.log := by
    rw [split]
    exact List.mem_append_right _ List.mem_cons_self
  obtain rfl := books.group_unique again called
  exact ready_of_idle orderly counted nonzero (idle.resolve_left nonzero)
    (split ▸ List.mem_append_left _ accepted) inside

theorem Waiting.keyed_step (waiting : Waiting world) (step : WaitStep world next) :
    ∀ group waiters waiter call, next.groupWaiters.lookup group = some waiters →
      waiter ∈ waiters → waiter.callback = some call → .waitCalled call group ∈ next.log := by
  intro group waiters waiter call present listed given
  cases step with
  | ripen events fewer notified logged silent =>
    obtain ⟨more, found, subset⟩ := fewer group waiters present
    rw [logged]
    exact List.mem_append_left _ (waiting.keyed group more waiter call found (subset listed) given)
  | register target fresh added notified logged =>
    obtain ⟨id, inserted⟩ := added
    rw [logged]
    rw [inserted, Table.lookup_insert_eq] at present
    split at present
    · rename_i same
      rw [← Option.some.inj present] at listed
      rcases List.mem_append.mp listed with old | new
      · cases found : world.groupWaiters.lookup target with
        | none =>
          rw [found] at old
          exact absurd old (by simp)
        | some earlier =>
          rw [found] at old
          rw [same]
          exact List.mem_append_left _ (waiting.keyed target earlier waiter call found old given)
      · have fresh_ : world.freshCallback fresh = some call := by
          rw [List.mem_singleton.mp new] at given
          exact given
        refine List.mem_append_right _ ?_
        rw [same, fresh_]
        exact List.mem_cons_self
    · exact List.mem_append_left _ (waiting.keyed group waiters waiter call present listed given)
  | now target fresh idle same notified logged =>
    rw [logged]
    rw [same] at present
    exact List.mem_append_left _ (waiting.keyed group waiters waiter call present listed given)
  | invoke other due same notified logged =>
    rw [logged]
    rw [same] at present
    exact List.mem_append_left _ (waiting.keyed group waiters waiter call present listed given)

/-- The group of every admitted request stays the same. -/
def SameGroups (world next : World) : Prop :=
  ∀ token, .accepted token ∈ world.log →
    (next.contexts token).groupId = (world.contexts token).groupId

theorem EarlyDone.extend {call : CallId} {events : List Event}
    (early : EarlyDone world.log world.contexts call) (same : SameGroups world next)
    (logged : next.log = world.log ++ events)
    (absent : ∀ group, .waitCalled call group ∉ events) :
    EarlyDone next.log next.contexts call := by
  rw [logged]
  exact (early.congr same).append absent

/-- A promise that is kept was made by an earlier call. -/
theorem Faithful.notified_lt (books : Faithful world) {call : CallId}
    (member : .waiter call ∈ world.notified) : call < world.nextCall := by
  have kept : .waiter call ∈ world.promises := by
    rw [World.promises, List.append_assoc]
    exact List.mem_append_right _ member
  exact books.used_of_mem (books.of_kept kept).1

/-- The event of a new wait call is not about an older one. -/
theorem not_mem_freshCallback {given : Bool} {call : CallId} (old : call < world.nextCall)
    (group target : ℕ) :
    .waitCalled call target ∉
      (world.freshCallback given).toList.map (Event.waitCalled · group) := by
  cases given with
  | false => exact List.not_mem_nil
  | true =>
    simp only [World.freshCallback, if_true, Option.toList_some, List.map_cons, List.map_nil,
      List.mem_singleton, Event.waitCalled.injEq, not_and]
    exact fun same => absurd (same ▸ old) (Nat.lt_irrefl _)

theorem Waiting.ripe_step (waiting : Waiting world) (books : Faithful world)
    (nextOrderly : Orderly next) (nextCounted : GroupsCounted next) (nextBooks : Faithful next)
    (same : SameGroups world next) (running : world.shutdown = false)
    (step : WaitStep world next) (still : next.shutdown = false) {call : CallId}
    (member : .waiter call ∈ next.notified) : EarlyDone next.log next.contexts call := by
  have old : .waiter call ∈ world.notified → EarlyDone world.log world.contexts call :=
    waiting.ripe running call
  cases step with
  | ripen events fewer notified logged silent =>
    rcases notified call member with before | stopped |
      ⟨group, waiters, waiter, found, listed, given, idle⟩
    · exact (old before).extend same logged fun group inside =>
        absurd (silent _ inside) (by simp [Event.waits])
    · rw [still] at stopped
      exact absurd stopped (by simp)
    · refine earlyDone_of_idle nextOrderly nextCounted nextBooks ?_ (Or.inr idle)
      rw [logged]
      exact List.mem_append_left _ (waiting.keyed group waiters waiter call found listed given)
  | register group given waiters notified logged =>
    rw [notified] at member
    exact (old member).extend same logged (not_mem_freshCallback (books.notified_lt member) group)
  | now group given idle waiters notified logged =>
    rw [notified] at member
    rcases List.mem_append.mp member with before | new
    · exact (old before).extend same logged
        (not_mem_freshCallback (books.notified_lt before) group)
    · refine earlyDone_of_idle nextOrderly nextCounted nextBooks ?_
        (idle.resolve_left (by rw [still]; simp))
      obtain ⟨number, fresh, equal⟩ := List.mem_map.mp new
      rw [Promise.waiter.injEq] at equal
      rw [logged]
      exact List.mem_append_right _ (List.mem_map.mpr ⟨call, equal ▸ fresh, rfl⟩)
  | invoke other due waiters notified logged =>
    exact (old (notified member)).extend same logged (by simp)

theorem Waiting.invoked_step (waiting : Waiting world) (controlled : Controlled world)
    (same : SameGroups world next) (step : WaitStep world next) {first rest : List Event}
    {call : CallId} (split : next.log = first ++ .waiterInvoked call :: rest)
    (before : .shutdownBegan ∉ first) : EarlyDone first next.contexts call := by
  have old : ∀ {events}, next.log = world.log ++ events → .waiterInvoked call ∉ events →
      EarlyDone first next.contexts call := by
    intro events logged absent
    obtain ⟨earlier, found⟩ := Log.split_of_not_mem absent (logged.symm.trans split)
    refine (waiting.invoked first earlier call found before).congr fun token accepted => ?_
    exact same token (found ▸ List.mem_append_left _ accepted)
  cases step with
  | ripen events fewer notified logged silent =>
    exact old logged fun inside => absurd (silent _ inside) (by simp [Event.waits])
  | register group given waiters notified logged => exact old logged (by simp)
  | now group given idle waiters notified logged => exact old logged (by simp)
  | invoke other due waiters notified logged =>
    rcases Log.concat_eq_append_cons_iff.mp (logged.symm.trans split) with
      ⟨_, rfl, here⟩ | ⟨earlier, _, found⟩
    · rw [Event.waiterInvoked.injEq] at here
      have running : world.shutdown = false := by
        rw [← Bool.not_eq_true, controlled.logged]
        exact before
      exact (waiting.ripe running call (here ▸ due)).congr same
    · refine (waiting.invoked first earlier call found before).congr fun token accepted => ?_
      exact same token (found ▸ List.mem_append_left _ accepted)

theorem waiting_of_reachable (reachable : managerSystem.Reachable world) : Waiting world := by
  refine reachable.induction Waiting ?_ ?_
  · refine ⟨fun _ _ _ _ found => absurd found (by simp [managerSystem]), fun _ call member => ?_,
      fun first rest call split => absurd split (by simp [managerSystem])⟩
    exact absurd member List.not_mem_nil
  · intro state action after reached waiting stepped
    have transition := step_transition stepped
    have later := reached.step stepped
    have controlled := controlled_of_reachable reached
    have step := transition.waits controlled
    have same : SameGroups state after :=
      fun _ accepted => transition.groupId (orderly_of_reachable reached) accepted
    refine ⟨waiting.keyed_step step, fun still call member => ?_,
      fun first rest call split before => waiting.invoked_step controlled same step split before⟩
    exact waiting.ripe_step (faithful_of_reachable reached) (orderly_of_reachable later)
      (groupsCounted_of_reachable later) (faithful_of_reachable later) same
      (transition.running controlled still) step still member

/-! ### Exactly once -/

/-- A thread has left the section of a wait call and is about to invoke the callback itself. -/
def Caller.waits : Caller → Bool
  | .waitInvoke _ => true
  | _ => false

/-- Once `shutdown` and all wait calls have returned, no callback of a waiter is kept. -/
theorem not_mem_promises_of_returned (drained : Drained world) (returned : world.ShutdownReturned)
    (finished : ∀ caller ∈ world.callers, caller.waits = false) (call : CallId) :
    .waiter call ∉ world.promises := by
  obtain ⟨stopped, idle, done⟩ := returned
  have waiters : world.groupWaiters.contents = [] := by
    rw [Table.contents, List.isEmpty_iff.mp (drained.waiters stopped idle)]
    rfl
  have queued : .waiter call ∉ world.queuedCancels := by
    simp [World.queuedCancels, cancelPromises]
  have callers : .waiter call ∉ world.callers.flatMap Caller.promises := by
    intro member
    obtain ⟨caller, present, kept⟩ := List.mem_flatMap.mp member
    have other := finished caller present
    cases caller with
    | waitInvoke => exact absurd other (by simp [Caller.waits])
    | _ => simp [Caller.promises, cancelPromises] at kept
  rw [World.promises, idle, done, waiters]
  simp [queued, callers, Phase.promises]

/-- What happened to a waiter's callback. -/
theorem count_waiter_closes (log : List Event) (call : CallId) :
    List.count (.waiter call) (log.flatMap Event.closes) =
      log.count (.waiterInvoked call) + log.count (.waitCancelled call) := by
  induction log with
  | nil => rfl
  | cons event rest inductionHypothesis =>
    rw [List.count_cons, List.count_cons, List.flatMap_cons, List.count_append, inductionHypothesis]
    cases event with
    | waiterInvoked other =>
      simp only [Event.closes, List.count_singleton, Promise.waiter.injEq, beq_iff_eq,
        Event.waiterInvoked.injEq, reduceCtorEq, if_false]
      omega
    | waitCancelled other =>
      simp only [Event.closes, List.count_singleton, Promise.waiter.injEq, beq_iff_eq,
        Event.waitCancelled.injEq, reduceCtorEq, if_false]
      omega
    | _ => simp [Event.closes]

/-- In every reachable state a waiter that was removed is never invoked. Once `shutdown` and all
wait calls have returned, every other waiter was invoked exactly once. A waiter of a nonzero
group that was invoked before a shutdown was invoked after the final response of every request
of its group that was admitted before the wait call. -/
theorem waiters_notified_once (reachable : managerSystem.Reachable world) :
    (∀ call, .waitCancelled call ∈ world.log → .waiterInvoked call ∉ world.log) ∧
      (world.ShutdownReturned → (∀ caller ∈ world.callers, caller.waits = false) →
        ∀ call group, .waitCalled call group ∈ world.log → .waitCancelled call ∉ world.log →
          world.log.count (.waiterInvoked call) = 1) ∧
      ∀ first rest call, world.log = first ++ .waiterInvoked call :: rest →
        .shutdownBegan ∉ first → EarlyDone first world.contexts call := by
  have books := faithful_of_reachable reachable
  refine ⟨fun call cancelled invoked => ?_, fun returned finished call group called kept => ?_,
    (waiting_of_reachable reachable).invoked⟩
  · have few := books.closed_le (.waiter call)
    have once := books.once (.waiter call)
    rw [count_waiter_closes] at few
    have one := List.count_pos_iff.mpr cancelled
    have two := List.count_pos_iff.mpr invoked
    omega
  · have opened := waitCalled_mem_iff.mpr ⟨group, called⟩
    have closed := books.closed_once opened
      (not_mem_promises_of_returned (drained_of_reachable reachable) returned finished call)
    rw [count_waiter_closes, List.count_eq_zero.mpr kept] at closed
    exact closed

/-- Two threads wait for a group with one request, and one of them gives up. The request ends
because libcurl gives no multi handle, and the worker shuts down. -/
def waitForGroup : List Action :=
  [.submitRequest (some { requestId := 1, groupId := 7 }) true, .waitRequests 7 true,
    .waitRequests 7 true, .cancelWait 7 2, .callProcess, .work .proceed, .work (.time 1),
    .work (.time 1), .work (.multiInit false), .work .proceed, .work .proceed, .work .proceed,
    .work .proceed, .work .proceed, .work .proceed, .work .proceed, .work (.time 1),
    .work .proceed, .work .proceed, .callShutdown, .work .proceed, .work .proceed,
    .work .proceed, .work .proceed]

/-- The other thread's callback runs after the final response, and only once. -/
theorem waiters_notified_once_waitForGroup :
    ∃ world first rest, managerSystem.Runs managerSystem.init waitForGroup world ∧
      world.log = first ++ .waiterInvoked 0 :: rest ∧ EarlyDone first world.contexts 0 ∧
      world.log.count (.waiterInvoked 0) = 1 ∧ .waiterInvoked 1 ∉ world.log := by
  have checked : (managerSystem.run managerSystem.init waitForGroup).any (fun world =>
      decide (world.ShutdownReturned ∧ world.callers = [] ∧ .waitCalled 0 7 ∈ world.log ∧
        .waitCancelled 0 ∉ world.log ∧ .waitCancelled 1 ∈ world.log ∧
        world.log = world.log.take 8 ++ .waiterInvoked 0 :: world.log.drop 9 ∧
        .shutdownBegan ∉ world.log.take 8)) = true := by
    decide +kernel
  obtain ⟨world, runs, evaluated⟩ := System.exists_runs checked
  obtain ⟨returned, nobody, called, kept, removed, split, early⟩ := of_decide_eq_true evaluated
  obtain ⟨never, once, ordered⟩ := waiters_notified_once ⟨_, runs⟩
  exact ⟨world, _, _, runs, split, ordered _ _ 0 split early,
    once returned (by rw [nobody]; simp) 0 7 called kept, never 1 removed⟩

/-- A thread waits for an idle group, and `shutdown` runs before it invokes its callback. -/
def waitDuringShutdown : List Action :=
  [.waitRequests 7 true, .callShutdown, .work .proceed, .work .proceed, .work .proceed,
    .work .proceed]

/-- A request without a group is pending while a thread waits for the group zero. -/
def waitForNoGroup : List Action :=
  [.submitRequest (some { requestId := 1 }) true, .waitRequests 0 true, .continueCaller 0]

/-- A callback may be invoked only after `shutdown` has returned, by its own thread; and a
callback for the group zero does not wait for any request. -/
theorem waiter_outlives_shutdown :
    (¬ ∀ world, managerSystem.Reachable world → world.ShutdownReturned →
      ∀ call group, .waitCalled call group ∈ world.log → .waitCancelled call ∉ world.log →
        world.log.count (.waiterInvoked call) = 1) ∧
    ¬ ∀ world, managerSystem.Reachable world → ∀ first rest call,
      world.log = first ++ .waiterInvoked call :: rest → .shutdownBegan ∉ first →
        ∀ before group after, first = before ++ .waitCalled call group :: after →
          ∀ token, .accepted token ∈ before → (world.contexts token).groupId = group →
            ∃ response ∈ responses first token, response.ready = true := by
  constructor
  · intro promised
    have checked : (managerSystem.run managerSystem.init waitDuringShutdown).any (fun world =>
        decide (world.ShutdownReturned ∧ .waitCalled 0 7 ∈ world.log ∧
          .waitCancelled 0 ∉ world.log ∧ world.log.count (.waiterInvoked 0) = 0)) = true := by
      decide +kernel
    obtain ⟨world, runs, evaluated⟩ := System.exists_runs checked
    obtain ⟨returned, called, kept, never⟩ := of_decide_eq_true evaluated
    have once := promised world ⟨_, runs⟩ returned 0 7 called kept
    rw [never] at once
    exact absurd once (by simp)
  · intro promised
    have checked : (managerSystem.run managerSystem.init waitForNoGroup).any (fun world =>
        decide (world.log = [.accepted 1, .waitCalled 0 0, .waiterInvoked 0] ∧
          (world.contexts 1).groupId = 0)) = true := by
      decide +kernel
    obtain ⟨world, runs, evaluated⟩ := System.exists_runs checked
    obtain ⟨logged, inside⟩ := of_decide_eq_true evaluated
    obtain ⟨response, member, _⟩ :=
      promised world ⟨_, runs⟩ [.accepted 1, .waitCalled 0 0] [] 0 logged
      (by simp) [.accepted 1] 0 [] rfl 1 (by simp) inside
    exact absurd member (by simp [responses, Event.responseTo])

end Kurlyk.Http
