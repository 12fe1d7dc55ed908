/-
This file decides when the callbacks of cancel calls are invoked. A cancel call
reads the shutdown flag first and enters its section later, while `shutdown`
takes the maps of queued cancellations once, in the middle of its statements. A
call whose section comes after that leaves its callback in a map that nobody
reads again. After every run in which `shutdown` and all cancel calls have
returned, each callback was invoked exactly once if and only if no call was that
late.
-/

import Kurlyk.Http.Control
import Kurlyk.Http.Promises

namespace Kurlyk.Http

variable {world next : World} {action : Action}

/-- The statements of `shutdown` up to the one that takes the maps. -/
def Phase.beforeTake : Phase → Bool
  | .cleanupPending => true
  | .processCancel _ => true
  | _ => false

/-- `shutdown` has taken the maps of queued cancellations. -/
def World.cancelsTaken (world : World) : Bool :=
  world.shutdown && !world.phase.beforeTake

/-- The callback that the action puts into one of the maps. -/
def World.insertion (world : World) : Action → Option CallId
  | .continueCaller position =>
    match world.callers[position]? with
    | some (.insertById _ callback) => callback
    | some (.insertByGroup group callback) =>
      if world.toHttpRequestManager.groupRequestCount group = 0 then none else callback
    | _ => none
  | _ => none

/-- A callback is put into a map that `shutdown` has already taken. -/
def LateInsertion (world : World) (action : Action) : Prop :=
  world.cancelsTaken = true ∧ (world.insertion action).isSome = true

instance (world : World) (action : Action) : Decidable (LateInsertion world action) :=
  inferInstanceAs (Decidable (_ ∧ _))

/-- A thread is inside one of the two cancel functions. -/
def Caller.cancels : Caller → Bool
  | .cancelInvoke _ => true
  | .insertById _ _ => true
  | .insertByGroup _ _ => true
  | _ => false

/-! ### What a step does to the maps -/

theorem cancelsTaken_iff : world.cancelsTaken = true ↔
    world.shutdown = true ∧ world.phase.beforeTake = false := by
  rw [World.cancelsTaken, Bool.and_eq_true, Bool.not_eq_true']

theorem cancelsTaken_congr (shutdown : next.shutdown = world.shutdown)
    (phase : next.phase = world.phase) : next.cancelsTaken = world.cancelsTaken := by
  rw [World.cancelsTaken, World.cancelsTaken, shutdown, phase]

theorem not_cancelsTaken (running : world.shutdown = false) : world.cancelsTaken = false := by
  rw [World.cancelsTaken, running, Bool.false_and]

/-- What a step makes of the maps: it leaves them alone, empties them for the last time, or
puts a callback in. -/
inductive QueueStep (world : World) (action : Action) (next : World) : Prop where
  | keep (silent : world.insertion action = none)
    (queued : next.queuedCancels = world.queuedCancels)
    (taken : next.cancelsTaken = world.cancelsTaken)
  | empty (silent : world.insertion action = none) (untaken : world.cancelsTaken = false)
    (queued : next.queuedCancels = [])
  | wait (silent : world.insertion action = none) (untaken : world.cancelsTaken = false)
    (still : next.cancelsTaken = false)
  | insert (queued : ∀ promise, List.count promise next.queuedCancels =
      List.count promise world.queuedCancels +
        List.count promise (cancelPromises (world.insertion action)))
    (taken : next.cancelsTaken = world.cancelsTaken)

theorem queuedCancels_empty (ids : world.requestsToCancelById.isEmpty = true)
    (groups : world.groupsToCancel.isEmpty = true) : world.queuedCancels = [] := by
  rw [World.queuedCancels, Table.contents, Table.contents, List.isEmpty_iff.mp ids,
    List.isEmpty_iff.mp groups]
  rfl

theorem Jump.queue {phase : Phase} {clock : TimePoint} (controlled : Controlled world)
    (jump : Jump world action phase) : QueueStep world action { world with phase, clock } := by
  cases jump with
  | nothingToCancel at_ noIds noGroups =>
    refine .empty rfl ?_ (queuedCancels_empty noIds noGroups)
    rw [World.cancelsTaken, at_]
    exact Bool.and_false _
  | process at_ flag =>
    exact .wait rfl (not_cancelsTaken flag) (not_cancelsTaken flag)
  | processAfterShutdown at_ | shutdownAgain at_ | failedScanned at_ | failedKept at_ =>
    refine .keep rfl rfl ?_
    rw [World.cancelsTaken, World.cancelsTaken, at_]
    rfl
  | skipScan at_ | enterScan at_ | refused at_ | multiHandle at_ | noBatch at_ | perform at_
  | performed at_ | performFailed at_ | stillRunning at_ | batchGone at_ | nothingToExtract at_
  | retryDone at_ | retryLater at_ =>
    have running := controlled.running at_ rfl
    exact .wait rfl (not_cancelsTaken running) (not_cancelsTaken running)

theorem CancelStep.queue (step : CancelStep world next) :
    QueueStep world (.work .proceed) next := by
  cases step with
  | takeCancels at_ =>
    refine .empty rfl ?_ rfl
    rw [World.cancelsTaken, at_]
    exact Bool.and_false _
  | cancelFailed at_ => exact .keep rfl rfl rfl
  | cancelBatch at_ =>
    refine .keep rfl rfl ?_
    rw [World.cancelsTaken, World.cancelsTaken, at_]
    rfl
  | @batchesScanned ids groups index mode at_ =>
    refine .keep rfl rfl ?_
    rw [World.cancelsTaken, World.cancelsTaken, at_]
    cases mode <;> rfl

theorem ClosingStep.queue (step : ClosingStep world next) :
    QueueStep world (.work .proceed) next := by
  cases step with
  | cleanup at_ =>
    refine .wait rfl ?_ (Bool.and_false _)
    rw [World.cancelsTaken, at_]
    exact Bool.and_false _
  | notifyIdle at_ | notifyAll at_ | clear at_ =>
    refine .keep rfl rfl ?_
    rw [World.cancelsTaken, World.cancelsTaken, at_]
    rfl

theorem AgendaStep.queuedCancels (step : AgendaStep world next) :
    next.queuedCancels = world.queuedCancels := by
  cases step with
  | @settleGroup token group rest agenda captured =>
    obtain ⟨counts, waiters, same⟩ :=
      HttpRequestManager.completeGroupRequest_frame world.toHttpRequestManager group
    simp only [World.queuedCancels, same]
  | _ => rfl

theorem submit_queuedCancels (world : World) (request : Option HttpRequest) (callback : Bool) :
    (world.submit request callback).queuedCancels = world.queuedCancels := by
  rcases submit_cases world request callback with rejected | ⟨_, admitted⟩
  · rw [rejected]
    rfl
  · rw [admitted]
    rfl

theorem CallerStep.queue (controlled : Controlled world) (step : CallerStep world action next) :
    QueueStep world action next := by
  have taken := cancelsTaken_congr (step.continues controlled).shutdown step.phase_eq.1
  cases step with
  | submit => exact .keep rfl (submit_queuedCancels _ _ _) taken
  | clientSubmits unlocked found =>
    exact .keep (by rw [World.insertion, found]) (submit_queuedCancels _ _ _) taken
  | waitRegister unlocked registered =>
    obtain ⟨_, rfl⟩ := HttpRequestManager.registerWaiter_eq_some registered
    exact .keep rfl rfl taken
  | cancelWait unlocked removed =>
    obtain ⟨_, _, _, rfl⟩ := HttpRequestManager.cancelWait_eq_some removed
    exact .keep rfl rfl taken
  | cancelById | cancelByGroup =>
    refine .keep rfl ?_ taken
    unfold World.callCancel
    dsimp only
    split <;> rfl
  | @insertById position requestId callback unlocked found =>
    refine .insert (fun promise => ?_) taken
    have inserted := Table.count_contents_insert cancelPromises promise
      world.requestsToCancelById requestId
      ((world.requestsToCancelById.lookup requestId).getD [] ++ [callback])
    have same : world.insertion (.continueCaller position) = callback := by
      rw [World.insertion, found]
    rw [same]
    simp only [World.queuedCancels, HttpRequestManager.queueCancelById, List.count_append,
      List.flatMap_append, List.flatMap_cons, List.flatMap_nil, List.count_nil] at inserted ⊢
    omega
  | @insertByGroup position group callback manager unlocked found queued =>
    have busy : world.toHttpRequestManager.groupRequestCount group ≠ 0 := by
      intro idle
      rw [HttpRequestManager.queueCancelByGroup, if_pos idle] at queued
      exact absurd queued (by simp)
    have same : world.insertion (.continueCaller position) = callback := by
      rw [World.insertion, found]
      exact if_neg busy
    rw [HttpRequestManager.queueCancelByGroup_eq_some queued] at taken ⊢
    refine .insert (fun promise => ?_) taken
    have inserted := Table.count_contents_insert cancelPromises promise world.groupsToCancel group
      ((world.groupsToCancel.lookup group).getD [] ++ [callback])
    rw [same]
    simp only [World.queuedCancels, List.count_append, List.flatMap_append, List.flatMap_cons,
      List.flatMap_nil, List.count_nil] at inserted ⊢
    omega
  | callerWaits found => exact .keep (by rw [World.insertion, found]) rfl taken
  | callerCancels found => exact .keep (by rw [World.insertion, found]) rfl taken
  | @groupIdle position group callback unlocked found idle =>
    refine .keep ?_ rfl taken
    rw [World.insertion, found]
    refine if_pos ?_
    by_contra busy
    rw [HttpRequestManager.queueCancelByGroup, if_neg busy] at idle
    exact absurd idle (by simp)
  | _ => exact .keep rfl rfl taken

theorem HandleStep.queuedCancels (step : HandleStep world action next) :
    next.queuedCancels = world.queuedCancels := by
  obtain ⟨_, _, _, _, rfl⟩ := step.frame
  rfl

theorem Transition.queue (controlled : Controlled world)
    (transition : Transition world action next) : QueueStep world action next := by
  cases transition with
  | jump agenda jump => exact jump.queue controlled
  | pending agenda step =>
    have running := step.running controlled
    exact .wait rfl (not_cancelsTaken running)
      (not_cancelsTaken ((step.continues controlled).shutdown.trans running))
  | active agenda step =>
    have running := step.running controlled
    exact .wait rfl (not_cancelsTaken running)
      (not_cancelsTaken ((step.continues controlled).shutdown.trans running))
  | cancel agenda step => exact step.queue
  | closing agenda step => exact step.queue
  | agenda step =>
    exact .keep rfl step.queuedCancels
      (cancelsTaken_congr (step.continues controlled).shutdown step.phase_eq)
  | shutdown agenda at_ running => exact .wait rfl (not_cancelsTaken running) rfl
  | caller step => exact step.queue controlled
  | handles step =>
    exact .keep (by cases step <;> rfl) step.queuedCancels
      (cancelsTaken_congr (step.continues controlled).shutdown step.phase_eq.1)

/-! ### Runs -/

/-- Once `shutdown` has taken the maps, no callback is left in them. -/
def NothingLeft (world : World) : Prop :=
  world.cancelsTaken = true → ∀ promise, promise ∉ world.queuedCancels

/-- A callback is in a map that nobody will read again. -/
def LeftBehind (promise : Promise) (world : World) : Prop :=
  world.cancelsTaken = true ∧ promise ∈ world.queuedCancels

theorem NothingLeft.step (nothing : NothingLeft world) (queue : QueueStep world action next)
    (timely : ¬ LateInsertion world action) : NothingLeft next := by
  intro taken promise
  cases queue with
  | keep silent queued same =>
    rw [queued]
    exact nothing (same ▸ taken) promise
  | empty silent untaken queued =>
    rw [queued]
    exact List.not_mem_nil
  | wait silent untaken still =>
    rw [still] at taken
    exact absurd taken (by simp)
  | insert queued same =>
    have none : world.insertion action = none := by
      rw [← Option.not_isSome_iff_eq_none]
      exact fun late => timely ⟨same ▸ taken, late⟩
    have counted := queued promise
    rw [none] at counted
    rw [← List.count_pos_iff, counted]
    exact fun positive => nothing (same ▸ taken) promise (List.count_pos_iff.mp positive)

theorem LeftBehind.step {promise : Promise} (left : LeftBehind promise world)
    (queue : QueueStep world action next) : LeftBehind promise next := by
  obtain ⟨taken, member⟩ := left
  cases queue with
  | keep silent queued same => exact ⟨same.trans taken, queued ▸ member⟩
  | empty silent untaken queued =>
    rw [taken] at untaken
    exact absurd untaken (by simp)
  | wait silent untaken still =>
    rw [taken] at untaken
    exact absurd untaken (by simp)
  | insert queued same =>
    refine ⟨same.trans taken, List.count_pos_iff.mp ?_⟩
    rw [queued promise]
    exact Nat.add_pos_left (List.count_pos_iff.mpr member) _

/-- A late insertion leaves its callback behind. -/
theorem LateInsertion.leftBehind (late : LateInsertion world action)
    (queue : QueueStep world action next) : ∃ call, LeftBehind (.cancel call) next := by
  obtain ⟨taken, inserts⟩ := late
  cases queue with
  | keep silent | empty silent | wait silent =>
    rw [silent] at inserts
    exact absurd inserts (by simp)
  | insert queued same =>
    obtain ⟨call, inserted⟩ := Option.isSome_iff_exists.mp inserts
    refine ⟨call, same.trans taken, List.count_pos_iff.mp ?_⟩
    rw [queued, inserted]
    exact Nat.add_pos_right _ (List.count_pos_iff.mpr List.mem_cons_self)

/-- Where the callback of a cancel call can be once `shutdown` and all cancel calls have
returned. -/
theorem mem_promises_of_returned (returned : world.ShutdownReturned)
    (finished : ∀ caller ∈ world.callers, caller.cancels = false) (call : CallId) :
    Promise.cancel call ∈ world.promises ↔ Promise.cancel call ∈ world.queuedCancels := by
  obtain ⟨_, idle, done⟩ := returned
  have waiters : Promise.cancel call ∉
      world.groupWaiters.contents.flatMap GroupWaiter.promises := by
    simp [GroupWaiter.promises]
  have callers : Promise.cancel call ∉ world.callers.flatMap Caller.promises := by
    intro member
    obtain ⟨caller, present, kept⟩ := List.mem_flatMap.mp member
    have other := finished caller present
    cases caller with
    | waitInvoke | submitting => simp [Caller.promises] at kept
    | cancelInvoke | insertById | insertByGroup => exact absurd other (by simp [Caller.cancels])
  rw [World.promises, idle, done]
  simp [waiters, callers, Phase.promises]

theorem count_cancelInvoked (log : List Event) (call : CallId) :
    log.count (.cancelInvoked call) = List.count (.cancel call) (log.flatMap Event.closes) := by
  induction log with
  | nil => rfl
  | cons event rest inductionHypothesis =>
    rw [List.count_cons, inductionHypothesis, List.flatMap_cons, List.count_append, Nat.add_comm]
    refine congrArg (· + _) ?_
    cases event with
    | cancelInvoked other => simp [Event.closes, List.count_singleton]
    | _ => simp [Event.closes]

theorem cancelCalled_mem_iff {log : List Event} {call : CallId} :
    .cancelCalled call ∈ log ↔ Promise.cancel call ∈ log.flatMap Event.opens := by
  rw [List.mem_flatMap]
  constructor
  · exact fun member => ⟨_, member, List.mem_cons_self⟩
  · rintro ⟨event, member, opened⟩
    cases event with
    | cancelCalled other =>
      rw [Event.opens, List.mem_singleton, Promise.cancel.injEq] at opened
      exact opened ▸ member
    | _ => simp [Event.opens] at opened

/-- After every run at whose end `shutdown` and all cancel calls have returned, the callback of
each cancel call was invoked exactly once if and only if no step of the run put a callback into
a map after `shutdown` had taken it. -/
theorem cancel_callbacks_once_iff {actions : List Action}
    (runs : managerSystem.Runs managerSystem.init actions world)
    (returned : world.ShutdownReturned)
    (finished : ∀ caller ∈ world.callers, caller.cancels = false) :
    (∀ call, .cancelCalled call ∈ world.log → world.log.count (.cancelInvoked call) = 1) ↔
      managerSystem.Throughout (fun state action => ¬ LateInsertion state action)
        managerSystem.init actions := by
  have books := faithful_of_reachable ⟨actions, runs⟩
  constructor
  · intro invoked
    by_contra violated
    obtain ⟨before, action, after, state, reached, _, first, late, step, second⟩ :=
      runs.exists_violation violated
    have reachable : managerSystem.Reachable state := ⟨before, first⟩
    obtain ⟨call, left⟩ := (not_not.mp late).leftBehind
      ((step_transition step).queue (controlled_of_reachable reachable))
    have stays : LeftBehind (.cancel call) world := by
      refine second.induction (LeftBehind (.cancel call)) (reachable.step step) left ?_
      intro state action next stateReachable _ left stepped
      exact left.step ((step_transition stepped).queue (controlled_of_reachable stateReachable))
    have kept := (mem_promises_of_returned returned finished call).mpr stays.2
    obtain ⟨opened, unclosed⟩ := books.of_kept kept
    have once := invoked call (cancelCalled_mem_iff.mpr opened)
    rw [count_cancelInvoked] at once
    exact unclosed (List.count_pos_iff.mp (by omega))
  · intro timely call called
    have nothing : NothingLeft world := by
      refine runs.induction_throughout timely NothingLeft System.reachable_init ?_ ?_
      · exact fun _ _ => List.not_mem_nil
      · intro state action next stateReachable punctual nothing stepped
        exact nothing.step
          ((step_transition stepped).queue (controlled_of_reachable stateReachable)) punctual
    have taken : world.cancelsTaken = true :=
      cancelsTaken_iff.mpr ⟨returned.1, by rw [returned.2.1]; rfl⟩
    rw [count_cancelInvoked]
    refine books.closed_once (cancelCalled_mem_iff.mp called) fun kept => ?_
    exact nothing taken _ ((mem_promises_of_returned returned finished call).mp kept)

/-- A cancel call of one thread that is over before `shutdown` begins. -/
def timelyCancel : List Action :=
  [.cancelById 5 true, .continueCaller 0, .callShutdown, .work .proceed, .work .proceed,
    .work .proceed, .work .proceed, .work .proceed, .work .proceed, .work .proceed]

/-- Its callback is invoked by `shutdown`. -/
theorem cancel_callbacks_once_timelyCancel :
    ∃ world, managerSystem.Runs managerSystem.init timelyCancel world ∧
      world.ShutdownReturned ∧ .cancelCalled 0 ∈ world.log ∧
      world.log.count (.cancelInvoked 0) = 1 := by
  have checked : (managerSystem.run managerSystem.init timelyCancel).any (fun world =>
      decide (world.ShutdownReturned ∧ world.callers = [] ∧
        .cancelCalled 0 ∈ world.log)) = true := by
    decide +kernel
  have timely : managerSystem.Throughout (fun state action => ¬ LateInsertion state action)
      managerSystem.init timelyCancel := by
    decide +kernel
  obtain ⟨world, runs, evaluated⟩ := System.exists_runs checked
  obtain ⟨returned, nobody, called⟩ := of_decide_eq_true evaluated
  have invoked := (cancel_callbacks_once_iff runs returned (by rw [nobody]; simp)).mpr timely
  exact ⟨world, runs, returned, called, invoked 0 called⟩

/-- The same call, when the whole of `shutdown` runs between its test of the flag and its
section. -/
def lateCancel : List Action :=
  [.cancelById 5 true, .callShutdown, .work .proceed, .work .proceed, .work .proceed,
    .work .proceed, .continueCaller 0]

/-- Its callback is never invoked. -/
theorem cancel_callback_lost : ¬ ∀ actions world,
    managerSystem.Runs managerSystem.init actions world → world.ShutdownReturned →
    (∀ caller ∈ world.callers, caller.cancels = false) →
    ∀ call, .cancelCalled call ∈ world.log → world.log.count (.cancelInvoked call) = 1 := by
  intro promised
  have checked : (managerSystem.run managerSystem.init lateCancel).any (fun world =>
      decide (world.ShutdownReturned ∧ world.callers = [] ∧ .cancelCalled 0 ∈ world.log ∧
        world.log.count (.cancelInvoked 0) = 0)) = true := by
    decide +kernel
  obtain ⟨world, runs, evaluated⟩ := System.exists_runs checked
  obtain ⟨returned, nobody, called, never⟩ := of_decide_eq_true evaluated
  have once := promised lateCancel world runs returned (by rw [nobody]; simp) 0 called
  rw [never] at once
  exact absurd once (by simp)

end Kurlyk.Http
