/-
This file models a client whose users' functions need not return. A handler or a
completion callback may throw: the exception leaves `process` or `shutdown` with
the members as they have been written so far, and the event that was popped is
destroyed. It may also call `process` or `shutdown` of its own client, through the
pointer to the sender that every event carries, before it returns. Meanwhile the
other threads go on. The callbacks of finished sends are cut in the same way; those
that `process_send_callback_queue` calls hold its mutex.

Where every function returns at once a call does what it does in `clientSystem`,
so that every run of that system is a run of this one.
-/

import Kurlyk.WebSocket.Blocks
import Kurlyk.WebSocket.World

namespace Kurlyk.WebSocket

/-! ### The worker inside calls -/

/-- A call of the user that has not returned: from `process_fsm_state`, with the rest of the
course and the point after it; from `process_send_callback_queue`, which keeps its mutex, with
the callbacks that are left; or from a send without a connection, with the sends that are
left. -/
inductive Frame where
  | state (callback : Callback) (resume : Client → Course Callback Client Bool) (input : Input)
      (point : Point)
  | sent (rest : List (ErrorCode × ℕ)) (point : Point)
  | notConnected (rest : List WebSocketSendInfo)

/-- The call was made by `process_fsm_state`. -/
def Frame.isState : Frame → Bool
  | .state _ _ _ _ => true
  | _ => false

/-- The call was made with `m_send_callback_queue_mutex` locked. -/
def Frame.isSent : Frame → Bool
  | .sent _ _ => true
  | _ => false

/-- A client whose worker may be inside calls of the user, the innermost first. Inside one it is
at `idle`, like the code that calls `process`. With an input in `looping` it is at the head of the
loop in `process_state_working`, and `point` is where it goes on afterwards. -/
structure CallbackWorld extends ClientWorld where
  looping : Option Input := none
  stack : List Frame := []

/-- The actions: those of a client, of which `callProcess`, `loopShutdown`, `send` and
`processSendCallbackQueue` go as far as the next call of the user, the next pass of the loop in
`process_state_working`, and the two ends of a call. -/
inductive CallbackAction where
  | client (action : ClientAction)
  | loop
  | returnCallback
  | throwCallback

namespace CallbackWorld

variable (world : CallbackWorld)

/-- `process_fsm_state` is under way. -/
def busy : Bool :=
  world.looping.isSome || world.stack.any Frame.isState

/-- `m_send_callback_queue_mutex` is locked by the worker. -/
def locked : Bool :=
  world.stack.any Frame.isSent

/-- A course of `process_fsm_state` goes on up to its next stop. -/
def follow (course : Course Callback Client Bool) (input : Input) (point : Point) :
    CallbackWorld :=
  match course with
  | .ended again client =>
    { world with client, point, looping := if again then some input else none }
  | .calling callback client resume =>
    { world with
      client
      point := .idle
      looping := none
      stack := .state callback resume input point :: world.stack }

/-- The loop of `process_send_callback_queue` goes on up to its next stop. -/
def invokeSent (items : List (ErrorCode × ℕ)) (point : Point) : CallbackWorld :=
  match items with
  | [] => { world with point }
  | item :: rest =>
    { world with
      client := world.client.completeSend item.1 (some item.2)
      point := .idle
      stack := .sent rest point :: world.stack }

/-- A send, whose callback is called at once when there is no connection. -/
def sendNext (send : WebSocketSendInfo) (rest : List WebSocketSendInfo) : CallbackWorld :=
  if world.client.connection || send.callback.isNone then
    { world with toClientWorld := world.sendOne send rest }
  else
    { world with
      client := world.client.completeSend .notConnected send.callback
      point := .idle
      stack := .notConnected rest :: world.stack }

/-- The innermost call of the user returns. -/
def resume (frame : Frame) (rest : List Frame) : CallbackWorld :=
  match frame with
  | .state _ resume input point =>
    { world with stack := rest }.follow (resume world.client) input point
  | .sent items point => { world with stack := rest }.invokeSent items point
  | .notConnected sends => { world with point := .sending sends, stack := rest }

/-- An action that calls nobody. -/
def quietly (action : ClientAction) : Option CallbackWorld :=
  (world.toClientWorld.step action).map fun next => { world with toClientWorld := next }

/-- One action of the client, if its thread is there. -/
def clientStep (world : CallbackWorld) (action : ClientAction) : Option CallbackWorld :=
  match action with
  | .callProcess input =>
    match world.looping, world.point with
    | none, .idle =>
      some (world.follow (Block.processFsmState input world.client) input .processMessages)
    | _, _ => none
  | .loopShutdown input =>
    match world.looping, world.point with
    | none, .shutdownLoop =>
      if world.client.running then
        some (world.follow (Block.processFsmState input world.client) input .shutdownCallbacks)
      else none
    | _, _ => none
  | .send =>
    match world.looping, world.point with
    | none, .sending (send :: rest) => some (world.sendNext send rest)
    | none, .sending [] => some { world with point := .processCallbacks }
    | _, _ => none
  | .processSendCallbackQueue =>
    match world.looping, world.locked, world.point with
    | none, false, .processCallbacks =>
      some ({ world with client := { world.client with sendCallbackQueue := [] } }.invokeSent
        world.client.sendCallbackQueue .idle)
    | none, false, .shutdownCallbacks =>
      some ({ world with client := { world.client with sendCallbackQueue := [] } }.invokeSent
        world.client.sendCallbackQueue .shutdownLoop)
    | _, _, _ => none
  | .finishSend position _ =>
    if world.locked && (world.outstanding[position]?).any (·.callback.isSome) then none
    else world.quietly action
  | .processMessageQueue _ => if world.looping.isSome then none else world.quietly action
  | .callShutdown => if world.looping.isSome then none else world.quietly action
  | .returnShutdown => if world.looping.isSome then none else world.quietly action
  | _ => world.quietly action

/-- One action, if its thread is there. An exception leaves the frame that was called from and
its `process` or `shutdown`, and arrives in the code that called these. -/
def step (world : CallbackWorld) : CallbackAction → Option CallbackWorld
  | .client action => world.clientStep action
  | .loop =>
    match world.looping with
    | some input =>
      some (world.follow (Block.processState .working input world.client) input world.point)
    | none => none
  | .returnCallback =>
    match world.looping, world.point, world.stack with
    | none, .idle, frame :: rest => some (world.resume frame rest)
    | _, _, _ => none
  | .throwCallback =>
    match world.looping, world.point, world.stack with
    | none, .idle, _ :: rest => some { world with stack := rest }
    | _, _, _ => none

end CallbackWorld

/-- A client with all its threads, whose users' functions may throw and call back. -/
def callbackSystem : System CallbackWorld CallbackAction where
  init := {}
  step := CallbackWorld.step

/-! ### What a step can do -/

/-- What one step does, said once: the later files do not unfold `CallbackWorld.step`. -/
inductive CallbackStep (world : CallbackWorld) : CallbackAction → CallbackWorld → Prop where
  | callProcess {input : Input} (free : world.looping = none) (idle : world.point = .idle) :
    CallbackStep world (.client (.callProcess input))
      (world.follow (Block.processFsmState input world.client) input .processMessages)
  | loopShutdown {input : Input} (free : world.looping = none)
    (point : world.point = .shutdownLoop) :
    CallbackStep world (.client (.loopShutdown input))
      (world.follow (Block.processFsmState input world.client) input .shutdownCallbacks)
  | loop {input : Input} (looping : world.looping = some input) :
    CallbackStep world .loop
      (world.follow (Block.processState .working input world.client) input world.point)
  | returnCallback {frame : Frame} {rest : List Frame} (free : world.looping = none)
    (idle : world.point = .idle) (stack : world.stack = frame :: rest) :
    CallbackStep world .returnCallback (world.resume frame rest)
  | throwCallback {frame : Frame} {rest : List Frame} (free : world.looping = none)
    (idle : world.point = .idle) (stack : world.stack = frame :: rest) :
    CallbackStep world .throwCallback { world with stack := rest }
  | send {send : WebSocketSendInfo} {rest : List WebSocketSendInfo} (free : world.looping = none)
    (point : world.point = .sending (send :: rest)) :
    CallbackStep world (.client .send) (world.sendNext send rest)
  | allSent (free : world.looping = none) (point : world.point = .sending []) :
    CallbackStep world (.client .send) { world with point := .processCallbacks }
  | drain {next : Point} (free : world.looping = none)
    (point : world.point = .processCallbacks ∨ world.point = .shutdownCallbacks) :
    CallbackStep world (.client .processSendCallbackQueue)
      ({ world with client := { world.client with sendCallbackQueue := [] } }.invokeSent
        world.client.sendCallbackQueue next)
  | quiet {action : ClientAction} {next : ClientWorld} (other : action.input? = none)
    (stepped : world.toClientWorld.step action = some next) :
    CallbackStep world (.client action) { world with toClientWorld := next }

theorem callbackStep_of_quietly {world next : CallbackWorld} {action : ClientAction}
    (other : action.input? = none) (stepped : world.quietly action = some next) :
    CallbackStep world (.client action) next := by
  obtain ⟨after, happened, rfl⟩ := Option.map_eq_some_iff.mp stepped
  exact .quiet other happened

theorem callbackStep_of_step {world next : CallbackWorld} {action : CallbackAction}
    (stepped : world.step action = some next) : CallbackStep world action next := by
  cases action with
  | client action =>
    cases action with
    | callProcess input =>
      simp only [CallbackWorld.step, CallbackWorld.clientStep] at stepped
      split at stepped
      · rename_i free idle
        obtain rfl := Option.some.inj stepped
        exact .callProcess free idle
      · cases stepped
    | loopShutdown input =>
      simp only [CallbackWorld.step, CallbackWorld.clientStep] at stepped
      split at stepped
      · rename_i free point
        rw [Option.ite_none_right_eq_some] at stepped
        obtain rfl := Option.some.inj stepped.2
        exact .loopShutdown free point
      · cases stepped
    | send =>
      simp only [CallbackWorld.step, CallbackWorld.clientStep] at stepped
      split at stepped
      · rename_i free point
        obtain rfl := Option.some.inj stepped
        exact .send free point
      · rename_i free point
        obtain rfl := Option.some.inj stepped
        exact .allSent free point
      · cases stepped
    | processSendCallbackQueue =>
      simp only [CallbackWorld.step, CallbackWorld.clientStep] at stepped
      split at stepped
      · rename_i free _ point
        obtain rfl := Option.some.inj stepped
        exact .drain free (Or.inl point)
      · rename_i free _ point
        obtain rfl := Option.some.inj stepped
        exact .drain free (Or.inr point)
      · cases stepped
    | finishSend position errorCode =>
      rw [CallbackWorld.step, CallbackWorld.clientStep, Option.ite_none_left_eq_some] at stepped
      exact callbackStep_of_quietly rfl stepped.2
    | processMessageQueue readings =>
      rw [CallbackWorld.step, CallbackWorld.clientStep, Option.ite_none_left_eq_some] at stepped
      exact callbackStep_of_quietly rfl stepped.2
    | callShutdown =>
      rw [CallbackWorld.step, CallbackWorld.clientStep, Option.ite_none_left_eq_some] at stepped
      exact callbackStep_of_quietly rfl stepped.2
    | returnShutdown =>
      rw [CallbackWorld.step, CallbackWorld.clientStep, Option.ite_none_left_eq_some] at stepped
      exact callbackStep_of_quietly rfl stepped.2
    | _ => exact callbackStep_of_quietly rfl stepped
  | loop =>
    simp only [CallbackWorld.step] at stepped
    split at stepped
    · rename_i looping
      obtain rfl := Option.some.inj stepped
      exact .loop looping
    · cases stepped
  | returnCallback =>
    simp only [CallbackWorld.step] at stepped
    split at stepped
    · rename_i free idle stack
      obtain rfl := Option.some.inj stepped
      exact .returnCallback free idle stack
    · cases stepped
  | throwCallback =>
    simp only [CallbackWorld.step] at stepped
    split at stepped
    · rename_i free idle stack
      obtain rfl := Option.some.inj stepped
      exact .throwCallback free idle stack
    · cases stepped

/-! ### Functions that return at once -/

section Returns

variable {world : CallbackWorld} {input : Input} {point : Point}

/-- Where every function returns at once, a course is followed to its end. -/
theorem runs_course (course : Course Callback Client Bool) (world : CallbackWorld)
    (input : Input) (point : Point) :
    ∃ actions, callbackSystem.Runs (world.follow course input point) actions
      (world.follow (.ended course.outcome.1 course.outcome.2) input point) := by
  induction course generalizing world with
  | ended again client => exact ⟨[], System.runs_nil.mpr rfl⟩
  | calling callback client resume inductionHypothesis =>
    obtain ⟨actions, runs⟩ := inductionHypothesis client
      { world with client, point := .idle, looping := none }
    refine ⟨.returnCallback :: actions, System.runs_cons.mpr ⟨_, rfl, ?_⟩⟩
    exact runs

/-- The loop of `process_state_working` does what `workingLoop` does. -/
theorem runs_workingLoop {events : List FsmEventData} {client : Client}
    (queue : client.fsmEventQueue = events) (state : client.fsmState = .working) :
    ∃ actions, callbackSystem.Runs
      (world.follow (Block.processState .working input client) input point) actions
      (world.follow (.ended false (Client.workingLoop input events client)) input point) := by
  induction events generalizing client world with
  | nil =>
    obtain ⟨actions, runs⟩ :=
      runs_course (Block.processState .working input client) world input point
    rw [Block.processState, Block.outcome_handleNext_of_empty _ _ _ queue] at runs
    exact ⟨actions, runs⟩
  | cons event rest inductionHypothesis =>
    obtain ⟨actions, runs⟩ :=
      runs_course (Block.processState .working input client) world input point
    have passed := Block.outcome_handleNext client event input queue
    rw [state] at passed
    rw [Block.processState, passed] at runs
    have switched : (client.popEvent event rest).switch event input =
        (client.popEvent event rest).switchWorking event input := by
      simp [Client.switch, state]
    rw [switched] at runs
    unfold Client.workingLoop
    dsimp only
    split
    · rename_i message
      rw [message] at runs
      have left := (Client.switchWorking_does (client.popEvent event rest) event input state).queue
      have working := (Client.switchWorking_message_state (client.popEvent event rest) input _
        message).trans state
      obtain ⟨later, remaining⟩ := inductionHypothesis left working
      refine ⟨actions ++ .loop :: later, System.runs_append.mpr ⟨_, runs,
        System.runs_cons.mpr ⟨_, rfl, remaining⟩⟩⟩
    · rename_i other
      rw [Bool.not_eq_true] at other
      rw [other] at runs
      exact ⟨actions, runs⟩

/-- A call of `process_fsm_state` in which every function returns at once does what the state
machine does. -/
theorem runs_processFsmState (world : CallbackWorld) (input : Input) (point : Point) :
    ∃ actions, callbackSystem.Runs
      (world.follow (Block.processFsmState input world.client) input point) actions
      (world.follow (.ended false (world.client.processFsmState input)) input point) := by
  by_cases working : world.client.fsmState = .working
  · rw [Client.processFsmState_of_working _ _ working]
    have course : Block.processFsmState input world.client =
        Block.processState .working input world.client := by
      rw [← working]
      rfl
    rw [course]
    exact runs_workingLoop rfl working
  · obtain ⟨actions, runs⟩ := runs_course
      (Block.processState world.client.fsmState input world.client) world input point
    rw [Block.outcome_processState _ _ working] at runs
    exact ⟨actions, runs⟩

/-- The send callbacks of a queue are called in order. -/
theorem runs_sent (items : List (ErrorCode × ℕ)) (world : CallbackWorld) (point : Point)
    (free : world.looping = none) :
    ∃ actions, callbackSystem.Runs (world.invokeSent items point) actions
      { world with
        client := { world.client with
          log := world.client.log ++ items.map fun item => .sendCompleted item.2 item.1 }
        point } := by
  induction items generalizing world with
  | nil => exact ⟨[], System.runs_nil.mpr (by simp [CallbackWorld.invokeSent])⟩
  | cons item rest inductionHypothesis =>
    obtain ⟨actions, runs⟩ := inductionHypothesis
      { world with client := world.client.completeSend item.1 (some item.2), point := .idle } free
    refine ⟨.returnCallback :: actions, System.runs_cons.mpr
      ⟨{ world with
          client := world.client.completeSend item.1 (some item.2)
          point := .idle }.invokeSent rest point, ?_, ?_⟩⟩
    · simp [callbackSystem, CallbackWorld.step, CallbackWorld.invokeSent, CallbackWorld.resume,
        free]
    · simpa [Client.completeSend, Client.emit] using runs

end Returns

/-- A run of a client whose functions return at once is a run of a client whose functions may do
what they like. -/
theorem reachable_of_clientSystem {world : ClientWorld} (reachable : clientSystem.Reachable world) :
    callbackSystem.Reachable { toClientWorld := world } := by
  refine reachable.induction
    (fun world => callbackSystem.Reachable { toClientWorld := world }) System.reachable_init ?_
  intro before action after _ reached stepped
  have follow : ∀ middle actions, callbackSystem.step { toClientWorld := before }
      (.client action) = some middle →
      callbackSystem.Runs middle actions { toClientWorld := after } →
      callbackSystem.Reachable { toClientWorld := after } := fun _ _ first runs =>
    reached.runs (System.runs_cons.mpr ⟨_, first, runs⟩)
  have quiet : callbackSystem.step { toClientWorld := before } (.client action) =
      CallbackWorld.quietly { toClientWorld := before } action →
      callbackSystem.Reachable { toClientWorld := after } := by
    intro same
    refine follow _ [] (same.trans ?_) (System.runs_nil.mpr rfl)
    exact Option.map_eq_some_iff.mpr ⟨after, stepped, rfl⟩
  cases clientStep_of_step stepped with
  | @callProcess input idle =>
    obtain ⟨actions, runs⟩ :=
      runs_processFsmState { toClientWorld := before } input .processMessages
    refine follow _ actions ?_ runs
    simp [callbackSystem, CallbackWorld.step, CallbackWorld.clientStep, idle]
  | @loopShutdown input loop running =>
    obtain ⟨actions, runs⟩ :=
      runs_processFsmState { toClientWorld := before } input .shutdownCallbacks
    refine follow _ actions ?_ runs
    simp [callbackSystem, CallbackWorld.step, CallbackWorld.clientStep, loop, running]
  | processSendCallbackQueue point =>
    obtain ⟨actions, runs⟩ := runs_sent before.client.sendCallbackQueue
      { toClientWorld := { before with client := { before.client with sendCallbackQueue := [] } } }
      .idle rfl
    refine follow _ actions ?_ runs
    simp [callbackSystem, CallbackWorld.step, CallbackWorld.clientStep, CallbackWorld.locked, point]
  | drainSendCallbackQueue point =>
    obtain ⟨actions, runs⟩ := runs_sent before.client.sendCallbackQueue
      { toClientWorld := { before with client := { before.client with sendCallbackQueue := [] } } }
      .shutdownLoop rfl
    refine follow _ actions ?_ runs
    simp [callbackSystem, CallbackWorld.step, CallbackWorld.clientStep, CallbackWorld.locked, point]
  | @send send rest point =>
    by_cases told : before.client.connection || send.callback.isNone
    · refine follow _ [] ?_ (System.runs_nil.mpr rfl)
      simp [callbackSystem, CallbackWorld.step, CallbackWorld.clientStep, point,
        CallbackWorld.sendNext, told]
    · refine follow (CallbackWorld.sendNext { toClientWorld := before } send rest)
        [.returnCallback] ?_ (System.runs_cons.mpr ⟨_, ?_, System.runs_nil.mpr rfl⟩)
      · simp [callbackSystem, CallbackWorld.step, CallbackWorld.clientStep, point]
      · have unconnected : before.client.connection = false := by
          rw [Bool.or_eq_true, not_or] at told
          exact Bool.not_eq_true _ ▸ told.1
        rw [CallbackWorld.sendNext, if_neg told]
        simp [callbackSystem, CallbackWorld.step, CallbackWorld.resume, ClientWorld.sendOne,
          unconnected]
  | allSent point =>
    refine follow _ [] ?_ (System.runs_nil.mpr rfl)
    simp [callbackSystem, CallbackWorld.step, CallbackWorld.clientStep, point]
  | finishSend found =>
    refine quiet ?_
    simp [callbackSystem, CallbackWorld.step, CallbackWorld.clientStep, CallbackWorld.locked]
  | _ => exact quiet rfl

end Kurlyk.WebSocket
