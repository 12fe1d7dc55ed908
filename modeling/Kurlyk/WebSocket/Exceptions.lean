/-
This file is about runs in which functions of the user throw. An exception ends the
call at one of the listed places. A property of the members and of what has been
written that holds again at every end of a switch, and at every place where an
exception does no harm, holds between the calls of every run in which no function
throws elsewhere and none calls `process` or `shutdown` back.

Inside a call the worker waits for one function, and whatever the other threads
do before it ends, what is left of the call leads back to the property.
-/

import Kurlyk.WebSocket.Interruption

namespace Kurlyk.WebSocket

open Client

/-! ### Properties that survive -/

/-- A property of the members and of what the state machine has written. -/
def Holds (property : Machine → List Effect → Prop) (client : Client) : Prop :=
  property client.toMachine (fsmLog client.log)

theorem Holds.quiet {property : Machine → List Effect → Prop} {before after : Client}
    (holds : Holds property before) (quiet : Untouched before after) : Holds property after := by
  rw [Holds, quiet.machine, quiet.log]
  exact holds

/-- At every end of a switch and of the timer `rest` holds again if it held before, and `during`
holds at every place where the user is called. Where an exception does no harm `rest` holds as
well. -/
structure Survives (harms : FsmState → Callback → Bool)
    (rest during : Machine → List Effect → Prop) : Prop where
  resting : ∀ machine log, rest machine log → during machine log
  handled : ∀ machine log input event after effects, rest machine log →
    Handled machine input event after effects → rest after (log ++ .popped event :: effects)
  interrupted : ∀ machine log event callback after effects, rest machine log →
    Interrupted machine event callback after effects →
    during after (log ++ .popped event :: effects) ∧
      (harms after.fsmState callback = false → rest after (log ++ .popped event :: effects))
  timed : ∀ machine log input after effects, rest machine log → machine.fsmState ≠ .working →
    Timed machine input after effects → rest after (log ++ effects)
  timerInterrupted : ∀ machine log callback after effects, rest machine log →
    TimerInterrupted machine callback after effects →
    during after (log ++ effects) ∧
      (harms after.fsmState callback = false → rest after (log ++ effects))

/-- What a course of `process_fsm_state` is asked at the calls of the user and at its end. -/
def Leads (harms : FsmState → Callback → Bool) (rest during : Machine → List Effect → Prop)
    (course : Course Callback Client Bool) : Prop :=
  course.Meets Untouched
    (fun callback client => Holds during client ∧
      (harms client.fsmState callback = false → Holds rest client))
    fun again client => Holds rest client ∧ (again = true → client.fsmState = .working)

section Calls

variable {harms : FsmState → Callback → Bool} {rest during : Machine → List Effect → Prop}
  {client : Client} {input : Input} {before after : Machine} {event : FsmEventData}
  {effects : List Effect}

/-- A message leaves the state. -/
theorem Handled.state_of_message (handled : Handled before input event after effects)
    (message : isMessage event = true) : after.fsmState = before.fsmState := by
  cases handled with
  | ignored event branch => rfl
  | message text attempt state => rfl
  | undefined report attempt effects state missing => rfl
  | lost report attempt errors closeEvent ends state config configured =>
    cases report with
    | messageReceived text => cases ends
    | _ => cases message
  | _ => cases message

/-- A switch in `RECONNECTING` does not lead to `WORKING`. -/
theorem Handled.not_working (handled : Handled before input event after effects)
    (state : before.fsmState = .reconnecting) : after.fsmState ≠ .working := by
  cases handled with
  | ignored event branch => simp [state]
  | message text attempt elsewhere => simp [state]
  | reconfigured config callback elsewhere =>
    unfold attempted
    split <;> simp
  | stored config callback elsewhere => simp [state]
  | connects callback elsewhere => simp [state] at elsewhere
  | opened statusCode attempt elsewhere => simp [state] at elsewhere
  | lost report attempt errors closeEvent ends elsewhere => simp [state] at elsewhere
  | undefined report attempt effects elsewhere => simp [state] at elsewhere
  | _ => simp

theorem handleNext_meets (survives : Survives harms rest during) (holds : Holds rest client) :
    (Block.handleNext client.fsmState input client).Meets Untouched
      (fun callback client => Holds during client ∧
        (harms client.fsmState callback = false → Holds rest client))
      fun again next => Holds rest next ∧
        (client.fsmState = .working → again = true → next.fsmState = .working) ∧
        (client.fsmState = .reconnecting → next.fsmState ≠ .working) := by
  simp only [Block.handleNext, Routine.meets_bind, Routine.meets_get]
  cases queue : client.fsmEventQueue with
  | nil => exact ⟨holds, fun _ impossible => (Bool.false_ne_true impossible).elim,
      fun state => by simp [state]⟩
  | cons event later =>
    have popped : ∀ {log effects}, log = fsmLog (client.popEvent event later).log ++ effects →
        log = fsmLog client.log ++ .popped event :: effects := by
      rintro log effects rfl
      rw [popEvent_log, fsmLog_append, List.append_assoc]
      rfl
    have serves : Block.Serves (client.popEvent event later) input event
        (Block.switch client.fsmState event input (client.popEvent event later)) :=
      Block.switch_serves event
    simp only [Routine.meets_bind, Routine.meets_modify, Routine.meets_pure]
    refine serves.imp ?_ ?_
    · rintro callback returned ⟨effects, log, interrupted⟩
      obtain ⟨meanwhile, spared⟩ := survives.interrupted _ _ _ _ _ _ holds interrupted
      rw [← popped log] at meanwhile spared
      exact ⟨meanwhile, spared⟩
    · rintro _ next ⟨effects, log, handled⟩
      have again := survives.handled _ _ _ _ _ _ holds handled
      rw [← popped log] at again
      exact ⟨again, fun state message => (handled.state_of_message message).trans state,
        fun state => handled.not_working state⟩

theorem processState_leads (survives : Survives harms rest during) (holds : Holds rest client) :
    Leads harms rest during (Block.processState client.fsmState input client) := by
  have passed : (Block.handleNext client.fsmState input client).Meets Untouched _ _ :=
    handleNext_meets survives holds
  cases state : client.fsmState with
  | working =>
    rw [state] at passed
    refine passed.imp (fun _ _ => id) ?_
    rintro again next ⟨holds, working, _⟩
    exact ⟨holds, working rfl⟩
  | reconnecting =>
    rw [state] at passed
    simp only [Leads, Block.processState, Routine.meets_bind, Routine.meets_pure]
    refine passed.imp (fun _ _ => id) ?_
    rintro _ middle ⟨again, _, elsewhere⟩
    refine (Block.reconnectTimer_meets middle input).imp ?_ ?_
    · rintro callback returned ⟨effects, log, interrupted⟩
      have told := survives.timerInterrupted _ _ _ _ _ again interrupted
      rw [← log] at told
      exact told
    · rintro _ next ⟨effects, log, timed⟩
      have ended := survives.timed _ _ _ _ _ again (elsewhere rfl) timed
      rw [← log] at ended
      exact ⟨ended, fun impossible => (Bool.false_ne_true impossible).elim⟩
  | _ =>
    rw [state] at passed
    simp only [Leads, Block.processState, Routine.meets_bind, Routine.meets_pure]
    refine passed.imp (fun _ _ => id) ?_
    rintro _ next ⟨again, _⟩
    exact ⟨again, fun impossible => (Bool.false_ne_true impossible).elim⟩

end Calls

/-! ### Whole runs -/

/-- An exception out of the call does harm. -/
def Frame.harmful (harms : FsmState → Callback → Bool) (state : FsmState) : Frame → Bool
  | .state callback _ _ _ => harms state callback
  | _ => false

/-- Nobody calls `process` or `shutdown` from inside `process_fsm_state`, and no function that
`process_fsm_state` called throws where that does harm. -/
def careful (harms : FsmState → Callback → Bool) (world : CallbackWorld) : CallbackAction → Bool
  | .client (.callProcess _) => !world.busy
  | .client .callShutdown => !world.busy
  | .throwCallback => !world.stack.head?.any (Frame.harmful harms world.client.fsmState)
  | _ => true

/-- Between the calls the property holds, and inside one the rest of it leads back. -/
inductive Sound (harms : FsmState → Callback → Bool) (rest during : Machine → List Effect → Prop)
    (world : CallbackWorld) : Prop where
  | resting (calm : world.busy = false) (holds : Holds rest world.client)
  | looping (input : Input) (looping : world.looping = some input)
      (calm : world.stack.any Frame.isState = false) (holds : Holds rest world.client)
      (working : world.client.fsmState = .working)
  | calling (callback : Callback) (resume : Client → Course Callback Client Bool) (input : Input)
      (point : Point) (frames : List Frame) (free : world.looping = none)
      (idle : world.point = .idle)
      (stack : world.stack = .state callback resume input point :: frames)
      (calm : frames.any Frame.isState = false)
      (leads : ∀ client, Untouched world.client client → (Holds during client ∧
        (harms client.fsmState callback = false → Holds rest client)) ∧
        Leads harms rest during (resume client))

theorem quiet_completeSend (client : Client) (errorCode : ErrorCode) (callback : Option ℕ) :
    Untouched client (client.completeSend errorCode callback) := by
  cases callback with
  | none => exact Untouched.refl client
  | some callback => exact ⟨rfl, by simp [completeSend, fsmLog, Effect.OfSend]⟩

/-- From `idle` only a call of `process` or `shutdown` leads away. -/
theorem point_of_step {world next : ClientWorld} {action : ClientAction}
    (stepped : world.step action = some next) (other : action.input? = none)
    (idle : world.point = .idle) (open_ : action ≠ .callShutdown) : next.point = .idle := by
  cases clientStep_of_step stepped with
  | setConfig | connect | disconnect =>
    unfold ClientWorld.request
    split <;> exact idle
  | submitMessage | submitClose =>
    unfold ClientWorld.beginSubmit
    split <;> exact idle
  | callProcess => cases other
  | callShutdown => exact absurd rfl open_
  | processMessageQueue point | send point | allSent point | processSendCallbackQueue point
  | drainSendCallbackQueue point | loopShutdown point => simp [idle] at point
  | returnShutdown point => rfl
  | _ => exact idle

namespace Sound

variable {harms : FsmState → Callback → Bool} {rest during : Machine → List Effect → Prop}
  {world next : CallbackWorld}

/-- A course that leads back is followed up to its next stop. -/
theorem follow {course : Course Callback Client Bool} (leads : Leads harms rest during course)
    (calm : world.stack.any Frame.isState = false) (input : Input) (point : Point) :
    Sound harms rest during (world.follow course input point) := by
  cases course with
  | ended again client =>
    obtain ⟨holds, working⟩ := leads
    cases again with
    | false => exact .resting (by simp [CallbackWorld.follow, CallbackWorld.busy, calm]) holds
    | true => exact .looping input rfl calm holds (working rfl)
  | calling callback client resume =>
    exact .calling callback resume input point world.stack rfl rfl rfl calm leads

/-- A resting worker begins a call. -/
theorem enter (survives : Survives harms rest during) (calm : world.busy = false)
    (holds : Holds rest world.client) (input : Input) (point : Point) :
    Sound harms rest during
      (world.follow (Block.processFsmState input world.client) input point) := by
  have stack : world.stack.any Frame.isState = false := (Bool.or_eq_false_iff.mp calm).2
  exact follow (processState_leads survives holds) stack input point

theorem invokeSent {items : List (ErrorCode × ℕ)} {point : Point} (calm : world.busy = false)
    (holds : Holds rest world.client) :
    Sound harms rest during (world.invokeSent items point) := by
  cases items with
  | nil => exact .resting calm holds
  | cons item later =>
    refine .resting ?_ (holds.quiet ⟨rfl, ?_⟩)
    · simpa [CallbackWorld.busy, CallbackWorld.invokeSent, Frame.isState] using calm
    · exact (quiet_completeSend _ _ _).log

/-- Between the calls the property holds. -/
theorem holds (sound : Sound harms rest during world) (calm : world.busy = false) :
    Holds rest world.client := by
  cases sound with
  | resting _ holds => exact holds
  | looping input looping => simp [CallbackWorld.busy, looping] at calm
  | calling callback resume input point frames free idle stack =>
    simp [CallbackWorld.busy, stack, Frame.isState] at calm

/-- Inside a call of the user the worker is at `idle`. -/
theorem calm (sound : Sound harms rest during world) (free : world.looping = none)
    (elsewhere : world.point ≠ .idle) : world.busy = false := by
  cases sound with
  | resting calm => exact calm
  | looping input looping => simp [looping] at free
  | calling callback resume input point frames _ idle => exact absurd idle elsewhere

/-- A step of another thread, or of the worker where it calls nobody. -/
theorem quiet {action : ClientAction} {after : ClientWorld}
    (sound : Sound harms rest during world)
    (cautious : careful harms world (.client action) = true) (other : action.input? = none)
    (stepped : world.toClientWorld.step action = some after) :
    Sound harms rest during { world with toClientWorld := after } := by
  have quiet : Untouched world.client after.client := by
    cases fsmStep_of_step stepped with
    | tick input _ given => simp [other] at given
    | push event _ machine queue log => exact ⟨machine, congrArg fsmLog log⟩
    | aside _ machine queue effects log sends =>
      exact ⟨machine, by rw [log, fsmLog_append, fsmLog_of_sends sends, List.append_nil]⟩
  cases sound with
  | resting calm holds => exact .resting calm (holds.quiet quiet)
  | looping input looping calm holds working =>
    refine .looping input looping calm (holds.quiet quiet) ?_
    rw [quiet.machine]
    exact working
  | calling callback resume input point frames free idle stack calm leads =>
    refine .calling callback resume input point frames free ?_ stack calm
      fun client later => leads client (quiet.trans later)
    refine point_of_step stepped other idle fun shutdown => ?_
    subst shutdown
    simp [careful, CallbackWorld.busy, stack, Frame.isState] at cautious

theorem step (survives : Survives harms rest during) {action : CallbackAction}
    (sound : Sound harms rest during world) (cautious : careful harms world action = true)
    (stepped : world.step action = some next) : Sound harms rest during next := by
  cases callbackStep_of_step stepped with
  | callProcess free idle =>
    have calm : world.busy = false := by simpa [careful] using cautious
    exact enter survives calm (sound.holds calm) _ _
  | loopShutdown free point =>
    have calm := sound.calm free (by simp [point])
    exact enter survives calm (sound.holds calm) _ _
  | loop looping =>
    cases sound with
    | resting calm => simp [CallbackWorld.busy, looping] at calm
    | looping input _ calm holds working =>
      exact follow (working ▸ processState_leads survives holds) calm _ _
    | calling callback resume input point frames free => simp [looping] at free
  | @returnCallback frame frames free idle stack =>
    cases sound with
    | resting calm holds =>
      obtain ⟨other, remaining⟩ : frame.isState = false ∧
          CallbackWorld.busy { world with stack := frames } = false := by
        simpa [CallbackWorld.busy, free, stack] using calm
      cases frame with
      | state callback resume input point => cases other
      | sent items point => exact invokeSent remaining holds
      | notConnected sends => exact .resting remaining holds
    | looping input looping => simp [looping] at free
    | calling callback resume input point frames _ _ top calm leads =>
      obtain ⟨rfl, rfl⟩ := List.cons.inj (stack.symm.trans top)
      exact follow (leads _ (Untouched.refl _)).2 calm _ _
  | @throwCallback frame frames free idle stack =>
    cases sound with
    | resting calm holds =>
      obtain ⟨_, remaining⟩ : frame.isState = false ∧
          CallbackWorld.busy { world with stack := frames } = false := by
        simpa [CallbackWorld.busy, free, stack] using calm
      exact .resting remaining holds
    | looping input looping => simp [looping] at free
    | calling callback resume input point frames _ _ top calm leads =>
      obtain ⟨rfl, rfl⟩ := List.cons.inj (stack.symm.trans top)
      have harmless : harms world.client.fsmState callback = false := by
        simpa [careful, stack, Frame.harmful] using cautious
      exact .resting (by simp [CallbackWorld.busy, free, calm])
        ((leads _ (Untouched.refl _)).1.2 harmless)
  | send free point =>
    have calm := sound.calm free (by simp [point])
    have holds := sound.holds calm
    unfold CallbackWorld.sendNext
    split
    · refine .resting calm (holds.quiet ?_)
      unfold ClientWorld.sendOne
      split
      · exact Untouched.refl _
      · exact quiet_completeSend _ _ _
    · refine .resting ?_ (holds.quiet (quiet_completeSend _ _ _))
      simpa [CallbackWorld.busy, Frame.isState] using calm
  | allSent free point =>
    have calm := sound.calm free (by simp [point])
    exact .resting calm (sound.holds calm)
  | drain free point =>
    have calm := sound.calm free (by rcases point with point | point <;> simp [point])
    exact invokeSent calm (sound.holds calm)
  | quiet other happened => exact sound.quiet cautious other happened

/-- What holds wherever the user is called holds in every state. -/
theorem throughout (survives : Survives harms rest during)
    (sound : Sound harms rest during world) : Holds during world.client := by
  cases sound with
  | resting _ holds => exact survives.resting _ _ holds
  | looping _ _ _ holds => exact survives.resting _ _ holds
  | calling callback resume input point frames _ _ _ _ leads => exact (leads _ (Untouched.refl _)).1.1

end Sound

/-- A property that survives holds between the calls of every run in which nobody calls back from
inside `process_fsm_state` and no exception does harm. -/
theorem sound_of_runs {harms : FsmState → Callback → Bool}
    {rest during : Machine → List Effect → Prop} (survives : Survives harms rest during)
    (base : rest {} []) {actions : List CallbackAction} {world : CallbackWorld}
    (runs : callbackSystem.Runs callbackSystem.init actions world)
    (cautious : callbackSystem.Throughout
      (fun world action => careful harms world action = true) callbackSystem.init actions) :
    Sound harms rest during world :=
  runs.induction_throughout cautious (Sound harms rest during) System.reachable_init
    (.resting rfl base) fun _ _ _ _ careful sound stepped => sound.step survives careful stepped

/-- One call of `process` in which so many functions of the user are called, and all return, and
that finds no message to send. -/
def processCalling (calls : ℕ) (input : Input) : List CallbackAction :=
  .client (.callProcess input) :: List.replicate calls .returnCallback ++
    [.client (.processMessageQueue fun _ => {}), .client .send, .client .processSendCallbackQueue]

/-- A client with a handler begins its first attempt, which succeeds; the report is in the
queue. -/
def openedWithHandler : List CallbackAction :=
  List.flatten [[.client (.setEventHandler true), .client (.setConfig (some {}) false),
    .client (.connect false)], processCalling 0 {}, processCalling 0 {},
    [.client (.report (.connectionOpened 101) 1)]]

end Kurlyk.WebSocket
