/-
This file follows the requests of the users. Every event that enters the queue is
popped once, in order, whatever the functions of the user do, and the switch that
receives it settles it once, whatever state it meets. So between two calls the
callbacks that were invoked are the callbacks of the events that were popped, in
the order of the calls, and the other callbacks belong to events that are still in
the queue.

The user is told of an event before the request that caused it is settled. A
handler that throws there takes the callback of the request with it.
-/

import Mathlib.Data.List.Range
import Kurlyk.WebSocket.Configuration

namespace Kurlyk.WebSocket

open Client

/-- The events that were popped, in order. -/
def poppedOf (log : List Effect) : List FsmEventData :=
  log.filterMap fun
    | .popped event => some event
    | _ => none

/-- The events that ever entered the queue, in order. -/
def Client.enqueuedEvents (client : Client) : List FsmEventData :=
  poppedOf client.log ++ client.fsmEventQueue

/-- The calls whose completion callbacks were invoked, in order. -/
def completions (log : List Effect) : List ℕ :=
  log.filterMap fun
    | .settled event _ => event.callback
    | _ => none

/-- The calls that belong to the events. -/
def callsOf (events : List FsmEventData) : List ℕ :=
  events.filterMap FsmEventData.callback

/-! ### One switch -/

section Outcomes

variable {before after : Machine} {input : Input} {event : FsmEventData} {effects : List Effect}

/-- The entry tells of an event of the queue. -/
def Effect.ofQueue : Effect → Bool
  | .popped _ => true
  | .settled _ _ => true
  | _ => false

theorem filter_settlement (event : FsmEventData) (success : Bool) :
    (settlement event success).filter Effect.ofQueue = settlement event success := by
  cases event <;> rfl

theorem filter_closing (connected : Bool) (event : WebSocketEventData) :
    (closing connected event).filter Effect.ofQueue = [] := by
  unfold closing
  split <;> rfl

theorem filter_attempted (event : FsmEventData) (input : Input) (machine : Machine) :
    (attempted event input machine).2.filter Effect.ofQueue = settlement event input.init := by
  unfold attempted
  split
  · rename_i started
    rw [started]
    exact filter_settlement event true
  · rename_i failed
    rw [Bool.not_eq_true] at failed
    rw [failed]
    exact filter_settlement event false

theorem filter_cleared (machine : Machine) :
    (cleared machine).2.filter Effect.ofQueue = [] := by
  unfold cleared
  split
  · exact filter_closing _ _
  · rfl

theorem filter_errors {report : BackendEvent} {errors : List Effect}
    {closeEvent : WebSocketEventData} (ends : Ends report = some (errors, closeEvent)) :
    errors.filter Effect.ofQueue = [] := by
  rcases (ends_cases ends).2 with rfl | ⟨errorCode, rfl⟩ <;> rfl

/-- A switch settles the event it is applied to, once, and pops none. -/
theorem Handled.settles (handled : Handled before input event after effects)
    (supplied : before.Supplied) :
    ∃ success, effects.filter Effect.ofQueue = settlement event success := by
  cases handled with
  | ignored event branch => exact ⟨false, filter_settlement event false⟩
  | message text attempt state => exact ⟨true, rfl⟩
  | stored config callback state => exact ⟨_, rfl⟩
  | unconfigured callback state missing => exact ⟨false, rfl⟩
  | connects callback state config configured => exact ⟨_, filter_attempted _ _ _⟩
  | deconfigured callback state =>
    refine ⟨false, ?_⟩
    rw [List.filter_append, filter_cleared]
    rfl
  | reconfigured config callback state =>
    refine ⟨input.init, ?_⟩
    rw [List.filter_append, filter_cleared, filter_attempted]
    rfl
  | opened statusCode attempt state =>
    refine ⟨true, ?_⟩
    split <;> rfl
  | lost report attempt errors closeEvent ends state config configured =>
    refine ⟨true, ?_⟩
    rw [List.filter_append, filter_errors ends]
    exact filter_closing _ _
  | undefined report attempt effects state missing =>
    exact absurd missing (supplied (state.imp_right Or.inl))
  | disconnected callback state =>
    refine ⟨true, ?_⟩
    rw [List.filter_append, List.filter_cons_of_neg (by decide), filter_closing]
    rfl
  | abandoned callback state => exact ⟨true, rfl⟩

theorem Timed.settles_nothing (timed : Timed before input after effects) :
    effects.filter Effect.ofQueue = [] := by
  cases timed <;> rfl

/-- A place where a switch calls the user comes before the end of the request, or is it. -/
theorem Interrupted.settles {callback : Callback}
    (interrupted : Interrupted before event callback after effects) :
    ((∃ data, callback = .handler (some event) data) ∧ effects.filter Effect.ofQueue = []) ∨
      ∃ success, effects.filter Effect.ofQueue = settlement event success := by
  have unsettled : ∀ {machine earlier}, Prepared before event machine earlier →
      earlier.filter Effect.ofQueue = [] := by
    intro machine earlier prepared
    cases prepared with
    | connect callback state => rfl
    | _ => exact filter_cleared before
  cases interrupted with
  | ignored event branch => exact Or.inr ⟨false, filter_settlement event false⟩
  | message text attempt state => exact Or.inl ⟨⟨_, rfl⟩, rfl⟩
  | stored config callback state => exact Or.inr ⟨_, rfl⟩
  | told prepared tries =>
    refine Or.inl ⟨⟨_, rfl⟩, ?_⟩
    rcases tries with rfl | rfl <;>
      simp [unsettled prepared, invalidConfiguration, Effect.ofQueue]
  | refused prepared tries =>
    refine Or.inr ⟨false, ?_⟩
    rcases tries with rfl | rfl <;>
      simp [unsettled prepared, invalidConfiguration, Effect.ofQueue, filter_settlement]
  | accepted prepared =>
    refine Or.inr ⟨true, ?_⟩
    simp [unsettled prepared, Effect.ofQueue, filter_settlement]
  | opened statusCode attempt state => exact Or.inl ⟨⟨_, rfl⟩, rfl⟩
  | reported errorCode attempt state => exact Or.inl ⟨⟨_, rfl⟩, rfl⟩
  | lost report attempt errors closeEvent ends =>
    exact Or.inl ⟨⟨_, rfl⟩, by simp [filter_errors ends, Effect.ofQueue]⟩
  | closed event state => exact Or.inl ⟨⟨_, rfl⟩, rfl⟩
  | disconnected callback state =>
    refine Or.inr ⟨true, ?_⟩
    simp [filter_closing, Effect.ofQueue, settlement]
  | abandoned callback state => exact Or.inr ⟨true, rfl⟩

theorem TimerInterrupted.settles_nothing {callback : Callback}
    (interrupted : TimerInterrupted before callback after effects) :
    effects.filter Effect.ofQueue = [] := by
  obtain ⟨tried, tries⟩ := interrupted
  rcases tries with rfl | rfl <;> rfl

theorem filter_of_sends (sends : ∀ effect ∈ effects, effect.OfSend) :
    effects.filter Effect.ofQueue = [] := by
  refine List.filter_eq_nil_iff.mpr fun effect member => ?_
  have send := sends effect member
  cases effect with
  | popped event => exact send.elim
  | settled event success => exact send.elim
  | _ => exact Bool.false_ne_true

end Outcomes

/-! ### One call -/

section Calls

variable {client next : Client} {input : Input} {event : FsmEventData} {effects : List Effect}

theorem poppedOf_append (log effects : List Effect) :
    poppedOf (log ++ effects) = poppedOf log ++ poppedOf effects :=
  List.filterMap_append

theorem completions_append (log effects : List Effect) :
    completions (log ++ effects) = completions log ++ completions effects :=
  List.filterMap_append

/-- Only the entries about the queue tell of popped events. -/
theorem poppedOf_filter (log : List Effect) :
    poppedOf (log.filter Effect.ofQueue) = poppedOf log := by
  unfold poppedOf
  rw [List.filterMap_filter]
  congr 1
  funext effect
  cases effect <;> rfl

theorem completions_filter (log : List Effect) :
    completions (log.filter Effect.ofQueue) = completions log := by
  unfold completions
  rw [List.filterMap_filter]
  congr 1
  funext effect
  cases effect <;> rfl

theorem poppedOf_of_settlement {success : Bool}
    (settles : effects.filter Effect.ofQueue = settlement event success) :
    poppedOf effects = [] := by
  rw [← poppedOf_filter, settles]
  cases event <;> rfl

theorem completions_of_settlement {success : Bool}
    (settles : effects.filter Effect.ofQueue = settlement event success) :
    completions effects = event.callback.toList := by
  rw [← completions_filter, settles]
  cases event with
  | backend report attempt => rfl
  | requestConnect callback => cases callback <;> rfl
  | requestDisconnect callback => cases callback <;> rfl
  | updateConfig config callback => cases callback <;> rfl

/-- A popped event has left the queue and is in the log. -/
theorem enqueuedEvents_pop {rest : List FsmEventData}
    (queue : client.fsmEventQueue = event :: rest) :
    (client.popEvent event rest).enqueuedEvents = client.enqueuedEvents := by
  rw [Client.enqueuedEvents, popEvent_log, poppedOf_append, Client.enqueuedEvents, queue,
    List.append_assoc]
  rfl

theorem enqueuedEvents_of_silent (queue : next.fsmEventQueue = client.fsmEventQueue)
    (log : next.log = client.log ++ effects) (silent : poppedOf effects = []) :
    next.enqueuedEvents = client.enqueuedEvents := by
  rw [Client.enqueuedEvents, Client.enqueuedEvents, log, poppedOf_append, silent,
    List.append_nil, queue]

theorem poppedOf_of_sends (sends : ∀ effect ∈ effects, effect.OfSend) : poppedOf effects = [] := by
  rw [← poppedOf_filter, filter_of_sends sends]
  rfl

theorem enqueuedEvents_switch (agrees : Agrees client) (event : FsmEventData) (input : Input) :
    (client.switch event input).enqueuedEvents = client.enqueuedEvents := by
  have does := client.switch_does event input
  obtain ⟨effects, log, handled⟩ := does.outcome
  obtain ⟨success, settles⟩ := handled.settles agrees.shape.supplied
  exact enqueuedEvents_of_silent does.queue log (poppedOf_of_settlement settles)

end Calls

/-! ### What is settled between two calls -/

/-- The calls that tell the user of an event before the request that caused it is settled. -/
def Callback.dropsCall : Callback → Bool
  | .handler (some cause) _ => cause.callback.isSome
  | _ => false

theorem callsOf_append (first second : List FsmEventData) :
    callsOf (first ++ second) = callsOf first ++ callsOf second :=
  List.filterMap_append

theorem callsOf_singleton (event : FsmEventData) : callsOf [event] = event.callback.toList := by
  cases called : event.callback <;> simp [callsOf, called]

/-- The callbacks that were invoked are those of the popped events. -/
def SettlesInOrder (machine : Machine) (log : List Effect) : Prop :=
  machine.Supplied ∧ completions log = callsOf (poppedOf log)

/-- One more event is popped, and no other until the entries end. -/
theorem callsOf_poppedOf {log effects : List Effect} (event : FsmEventData)
    (silent : poppedOf effects = []) :
    callsOf (poppedOf (log ++ .popped event :: effects)) =
      callsOf (poppedOf log) ++ event.callback.toList := by
  have popped : poppedOf (.popped event :: effects) = [event] := by
    rw [← List.singleton_append, poppedOf_append, silent]
    rfl
  rw [poppedOf_append, popped, callsOf_append, callsOf_singleton]

theorem completions_popped (log effects : List Effect) (event : FsmEventData) :
    completions (log ++ .popped event :: effects) = completions log ++ completions effects := by
  rw [completions_append]
  rfl

theorem of_filter_eq_nil {effects : List Effect} (silent : effects.filter Effect.ofQueue = []) :
    poppedOf effects = [] ∧ completions effects = [] := by
  rw [← poppedOf_filter, ← completions_filter, silent]
  exact ⟨rfl, rfl⟩

theorem settlesInOrder_survives :
    Survives (fun state callback => callback.dropsConfig state || callback.dropsCall)
      SettlesInOrder fun _ log => completions log <+: callsOf (poppedOf log) where
  resting _ _ settled := settled.2 ▸ List.prefix_rfl
  handled := by
    intro machine log input event after effects settled handled
    obtain ⟨success, settles⟩ := handled.settles settled.1
    refine ⟨handled.supplied settled.1, ?_⟩
    rw [completions_popped, callsOf_poppedOf event (poppedOf_of_settlement settles),
      completions_of_settlement settles, settled.2]
  interrupted := by
    intro machine log event callback after effects settled interrupted
    rcases interrupted.settles with ⟨⟨data, rfl⟩, silent⟩ | ⟨success, settles⟩
    · obtain ⟨popped, completed⟩ := of_filter_eq_nil silent
      rw [SettlesInOrder, completions_popped, callsOf_poppedOf event popped, completed,
        List.append_nil, settled.2]
      refine ⟨List.prefix_append _ _, fun harmless => ?_⟩
      obtain ⟨keeps, uncalled⟩ := Bool.or_eq_false_iff.mp harmless
      refine ⟨interrupted.supplied settled.1 keeps, ?_⟩
      have unasked : event.callback = none := by simpa [Callback.dropsCall] using uncalled
      rw [unasked]
      exact (List.append_nil _).symm
    · have whole : completions (log ++ .popped event :: effects) =
          callsOf (poppedOf (log ++ .popped event :: effects)) := by
        rw [completions_popped, callsOf_poppedOf event (poppedOf_of_settlement settles),
          completions_of_settlement settles, settled.2]
      refine ⟨whole ▸ List.prefix_rfl, fun harmless => ⟨interrupted.supplied settled.1 ?_, whole⟩⟩
      exact (Bool.or_eq_false_iff.mp harmless).1
  timed := by
    intro machine log input after effects settled _ timed
    obtain ⟨popped, completed⟩ := of_filter_eq_nil timed.settles_nothing
    refine ⟨timed.supplied settled.1, ?_⟩
    rw [completions_append, poppedOf_append, popped, completed, List.append_nil, List.append_nil,
      settled.2]
  timerInterrupted := by
    intro machine log callback after effects settled interrupted
    obtain ⟨popped, completed⟩ := of_filter_eq_nil interrupted.settles_nothing
    rw [SettlesInOrder, completions_append, poppedOf_append, popped, completed, List.append_nil,
      List.append_nil, settled.2]
    obtain ⟨tried, tries⟩ := interrupted
    exact ⟨List.prefix_rfl, fun _ => ⟨settled.1, rfl⟩⟩

/-! ### Every event is popped once -/

namespace Block

section Keeps

variable (event : FsmEventData) (input : Input)

/-- A write that leaves the queue and tells of no popped event. -/
theorem keeps_write {change : Client → Client}
    (queue : ∀ client, (change client).fsmEventQueue = client.fsmEventQueue)
    (log : ∀ client, poppedOf (change client).log = poppedOf client.log) :
    Routine.Keeps Client.enqueuedEvents (Routine.modify change : Block Unit) :=
  Routine.keeps_modify fun client => by rw [enqueuedEvents, enqueuedEvents, log, queue]

theorem poppedOf_settlement (success : Bool) : poppedOf (settlement event success) = [] := by
  cases event <;> rfl

theorem keeps_deliver (cause : Option FsmEventData) (data : WebSocketEventData) :
    Routine.Keeps Client.enqueuedEvents (deliver cause data) := by
  refine Routine.keeps_bind Routine.keeps_get fun client => Routine.keeps_bind ?_ fun _ => ?_
  · refine keeps_write (fun _ => deliver_queue _ _) fun client => ?_
    rw [deliver_log, poppedOf_append]
    exact List.append_nil _
  · exact Routine.keeps_ite (Routine.keeps_call _) (Routine.keeps_pure _)

theorem keeps_settle (success : Bool) :
    Routine.Keeps Client.enqueuedEvents (settle event success) := by
  refine Routine.keeps_bind ?_ fun _ =>
    Routine.keeps_ite (Routine.keeps_call _) (Routine.keeps_pure _)
  refine keeps_write (fun _ => settle_queue _ _ _) fun client => ?_
  rw [settle_log, poppedOf_append, poppedOf_settlement, List.append_nil]

theorem keeps_handleCloseEvent (given : Option WebSocketEventData) :
    Routine.Keeps Client.enqueuedEvents (handleCloseEvent event given) := by
  refine Routine.keeps_bind Routine.keeps_get fun client => Routine.keeps_ite ?_
    (Routine.keeps_pure _)
  exact Routine.keeps_bind (Routine.keeps_modify fun _ => rfl) fun _ => keeps_deliver _ _

theorem keeps_initWebsocket (started : Bool) :
    Routine.Keeps Client.enqueuedEvents (initWebsocket started) := by
  refine keeps_write (fun client => ?_) fun client => ?_
  · cases client.config <;> rfl
  · cases client.config <;> simp [Client.initWebsocket, Client.emit, poppedOf]

theorem keeps_deinitWebsocket :
    Routine.Keeps Client.enqueuedEvents (Routine.modify deinitWebsocket : Block Unit) := by
  refine keeps_write (fun _ => rfl) fun client => ?_
  simp [deinitWebsocket, Client.emit, poppedOf]

theorem keeps_refuse : Routine.Keeps Client.enqueuedEvents (refuse event) :=
  Routine.keeps_bind (keeps_deliver _ _) fun _ => Routine.keeps_bind (keeps_settle _ _) fun _ =>
    Routine.keeps_modify fun _ => rfl

theorem keeps_startAttempt : Routine.Keeps Client.enqueuedEvents (startAttempt event input) := by
  refine Routine.keeps_bind (keeps_initWebsocket _) fun _ => Routine.keeps_ite ?_ (keeps_refuse _)
  exact Routine.keeps_bind (Routine.keeps_modify fun _ => rfl) fun _ =>
    Routine.keeps_bind (keeps_settle _ _) fun _ => Routine.keeps_modify fun _ => rfl

theorem keeps_requestConnect :
    Routine.Keeps Client.enqueuedEvents (requestConnect event input) :=
  Routine.keeps_bind Routine.keeps_get fun _ =>
    Routine.keeps_ite (keeps_refuse _) (keeps_startAttempt _ _)

theorem keeps_reconfigure (config : Option WebSocketConfig) :
    Routine.Keeps Client.enqueuedEvents (reconfigure event config input) := by
  cases config with
  | none => exact Routine.keeps_bind (Routine.keeps_modify fun _ => rfl) fun _ => keeps_refuse _
  | some config =>
    exact Routine.keeps_bind (Routine.keeps_modify fun _ => rfl) fun _ => keeps_startAttempt _ _

theorem keeps_disconnect : Routine.Keeps Client.enqueuedEvents (disconnect event) :=
  Routine.keeps_bind keeps_deinitWebsocket fun _ =>
    Routine.keeps_bind (keeps_handleCloseEvent _ _) fun _ =>
      Routine.keeps_bind (Routine.keeps_modify fun _ => rfl) fun _ =>
        Routine.keeps_bind (keeps_settle _ _) fun _ => Routine.keeps_modify fun _ => rfl

theorem keeps_replaceConfig (config : Option WebSocketConfig) :
    Routine.Keeps Client.enqueuedEvents (replaceConfig event config input) :=
  Routine.keeps_bind keeps_deinitWebsocket fun _ =>
    Routine.keeps_bind (keeps_handleCloseEvent _ _) fun _ => keeps_reconfigure _ _ _

theorem keeps_loseConnection (closeEvent : WebSocketEventData) :
    Routine.Keeps Client.enqueuedEvents (loseConnection event closeEvent input) := by
  refine Routine.keeps_bind keeps_deinitWebsocket fun _ =>
    Routine.keeps_bind (keeps_handleCloseEvent _ _) fun _ => ?_
  refine Routine.keeps_modify fun client => ?_
  cases client.config with
  | none => simp [Client.enqueuedEvents, Client.emit, poppedOf]
  | some config =>
    dsimp only
    split <;> rfl

theorem keeps_error (errorCode : ErrorCode) (closeEvent : WebSocketEventData) :
    Routine.Keeps Client.enqueuedEvents (do
      handleErrorEvent (some event) errorCode
      loseConnection event closeEvent input) :=
  Routine.keeps_bind (keeps_deliver _ _) fun _ => keeps_loseConnection _ _ _

theorem keeps_opened (data : WebSocketEventData) :
    Routine.Keeps Client.enqueuedEvents (do
      handleOpenEvent event data
      Routine.modify fun client =>
        { client with reconnectAttempt := 0, isRunning := true, fsmState := .working }) := by
  refine Routine.keeps_bind ?_ fun _ => Routine.keeps_modify fun _ => rfl
  refine Routine.keeps_bind Routine.keeps_get fun _ => Routine.keeps_ite (Routine.keeps_pure _) ?_
  exact Routine.keeps_bind (Routine.keeps_modify fun _ => rfl) fun _ => keeps_deliver _ _

theorem keeps_switch (state : FsmState) :
    Routine.Keeps Client.enqueuedEvents (switch state event input) := by
  cases state with
  | init =>
    cases event with
    | requestConnect callback => exact keeps_requestConnect _ _
    | updateConfig config callback =>
      cases config <;>
        exact Routine.keeps_bind (Routine.keeps_modify fun _ => rfl) fun _ => keeps_settle _ _
    | _ => exact keeps_settle _ _
  | connecting =>
    cases event with
    | requestDisconnect callback => exact keeps_disconnect _
    | updateConfig config callback => exact keeps_replaceConfig _ _ _
    | requestConnect callback => exact keeps_settle _ _
    | backend report attempt =>
      cases report with
      | connectionOpened statusCode => exact keeps_opened _ _
      | connectionClosed reason statusCode => exact keeps_loseConnection _ _ _
      | connectionError errorCode => exact keeps_error _ _ _ _
      | messageReceived text => exact keeps_settle _ _
  | working =>
    cases event with
    | requestDisconnect callback => exact keeps_disconnect _
    | updateConfig config callback => exact keeps_replaceConfig _ _ _
    | requestConnect callback => exact keeps_settle _ _
    | backend report attempt =>
      cases report with
      | connectionOpened statusCode => exact keeps_settle _ _
      | connectionClosed reason statusCode => exact keeps_loseConnection _ _ _
      | connectionError errorCode => exact keeps_error _ _ _ _
      | messageReceived text => exact keeps_deliver _ _
  | reconnecting =>
    cases event with
    | requestDisconnect callback =>
      exact Routine.keeps_bind (Routine.keeps_modify fun _ => rfl) fun _ =>
        Routine.keeps_bind (keeps_settle _ _) fun _ => Routine.keeps_modify fun _ => rfl
    | updateConfig config callback => exact keeps_reconfigure _ _ _
    | requestConnect callback => exact keeps_settle _ _
    | backend report attempt =>
      cases report with
      | messageReceived text => exact keeps_deliver _ _
      | _ => exact keeps_settle _ _
  | stopped =>
    cases event with
    | requestConnect callback => exact keeps_requestConnect _ _
    | updateConfig config callback => exact keeps_reconfigure _ _ _
    | _ => exact keeps_settle _ _

theorem keeps_reconnectTimer : Routine.Keeps Client.enqueuedEvents (reconnectTimer input) := by
  have told : Routine.Keeps Client.enqueuedEvents (do
      handleErrorEvent none .invalidConfiguration
      setState .stopped) :=
    Routine.keeps_bind (keeps_deliver _ _) fun _ => Routine.keeps_modify fun _ => rfl
  refine Routine.keeps_bind Routine.keeps_get fun client => ?_
  cases client.config with
  | none => exact told
  | some config =>
    refine Routine.keeps_ite (Routine.keeps_ite (Routine.keeps_modify fun _ => rfl) ?_)
      (Routine.keeps_modify fun _ => rfl)
    refine Routine.keeps_ite ?_ (Routine.keeps_pure _)
    exact Routine.keeps_bind (keeps_initWebsocket _) fun _ =>
      Routine.keeps_ite (Routine.keeps_modify fun _ => rfl) told

/-- An event that is popped moves from the queue to the log. -/
theorem keeps_handleNext (state : FsmState) :
    Routine.Keeps Client.enqueuedEvents (handleNext state input) := by
  intro client
  cases queue : client.fsmEventQueue with
  | nil =>
    have same : handleNext state input client = .ended false client := by
      simp only [handleNext, Routine.get, queue, bind, Course.andThen, pure]
    rw [same]
    rfl
  | cons event rest =>
    have same : handleNext state input client =
        (do switch state event input; pure (isMessage event) : Block Bool)
          (client.popEvent event rest) := by
      simp only [handleNext, Routine.get, Routine.modify, queue, bind, Course.andThen]
    rw [same, ← enqueuedEvents_pop queue]
    exact Routine.keeps_bind (keeps_switch _ _ _) (fun _ => Routine.keeps_pure _) _

theorem keeps_processState (state : FsmState) :
    Routine.Keeps Client.enqueuedEvents (processState state input) := by
  cases state with
  | working => exact keeps_handleNext _ _
  | reconnecting =>
    exact Routine.keeps_bind (keeps_handleNext _ _) fun _ =>
      Routine.keeps_bind (keeps_reconnectTimer _) fun _ => Routine.keeps_pure _
  | _ => exact Routine.keeps_bind (keeps_handleNext _ _) fun _ => Routine.keeps_pure _

theorem keeps_processFsmState :
    Routine.Keeps Client.enqueuedEvents (processFsmState input) :=
  Routine.keeps_bind Routine.keeps_get fun _ => keeps_processState _ _

end Keeps

end Block

/-! ### Every call is numbered once -/

theorem callsOf_enqueuedEvents_request {world : ClientWorld}
    (calls : callsOf world.client.enqueuedEvents = List.range world.nextCall) (callback : Bool)
    {event : Option ℕ → FsmEventData} (carries : ∀ call, (event call).callback = call) :
    callsOf (world.request callback event).client.enqueuedEvents =
      List.range (world.request callback event).nextCall := by
  have pushed : ∀ fresh, callsOf (world.client.pushEvent fresh).enqueuedEvents =
      List.range world.nextCall ++ fresh.callback.toList := by
    intro fresh
    rw [← calls, ← callsOf_singleton, ← callsOf_append, Client.enqueuedEvents, Client.pushEvent,
      ← List.append_assoc]
    rfl
  cases callback with
  | true => exact (pushed _).trans (by rw [carries]; exact List.range_succ.symm)
  | false => exact (pushed _).trans (by rw [carries]; exact List.append_nil _)

/-- A step in which `process_fsm_state` is not called numbers the event it appends. -/
theorem callsOf_enqueuedEvents_step {world next : ClientWorld} {action : ClientAction}
    (calls : callsOf world.client.enqueuedEvents = List.range world.nextCall)
    (stepped : world.step action = some next) (other : action.input? = none) :
    callsOf next.client.enqueuedEvents = List.range next.nextCall := by
  cases request : action.isRequest with
  | true =>
    cases action with
    | setConfig config callback =>
      obtain rfl := Option.some.inj stepped
      exact callsOf_enqueuedEvents_request calls callback fun _ => rfl
    | connect callback =>
      obtain rfl := Option.some.inj stepped
      exact callsOf_enqueuedEvents_request calls callback fun _ => rfl
    | disconnect callback =>
      obtain rfl := Option.some.inj stepped
      exact callsOf_enqueuedEvents_request calls callback fun _ => rfl
    | _ => cases request
  | false =>
    rw [nextCall_of_step stepped request]
    cases fsmStep_of_step stepped with
    | tick input _ given => simp [other] at given
    | push event _ machine queue log origin =>
      have unasked : event.callback = none := origin.resolve_left (by simp [request])
      rw [Client.enqueuedEvents, log, queue, ← List.append_assoc, callsOf_append,
        callsOf_singleton, unasked, ← calls]
      exact List.append_nil _
    | aside _ machine queue effects log sends =>
      rw [enqueuedEvents_of_silent queue log (poppedOf_of_sends sends), calls]

/-- The calls are numbered in the order in which their events entered the queue, and what is left
of a call of `process_fsm_state` pops events from the front of it. -/
structure Numbered (world : CallbackWorld) : Prop where
  calls : callsOf world.client.enqueuedEvents = List.range world.nextCall
  frames : ∀ callback resume input point, .state callback resume input point ∈ world.stack →
    Routine.Keeps Client.enqueuedEvents resume

theorem enqueuedEvents_completeSend (client : Client) (errorCode : ErrorCode)
    (callback : Option ℕ) :
    (client.completeSend errorCode callback).enqueuedEvents = client.enqueuedEvents := by
  cases callback with
  | none => rfl
  | some callback => exact enqueuedEvents_of_silent rfl rfl rfl

namespace Numbered

variable {world next : CallbackWorld}

theorem follow {course : Course Callback Client Bool} {input : Input} {point : Point}
    (numbered : Numbered world)
    (keeps : course.Keeps Client.enqueuedEvents world.client.enqueuedEvents) :
    Numbered (world.follow course input point) := by
  have same := numbered.calls
  rw [← keeps.state] at same
  cases course with
  | ended again client => exact ⟨same, numbered.frames⟩
  | calling callback client resume =>
    refine ⟨same, ?_⟩
    rintro otherCallback otherResume otherInput otherPoint member
    rcases List.mem_cons.mp member with head | tail
    · obtain ⟨_, rfl, _, _⟩ := Frame.state.inj head
      exact keeps.2
    · exact numbered.frames _ _ _ _ tail

theorem invokeSent {items : List (ErrorCode × ℕ)} {point : Point} (numbered : Numbered world) :
    Numbered (world.invokeSent items point) := by
  cases items with
  | nil => exact ⟨numbered.calls, numbered.frames⟩
  | cons item rest =>
    refine ⟨?_, fun callback resume input point member => ?_⟩
    · exact (congrArg callsOf (enqueuedEvents_completeSend _ _ _)).trans numbered.calls
    · exact numbered.frames callback resume input point (by
        simpa [CallbackWorld.invokeSent] using member)

theorem step {action : CallbackAction} (numbered : Numbered world)
    (stepped : world.step action = some next) : Numbered next := by
  cases callbackStep_of_step stepped with
  | callProcess | loopShutdown => exact numbered.follow (Block.keeps_processFsmState _ _)
  | loop => exact numbered.follow (Block.keeps_processState _ _ _)
  | @returnCallback frame frames free idle stack =>
    have left : Numbered { world with stack := frames } :=
      ⟨numbered.calls, fun _ _ _ _ member => numbered.frames _ _ _ _
        (stack ▸ List.mem_cons_of_mem _ member)⟩
    cases frame with
    | state callback resume input point =>
      exact left.follow (numbered.frames callback resume input point
        (stack ▸ List.mem_cons_self) _)
    | sent items point => exact left.invokeSent
    | notConnected sends => exact ⟨left.calls, left.frames⟩
  | throwCallback free idle stack =>
    exact ⟨numbered.calls, fun _ _ _ _ member => numbered.frames _ _ _ _
      (stack ▸ List.mem_cons_of_mem _ member)⟩
  | send free point =>
    unfold CallbackWorld.sendNext
    split
    · unfold ClientWorld.sendOne
      split
      · exact ⟨numbered.calls, numbered.frames⟩
      · exact ⟨(congrArg callsOf (enqueuedEvents_completeSend _ _ _)).trans numbered.calls,
          numbered.frames⟩
    · refine ⟨(congrArg callsOf (enqueuedEvents_completeSend _ _ _)).trans numbered.calls, ?_⟩
      intro callback resume input point member
      exact numbered.frames callback resume input point (by simpa using member)
  | allSent => exact ⟨numbered.calls, numbered.frames⟩
  | drain free point =>
    have cleared : Numbered { world with
        client := { world.client with sendCallbackQueue := [] } } :=
      ⟨numbered.calls, numbered.frames⟩
    exact cleared.invokeSent
  | quiet other happened =>
    exact ⟨callsOf_enqueuedEvents_step numbered.calls happened other, numbered.frames⟩

end Numbered

/-- Whatever the functions of the user do, the calls whose events were popped and the calls in the
queue are all calls, in order. -/
theorem callsOf_popped_append_queue {world : CallbackWorld}
    (reachable : callbackSystem.Reachable world) :
    callsOf (poppedOf world.client.log) ++ callsOf world.client.fsmEventQueue =
      List.range world.nextCall := by
  have numbered := reachable.induction Numbered ⟨rfl, by simp [callbackSystem]⟩
    fun _ _ _ _ numbered stepped => numbered.step stepped
  rw [← numbered.calls, Client.enqueuedEvents, callsOf_append]

theorem poppedOf_fsmLog (log : List Effect) : poppedOf (fsmLog log) = poppedOf log := by
  refine filterMap_fsmLog (fun effect send => ?_) log
  cases effect with
  | accepted | sendCompleted => rfl
  | _ => exact send.elim

theorem completions_fsmLog (log : List Effect) : completions (fsmLog log) = completions log := by
  refine filterMap_fsmLog (fun effect send => ?_) log
  cases effect with
  | accepted | sendCompleted => rfl
  | _ => exact send.elim

/-- Over every run in which nobody calls `process` or `shutdown` from inside `process_fsm_state`,
no handler throws while a request with a completion callback is handled, and no function that is
told of a null configuration around a connection throws: the completion callbacks are invoked in
the order of the calls; that of a call whose event is in the queue is not invoked, and every other
call's event was popped; between two calls of `process_fsm_state` that of a popped call was
invoked once. When `shutdown()` returns, the callbacks of all calls were invoked once. -/
theorem calls_completed_once {actions : List CallbackAction} {world : CallbackWorld}
    (runs : callbackSystem.Runs callbackSystem.init actions world)
    (cautious : callbackSystem.Throughout (fun world action => careful
      (fun state callback => callback.dropsConfig state || callback.dropsCall) world action = true)
      callbackSystem.init actions) :
    (completions world.client.log).Pairwise (· < ·) ∧
      (∀ call ∈ callsOf world.client.fsmEventQueue,
        (completions world.client.log).count call = 0) ∧
      (∀ call < world.nextCall, call ∈ callsOf (poppedOf world.client.log) ∨
        call ∈ callsOf world.client.fsmEventQueue) ∧
      (world.busy = false → ∀ call ∈ callsOf (poppedOf world.client.log),
        (completions world.client.log).count call = 1) ∧
      ∀ next, callbackSystem.step world (.client .returnShutdown) = some next →
        ∀ call < world.nextCall, (completions next.client.log).count call = 1 := by
  have sound := sound_of_runs settlesInOrder_survives ⟨.of_rest (Or.inl rfl), rfl⟩ runs cautious
  have started : completions world.client.log <+: callsOf (poppedOf world.client.log) := by
    have told := sound.throughout settlesInOrder_survives
    rwa [Holds, completions_fsmLog, poppedOf_fsmLog] at told
  have settled : world.busy = false →
      completions world.client.log = callsOf (poppedOf world.client.log) := by
    intro calm
    have whole := (sound.holds calm).2
    rwa [completions_fsmLog, poppedOf_fsmLog] at whole
  have whole := callsOf_popped_append_queue ⟨actions, runs⟩
  have distinct : (callsOf (poppedOf world.client.log) ++
      callsOf world.client.fsmEventQueue).Pairwise (· < ·) := by
    rw [whole]
    exact List.pairwise_lt_range
  obtain ⟨ordered, _, apart⟩ := List.pairwise_append.mp distinct
  have inOrder : (completions world.client.log).Pairwise (· < ·) := ordered.sublist started.sublist
  have once : ∀ call ∈ completions world.client.log,
      (completions world.client.log).count call = 1 :=
    fun call member => List.count_eq_one_of_mem (inOrder.imp Nat.ne_of_lt) member
  refine ⟨inOrder, ?_, ?_, ?_, ?_⟩
  · intro call waiting
    rw [List.count_eq_zero]
    exact fun member => Nat.lt_irrefl call (apart call (started.subset member) call waiting)
  · intro call early
    rwa [← List.mem_range, ← whole, List.mem_append] at early
  · intro calm call member
    exact once call (settled calm ▸ member)
  · intro next returned call early
    have stepped : world.step (.client .returnShutdown) = some next := returned
    rw [CallbackWorld.step, CallbackWorld.clientStep, Option.ite_none_left_eq_some] at stepped
    obtain ⟨after, happened, rfl⟩ := Option.map_eq_some_iff.mp stepped.2
    obtain ⟨point, _, empty, rfl⟩ := returnShutdown_cases happened
    have calm := sound.calm (by simpa using stepped.1) (by simp [point])
    rw [← List.mem_range, ← whole, empty] at early
    exact once call (settled calm ▸ by simpa [callsOf] using early)

/-- A client without a configuration is asked to connect. The handler that is told of it returns,
and the completion callback throws. -/
def refusedAndThrown : List CallbackAction :=
  [.client (.setEventHandler true), .client (.connect true), .client (.callProcess {}),
    .returnCallback, .throwCallback]

theorem calls_completed_once_refusedAndThrown :
    ∃ world, callbackSystem.Runs callbackSystem.init refusedAndThrown world ∧
      world.client.fsmState = .init ∧ (completions world.client.log).count 0 = 1 := by
  have evaluated : (callbackSystem.run callbackSystem.init refusedAndThrown).any (fun world =>
      decide (world.busy = false ∧ world.client.fsmState = .init ∧
        0 ∈ callsOf (poppedOf world.client.log) ∧
        callbackSystem.Throughout (fun world action => careful
          (fun state callback => callback.dropsConfig state || callback.dropsCall) world action =
            true) callbackSystem.init refusedAndThrown)) = true := by
    decide +kernel
  obtain ⟨world, runs, checked⟩ := System.exists_runs evaluated
  obtain ⟨calm, state, popped, cautious⟩ := of_decide_eq_true checked
  exact ⟨world, runs, state, (calls_completed_once runs cautious).2.2.2.1 calm 0 popped⟩

/-- The same, but the handler throws. -/
def toldAndThrown : List CallbackAction :=
  [.client (.setEventHandler true), .client (.connect true), .client (.callProcess {}),
    .throwCallback]

/-- The request has left the queue, and its callback is gone. -/
theorem call_lost : ∃ world, callbackSystem.Runs callbackSystem.init toldAndThrown world ∧
    world.busy = false ∧ 0 ∈ callsOf (poppedOf world.client.log) ∧
    (completions world.client.log).count 0 = 0 := by
  have evaluated : (callbackSystem.run callbackSystem.init toldAndThrown).any (fun world =>
      decide (world.busy = false ∧ 0 ∈ callsOf (poppedOf world.client.log) ∧
        (completions world.client.log).count 0 = 0)) = true := by
    decide +kernel
  obtain ⟨world, runs, checked⟩ := System.exists_runs evaluated
  exact ⟨world, runs, of_decide_eq_true checked⟩

end Kurlyk.WebSocket
