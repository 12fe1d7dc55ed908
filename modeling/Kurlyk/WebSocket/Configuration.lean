/-
This file follows the pointer `m_config` of a client. Every state stores the
configuration of an `UpdateConfig` event as soon as it has popped it, null or not,
and goes on to use it on some of its paths. Around a connection it is not null
between two calls, and nothing is read through a null pointer.

A null configuration is stored before the user is told of it and before the state
is left. The handler and the completion callback that are told are therefore the
ones whose exceptions do harm: they leave the client around a connection without a
configuration, and the next report of the backend is handled by reading it.
-/

import Kurlyk.WebSocket.Connection
import Kurlyk.WebSocket.Exceptions

namespace Kurlyk.WebSocket

open Client

/-- `CONNECTING`, `WORKING` and `RECONNECTING`. -/
def FsmState.around : FsmState → Bool
  | .connecting => true
  | .working => true
  | .reconnecting => true
  | _ => false

theorem Machine.active_iff (machine : Machine) :
    machine.Active ↔ machine.fsmState.around = true := by
  cases state : machine.fsmState <;> simp [Machine.Active, FsmState.around, state]

/-- The calls that tell of a null configuration, around a connection. -/
def Callback.dropsConfig (state : FsmState) : Callback → Bool
  | .handler (some (.updateConfig none _)) event =>
    state.around && decide (event.eventType = .wsError)
  | .completion (.updateConfig none _) _ => state.around
  | _ => false

/-! ### The configuration -/

section Outcomes

variable {before after : Machine} {input : Input} {event : FsmEventData} {effects : List Effect}

/-- A machine that is not around a connection needs no configuration. -/
theorem Machine.Supplied.of_rest {machine : Machine}
    (state : machine.fsmState = .init ∨ machine.fsmState = .stopped) : machine.Supplied := by
  intro active
  rcases state with state | state <;> simp [Machine.Active, state] at active

theorem Machine.Supplied.of_config {machine : Machine} {config : WebSocketConfig}
    (configured : machine.config = some config) : machine.Supplied := by
  intro _
  simp [configured]

theorem supplied_attempted {machine : Machine} {config : WebSocketConfig}
    (configured : machine.config = some config) : (attempted event input machine).1.Supplied := by
  unfold attempted
  split
  · exact .of_config configured
  · exact .of_rest (Or.inr rfl)

theorem Handled.supplied (handled : Handled before input event after effects)
    (supplied : before.Supplied) : after.Supplied := by
  cases handled with
  | ignored event branch => exact supplied
  | message text attempt state => exact supplied
  | stored config callback state => exact .of_rest (Or.inl state)
  | unconfigured callback state missing => exact .of_rest (Or.inr rfl)
  | connects callback state config configured => exact supplied_attempted configured
  | deconfigured callback state => exact .of_rest (Or.inr rfl)
  | reconfigured config callback state => exact supplied_attempted rfl
  | opened statusCode attempt state => exact fun _ => supplied (Or.inl state)
  | lost report attempt errors closeEvent ends state config configured =>
    unfold afterLoss
    split <;> exact .of_config configured
  | undefined report attempt effects state missing =>
    exact absurd missing (supplied (state.imp_right Or.inl))
  | disconnected callback state => exact .of_rest (Or.inl rfl)
  | abandoned callback state => exact .of_rest (Or.inl rfl)

theorem Timed.supplied (timed : Timed before input after effects) (supplied : before.Supplied) :
    after.Supplied := by
  cases timed with
  | missing unset => exact .of_rest (Or.inr rfl)
  | finished config configured ended => exact .of_rest (Or.inl rfl)
  | waiting config configured enabled left early => exact supplied
  | started config configured due answer => exact .of_config configured
  | failed config configured due answer => exact .of_rest (Or.inr rfl)

theorem supplied_of_not_around {machine : Machine} (elsewhere : machine.fsmState.around = false) :
    machine.Supplied := by
  intro active
  rw [Machine.active_iff, elsewhere] at active
  cases active

/-- Where the exception does no harm there is a configuration, or none is needed. -/
theorem Interrupted.supplied {callback : Callback}
    (interrupted : Interrupted before event callback after effects) (supplied : before.Supplied)
    (harmless : callback.dropsConfig after.fsmState = false) : after.Supplied := by
  cases interrupted with
  | stored config callback state => exact .of_rest (Or.inl state)
  | told prepared tries =>
    cases prepared with
    | connect callback state => exact supplied
    | deconfigured callback state =>
      refine supplied_of_not_around ?_
      simpa [Callback.dropsConfig, createWebsocketErrorEvent] using harmless
    | reconfigured config callback state => exact .of_config rfl
  | refused prepared tries =>
    cases prepared with
    | connect callback state => exact supplied
    | deconfigured callback state => exact supplied_of_not_around harmless
    | reconfigured config callback state => exact .of_config rfl
  | accepted prepared =>
    cases prepared with
    | connect callback state => exact supplied
    | deconfigured callback state => exact supplied_of_not_around harmless
    | reconfigured config callback state => exact .of_config rfl
  | _ => exact supplied

/-! ### No use of a null pointer -/

theorem nullConfig_not_mem_settlement (event : FsmEventData) (success : Bool) :
    .nullConfig ∉ settlement event success := by
  cases event <;> simp [settlement]

theorem nullConfig_not_mem_closing (connected : Bool) (data : WebSocketEventData) :
    .nullConfig ∉ closing connected data := by
  cases connected <;> simp [closing]

theorem nullConfig_not_mem_cleared (machine : Machine) : .nullConfig ∉ (cleared machine).2 := by
  unfold cleared
  split
  · simp [nullConfig_not_mem_closing]
  · simp

theorem nullConfig_not_mem_attempted (machine : Machine) :
    .nullConfig ∉ (attempted event input machine).2 := by
  unfold attempted
  split <;> simp [invalidConfiguration, nullConfig_not_mem_settlement]

theorem nullConfig_not_mem_errors {report : BackendEvent} {errors : List Effect}
    {closeEvent : WebSocketEventData} (ends : Ends report = some (errors, closeEvent)) :
    .nullConfig ∉ errors := by
  rcases (ends_cases ends).2 with rfl | ⟨errorCode, rfl⟩ <;> simp

theorem Handled.reads (handled : Handled before input event after effects)
    (supplied : before.Supplied) : .nullConfig ∉ effects := by
  cases handled with
  | ignored event branch => exact nullConfig_not_mem_settlement _ _
  | connects callback state config configured => exact nullConfig_not_mem_attempted _
  | deconfigured callback state =>
    simp [nullConfig_not_mem_cleared, invalidConfiguration]
  | reconfigured config callback state =>
    simp [nullConfig_not_mem_cleared, nullConfig_not_mem_attempted]
  | opened statusCode attempt state => split <;> simp
  | lost report attempt errors closeEvent ends state config configured =>
    simp [nullConfig_not_mem_errors ends, nullConfig_not_mem_closing]
  | undefined report attempt effects state missing =>
    exact absurd missing (supplied (state.imp_right Or.inl))
  | disconnected callback state => simp [nullConfig_not_mem_closing]
  | _ => simp [invalidConfiguration]

theorem Timed.reads (timed : Timed before input after effects) : .nullConfig ∉ effects := by
  cases timed <;> simp [invalidConfiguration]

theorem Prepared.reads (prepared : Prepared before event after effects) :
    .nullConfig ∉ effects := by
  cases prepared with
  | connect callback state => simp
  | _ => exact nullConfig_not_mem_cleared _

theorem Interrupted.reads {callback : Callback}
    (interrupted : Interrupted before event callback after effects) : .nullConfig ∉ effects := by
  cases interrupted with
  | ignored event branch => exact nullConfig_not_mem_settlement _ _
  | told prepared tries =>
    rcases tries with rfl | rfl <;> simp [prepared.reads, invalidConfiguration]
  | refused prepared tries =>
    rcases tries with rfl | rfl <;>
      simp [prepared.reads, invalidConfiguration, nullConfig_not_mem_settlement]
  | accepted prepared => simp [prepared.reads, nullConfig_not_mem_settlement]
  | lost report attempt errors closeEvent ends => simp [nullConfig_not_mem_errors ends]
  | disconnected callback state => simp [nullConfig_not_mem_closing]
  | _ => simp

end Outcomes

/-! ### Whole runs -/

/-- Around a connection there is a configuration, and nothing was read through a null pointer. -/
def Provided (machine : Machine) (log : List Effect) : Prop :=
  machine.Supplied ∧ .nullConfig ∉ log

theorem provided_survives :
    Survives Callback.dropsConfig Provided fun _ log => .nullConfig ∉ log where
  resting _ _ provided := provided.2
  handled := by
    intro machine log input event after effects provided handled
    exact ⟨handled.supplied provided.1, by simp [provided.2, handled.reads provided.1]⟩
  interrupted := by
    intro machine log event callback after effects provided interrupted
    have reads : .nullConfig ∉ log ++ .popped event :: effects := by
      simp [provided.2, interrupted.reads]
    exact ⟨reads, fun harmless => ⟨interrupted.supplied provided.1 harmless, reads⟩⟩
  timed := by
    intro machine log input after effects provided _ timed
    exact ⟨timed.supplied provided.1, by simp [provided.2, timed.reads]⟩
  timerInterrupted := by
    rintro machine log callback after effects provided ⟨tried, tries⟩
    have reads : .nullConfig ∉ log ++ (tried ++ [invalidConfiguration]) := by
      rcases tries with rfl | rfl <;> simp [provided.2, invalidConfiguration]
    exact ⟨reads, fun _ => ⟨provided.1, reads⟩⟩

theorem nullConfig_mem_fsmLog (log : List Effect) :
    .nullConfig ∈ fsmLog log ↔ .nullConfig ∈ log := by
  simp [fsmLog, Effect.OfSend]

/-- In every run, with null configurations given at any time, in which nobody calls `process` or
`shutdown` from inside `process_fsm_state`, and no function that is told of a null configuration
around a connection throws: between two calls the client has a configuration whenever it is around
a connection, and no configuration was read, and no `init_websocket` called, while there was
none. -/
theorem config_present {actions : List CallbackAction} {world : CallbackWorld}
    (runs : callbackSystem.Runs callbackSystem.init actions world)
    (cautious : callbackSystem.Throughout
      (fun world action => careful Callback.dropsConfig world action = true)
      callbackSystem.init actions) :
    (world.busy = false → world.client.Active → world.client.config ≠ none) ∧
      .nullConfig ∉ world.client.log := by
  have sound := sound_of_runs provided_survives ⟨.of_rest (Or.inl rfl), by simp⟩ runs
    cautious
  refine ⟨fun calm => (sound.holds calm).1, ?_⟩
  rw [← nullConfig_mem_fsmLog]
  exact sound.throughout provided_survives

/-- A connected client is given a null configuration, and the handler throws on the close
event. -/
def closedAndThrown : List CallbackAction :=
  List.flatten [openedWithHandler, processCalling 1 {},
    [.client (.setConfig none false), .client (.callProcess {}), .throwCallback]]

theorem config_present_closedAndThrown :
    ∃ world, callbackSystem.Runs callbackSystem.init closedAndThrown world ∧
      world.client.fsmState = .working ∧ world.client.config ≠ none ∧
      .nullConfig ∉ world.client.log := by
  have evaluated : (callbackSystem.run callbackSystem.init closedAndThrown).any (fun world =>
      decide (world.busy = false ∧ world.client.fsmState = .working ∧
        callbackSystem.Throughout (fun world action =>
          careful Callback.dropsConfig world action = true) callbackSystem.init
          closedAndThrown)) = true := by
    decide +kernel
  obtain ⟨world, runs, checked⟩ := System.exists_runs evaluated
  obtain ⟨calm, working, cautious⟩ := of_decide_eq_true checked
  obtain ⟨present, reads⟩ := config_present runs cautious
  exact ⟨world, runs, working, present calm (Or.inr (Or.inl working)), reads⟩

/-- A connected client is given a null configuration; the handler returns from the close event and
throws on the error event. Then the connection ends. -/
def deconfiguredAndThrown : List CallbackAction :=
  List.flatten [openedWithHandler, processCalling 1 {}, [.client (.setConfig none false),
    .client (.callProcess {}), .returnCallback, .throwCallback,
    .client (.report (.connectionClosed "bye" 1000) 1)]]

/-- The exception leaves the client in `WORKING` without a configuration, and the report that the
connection has ended is handled by reading it. -/
theorem config_lost : ∃ world next,
    callbackSystem.Runs callbackSystem.init deconfiguredAndThrown world ∧
      world.busy = false ∧ world.client.fsmState = .working ∧ world.client.config = none ∧
      callbackSystem.step world (.client (.callProcess {})) = some next ∧
      .nullConfig ∈ next.client.log := by
  have evaluated : (callbackSystem.run callbackSystem.init deconfiguredAndThrown).any
      (fun world => decide (world.busy = false ∧ world.client.fsmState = .working ∧
        world.client.config = none) &&
        (callbackSystem.step world (.client (.callProcess {}))).any fun next =>
          decide (.nullConfig ∈ next.client.log)) = true := by
    decide +kernel
  obtain ⟨world, runs, checked⟩ := System.exists_runs evaluated
  rw [Bool.and_eq_true, decide_eq_true_eq, Option.any_eq_true] at checked
  obtain ⟨⟨calm, working, missing⟩, next, stepped, reads⟩ := checked
  exact ⟨world, next, runs, calm, working, missing, stepped, of_decide_eq_true reads⟩

end Kurlyk.WebSocket
