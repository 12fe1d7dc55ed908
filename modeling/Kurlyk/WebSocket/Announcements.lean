/-
This file is about what a client tells its user of the connection when functions of
the user throw. The flag of the connection is written before the user is told, and
the state after the user has been told and the request is settled. The functions
that are called in between are the handler of an open or close event, and in
`WORKING` those that hear of a request that ends the connection. An exception out of
one of them leaves the flag and the state apart.

Wherever the user is called, the last of the open and close events tells of the
flag, so that the events alternate whatever happens next.
-/

import Kurlyk.WebSocket.Configuration

namespace Kurlyk.WebSocket

open Client

/-- The calls between the write of the flag and that of the state. -/
def Callback.splits (state : FsmState) : Callback → Bool
  | .handler (some (.updateConfig _ _)) event =>
    decide (state = .working ∨ event.eventType = .wsClose)
  | .handler _ event => decide (event.eventType = .wsOpen ∨ event.eventType = .wsClose)
  | .completion (.updateConfig _ _) _ => decide (state = .working)
  | .completion (.requestDisconnect _) _ => decide (state = .working)
  | _ => false

/-! ### The places where the user is called -/

section Outcomes

variable {before after : Machine} {input : Input} {event : FsmEventData} {effects : List Effect}
  {callback : Callback}

theorem Machine.Flagged.of_not_connected {machine : Machine}
    (disconnected : machine.isConnected = false) (state : machine.fsmState ≠ .working) :
    machine.Flagged := by
  simp [Machine.Flagged, disconnected, state]

theorem Machine.Flagged.attempted (disconnected : before.isConnected = false) :
    (Client.attempted event input before).1.Flagged := by
  unfold Client.attempted
  split
  · exact .of_not_connected disconnected (by simp)
  · exact .of_not_connected disconnected (by simp)

theorem Handled.flagged (handled : Handled before input event after effects)
    (flagged : before.Flagged) (supplied : before.Supplied) : after.Flagged := by
  cases handled with
  | ignored event branch => exact flagged
  | message text attempt state => exact flagged
  | stored config callback state => exact flagged
  | unconfigured callback state missing =>
    refine .of_not_connected (flagged.not_connected ?_) (by simp)
    rcases state with state | state <;> simp [state]
  | connects callback state config configured =>
    refine .attempted (flagged.not_connected ?_)
    rcases state with state | state <;> simp [state]
  | deconfigured callback state => exact .of_not_connected flagged.cleared (by simp)
  | reconfigured config callback state =>
    have disconnected : { (cleared before).1 with
        config := some config, reconnectAttempt := 0 : Machine }.isConnected = false :=
      flagged.cleared
    exact .attempted disconnected
  | opened statusCode attempt state => simp [Machine.Flagged]
  | lost report attempt errors closeEvent ends state config configured =>
    refine .of_not_connected (afterLoss_connected _ _ _) ?_
    unfold afterLoss
    split <;> simp
  | undefined report attempt effects state missing =>
    exact absurd missing (supplied (state.imp_right Or.inl))
  | disconnected callback state => exact .of_not_connected rfl (by simp)
  | abandoned callback state =>
    exact .of_not_connected (flagged.not_connected (by simp [state])) (by simp)

theorem Timed.flagged (timed : Timed before input after effects) (flagged : before.Flagged)
    (state : before.fsmState ≠ .working) : after.Flagged := by
  have disconnected := flagged.not_connected state
  cases timed with
  | waiting config configured enabled left early => exact flagged
  | _ => exact .of_not_connected disconnected (by simp)

/-- What a request finds tells of a connection that is given up, and the flag is written. -/
theorem Prepared.announces (prepared : Prepared before event after effects)
    (flagged : before.Flagged) : Announces before after effects := by
  cases prepared with
  | connect callback state => rw [Announces, if_pos rfl]; rfl
  | deconfigured callback state =>
    exact announces_disconnect flagged.cleared (cleared_announces flagged)
  | reconfigured config callback state =>
    exact announces_disconnect flagged.cleared (cleared_announces flagged)

theorem Announces.append {more : List Effect} (announces : Announces before after effects)
    (silent : opensAndCloses more = []) : Announces before after (effects ++ more) := by
  rw [Announces, opensAndCloses_append, silent, List.append_nil]
  exact announces

/-- A call of the user comes when the flag is written and its change is told. -/
theorem Interrupted.announces (interrupted : Interrupted before event callback after effects)
    (flagged : before.Flagged) : Announces before after effects := by
  cases interrupted with
  | ignored event branch =>
    rw [Announces, if_pos rfl]
    exact opensAndCloses_settlement event false
  | told prepared tries =>
    refine ((prepared.announces flagged).append ?_).append rfl
    rcases tries with rfl | rfl <;> rfl
  | refused prepared tries =>
    refine (((prepared.announces flagged).append ?_).append rfl).append
      (opensAndCloses_settlement event false)
    rcases tries with rfl | rfl <;> rfl
  | accepted prepared =>
    exact ((prepared.announces flagged).append rfl).append (opensAndCloses_settlement event true)
  | opened statusCode attempt state disconnected =>
    rw [Announces, disconnected]
    rfl
  | lost report attempt errors closeEvent ends state connected =>
    obtain ⟨close, reported⟩ := ends_cases ends
    refine announces_disconnect rfl ?_
    have quiet : opensAndCloses (errors ++ [.deinitWebsocket]) = [] := by
      rcases reported with rfl | ⟨errorCode, rfl⟩ <;> rfl
    rw [opensAndCloses_append, quiet, connected]
    simp [opensAndCloses, close]
  | closed event state connected =>
    refine announces_disconnect rfl ?_
    rw [connected]
    rfl
  | disconnected callback state =>
    refine announces_disconnect rfl ?_
    rw [opensAndCloses_append, opensAndCloses_append]
    exact (List.append_nil _).trans (opensAndCloses_closing before.isConnected rfl)
  | _ => rw [Announces, if_pos rfl]; rfl

theorem TimerInterrupted.announces (interrupted : TimerInterrupted before callback after effects) :
    Announces before after effects := by
  obtain ⟨tried, tries⟩ := interrupted
  rw [Announces, if_pos rfl]
  rcases tries with rfl | rfl <;> rfl

/-- Outside `WORKING` a request finds nothing to give up. -/
theorem Prepared.flagged (prepared : Prepared before event after effects)
    (flagged : before.Flagged) (state : before.fsmState ≠ .working) : after.Flagged := by
  cases prepared with
  | connect callback resting => exact flagged
  | deconfigured callback configured =>
    refine .of_not_connected flagged.cleared ?_
    unfold cleared
    split <;> exact state
  | reconfigured config callback configured =>
    refine .of_not_connected flagged.cleared ?_
    unfold cleared
    split <;> exact state

theorem Prepared.fsmState (prepared : Prepared before event after effects) :
    after.fsmState = before.fsmState := by
  cases prepared with
  | connect callback state => rfl
  | _ =>
    unfold cleared
    split <;> rfl

theorem Prepared.not_working {callback : Option ℕ}
    (prepared : Prepared before (.requestConnect callback) after effects) :
    before.fsmState ≠ .working := by
  obtain ⟨_, state⟩ := prepared
  rcases state with state | state <;> simp [state]

/-- Where the exception does no harm the flag and the state agree. -/
theorem Interrupted.flagged (interrupted : Interrupted before event callback after effects)
    (flagged : before.Flagged) (harmless : callback.splits after.fsmState = false) :
    after.Flagged := by
  have elsewhere : ∀ {machine earlier}, Prepared before event machine earlier →
      (∀ config called, event = .updateConfig config called → machine.fsmState ≠ .working) →
      machine.Flagged := by
    intro machine earlier prepared apart
    refine prepared.flagged flagged ?_
    cases event with
    | requestConnect called => exact prepared.not_working
    | updateConfig config called => exact prepared.fsmState ▸ apart config called rfl
    | _ => cases prepared
  cases interrupted with
  | told prepared tries =>
    refine elsewhere prepared ?_
    rintro config called rfl
    simpa [Callback.splits, createWebsocketErrorEvent] using harmless
  | refused prepared tries =>
    refine elsewhere prepared ?_
    rintro config called rfl
    simpa [Callback.splits] using harmless
  | @accepted _ machine effects prepared =>
    have agreed : machine.Flagged := by
      refine elsewhere prepared ?_
      rintro config called rfl
      simpa [Callback.splits] using harmless
    exact agreed
  | opened statusCode attempt state disconnected =>
    simp [Callback.splits, createWebsocketOpenEvent] at harmless
  | lost report attempt errors closeEvent ends state connected =>
    simp [Callback.splits, (ends_cases ends).1] at harmless
  | closed event state connected =>
    cases event <;> simp [Callback.splits, normalClosure, createWebsocketCloseEvent] at harmless
  | disconnected callback state =>
    refine .of_not_connected rfl ?_
    simpa [Callback.splits] using harmless
  | abandoned callback state =>
    exact .of_not_connected (flagged.not_connected (by simp [state])) (by simp [state])
  | _ => exact flagged

end Outcomes

/-! ### Whole runs -/

theorem opensAndCloses_fsmLog (log : List Effect) :
    opensAndCloses (fsmLog log) = opensAndCloses log := by
  refine filterMap_fsmLog (fun effect send => ?_) log
  cases effect with
  | accepted | sendCompleted => rfl
  | _ => exact send.elim

/-- Between two calls the flag and the state agree, and the user was told of the flag. -/
def Announced (machine : Machine) (log : List Effect) : Prop :=
  machine.Flagged ∧ machine.Supplied ∧ Tells log machine.isConnected

theorem announced_survives :
    Survives (fun state callback => callback.dropsConfig state || callback.splits state)
      Announced fun machine log => Tells log machine.isConnected where
  resting _ _ announced := announced.2.2
  handled := by
    rintro machine log input event after effects ⟨flagged, supplied, tells⟩ handled
    have announces : Announces machine after (.popped event :: effects) :=
      handled.announces flagged supplied
    exact ⟨handled.flagged flagged supplied, handled.supplied supplied, tells.extend announces⟩
  interrupted := by
    rintro machine log event callback after effects ⟨flagged, supplied, tells⟩ interrupted
    have announces : Announces machine after (.popped event :: effects) :=
      interrupted.announces flagged
    have told := tells.extend announces
    refine ⟨told, fun harmless => ?_⟩
    obtain ⟨keeps, whole⟩ := Bool.or_eq_false_iff.mp harmless
    exact ⟨interrupted.flagged flagged whole, interrupted.supplied supplied keeps, told⟩
  timed := by
    rintro machine log input after effects ⟨flagged, supplied, tells⟩ state timed
    exact ⟨timed.flagged flagged state, timed.supplied supplied, tells.extend timed.announces⟩
  timerInterrupted := by
    rintro machine log callback after effects ⟨flagged, supplied, tells⟩ interrupted
    have told := tells.extend interrupted.announces
    obtain ⟨tried, tries⟩ := interrupted
    exact ⟨told, fun _ => ⟨flagged, supplied, told⟩⟩

/-- In every run in which nobody calls `process` or `shutdown` from inside `process_fsm_state`,
and no function throws that is called between the write of the flag and that of the state, or is
told of a null configuration around a connection: the open and close events that reached the user
alternate and begin with an open event, and between two calls the client is connected exactly when
the last of them was an open event, and exactly in `WORKING`. -/
theorem open_close_alternate {actions : List CallbackAction} {world : CallbackWorld}
    (runs : callbackSystem.Runs callbackSystem.init actions world)
    (cautious : callbackSystem.Throughout
      (fun world action => careful (fun state callback =>
        callback.dropsConfig state || callback.splits state) world action = true)
      callbackSystem.init actions) :
    Alternate (opensAndCloses world.client.log) ∧
      (world.busy = false →
        (world.client.isConnected = true ↔
          (opensAndCloses world.client.log).getLast? = some .wsOpen) ∧
        (world.client.isConnected = true ↔ world.client.fsmState = .working)) := by
  have sound := sound_of_runs announced_survives
    ⟨.of_not_connected rfl (by simp), .of_rest (Or.inl rfl), List.isChain_singleton _, rfl⟩ runs
    cautious
  have tells : Tells (fsmLog world.client.log) world.client.isConnected :=
    sound.throughout announced_survives
  rw [← opensAndCloses_fsmLog]
  exact ⟨tells.alternate, fun calm => ⟨tells.connected_iff, (sound.holds calm).1⟩⟩

/-- A connection is opened, and the handler throws on a message. -/
def openedAndThrown : List CallbackAction :=
  List.flatten [openedWithHandler, processCalling 1 {},
    [.client (.report (.messageReceived "hi") 1), .client (.callProcess {}), .throwCallback]]

theorem open_close_alternate_openedAndThrown :
    ∃ world, callbackSystem.Runs callbackSystem.init openedAndThrown world ∧
      world.client.isConnected = true ∧
      (opensAndCloses world.client.log).getLast? = some .wsOpen ∧
      Alternate (opensAndCloses world.client.log) := by
  have evaluated : (callbackSystem.run callbackSystem.init openedAndThrown).any (fun world =>
      decide (world.busy = false ∧ world.client.fsmState = .working ∧
        callbackSystem.Throughout (fun world action =>
          careful (fun state callback =>
            callback.dropsConfig state || callback.splits state) world action = true)
          callbackSystem.init openedAndThrown)) = true := by
    decide +kernel
  obtain ⟨world, runs, checked⟩ := System.exists_runs evaluated
  obtain ⟨calm, working, cautious⟩ := of_decide_eq_true checked
  obtain ⟨alternate, told⟩ := open_close_alternate runs cautious
  obtain ⟨last, state⟩ := told calm
  have connected := state.mpr working
  exact ⟨world, runs, connected, last.mp connected, alternate⟩

/-- The handler throws on the open event; then `process` is called again. -/
def thrownOnOpen : List CallbackAction :=
  List.flatten [openedWithHandler, [.client (.callProcess {}), .throwCallback],
    processCalling 0 {}]

/-- The exception leaves a client that is connected and told so, and stays in `CONNECTING`. -/
theorem connected_in_connecting : ∃ world,
    callbackSystem.Runs callbackSystem.init thrownOnOpen world ∧
      world.busy = false ∧ world.client.isConnected = true ∧
      (opensAndCloses world.client.log).getLast? = some .wsOpen ∧
      world.client.fsmState = .connecting := by
  have evaluated : (callbackSystem.run callbackSystem.init thrownOnOpen).any (fun world =>
      decide (world.busy = false ∧ world.client.isConnected = true ∧
        (opensAndCloses world.client.log).getLast? = some .wsOpen ∧
        world.client.fsmState = .connecting)) = true := by
    decide +kernel
  obtain ⟨world, runs, checked⟩ := System.exists_runs evaluated
  exact ⟨world, runs, of_decide_eq_true checked⟩

end Kurlyk.WebSocket
