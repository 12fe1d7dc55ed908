/-
This file follows a disconnect that the client has acknowledged. From then on the
client rests: it is in `INIT`, is not running, and calls `init_websocket` only
after the next request to connect or the next configuration. The one way to lose
that rest is a disconnect that is taken in `RECONNECTING` when the reconnect
timer is due: the timer runs after the switch in the same call.
-/

import Kurlyk.WebSocket.Connection

namespace Kurlyk.WebSocket

open Client

/-- What the log tells of acknowledged disconnects: whether one was acknowledged and neither a
request to connect nor a configuration was processed since, and whether `init_websocket` was ever
called in such a time. -/
structure Rest where
  resting : Bool := false
  disturbed : Bool := false
deriving DecidableEq

/-- One entry of the log. -/
def Rest.next (rest : Rest) : Effect → Rest
  | .settled (.requestDisconnect _) true => { rest with resting := true }
  | .popped (.requestConnect _) => { rest with resting := false }
  | .popped (.updateConfig _ _) => { rest with resting := false }
  | .initWebsocket _ => { rest with disturbed := rest.disturbed || rest.resting }
  | _ => rest

/-- The rest of a whole log. -/
def rest (log : List Effect) : Rest :=
  log.foldl Rest.next {}

theorem rest_append (log effects : List Effect) :
    rest (log ++ effects) = effects.foldl Rest.next (rest log) :=
  List.foldl_append

/-- A machine whose disconnect was acknowledged is in `INIT` and not running, and was never
disturbed. -/
structure Obeys (machine : Machine) (rest : Rest) : Prop where
  state : rest.resting = true → machine.fsmState = .init ∧ machine.isRunning = false
  undisturbed : rest.disturbed = false

instance (machine : Machine) (rest : Rest) : Decidable (Obeys machine rest) :=
  decidable_of_iff ((rest.resting = true → machine.fsmState = .init ∧ machine.isRunning = false) ∧
      rest.disturbed = false)
    ⟨fun both => ⟨both.1, both.2⟩, fun obeys => ⟨obeys.state, obeys.undisturbed⟩⟩

/-! ### One outcome -/

section Outcomes

variable {before after : Machine} {input : Input} {event : FsmEventData} {effects : List Effect}
  {counted : Rest}

@[simp]
theorem foldl_rest_settlement_false (event : FsmEventData) :
    (settlement event false).foldl Rest.next counted = counted := by
  cases event <;> rfl

@[simp]
theorem foldl_rest_closing (connected : Bool) (event : WebSocketEventData) :
    (closing connected event).foldl Rest.next counted = counted := by
  unfold closing
  split <;> rfl

theorem Obeys.active (obeys : Obeys before counted) (state : before.fsmState ≠ .init) :
    counted.resting = false := by
  rw [← Bool.not_eq_true]
  exact fun resting => state (obeys.state resting).1

/-- A machine that is not to rest may be in any state. -/
theorem Obeys.awake {machine : Machine} (awake : counted.resting = false)
    (undisturbed : counted.disturbed = false) : Obeys machine counted :=
  ⟨fun resting => absurd (awake.symm.trans resting) (by simp), undisturbed⟩

/-- An attempt disturbs nobody when the machine is not to rest. -/
theorem Rest.next_init (awake : counted.resting = false) (started : Bool) :
    counted.next (.initWebsocket started) = counted := by
  cases counted
  simp_all [Rest.next]

/-- An attempt for a request that has ended the rest. -/
theorem foldl_rest_attempted (event : FsmEventData)
    (renewed : ∀ callback, event ≠ .requestDisconnect callback)
    (awake : counted.resting = false) (machine : Machine) :
    (Client.attempted event input machine).2.foldl Rest.next counted = counted := by
  have settled : ∀ success, (settlement event success).foldl Rest.next counted = counted := by
    intro success
    cases event with
    | requestDisconnect callback => exact absurd rfl (renewed callback)
    | _ => cases success <;> rfl
  unfold Client.attempted
  split
  · rw [List.foldl_cons, Rest.next_init awake, settled]
  · rw [List.foldl_cons, Rest.next_init awake, List.foldl_cons]
    exact settled false

theorem Obeys.pop (obeys : Obeys before counted) (event : FsmEventData) :
    Obeys before (counted.next (.popped event)) := by
  cases event with
  | requestConnect callback => exact .awake rfl obeys.undisturbed
  | updateConfig config callback => exact .awake rfl obeys.undisturbed
  | _ => exact obeys

theorem foldl_rest_cleared (machine : Machine) :
    (cleared machine).2.foldl Rest.next counted = counted := by
  unfold cleared
  split
  · rw [List.foldl_cons, foldl_rest_closing]
    rfl
  · rfl

theorem foldl_rest_errors {report : BackendEvent} {errors : List Effect}
    {closeEvent : WebSocketEventData} (ends : Ends report = some (errors, closeEvent)) :
    errors.foldl Rest.next counted = counted := by
  rcases (ends_cases ends).2 with rfl | ⟨errorCode, rfl⟩ <;> rfl

theorem Handled.obeys (handled : Handled before input event after effects)
    (shape : Shape before) (obeys : Obeys before counted) :
    Obeys after (effects.foldl Rest.next (counted.next (.popped event))) := by
  have popped := obeys.pop event
  cases handled with
  | ignored event branch =>
    rw [foldl_rest_settlement_false]
    exact popped
  | message text attempt state => exact popped
  | stored config callback state => exact .awake rfl obeys.undisturbed
  | unconfigured callback state missing => exact .awake rfl obeys.undisturbed
  | connects callback state config configured =>
    rw [foldl_rest_attempted _ (by simp) rfl]
    exact .awake rfl obeys.undisturbed
  | deconfigured callback state =>
    rw [List.foldl_append, foldl_rest_cleared]
    exact .awake rfl obeys.undisturbed
  | reconfigured config callback state =>
    rw [List.foldl_append, foldl_rest_cleared, foldl_rest_attempted _ (by simp) rfl]
    exact .awake rfl obeys.undisturbed
  | opened statusCode attempt state =>
    have awake := popped.active (by simp [state])
    split <;> exact .awake awake popped.undisturbed
  | lost report attempt errors closeEvent ends state config configured =>
    have awake := popped.active (by rcases state with state | state <;> simp [state])
    rw [List.foldl_append, foldl_rest_errors ends, List.foldl_cons, foldl_rest_closing]
    exact .awake awake popped.undisturbed
  | undefined report attempt effects state missing =>
    exact absurd missing (shape.not_missing state)
  | disconnected callback state =>
    rw [List.cons_append, List.foldl_cons, List.foldl_append, foldl_rest_closing]
    exact ⟨fun _ => ⟨rfl, rfl⟩, obeys.undisturbed⟩
  | abandoned callback state => exact ⟨fun _ => ⟨rfl, rfl⟩, obeys.undisturbed⟩

/-- After a switch in `RECONNECTING` the machine is to rest only if it took a disconnect. -/
theorem Handled.resting_of_reconnecting (handled : Handled before input event after effects)
    (obeys : Obeys before counted) (state : before.fsmState = .reconnecting)
    (resting : (effects.foldl Rest.next (counted.next (.popped event))).resting = true) :
    (∃ callback, event = .requestDisconnect callback) ∧ after.config = before.config ∧
      after.reconnectAttempt = before.reconnectAttempt ∧ after.closeTime = before.closeTime := by
  have awake := (obeys.pop event).active (by simp [state])
  cases handled with
  | ignored event branch => simp [awake] at resting
  | message text attempt working => exact absurd (awake.symm.trans resting) (by simp)
  | deconfigured callback =>
    rw [List.foldl_append, foldl_rest_cleared] at resting
    exact absurd (awake.symm.trans resting) (by simp)
  | reconfigured config callback =>
    rw [List.foldl_append, foldl_rest_cleared, foldl_rest_attempted _ (by simp) awake] at resting
    exact absurd (awake.symm.trans resting) (by simp)
  | stored config callback elsewhere => simp [state] at elsewhere
  | unconfigured callback elsewhere => simp [state] at elsewhere
  | connects callback elsewhere => simp [state] at elsewhere
  | opened statusCode attempt elsewhere => simp [state] at elsewhere
  | lost report attempt errors closeEvent ends elsewhere => simp [state] at elsewhere
  | undefined report attempt effects elsewhere => simp [state] at elsewhere
  | disconnected callback elsewhere => simp [state] at elsewhere
  | abandoned callback => exact ⟨⟨callback, rfl⟩, rfl, rfl, rfl⟩

/-- The timer does not disturb a machine that is to rest unless it is due. -/
theorem Timed.obeys (timed : Timed before input after effects) (obeys : Obeys before counted)
    (quiet : counted.resting = true → ∃ config, before.config = some config ∧
      ¬ Due before input config) : Obeys after (effects.foldl Rest.next counted) := by
  cases resting : counted.resting with
  | false =>
    cases timed with
    | waiting config configured enabled left early => exact obeys
    | started config configured due answer =>
      rw [List.foldl_cons, Rest.next_init resting]
      exact .awake resting obeys.undisturbed
    | failed config configured due answer =>
      rw [List.foldl_cons, Rest.next_init resting]
      exact .awake resting obeys.undisturbed
    | _ => exact .awake resting obeys.undisturbed
  | true =>
    obtain ⟨config, configured, wait⟩ := quiet resting
    cases timed with
    | missing unset => exact absurd (unset.symm.trans configured) (by simp)
    | finished found again ended => exact ⟨fun _ => ⟨rfl, rfl⟩, obeys.undisturbed⟩
    | waiting found again enabled left early => exact obeys
    | started found again due answer =>
      obtain rfl := Option.some.inj (again.symm.trans configured)
      exact absurd due wait
    | failed found again due answer =>
      obtain rfl := Option.some.inj (again.symm.trans configured)
      exact absurd due wait

end Outcomes

/-! ### Whole runs -/

/-- The client obeys the disconnects it has acknowledged. -/
def Client.ObeysDisconnect (client : Client) : Prop :=
  Obeys client.toMachine (rest client.log)

instance (client : Client) : Decidable client.ObeysDisconnect :=
  inferInstanceAs (Decidable (Obeys _ _))

/-- The next event is a request to disconnect. -/
def nextDisconnects : List FsmEventData → Bool
  | .requestDisconnect _ :: _ => true
  | _ => false

/-- The call takes a disconnect in `RECONNECTING` while the timer is due. -/
def Client.Revives (client : Client) (input : Input) : Prop :=
  client.fsmState = .reconnecting ∧ nextDisconnects client.fsmEventQueue = true ∧
    ∃ config ∈ client.config, Due client.toMachine input config

instance (client : Client) (input : Input) : Decidable (client.Revives input) :=
  inferInstanceAs (Decidable (_ ∧ _ ∧ ∃ config ∈ client.config, _))

section Calls

variable {client : Client} {input : Input}

theorem obeys_switch (shape : Shape client.toMachine) (obeys : client.ObeysDisconnect)
    (event : FsmEventData) (left : List FsmEventData) (input : Input) :
    ((client.popEvent event left).switch event input).ObeysDisconnect := by
  obtain ⟨effects, log, handled⟩ := ((client.popEvent event left).switch_does event input).outcome
  rw [Client.ObeysDisconnect, log, popEvent_log, rest_append, rest_append]
  exact handled.obeys shape obeys

theorem obeys_timer (obeys : client.ObeysDisconnect)
    (quiet : (rest client.log).resting = true → ∃ config, client.config = some config ∧
      ¬ Due client.toMachine input config) : (client.reconnectTimer input).ObeysDisconnect := by
  obtain ⟨_, effects, log, timed⟩ := client.reconnectTimer_does input
  rw [Client.ObeysDisconnect, log, rest_append]
  exact timed.obeys obeys quiet

theorem obeys_processFsmState (agrees : Agrees client) (obeys : client.ObeysDisconnect)
    (spared : ¬ client.Revives input) : (client.processFsmState input).ObeysDisconnect := by
  by_cases reconnecting : client.fsmState = .reconnecting
  · rw [processFsmState_of_reconnecting _ _ reconnecting]
    split
    · refine obeys_timer obeys fun resting => ?_
      exact absurd (obeys.state resting).1 (by simp [reconnecting])
    · rename_i event left queue
      refine obeys_timer (obeys_switch agrees.shape obeys event left input) fun resting => ?_
      obtain ⟨effects, log, handled⟩ :=
        ((client.popEvent event left).switch_does event input).outcome
      rw [log, popEvent_log, rest_append, rest_append] at resting
      obtain ⟨⟨callback, rfl⟩, sameConfig, sameAttempt, sameTime⟩ :=
        handled.resting_of_reconnecting obeys reconnecting resting
      obtain ⟨config, configured⟩ := agrees.shape.configured (Or.inr (Or.inr reconnecting))
      refine ⟨config, sameConfig.trans configured, fun due => spared ?_⟩
      refine ⟨reconnecting, by rw [queue]; rfl, config, configured, ?_⟩
      rw [Due, sameAttempt, sameTime] at due
      exact due
  · refine (agrees.induction input Client.ObeysDisconnect obeys ?_ ?_).2
    · intro current event left holds kept _ _ _
      exact obeys_switch holds.shape kept event left input
    · intro current state
      exact absurd state reconnecting

theorem Handled.abandons {before after : Machine} {effects : List Effect} {callback : Option ℕ}
    (handled : Handled before input (.requestDisconnect callback) after effects)
    (state : before.fsmState = .reconnecting) :
    after = { before with isRunning := false, fsmState := .init } ∧
      effects = [.settled (.requestDisconnect callback) true] := by
  cases handled with
  | ignored event branch =>
    rw [state] at branch
    exact branch.elim
  | disconnected callback elsewhere => simp [state] at elsewhere
  | abandoned callback => exact ⟨rfl, rfl⟩

/-- A timer that is due calls `init_websocket`, also on a machine that is to rest. -/
theorem Timed.disturbs {before after : Machine} {effects : List Effect} {counted : Rest}
    (timed : Timed before input after effects) {config : WebSocketConfig}
    (configured : before.config = some config) (due : Due before input config)
    (resting : counted.resting = true) :
    (effects.foldl Rest.next counted).disturbed = true := by
  cases timed with
  | missing unset => exact absurd (unset.symm.trans configured) (by simp)
  | finished found again ended =>
    obtain rfl := Option.some.inj (again.symm.trans configured)
    rcases ended with disabled | exhausted
    · exact absurd due.1 (by simp [disabled])
    · exact absurd exhausted due.2.1
  | waiting found again enabled left early =>
    obtain rfl := Option.some.inj (again.symm.trans configured)
    exact absurd due.2.2 (by omega)
  | started found again _ answer => simp [Rest.next, resting]
  | failed found again _ answer => simp [Rest.next, invalidConfiguration, resting]

/-- A disconnect that is taken while the timer is due is not obeyed. -/
theorem revives_disobeys (revives : client.Revives input) :
    ¬ (client.processFsmState input).ObeysDisconnect := by
  obtain ⟨state, next, config, configured, due⟩ := revives
  obtain ⟨callback, left, queue⟩ : ∃ callback left,
      client.fsmEventQueue = .requestDisconnect callback :: left := by
    unfold nextDisconnects at next
    split at next
    · exact ⟨_, _, ‹_›⟩
    · cases next
  rw [processFsmState_of_reconnecting _ _ state, queue]
  obtain ⟨effects, log, handled⟩ :=
    ((client.popEvent _ left).switch_does (.requestDisconnect callback) input).outcome
  obtain ⟨abandoned, rfl⟩ := handled.abandons state
  obtain ⟨_, later, laterLog, timed⟩ := Client.reconnectTimer_does
    ((client.popEvent (.requestDisconnect callback) left).switch
      (.requestDisconnect callback) input) input
  rw [abandoned] at timed
  have resting : (rest ((client.popEvent (.requestDisconnect callback) left).switch
      (.requestDisconnect callback) input).log).resting = true := by
    rw [log, rest_append]
    rfl
  have disturbed := timed.disturbs configured due resting
  intro obeys
  dsimp only [Client.ObeysDisconnect] at obeys
  rw [laterLog, rest_append] at obeys
  exact absurd (obeys.undisturbed.symm.trans disturbed) (by simp)

end Calls

/-- What is sent does not disturb the rest. -/
theorem obeys_frame {client next : Client} {effects : List Effect}
    (machine : next.toMachine = client.toMachine) (log : next.log = client.log ++ effects)
    (sends : ∀ effect ∈ effects, effect.OfSend) (obeys : client.ObeysDisconnect) :
    next.ObeysDisconnect := by
  rw [Client.ObeysDisconnect, machine, log, rest_append, Log.foldl_of_blind]
  · exact obeys
  · intro effect member counted
    have send := sends effect member
    cases effect <;> first | rfl | exact send.elim

/-- Over every run of a client, for every configuration, every clock and every answer of
`init_websocket`: in every state the run goes through, a client whose disconnect was acknowledged
is in `INIT` and not running and has not called `init_websocket` until a request to connect or a
configuration was processed, if and only if no call of `process_fsm_state` takes a disconnect in
`RECONNECTING` while the reconnect timer is due. -/
theorem disconnect_obeyed_iff {actions : List ClientAction} {finish : ClientWorld}
    (runs : clientSystem.Runs clientSystem.init actions finish) :
    (∀ before after world, actions = before ++ after →
      clientSystem.Runs clientSystem.init before world → world.client.ObeysDisconnect) ↔
    clientSystem.Throughout (Spared Client.Revives) clientSystem.init actions :=
  spared_iff (by decide) (fun _ _ _ machine log sends obeys => obeys_frame machine log sends obeys)
    (fun _ _ agrees obeys spared => obeys_processFsmState agrees obeys spared)
    (fun _ _ revives => revives_disobeys revives) runs

/-- One second after the loss, four seconds before the timer is due, the user disconnects. -/
def disconnectedEarly : List ClientAction :=
  openedAndLost ++ [.disconnect true] ++ processOnce { now := 6000000000 }

theorem disconnect_obeyed_iff_disconnectedEarly :
    ∃ world, clientSystem.Runs clientSystem.init disconnectedEarly world ∧
      .settled (.requestDisconnect (some 2)) true ∈ world.client.log ∧
      (rest world.client.log).resting = true ∧ world.client.ObeysDisconnect := by
  have evaluated : (clientSystem.run clientSystem.init disconnectedEarly).any (fun world =>
      decide (.settled (.requestDisconnect (some 2)) true ∈ world.client.log ∧
        (rest world.client.log).resting = true)) = true := by decide +kernel
  have spared : clientSystem.Throughout (Spared Client.Revives) clientSystem.init
      disconnectedEarly := by decide +kernel
  obtain ⟨world, runs, checked⟩ := System.exists_runs evaluated
  rw [decide_eq_true_eq] at checked
  exact ⟨world, runs, checked.1, checked.2,
    (disconnect_obeyed_iff runs).mpr spared disconnectedEarly [] world (by simp) runs⟩

/-- Five seconds after the loss the user disconnects: the disconnect is acknowledged, and in the
same call the timer makes a new attempt. -/
theorem disconnected_late_reconnects :
    ∃ world, clientSystem.Runs clientSystem.init (openedAndLost ++ [.disconnect true] ++
        processOnce { now := 10000000000 }) world ∧
      .settled (.requestDisconnect (some 2)) true ∈ world.client.log ∧
      world.client.fsmState = .connecting ∧ world.client.isRunning = true ∧
      (rest world.client.log).disturbed = true ∧ ¬ world.client.ObeysDisconnect := by
  have evaluated : (clientSystem.run clientSystem.init (openedAndLost ++ [.disconnect true] ++
      processOnce { now := 10000000000 })).any (fun world =>
      decide (.settled (.requestDisconnect (some 2)) true ∈ world.client.log ∧
        world.client.fsmState = .connecting ∧ world.client.isRunning = true ∧
        (rest world.client.log).disturbed = true ∧ ¬ world.client.ObeysDisconnect)) = true := by
    decide +kernel
  obtain ⟨world, runs, checked⟩ := System.exists_runs evaluated
  exact ⟨world, runs, of_decide_eq_true checked⟩

end Kurlyk.WebSocket
