/-
This file relates the members of the state machine to each other and to what the
user sees. `Shape` is what holds of the members between two calls: the client is
connected exactly in `WORKING`, has a configuration and is running in the three
states around a connection, and is not running in `INIT`. Every outcome of a
switch delivers an open or close event exactly when it changes the flag, so the
events of the user alternate.
-/

import Mathlib.Data.List.Chain
import Kurlyk.WebSocket.World

namespace Kurlyk.WebSocket

open Client

/-- The open and close events that the user received, in order. -/
def opensAndCloses (log : List Effect) : List WebSocketEventType :=
  log.filterMap fun
    | .delivered event =>
      if event.eventType = .wsOpen ∨ event.eventType = .wsClose then some event.eventType else none
    | _ => none

/-- The events alternate, and the first of them is an open event. -/
def Alternate (events : List WebSocketEventType) : Prop :=
  List.IsChain (· ≠ ·) (.wsClose :: events)

/-- The machine is around a connection: it tries one, has one or waits for the next. -/
def Machine.Active (machine : Machine) : Prop :=
  machine.fsmState = .connecting ∨ machine.fsmState = .working ∨ machine.fsmState = .reconnecting

/-- The flag of the connection is set exactly in `WORKING`. -/
def Machine.Flagged (machine : Machine) : Prop :=
  machine.isConnected = true ↔ machine.fsmState = .working

/-- Around a connection there is a configuration. -/
def Machine.Supplied (machine : Machine) : Prop :=
  machine.Active → machine.config ≠ none

/-- What the members of the state machine have to do with each other between two calls. -/
structure Shape (machine : Machine) : Prop where
  connected : machine.isConnected = true ↔ machine.fsmState = .working
  configured : machine.Active → ∃ config, machine.config = some config
  running : machine.Active → machine.isRunning = true
  resting : machine.fsmState = .init → machine.isRunning = false

/-! ### One outcome -/

section Outcomes

variable {before after : Machine} {input : Input} {event : FsmEventData} {effects : List Effect}

theorem Machine.Flagged.not_connected (flagged : before.Flagged)
    (state : before.fsmState ≠ .working) : before.isConnected = false := by
  rw [← Bool.not_eq_true]
  exact fun connected => state (flagged.mp connected)

theorem Shape.not_connected (shape : Shape before) (state : before.fsmState ≠ .working) :
    before.isConnected = false :=
  Machine.Flagged.not_connected shape.connected state

theorem Shape.supplied (shape : Shape before) : before.Supplied := by
  intro active
  obtain ⟨config, configured⟩ := shape.configured active
  simp [configured]

/-- A machine that tries or has a connection has a configuration. -/
theorem Shape.not_missing (shape : Shape before)
    (state : before.fsmState = .connecting ∨ before.fsmState = .working) :
    before.config ≠ none :=
  shape.supplied (state.imp_right Or.inl)

/-- A machine that reaches a state without a connection. -/
theorem Shape.of_rest {machine : Machine} (disconnected : machine.isConnected = false)
    (state : machine.fsmState = .stopped ∨ machine.fsmState = .init ∧ machine.isRunning = false) :
    Shape machine := by
  constructor
  · rcases state with stopped | ⟨init, _⟩ <;> simp [*]
  · rcases state with stopped | ⟨init, _⟩ <;> simp [Machine.Active, *]
  · rcases state with stopped | ⟨init, _⟩ <;> simp [Machine.Active, *]
  · rcases state with stopped | ⟨init, stopped⟩ <;> simp [*]

/-- A machine that tries a connection or waits for the next. -/
theorem Shape.of_try {machine : Machine} (disconnected : machine.isConnected = false)
    (state : machine.fsmState = .connecting ∨ machine.fsmState = .reconnecting)
    (running : machine.isRunning = true) {config : WebSocketConfig}
    (configured : machine.config = some config) : Shape machine := by
  constructor
  · rcases state with state | state <;> simp [disconnected, state]
  · exact fun _ => ⟨config, configured⟩
  · exact fun _ => running
  · rcases state with state | state <;> simp [state]

theorem Machine.Flagged.cleared (flagged : before.Flagged) :
    (cleared before).1.isConnected = false := by
  unfold Client.cleared
  split
  · rfl
  · rename_i elsewhere
    exact flagged.not_connected fun working => elsewhere (Or.inr working)

theorem cleared_disconnected (shape : Shape before) :
    (cleared before).1.isConnected = false :=
  Machine.Flagged.cleared shape.connected

theorem Shape.attempted (disconnected : before.isConnected = false) {config : WebSocketConfig}
    (configured : before.config = some config) (event : FsmEventData) (input : Input) :
    Shape (Client.attempted event input before).1 := by
  unfold Client.attempted
  split
  · exact .of_try disconnected (Or.inl rfl) rfl configured
  · exact .of_rest disconnected (Or.inl rfl)

theorem Handled.shape (handled : Handled before input event after effects)
    (shape : Shape before) : Shape after := by
  cases handled with
  | ignored event branch => exact shape
  | message text attempt state => exact shape
  | stored config callback state =>
    exact .of_rest (shape.not_connected (by simp [state])) (Or.inr ⟨state, shape.resting state⟩)
  | unconfigured callback state missing =>
    refine .of_rest (shape.not_connected ?_) (Or.inl rfl)
    rcases state with state | state <;> simp [state]
  | connects callback state config configured =>
    refine .attempted (shape.not_connected ?_) configured _ _
    rcases state with state | state <;> simp [state]
  | deconfigured callback state => exact .of_rest (cleared_disconnected shape) (Or.inl rfl)
  | reconfigured config callback state =>
    have disconnected : { (cleared before).1 with
        config := some config, reconnectAttempt := 0 : Machine }.isConnected = false :=
      cleared_disconnected shape
    exact .attempted disconnected rfl _ _
  | opened statusCode attempt state =>
    obtain ⟨config, configured⟩ := shape.configured (Or.inl state)
    exact ⟨by simp, fun _ => ⟨config, configured⟩, fun _ => rfl, by simp⟩
  | lost report attempt errors closeEvent ends state config configured =>
    unfold afterLoss
    split
    · exact .of_try rfl (Or.inr rfl) rfl configured
    · exact .of_rest rfl (Or.inr ⟨rfl, rfl⟩)
  | undefined report attempt effects state missing =>
    exact absurd missing (shape.not_missing state)
  | disconnected callback state => exact .of_rest rfl (Or.inr ⟨rfl, rfl⟩)
  | abandoned callback state =>
    exact .of_rest (shape.not_connected (by simp [state])) (Or.inr ⟨rfl, rfl⟩)

theorem Timed.shape (timed : Timed before input after effects) (shape : Shape before)
    (disconnected : before.isConnected = false) : Shape after := by
  cases timed with
  | missing unset => exact .of_rest disconnected (Or.inl rfl)
  | finished config configured ended => exact .of_rest disconnected (Or.inr ⟨rfl, rfl⟩)
  | waiting config configured enabled left early => exact shape
  | started config configured due answer =>
    exact .of_try disconnected (Or.inl rfl) rfl configured
  | failed config configured due answer => exact .of_rest disconnected (Or.inl rfl)

/-- A switch in `RECONNECTING` does not connect. -/
theorem Handled.disconnected_of_reconnecting (handled : Handled before input event after effects)
    (shape : Shape before) (state : before.fsmState = .reconnecting) :
    after.isConnected = false := by
  have disconnected := shape.not_connected (by simp [state])
  cases handled with
  | connects callback elsewhere => simp [state] at elsewhere
  | deconfigured callback => exact cleared_disconnected shape
  | reconfigured config callback =>
    unfold attempted
    split <;> exact cleared_disconnected shape
  | opened statusCode attempt elsewhere => simp [state] at elsewhere
  | lost report attempt errors closeEvent ends elsewhere => simp [state] at elsewhere
  | undefined report attempt effects elsewhere => simp [state] at elsewhere
  | disconnected callback elsewhere => simp [state] at elsewhere
  | _ => exact disconnected

theorem Timed.connected (timed : Timed before input after effects) :
    after.isConnected = before.isConnected := by
  cases timed <;> rfl

/-! ### The events of the user -/

@[simp]
theorem opensAndCloses_append (log effects : List Effect) :
    opensAndCloses (log ++ effects) = opensAndCloses log ++ opensAndCloses effects :=
  List.filterMap_append

/-- The event that tells the user of the flag. -/
def announcement (connected : Bool) : WebSocketEventType :=
  if connected then .wsOpen else .wsClose

/-- The entries tell the user of a change of the flag, and of nothing else. -/
def Announces (before after : Machine) (effects : List Effect) : Prop :=
  opensAndCloses effects =
    if after.isConnected = before.isConnected then [] else [announcement after.isConnected]

theorem opensAndCloses_settlement (event : FsmEventData) (success : Bool) :
    opensAndCloses (settlement event success) = [] := by
  cases event <;> rfl

theorem opensAndCloses_closing (connected : Bool) {event : WebSocketEventData}
    (close : event.eventType = .wsClose) :
    opensAndCloses (closing connected event) = if connected then [.wsClose] else [] := by
  unfold closing
  split
  · simp [opensAndCloses, close]
  · rfl

theorem opensAndCloses_attempted (event : FsmEventData) (input : Input) (machine : Machine) :
    opensAndCloses (attempted event input machine).2 = [] := by
  unfold attempted
  split
  · exact opensAndCloses_settlement event true
  · exact opensAndCloses_settlement event false

theorem attempted_connected (event : FsmEventData) (input : Input) (machine : Machine) :
    (attempted event input machine).1.isConnected = machine.isConnected := by
  unfold attempted
  split <;> rfl

/-- What is given up for a new configuration is announced. -/
theorem cleared_announces (flagged : before.Flagged) :
    opensAndCloses (cleared before).2 = if before.isConnected then [.wsClose] else [] := by
  unfold cleared
  split
  · exact opensAndCloses_closing before.isConnected rfl
  · rename_i elsewhere
    rw [flagged.not_connected fun working => elsewhere (Or.inr working)]
    rfl

theorem announces_disconnect (disconnected : after.isConnected = false)
    (told : opensAndCloses effects = if before.isConnected then [.wsClose] else []) :
    Announces before after effects := by
  rw [Announces, told, disconnected]
  cases before.isConnected <;> rfl

theorem afterLoss_connected (input : Input) (machine : Machine) (config : WebSocketConfig) :
    (afterLoss input machine config).isConnected = false := by
  unfold afterLoss
  split <;> rfl

theorem Handled.announces (handled : Handled before input event after effects)
    (flagged : before.Flagged) (supplied : before.Supplied) : Announces before after effects := by
  cases handled with
  | ignored event branch =>
    rw [Announces, if_pos rfl]
    exact opensAndCloses_settlement event false
  | message text attempt state => rw [Announces, if_pos rfl]; rfl
  | stored config callback state => rw [Announces, if_pos rfl]; rfl
  | unconfigured callback state missing => rw [Announces, if_pos rfl]; rfl
  | connects callback state config configured =>
    rw [Announces, attempted_connected, if_pos rfl]
    exact opensAndCloses_attempted _ _ _
  | deconfigured callback state =>
    refine announces_disconnect flagged.cleared ?_
    rw [opensAndCloses_append, cleared_announces flagged]
    exact List.append_nil _
  | reconfigured config callback state =>
    refine announces_disconnect ?_ ?_
    · rw [attempted_connected]
      exact flagged.cleared
    · rw [opensAndCloses_append, cleared_announces flagged, opensAndCloses_attempted,
        List.append_nil]
  | opened statusCode attempt state =>
    rw [Announces, flagged.not_connected (by simp [state])]
    rfl
  | lost report attempt errors closeEvent ends state config configured =>
    obtain ⟨close, reported⟩ := ends_cases ends
    have quiet : opensAndCloses errors = [] := by
      rcases reported with rfl | ⟨errorCode, rfl⟩ <;> rfl
    refine announces_disconnect (afterLoss_connected _ _ _) ?_
    rw [opensAndCloses_append, quiet, List.nil_append]
    exact opensAndCloses_closing before.isConnected close
  | undefined report attempt effects state missing =>
    exact absurd missing (supplied (state.imp_right Or.inl))
  | disconnected callback state =>
    refine announces_disconnect rfl ?_
    rw [opensAndCloses_append]
    exact (List.append_nil _).trans (opensAndCloses_closing before.isConnected rfl)
  | abandoned callback state => rw [Announces, if_pos rfl]; rfl

theorem Timed.announces (timed : Timed before input after effects) :
    Announces before after effects := by
  cases timed <;> · rw [Announces, if_pos rfl]; rfl

end Outcomes

/-! ### Whole runs -/

/-- The events alternate, and the last of them tells of the flag. -/
structure Tells (log : List Effect) (connected : Bool) : Prop where
  alternate : Alternate (opensAndCloses log)
  last : ((WebSocketEventType.wsClose :: opensAndCloses log).getLast?) =
    some (announcement connected)

/-- The client and what its user has seen of it agree. -/
structure Agrees (client : Client) : Prop where
  shape : Shape client.toMachine
  alternate : Alternate (opensAndCloses client.log)
  last : ((WebSocketEventType.wsClose :: opensAndCloses client.log).getLast?) =
    some (announcement client.isConnected)

theorem announcement_injective {left right : Bool}
    (same : announcement left = announcement right) : left = right := by
  cases left <;> cases right <;> simp [announcement] at same ⊢

/-- The log grows by entries that announce the change of the flag. -/
theorem Tells.extend {log effects : List Effect} {before after : Machine}
    (tells : Tells log before.isConnected) (announces : Announces before after effects) :
    Tells (log ++ effects) after.isConnected := by
  constructor
  · rw [opensAndCloses_append, announces]
    split
    · rw [List.append_nil]
      exact tells.alternate
    · rename_i changed
      unfold Alternate
      rw [← List.cons_append]
      refine List.IsChain.append tells.alternate (List.isChain_singleton _) ?_
      intro last member fresh head
      rw [tells.last, Option.mem_some_iff] at member
      rw [List.head?_cons, Option.mem_some_iff] at head
      rw [← member, ← head]
      exact fun same => changed (announcement_injective same).symm
  · rw [opensAndCloses_append, announces]
    split
    · rename_i same
      rw [List.append_nil, tells.last, same]
    · rw [← List.cons_append, List.getLast?_concat]

/-- The client is connected exactly when the last of the events was an open event. -/
theorem Tells.connected_iff {log : List Effect} {connected : Bool} (tells : Tells log connected) :
    connected = true ↔ (opensAndCloses log).getLast? = some .wsOpen := by
  have last := tells.last
  cases events : opensAndCloses log with
  | nil =>
    rw [events] at last
    cases connected with
    | false => simp
    | true => simp [announcement] at last
  | cons first rest =>
    rw [events, List.getLast?_cons_cons] at last
    rw [last]
    cases connected <;> simp [announcement]

namespace Agrees

variable {client next : Client} {effects : List Effect}

/-- The log grows by entries that announce the change of the flag. -/
theorem extend (agrees : Agrees client) (shape : Shape next.toMachine)
    (log : next.log = client.log ++ effects)
    (announces : Announces client.toMachine next.toMachine effects) : Agrees next := by
  have told : Tells (client.log ++ effects) next.isConnected :=
    Tells.extend ⟨agrees.alternate, agrees.last⟩ announces
  rw [← log] at told
  exact ⟨shape, told.alternate, told.last⟩

theorem pop (agrees : Agrees client) (event : FsmEventData) (rest : List FsmEventData) :
    Agrees (client.popEvent event rest) :=
  agrees.extend agrees.shape rfl (by rw [Announces, popEvent_machine, if_pos rfl]; rfl)

theorem switch (agrees : Agrees client) (event : FsmEventData) (input : Input) :
    Agrees (client.switch event input) := by
  obtain ⟨effects, log, handled⟩ := (client.switch_does event input).outcome
  exact agrees.extend (handled.shape agrees.shape) log
    (handled.announces agrees.shape.connected agrees.shape.supplied)

/-- What every switch on a popped event and the timer preserve of a client that agrees with its
user is preserved by the call. The timer finds the client disconnected. -/
theorem induction (agrees : Agrees client) (input : Input) (invariant : Client → Prop)
    (start : invariant client)
    (handled : ∀ current event rest, Agrees current → invariant current →
      current.fsmState = client.fsmState → current.fsmEventQueue = event :: rest →
      event ∈ client.poppedEvents → invariant ((current.popEvent event rest).switch event input))
    (timed : ∀ current, client.fsmState = .reconnecting → Agrees current →
      current.isConnected = false → invariant current →
      invariant (current.reconnectTimer input)) :
    Agrees (client.processFsmState input) ∧ invariant (client.processFsmState input) := by
  refine (Client.processFsmState_induction (fun current => (Agrees current ∧ invariant current) ∧
    (client.fsmState = .reconnecting → current.isConnected = false)) ?_ ?_ ?_).1
  · exact ⟨⟨agrees, start⟩, fun state => agrees.shape.not_connected (by simp [state])⟩
  · rintro current event rest ⟨⟨holds, met⟩, _⟩ sameState queue member
    refine ⟨⟨(holds.pop event rest).switch event input,
      handled current event rest holds met sameState queue member⟩, fun state => ?_⟩
    obtain ⟨effects, _, outcome⟩ := ((current.popEvent event rest).switch_does event input).outcome
    exact outcome.disconnected_of_reconnecting holds.shape (sameState.trans state)
  · rintro current state ⟨⟨holds, met⟩, disconnected⟩
    obtain ⟨_, effects, log, outcome⟩ := current.reconnectTimer_does input
    refine ⟨⟨holds.extend (outcome.shape holds.shape (disconnected state)) log
      outcome.announces, timed current state holds (disconnected state) met⟩, fun _ => ?_⟩
    rw [outcome.connected]
    exact disconnected state

theorem processFsmState (agrees : Agrees client) (input : Input) :
    Agrees (client.processFsmState input) :=
  (agrees.induction input (fun _ => True) trivial (fun _ _ _ _ _ _ _ _ => trivial)
    fun _ _ _ _ _ => trivial).1

end Agrees

theorem opensAndCloses_of_sends {effects : List Effect}
    (sends : ∀ effect ∈ effects, effect.OfSend) : opensAndCloses effects = [] := by
  refine List.filterMap_eq_nil_iff.mpr fun effect member => ?_
  have send := sends effect member
  cases effect with
  | delivered event => exact send.elim
  | _ => rfl

/-- In every reachable world the client and its user agree. -/
theorem client_agrees {world : ClientWorld} (reachable : clientSystem.Reachable world) :
    Agrees world.client := by
  refine reachable.induction (fun world => Agrees world.client) ?_ ?_
  · exact ⟨.of_rest rfl (Or.inr ⟨rfl, rfl⟩), List.isChain_singleton _, rfl⟩
  · intro before action after _ agrees stepped
    cases fsmStep_of_step stepped with
    | tick input _ given same => exact same ▸ agrees.processFsmState input
    | push event next machine queue log origin =>
      refine agrees.extend (machine ▸ agrees.shape) (log.trans (List.append_nil _).symm) ?_
      rw [Announces, machine, if_pos rfl]
      rfl
    | aside next machine queue effects log sends =>
      refine agrees.extend (machine ▸ agrees.shape) log ?_
      rw [Announces, machine, if_pos rfl]
      exact opensAndCloses_of_sends sends

/-- A property of the machine and of what the log tells about it holds in every state of a run
exactly when every call of `process_fsm_state` is spared a trouble: without the trouble a call
preserves the property, and the trouble breaks it. -/
theorem spared_iff {property : Client → Prop} {trouble : Client → Input → Prop}
    (base : property {})
    (frame : ∀ client next effects, next.toMachine = client.toMachine →
      next.log = client.log ++ effects → (∀ effect ∈ effects, effect.OfSend) →
      property client → property next)
    (preserved : ∀ client input, Agrees client → property client → ¬ trouble client input →
      property (client.processFsmState input))
    (broken : ∀ client input, trouble client input → ¬ property (client.processFsmState input))
    {actions : List ClientAction} {finish : ClientWorld}
    (runs : clientSystem.Runs clientSystem.init actions finish) :
    (∀ before after world, actions = before ++ after →
      clientSystem.Runs clientSystem.init before world → property world.client) ↔
    clientSystem.Throughout (Spared trouble) clientSystem.init actions := by
  constructor
  · intro every
    by_contra troubled
    obtain ⟨before, action, after, world, next, rfl, first, met, stepped, _⟩ :=
      runs.exists_violation troubled
    simp only [Spared, not_forall, not_not] at met
    obtain ⟨input, given, happens⟩ := met
    have reached : clientSystem.Runs clientSystem.init (before ++ [action]) next :=
      System.runs_append.mpr ⟨world, first,
        System.runs_cons.mpr ⟨next, stepped, System.runs_nil.mpr rfl⟩⟩
    have holds := every (before ++ [action]) after next (by simp) reached
    rw [client_of_tick stepped given] at holds
    exact broken world.client input happens holds
  · rintro spared before after world rfl reached
    refine reached.induction_throughout spared.of_append (fun world => property world.client)
      System.reachable_init base ?_
    intro state action next reachable apart holds stepped
    cases fsmStep_of_step stepped with
    | tick input _ given same =>
      rw [same]
      exact preserved _ input (client_agrees reachable) holds (apart input given)
    | push event _ machine queue log origin =>
      exact frame _ _ [] machine (by rw [log, List.append_nil]) (by simp) holds
    | aside _ machine queue effects log sends => exact frame _ _ effects machine log sends holds

/-- One call of `process` that finds no message to send. -/
def processOnce (input : Input) : List ClientAction :=
  [.callProcess input, .processMessageQueue fun _ => {}, .send, .processSendCallbackQueue]

/-- A client is given a configuration and begins its first attempt. -/
def connectWith (config : WebSocketConfig) : List ClientAction :=
  List.flatten [[.setConfig (some config) true, .connect true], processOnce {}, processOnce {}]

/-- The attempt of a client succeeds. -/
def openAttempt (attempt : ℕ) : List ClientAction :=
  .report (.connectionOpened 101) attempt :: processOnce {}

/-- A connection is opened and lost at five seconds, and the client waits to reconnect. -/
def openedAndLost : List ClientAction :=
  List.flatten [connectWith {}, openAttempt 1, [.report (.connectionClosed "bye" 1000) 1],
    processOnce { now := 5000000000 }]

end Kurlyk.WebSocket
