/-
This file asks whose reports a client obeys. The event queue is shared by all
attempts and its events do not say which attempt they belong to, so a report may
wait in the queue while its attempt is given up and another one is begun. The
client then takes it for a report of the new attempt.

A call is misled when it acts on a report of an attempt that is gone, or opens a
connection before the current attempt has reported that it did. These calls are
exactly the ones that move the client on a stale report or show it as connected
without a connection.
-/

import Kurlyk.WebSocket.Attempts
import Kurlyk.WebSocket.Calls

namespace Kurlyk.WebSocket

open Client

/-! ### Reports and their attempts -/

/-- The attempt the client works with: the last one that was begun, while it is live. -/
def currentAttempt (log : List Effect) : Option ℕ :=
  (attempts log).live.getLast?

/-- The report of an attempt that was begun and is no longer live. -/
def Outdated (log : List Effect) : FsmEventData → Prop
  | .backend _ attempt =>
    0 < attempt ∧ attempt ≤ (attempts log).started ∧ attempt ∉ (attempts log).live
  | _ => False

instance (log : List Effect) (event : FsmEventData) : Decidable (Outdated log event) :=
  match event with
  | .backend _ _ => inferInstanceAs (Decidable (_ ∧ _ ∧ _))
  | .requestConnect _ => isFalse id
  | .requestDisconnect _ => isFalse id
  | .updateConfig _ _ => isFalse id

/-- The report moves a client in the given state. -/
def Moves (state : FsmState) : FsmEventData → Prop
  | .backend (.connectionOpened _) _ => state = .connecting
  | .backend (.connectionClosed _ _) _ => state = .connecting ∨ state = .working
  | .backend (.connectionError _) _ => state = .connecting ∨ state = .working
  | _ => False

instance (state : FsmState) (event : FsmEventData) : Decidable (Moves state event) :=
  match event with
  | .backend (.connectionOpened _) _ => inferInstanceAs (Decidable (_ = _))
  | .backend (.connectionClosed _ _) _ => inferInstanceAs (Decidable (_ ∨ _))
  | .backend (.connectionError _) _ => inferInstanceAs (Decidable (_ ∨ _))
  | .backend (.messageReceived _) _ => isFalse id
  | .requestConnect _ => isFalse id
  | .requestDisconnect _ => isFalse id
  | .updateConfig _ _ => isFalse id

/-- The attempt whose connection the event reports as open. -/
def FsmEventData.opensOf : FsmEventData → Option ℕ
  | .backend (.connectionOpened _) attempt => some attempt
  | _ => none

/-- The current attempt has reported that its connection is open. -/
def Client.CurrentOpened (client : Client) : Prop :=
  ∃ attempt ∈ currentAttempt client.log, ∃ event ∈ client.enqueuedEvents,
    event.opensOf = some attempt

instance (client : Client) : Decidable client.CurrentOpened :=
  inferInstanceAs (Decidable (∃ attempt ∈ currentAttempt client.log, _))

/-- The client is connected only if the current attempt has reported so. -/
def Client.KnowsConnection (client : Client) : Prop :=
  client.isConnected = true → client.CurrentOpened

instance (client : Client) : Decidable client.KnowsConnection :=
  inferInstanceAs (Decidable (_ → _))

/-- The state, the flag, the number of reconnects and the current attempt are what they were. -/
def Unmoved (client next : Client) : Prop :=
  next.fsmState = client.fsmState ∧ next.isConnected = client.isConnected ∧
    next.reconnectAttempt = client.reconnectAttempt ∧
    currentAttempt next.log = currentAttempt client.log

instance (client next : Client) : Decidable (Unmoved client next) :=
  inferInstanceAs (Decidable (_ ∧ _ ∧ _ ∧ _))

/-! ### The switches of a call -/

/-- The events of the loop of `WORKING`, each with the client its switch is applied to. -/
def workingSwitches (input : Input) : List FsmEventData → Client → List (Client × FsmEventData)
  | [], _ => []
  | event :: rest, client =>
    let popped := client.popEvent event rest
    (popped, event) ::
      if isMessage event then workingSwitches input rest (popped.switchWorking event input) else []

/-- The events of one call of `process_fsm_state`, each with the client its switch is applied
to. -/
def Client.switches (client : Client) (input : Input) : List (Client × FsmEventData) :=
  match client.fsmState with
  | .working => workingSwitches input client.fsmEventQueue client
  | _ =>
    match client.fsmEventQueue with
    | [] => []
    | event :: rest => [(client.popEvent event rest, event)]

/-- No event of the call moves the client if it belongs to an attempt that is gone. -/
def Client.IgnoresOutdated (client : Client) (input : Input) : Prop :=
  ∀ handled ∈ client.switches input, Outdated handled.1.log handled.2 →
    Unmoved handled.1 (handled.1.switch handled.2 input)

/-- The call acts on a report of an attempt that is gone, or on the news of a connection before
the current attempt has reported one. -/
def Client.Misled (client : Client) (_ : Input) : Prop :=
  ∃ event ∈ client.poppedEvents,
    (Outdated client.log event ∧ Moves client.fsmState event) ∨
      (client.fsmState = .connecting ∧ event.opensOf.isSome ∧ ¬ client.CurrentOpened)

instance (client : Client) (input : Input) : Decidable (client.Misled input) :=
  inferInstanceAs (Decidable (∃ event ∈ client.poppedEvents, _))

/-! ### One switch -/

section Outcomes

variable {before after : Machine} {input : Input} {report : BackendEvent} {attempt : ℕ}
  {effects : List Effect}

/-- A report that does not move the client leaves the machine and the attempts as they are. -/
theorem Handled.same_of_not_moves
    (handled : Handled before input (.backend report attempt) after effects)
    (shape : Shape before) (stays : ¬ Moves before.fsmState (.backend report attempt)) :
    after = before ∧ ∀ counted, effects.foldl Attempts.next counted = counted := by
  cases handled with
  | ignored _ branch => exact ⟨rfl, fun _ => rfl⟩
  | message text _ state => exact ⟨rfl, fun _ => rfl⟩
  | opened statusCode _ state => exact absurd state stays
  | lost _ _ errors closeEvent ends state config configured =>
    cases report with
    | connectionClosed reason statusCode => exact absurd state stays
    | connectionError errorCode => exact absurd state stays
    | connectionOpened statusCode => simp [Ends] at ends
    | messageReceived text => simp [Ends] at ends
  | undefined _ _ effects state missing => exact absurd missing (shape.not_missing state)

/-- No state ignores a report that moves it. -/
theorem Moves.not_default {state : FsmState} {event : FsmEventData} (moves : Moves state event) :
    ¬ TakesDefault state event := by
  intro branch
  cases event with
  | backend report attempt =>
    cases report with
    | connectionOpened statusCode =>
      obtain rfl : state = .connecting := moves
      exact branch
    | connectionClosed reason statusCode =>
      rcases moves with rfl | rfl <;> exact branch
    | connectionError errorCode =>
      rcases moves with rfl | rfl <;> exact branch
    | messageReceived text => exact moves
  | _ => exact moves

/-- A report that moves the client changes its state. -/
theorem Handled.moved (handled : Handled before input (.backend report attempt) after effects)
    (shape : Shape before) (moves : Moves before.fsmState (.backend report attempt)) :
    after.fsmState ≠ before.fsmState := by
  cases handled with
  | ignored _ branch => exact absurd branch moves.not_default
  | message text _ state => exact moves.elim
  | opened statusCode _ state => simp [state]
  | lost _ _ errors closeEvent ends state config configured =>
    unfold afterLoss
    rcases state with state | state <;> split <;> simp [state]
  | undefined _ _ effects state missing => exact absurd missing (shape.not_missing state)

end Outcomes

section Switches

variable {client : Client} {input : Input}

theorem outdated_congr {log other : List Effect} (same : attempts log = attempts other)
    (event : FsmEventData) : Outdated log event ↔ Outdated other event := by
  cases event with
  | backend report attempt => simp only [Outdated, same]
  | _ => exact Iff.rfl

/-- A stale report leaves the client where it is exactly when it does not move its state. -/
theorem unmoved_iff {event : FsmEventData} (agrees : Agrees client)
    (outdated : Outdated client.log event) (input : Input) :
    Unmoved client (client.switch event input) ↔ ¬ Moves client.fsmState event := by
  obtain ⟨effects, log, handled⟩ := (client.switch_does event input).outcome
  cases event with
  | backend report attempt =>
    constructor
    · intro unmoved moves
      exact handled.moved agrees.shape moves unmoved.1
    · intro stays
      obtain ⟨machine, blind⟩ := handled.same_of_not_moves agrees.shape stays
      refine ⟨by rw [machine], by rw [machine], by rw [machine], ?_⟩
      rw [currentAttempt, log, attempts_append, blind]
      rfl
  | _ => exact outdated.elim

/-- What is true of a client when a switch of the call is applied to it. -/
structure During (client : Client) (current : Client) : Prop where
  state : current.fsmState = client.fsmState
  agrees : Agrees current
  attempts : attempts current.log = attempts client.log

theorem During.pop (agrees : Agrees client) (event : FsmEventData) (rest : List FsmEventData) :
    During client (client.popEvent event rest) := by
  refine ⟨rfl, agrees.pop event rest, ?_⟩
  rw [popEvent_log, attempts_append]
  rfl

theorem During.trans {middle current : Client} (first : During client middle)
    (second : During middle current) : During client current :=
  ⟨second.state.trans first.state, second.agrees, second.attempts.trans first.attempts⟩

/-- A message in `WORKING` leaves everything for the next event. -/
theorem During.message {event : FsmEventData} (agrees : Agrees client)
    (state : client.fsmState = .working) (message : isMessage event = true) (input : Input) :
    During client (client.switchWorking event input) := by
  have switched : client.switch event input = client.switchWorking event input := by
    simp [switch, state]
  have next := agrees.switch event input
  obtain ⟨effects, log, handled⟩ := (client.switch_does event input).outcome
  rw [switched] at log handled next
  cases event with
  | backend report attempt =>
    cases report with
    | messageReceived text =>
      obtain ⟨machine, blind⟩ := handled.same_of_not_moves agrees.shape id
      refine ⟨congrArg Machine.fsmState machine, next, ?_⟩
      rw [log, attempts_append, blind]
    | _ => exact absurd message (by simp [isMessage])
  | _ => exact absurd message (by simp [isMessage])

theorem during_of_mem_workingSwitches {events : List FsmEventData} (agrees : Agrees client)
    (state : client.fsmState = .working) {handled : Client × FsmEventData}
    (member : handled ∈ workingSwitches input events client) :
    handled.2 ∈ throughMessages events ∧ During client handled.1 := by
  induction events generalizing client with
  | nil => exact absurd member List.not_mem_nil
  | cons event rest inductionHypothesis =>
    have popped := During.pop agrees event rest
    unfold workingSwitches at member
    unfold throughMessages
    rcases List.mem_cons.mp member with rfl | later
    · refine ⟨?_, popped⟩
      split <;> exact List.mem_cons_self
    · split at later
      · rename_i message
        have next := During.message popped.agrees (popped.state.trans state) message input
        have working := next.state.trans (popped.state.trans state)
        obtain ⟨through, during⟩ := inductionHypothesis next.agrees working later
        rw [if_pos message]
        exact ⟨List.mem_cons_of_mem _ through, popped.trans (next.trans during)⟩
      · exact absurd later List.not_mem_nil

theorem exists_mem_workingSwitches {events : List FsmEventData} {event : FsmEventData}
    (member : event ∈ throughMessages events) (client : Client) (input : Input) :
    ∃ current, (current, event) ∈ workingSwitches input events client := by
  induction events generalizing client with
  | nil => exact absurd member List.not_mem_nil
  | cons head rest inductionHypothesis =>
    unfold throughMessages at member
    unfold workingSwitches
    dsimp only
    split at member
    · rename_i message
      rw [if_pos message]
      rcases List.mem_cons.mp member with rfl | later
      · exact ⟨_, List.mem_cons_self⟩
      · obtain ⟨current, found⟩ := inductionHypothesis later
          ((client.popEvent head rest).switchWorking head input)
        exact ⟨current, List.mem_cons_of_mem _ found⟩
    · obtain rfl := List.mem_singleton.mp member
      exact ⟨_, List.mem_cons_self⟩

theorem switches_of_working (state : client.fsmState = .working) :
    client.switches input = workingSwitches input client.fsmEventQueue client := by
  simp only [Client.switches, state]

theorem switches_of_not_working (state : client.fsmState ≠ .working) :
    client.switches input = match client.fsmEventQueue with
      | [] => []
      | event :: rest => [(client.popEvent event rest, event)] := by
  unfold Client.switches
  split
  · exact absurd ‹_› state
  · rfl

/-- The switches of a call are applied to the popped events, before anything has moved. -/
theorem during_of_mem_switches (agrees : Agrees client) {handled : Client × FsmEventData}
    (member : handled ∈ client.switches input) :
    handled.2 ∈ client.poppedEvents ∧ During client handled.1 := by
  by_cases working : client.fsmState = .working
  · rw [switches_of_working working] at member
    rw [poppedEvents_of_working _ working]
    exact during_of_mem_workingSwitches agrees working member
  · rw [switches_of_not_working working] at member
    rw [poppedEvents_of_not_working _ working]
    split at member
    · exact absurd member List.not_mem_nil
    · rename_i event rest queue
      obtain rfl := List.mem_singleton.mp member
      rw [queue]
      exact ⟨List.mem_singleton_self event, .pop agrees event rest⟩

theorem exists_mem_switches {event : FsmEventData} (member : event ∈ client.poppedEvents)
    (input : Input) : ∃ current, (current, event) ∈ client.switches input := by
  by_cases working : client.fsmState = .working
  · rw [poppedEvents_of_working _ working] at member
    rw [switches_of_working working]
    exact exists_mem_workingSwitches member client input
  · rw [poppedEvents_of_not_working _ working] at member
    rw [switches_of_not_working working]
    cases queue : client.fsmEventQueue with
    | nil => simp [queue] at member
    | cons head rest =>
      rw [queue] at member
      obtain rfl := List.mem_singleton.mp member
      exact ⟨_, List.mem_singleton_self _⟩

/-- A call ignores stale reports exactly when it pops none that moves the client. -/
theorem ignoresOutdated_iff (agrees : Agrees client) :
    client.IgnoresOutdated input ↔
      ∀ event ∈ client.poppedEvents, Outdated client.log event →
        ¬ Moves client.fsmState event := by
  constructor
  · intro ignores event member outdated
    obtain ⟨current, found⟩ := exists_mem_switches member input
    obtain ⟨_, during⟩ := during_of_mem_switches agrees found
    have stale := (outdated_congr during.attempts event).mpr outdated
    rw [← during.state]
    exact (unmoved_iff during.agrees stale input).mp (ignores _ found stale)
  · intro stays handled found stale
    obtain ⟨member, during⟩ := during_of_mem_switches agrees found
    refine (unmoved_iff during.agrees stale input).mpr ?_
    rw [during.state]
    exact stays _ member ((outdated_congr during.attempts _).mp stale)

end Switches

/-! ### Whether the current attempt is open -/

section Openings

variable {client next : Client} {input : Input} {event : FsmEventData}
  {before after : Machine} {effects : List Effect}

/-- The current attempt stays open while the attempts and the enqueued events stay the same or
more. -/
theorem CurrentOpened.mono (opened : client.CurrentOpened)
    (same : attempts next.log = attempts client.log)
    (more : ∀ event ∈ client.enqueuedEvents, event ∈ next.enqueuedEvents) :
    next.CurrentOpened := by
  obtain ⟨attempt, current, event, member, opens⟩ := opened
  refine ⟨attempt, ?_, event, more event member, opens⟩
  rwa [currentAttempt, same]

/-- After a switch the client is connected only if it has just opened the connection, or was
connected and has not touched its attempts. -/
theorem Handled.connected_cases (handled : Handled before input event after effects)
    (shape : Shape before) (connected : after.isConnected = true) :
    (before.fsmState = .connecting ∧ event.opensOf.isSome = true ∧
      ∀ counted, effects.foldl Attempts.next counted = counted) ∨
    (before.isConnected = true ∧ ∀ counted, effects.foldl Attempts.next counted = counted) := by
  cases handled with
  | ignored event branch => exact Or.inr ⟨connected, fun _ => by simp⟩
  | message text attempt state => exact Or.inr ⟨connected, fun _ => rfl⟩
  | stored config callback state => exact Or.inr ⟨connected, fun _ => rfl⟩
  | unconfigured callback state missing => exact Or.inr ⟨connected, fun _ => rfl⟩
  | connects callback state config configured =>
    rw [attempted_connected, shape.not_connected] at connected
    · cases connected
    · rcases state with state | state <;> simp [state]
  | deconfigured callback state =>
    exact absurd connected (by simpa using cleared_disconnected shape)
  | reconfigured config callback state =>
    rw [attempted_connected] at connected
    exact absurd connected (by simpa using cleared_disconnected shape)
  | opened statusCode attempt state =>
    refine Or.inl ⟨state, rfl, fun _ => ?_⟩
    split <;> rfl
  | lost report attempt errors closeEvent ends state config configured =>
    rw [afterLoss_connected] at connected
    cases connected
  | undefined report attempt effects state missing => cases connected
  | disconnected callback state => cases connected
  | abandoned callback state => exact Or.inr ⟨connected, fun _ => rfl⟩

/-- A switch keeps the client from being connected without a connection, unless it opens one
before the current attempt has. -/
theorem knowsConnection_switch (agrees : Agrees client) (knows : client.KnowsConnection)
    {rest : List FsmEventData} (queue : client.fsmEventQueue = event :: rest)
    (apart : client.fsmState = .connecting → event.opensOf.isSome = true →
      client.CurrentOpened) :
    ((client.popEvent event rest).switch event input).KnowsConnection := by
  intro connected
  have popped := agrees.pop event rest
  obtain ⟨effects, log, handled⟩ := ((client.popEvent event rest).switch_does event input).outcome
  have opened : client.CurrentOpened ∧
      ∀ counted, effects.foldl Attempts.next counted = counted := by
    rcases handled.connected_cases popped.shape connected with
      ⟨connecting, opens, blind⟩ | ⟨already, blind⟩
    · exact ⟨apart connecting opens, blind⟩
    · exact ⟨knows already, blind⟩
  refine CurrentOpened.mono opened.1 ?_ ?_
  · rw [log, attempts_append, opened.2]
    exact (During.pop agrees event rest).attempts
  · intro later member
    rw [enqueuedEvents_switch popped, enqueuedEvents_pop queue]
    exact member

theorem knowsConnection_of_disconnected (disconnected : client.isConnected = false) :
    client.KnowsConnection := by
  intro connected
  rw [disconnected] at connected
  cases connected

theorem knowsConnection_processFsmState (agrees : Agrees client) (knows : client.KnowsConnection)
    (apart : ¬ client.Misled input) : (client.processFsmState input).KnowsConnection := by
  by_cases connecting : client.fsmState = .connecting
  · rw [processFsmState_of_plain _ _ (by simp [connecting]) (by simp [connecting])]
    split
    · exact knows
    · rename_i event rest queue
      refine knowsConnection_switch agrees knows queue fun _ opens => ?_
      by_contra closed
      refine apart ⟨event, ?_, Or.inr ⟨connecting, opens, closed⟩⟩
      rw [poppedEvents_of_not_working _ (by simp [connecting]), queue]
      exact List.mem_singleton_self event
  · refine (agrees.induction input Client.KnowsConnection knows ?_ ?_).2
    · intro current event rest holds known sameState queue _
      have elsewhere : current.fsmState ≠ .connecting := sameState.trans_ne connecting
      exact knowsConnection_switch holds known queue fun state => absurd state elsewhere
    · intro current _ _ disconnected _
      obtain ⟨_, effects, _, timed⟩ := current.reconnectTimer_does input
      exact knowsConnection_of_disconnected (timed.connected.trans disconnected)

/-- A connection that is opened before the current attempt has reported it. -/
theorem not_knowsConnection (agrees : Agrees client) {rest : List FsmEventData}
    (connecting : client.fsmState = .connecting) (queue : client.fsmEventQueue = event :: rest)
    (opens : event.opensOf.isSome = true) (closed : ¬ client.CurrentOpened) (input : Input) :
    ¬ (client.processFsmState input).KnowsConnection := by
  have popped := agrees.pop event rest
  have enqueued : ((client.popEvent event rest).switch event input).enqueuedEvents =
      client.enqueuedEvents :=
    (enqueuedEvents_switch popped event input).trans (enqueuedEvents_pop queue)
  obtain ⟨effects, log, handled⟩ := ((client.popEvent event rest).switch_does event input).outcome
  rw [processFsmState_of_plain _ _ (by simp [connecting]) (by simp [connecting]), queue]
  dsimp only
  intro knows
  have opened : ((client.popEvent event rest).switch event input).isConnected = true := by
    cases event with
    | backend report attempt =>
      cases report with
      | connectionOpened statusCode => simp [switch, switchConnecting, connecting]
      | _ => cases opens
    | _ => cases opens
  have same : attempts ((client.popEvent event rest).switch event input).log =
      attempts client.log := by
    rw [log, attempts_append, ← (During.pop agrees event rest).attempts]
    rcases handled.connected_cases popped.shape opened with ⟨_, _, blind⟩ | ⟨_, blind⟩ <;>
      exact blind _
  refine closed (CurrentOpened.mono (knows opened) same.symm ?_)
  intro later member
  rwa [← enqueued]

end Openings

/-! ### Whole runs -/

/-- Over every run of a client, with its requests and the reports of the backend in any order:
no report of an attempt that is gone moves the client, and the client is connected only if the
current attempt itself has reported so, if and only if no call of `process_fsm_state` is
misled. -/
theorem stale_reports_ignored_iff {actions : List ClientAction} {finish : ClientWorld}
    (runs : clientSystem.Runs clientSystem.init actions finish) :
    (clientSystem.Throughout (fun world action => ∀ input ∈ action.input?,
        world.client.IgnoresOutdated input) clientSystem.init actions ∧
      ∀ before after world, actions = before ++ after →
        clientSystem.Runs clientSystem.init before world → world.client.KnowsConnection) ↔
    clientSystem.Throughout (Spared Client.Misled) clientSystem.init actions := by
  constructor
  · rintro ⟨ignores, knows⟩
    by_contra troubled
    obtain ⟨before, action, after, world, next, rfl, first, met, stepped, _⟩ :=
      runs.exists_violation troubled
    simp only [Spared, not_forall, not_not] at met
    obtain ⟨input, given, event, member, cause⟩ := met
    have agrees := client_agrees ⟨before, first⟩
    rcases cause with ⟨outdated, moves⟩ | ⟨connecting, opens, closed⟩
    · exact (ignoresOutdated_iff agrees).mp (ignores.here first input given) event member
        outdated moves
    · have reached : clientSystem.Runs clientSystem.init (before ++ [action]) next :=
        System.runs_append.mpr ⟨world, first,
          System.runs_cons.mpr ⟨next, stepped, System.runs_nil.mpr rfl⟩⟩
      have known := knows (before ++ [action]) after next (by simp) reached
      rw [client_of_tick stepped given] at known
      rw [poppedEvents_of_not_working _ (by simp [connecting])] at member
      obtain ⟨rest, queue⟩ : ∃ rest, world.client.fsmEventQueue = event :: rest := by
        cases queue : world.client.fsmEventQueue with
        | nil => simp [queue] at member
        | cons head rest =>
          rw [queue] at member
          exact ⟨rest, by rw [List.mem_singleton.mp member]⟩
      exact not_knowsConnection agrees connecting queue opens closed input known
  · intro spared
    refine ⟨spared.imp System.reachable_init ?_, ?_⟩
    · intro world action reachable apart input given
      refine (ignoresOutdated_iff (client_agrees reachable)).mpr fun event member outdated moves => ?_
      exact apart input given ⟨event, member, Or.inl ⟨outdated, moves⟩⟩
    · rintro before after world rfl reached
      refine reached.induction_throughout spared.of_append
        (fun world => world.client.KnowsConnection) System.reachable_init (by decide) ?_
      intro state action next reachable apart knows stepped
      cases fsmStep_of_step stepped with
      | tick input _ given same =>
        rw [same]
        exact knowsConnection_processFsmState (client_agrees reachable) knows (apart input given)
      | push event _ machine queue log origin =>
        intro connected
        rw [machine] at connected
        refine CurrentOpened.mono (knows connected) (by rw [log]) fun later member => ?_
        rw [Client.enqueuedEvents, log, queue, ← List.append_assoc]
        exact List.mem_append_left _ member
      | aside _ machine queue effects log sends =>
        intro connected
        rw [machine] at connected
        have attempts := (congrArg attempts log).trans (attempts_append_of_sends _ sends)
        refine CurrentOpened.mono (knows connected) attempts fun later member => ?_
        rw [enqueuedEvents_of_silent queue log (poppedOf_of_sends sends)]
        exact member

/-- The backend reports of an attempt only while the attempt is live. -/
def Truthful (world : ClientWorld) : ClientAction → Prop
  | .report _ attempt => attempt ∈ (attempts world.client.log).live
  | _ => True

instance (world : ClientWorld) (action : ClientAction) : Decidable (Truthful world action) :=
  match action with
  | .report _ attempt => inferInstanceAs (Decidable (attempt ∈ (attempts world.client.log).live))
  | .setConfig _ _ | .connect _ | .disconnect _ | .setEventHandler _ | .receiveEvents
  | .receiveEvent | .submitMessage _ _ _ | .submitClose _ _ _ | .enqueue _ | .finishSend _ _
  | .callProcess _ | .processMessageQueue _ | .send | .processSendCallbackQueue | .callShutdown
  | .loopShutdown _ | .returnShutdown => isTrue trivial

instance (client : Client) (input : Input) : Decidable (client.IgnoresOutdated input) :=
  inferInstanceAs (Decidable (∀ handled ∈ client.switches input, _))

/-- A connection is closed with an error. The error is popped while the client waits to
reconnect, and the next attempt succeeds. -/
def lostAndFound : List ClientAction :=
  List.flatten [connectWith {}, openAttempt 1,
    [.report (.connectionClosed "bye" 1000) 1, .report (.connectionError (.backend 104)) 1],
    processOnce { now := 5000000000 }, processOnce { now := 6000000000 },
    processOnce { now := 10000000000 }, openAttempt 2]

theorem stale_reports_ignored_iff_lostAndFound :
    ∃ world, clientSystem.Runs clientSystem.init lostAndFound world ∧
      clientSystem.Throughout Truthful clientSystem.init lostAndFound ∧
      world.client.isConnected = true ∧ currentAttempt world.client.log = some 2 ∧
      world.client.CurrentOpened := by
  have evaluated : (clientSystem.run clientSystem.init lostAndFound).any (fun world =>
      decide (world.client.isConnected = true ∧ currentAttempt world.client.log = some 2)) =
        true := by decide +kernel
  have truthful : clientSystem.Throughout Truthful clientSystem.init lostAndFound := by
    decide +kernel
  have spared : clientSystem.Throughout (Spared Client.Misled) clientSystem.init lostAndFound := by
    decide +kernel
  obtain ⟨world, runs, checked⟩ := System.exists_runs evaluated
  obtain ⟨connected, current⟩ := of_decide_eq_true checked
  have knows := ((stale_reports_ignored_iff runs).mpr spared).2 lostAndFound [] world
    (by simp) runs
  exact ⟨world, runs, truthful, connected, current, knows connected⟩

/-- A client that is connecting is given another configuration, and its backend reports the
connection before the worker takes the configuration. -/
def reconfiguredInTime : List ClientAction :=
  List.flatten [connectWith {},
    [.setConfig (some { reconnectDelay := 1 }) true, .report (.connectionOpened 101) 1],
    processOnce {}]

/-- The report of the first attempt is popped when the second is under way: the client becomes
connected, although the second attempt has reported nothing. -/
theorem opened_by_stale_report :
    clientSystem.Throughout Truthful clientSystem.init (reconfiguredInTime ++ processOnce {}) ∧
    (∃ world, clientSystem.Runs clientSystem.init reconfiguredInTime world ∧
      world.client.fsmState = .connecting ∧ currentAttempt world.client.log = some 2 ∧
      ¬ world.client.IgnoresOutdated {}) ∧
    ∃ world, clientSystem.Runs clientSystem.init (reconfiguredInTime ++ processOnce {}) world ∧
      world.client.isConnected = true ∧ currentAttempt world.client.log = some 2 ∧
      ¬ world.client.CurrentOpened := by
  refine ⟨by decide +kernel, ?_, ?_⟩
  · have evaluated : (clientSystem.run clientSystem.init reconfiguredInTime).any (fun world =>
        decide (world.client.fsmState = .connecting ∧ currentAttempt world.client.log = some 2 ∧
          ¬ world.client.IgnoresOutdated {})) = true := by decide +kernel
    obtain ⟨world, runs, checked⟩ := System.exists_runs evaluated
    exact ⟨world, runs, of_decide_eq_true checked⟩
  · have evaluated : (clientSystem.run clientSystem.init
        (reconfiguredInTime ++ processOnce {})).any (fun world =>
        decide (world.client.isConnected = true ∧ currentAttempt world.client.log = some 2 ∧
          ¬ world.client.CurrentOpened)) = true := by decide +kernel
    obtain ⟨world, runs, checked⟩ := System.exists_runs evaluated
    exact ⟨world, runs, of_decide_eq_true checked⟩

end Kurlyk.WebSocket
