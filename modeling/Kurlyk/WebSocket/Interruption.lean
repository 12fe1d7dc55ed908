/-
This file says what a call of `process_fsm_state` leaves when a function of the
user does not return to it. `Interrupted` lists the places where a switch calls the
user, with the members as they are there and the entries written so far, as
`Handled` lists the ends of the switch; `TimerInterrupted` does so for the reconnect
timer. At all of these places the state is still that before the switch: it is
written last.

What other threads do meanwhile leaves the state machine and its entries alone, so
that each block is specified by how far it has come since the switch began.
-/

import Kurlyk.WebSocket.Callbacks

namespace Kurlyk.WebSocket

open Client

/-! ### The state machine and the other threads -/

/-- What the state machine has written to the log. -/
def fsmLog (log : List Effect) : List Effect :=
  log.filter fun effect => ¬ effect.OfSend

@[simp]
theorem fsmLog_append (log effects : List Effect) :
    fsmLog (log ++ effects) = fsmLog log ++ fsmLog effects :=
  List.filter_append ..

theorem fsmLog_of_sends {effects : List Effect} (sends : ∀ effect ∈ effects, effect.OfSend) :
    fsmLog effects = [] := by
  refine List.filter_eq_nil_iff.mpr fun effect member => ?_
  simpa using sends effect member

/-- What is picked out of the log, and is no entry of a send, is picked out of this part of it. -/
theorem filterMap_fsmLog {Seen : Type} {seen : Effect → Option Seen}
    (unseen : ∀ effect, effect.OfSend → seen effect = none) (log : List Effect) :
    (fsmLog log).filterMap seen = log.filterMap seen := by
  rw [fsmLog, List.filterMap_filter]
  refine List.filterMap_congr fun effect _ => ?_
  by_cases send : effect.OfSend
  · simp [send, unseen effect send]
  · simp [send]

theorem fsmLog_settlement (event : FsmEventData) (success : Bool) :
    fsmLog (settlement event success) = settlement event success := by
  cases event <;> rfl

/-- Nobody has touched the state machine and what it has written. -/
structure Untouched (before after : Client) : Prop where
  machine : after.toMachine = before.toMachine
  log : fsmLog after.log = fsmLog before.log

theorem Untouched.trans {first second third : Client} (quiet : Untouched first second)
    (later : Untouched second third) : Untouched first third :=
  ⟨later.machine.trans quiet.machine, later.log.trans quiet.log⟩

theorem Untouched.refl (client : Client) : Untouched client client :=
  ⟨rfl, rfl⟩

/-! ### The places where a switch calls the user -/

/-- What a request finds when its configuration is known and nothing has been told yet: an old
connection is given up, and a new configuration stored. -/
inductive Prepared (before : Machine) : FsmEventData → Machine → List Effect → Prop where
  | connect (callback : Option ℕ) (state : before.fsmState = .init ∨ before.fsmState = .stopped) :
      Prepared before (.requestConnect callback) before []
  | deconfigured (callback : Option ℕ) (state : before.fsmState ≠ .init) :
      Prepared before (.updateConfig none callback) { (cleared before).1 with config := none }
        (cleared before).2
  | reconfigured (config : WebSocketConfig) (callback : Option ℕ)
      (state : before.fsmState ≠ .init) :
      Prepared before (.updateConfig (some config) callback)
        { (cleared before).1 with config := some config, reconnectAttempt := 0 } (cleared before).2

/-- The places where the switch of a state calls the user: the members there and the entries
written so far, that of the call included. -/
inductive Interrupted (before : Machine) :
    FsmEventData → Callback → Machine → List Effect → Prop where
  | ignored (event : FsmEventData) (branch : TakesDefault before.fsmState event) :
      Interrupted before event (.completion event false) before (settlement event false)
  | message (text : String) (attempt : ℕ)
      (state : before.fsmState = .working ∨ before.fsmState = .reconnecting) :
      Interrupted before (.backend (.messageReceived text) attempt)
        (.handler (some (.backend (.messageReceived text) attempt))
          (createWebsocketMessageEvent text))
        before [.delivered (createWebsocketMessageEvent text)]
  | stored (config : Option WebSocketConfig) (callback : Option ℕ)
      (state : before.fsmState = .init) :
      Interrupted before (.updateConfig config callback)
        (.completion (.updateConfig config callback) config.isSome) { before with config }
        [.settled (.updateConfig config callback) config.isSome]
  | told {event : FsmEventData} {machine : Machine} {effects tried : List Effect}
      (prepared : Prepared before event machine effects)
      (tries : tried = [] ∨ tried = [.initWebsocket false]) :
      Interrupted before event
        (.handler (some event) (createWebsocketErrorEvent .invalidConfiguration)) machine
        (effects ++ tried ++ [invalidConfiguration])
  | refused {event : FsmEventData} {machine : Machine} {effects tried : List Effect}
      (prepared : Prepared before event machine effects)
      (tries : tried = [] ∨ tried = [.initWebsocket false]) :
      Interrupted before event (.completion event false) machine
        (effects ++ tried ++ [invalidConfiguration] ++ settlement event false)
  | accepted {event : FsmEventData} {machine : Machine} {effects : List Effect}
      (prepared : Prepared before event machine effects) :
      Interrupted before event (.completion event true) { machine with isRunning := true }
        (effects ++ [.initWebsocket true] ++ settlement event true)
  | opened (statusCode : ℤ) (attempt : ℕ) (state : before.fsmState = .connecting)
      (disconnected : before.isConnected = false) :
      Interrupted before (.backend (.connectionOpened statusCode) attempt)
        (.handler (some (.backend (.connectionOpened statusCode) attempt))
          (createWebsocketOpenEvent statusCode))
        { before with isConnected := true } [.delivered (createWebsocketOpenEvent statusCode)]
  | reported (errorCode : ErrorCode) (attempt : ℕ)
      (state : before.fsmState = .connecting ∨ before.fsmState = .working) :
      Interrupted before (.backend (.connectionError errorCode) attempt)
        (.handler (some (.backend (.connectionError errorCode) attempt))
          (createWebsocketErrorEvent errorCode))
        before [.delivered (createWebsocketErrorEvent errorCode)]
  | lost (report : BackendEvent) (attempt : ℕ) (errors : List Effect)
      (closeEvent : WebSocketEventData) (ends : Ends report = some (errors, closeEvent))
      (state : before.fsmState = .connecting ∨ before.fsmState = .working)
      (connected : before.isConnected = true) :
      Interrupted before (.backend report attempt)
        (.handler (some (.backend report attempt)) closeEvent)
        { before with isConnected := false }
        (errors ++ [.deinitWebsocket] ++ [.delivered closeEvent])
  | closed (event : FsmEventData)
      (state : before.fsmState = .connecting ∨ before.fsmState = .working)
      (connected : before.isConnected = true) :
      Interrupted before event (.handler (some event) normalClosure)
        { before with isConnected := false } ([.deinitWebsocket] ++ [.delivered normalClosure])
  | disconnected (callback : Option ℕ)
      (state : before.fsmState = .connecting ∨ before.fsmState = .working) :
      Interrupted before (.requestDisconnect callback)
        (.completion (.requestDisconnect callback) true)
        { before with isConnected := false, reconnectAttempt := 0, isRunning := false }
        ([.deinitWebsocket] ++ closing before.isConnected normalClosure ++
          [.settled (.requestDisconnect callback) true])
  | abandoned (callback : Option ℕ) (state : before.fsmState = .reconnecting) :
      Interrupted before (.requestDisconnect callback)
        (.completion (.requestDisconnect callback) true) { before with isRunning := false }
        [.settled (.requestDisconnect callback) true]

/-- The place where the reconnect timer calls the user. -/
inductive TimerInterrupted (before : Machine) : Callback → Machine → List Effect → Prop where
  | told (tried : List Effect) (tries : tried = [] ∨ tried = [.initWebsocket false]) :
      TimerInterrupted before (.handler none (createWebsocketErrorEvent .invalidConfiguration))
        before (tried ++ [invalidConfiguration])

/-- A client that has come this far since the switch began. -/
structure Reached (start : Client) (machine : Machine) (effects : List Effect)
    (client : Client) : Prop where
  machine : client.toMachine = machine
  log : fsmLog client.log = fsmLog start.log ++ effects

namespace Reached

variable {start client next : Client} {machine : Machine} {effects : List Effect}

theorem refl (start : Client) : Reached start start.toMachine [] start :=
  ⟨rfl, (List.append_nil _).symm⟩

theorem quiet (reached : Reached start machine effects client) (quiet : Untouched client next) :
    Reached start machine effects next :=
  ⟨quiet.machine.trans reached.machine, quiet.log.trans reached.log⟩

/-- The members are written. -/
theorem write (reached : Reached start machine effects client) (change : Machine → Machine)
    (changed : next.toMachine = change client.toMachine) (log : next.log = client.log) :
    Reached start (change machine) effects next :=
  ⟨changed.trans (congrArg change reached.machine), by rw [log, reached.log]⟩

/-- Entries are appended. -/
theorem append (reached : Reached start machine effects client) (more : List Effect)
    (same : next.toMachine = client.toMachine) (log : next.log = client.log ++ more)
    (own : fsmLog more = more) : Reached start machine (effects ++ more) next :=
  ⟨same.trans reached.machine, by rw [log, fsmLog_append, reached.log, own, List.append_assoc]⟩

end Reached

/-- The client is at a place where the switch calls the user. -/
def Interrupts (start : Client) (event : FsmEventData) (callback : Callback)
    (client : Client) : Prop :=
  ∃ effects, fsmLog client.log = fsmLog start.log ++ effects ∧
    Interrupted start.toMachine event callback client.toMachine effects

/-- The client is at an end of the switch. -/
def Handles (start : Client) (input : Input) (event : FsmEventData) (client : Client) : Prop :=
  ∃ effects, fsmLog client.log = fsmLog start.log ++ effects ∧
    Handled start.toMachine input event client.toMachine effects

theorem Interrupted.interrupts {start client : Client} {event : FsmEventData}
    {callback : Callback} {machine : Machine} {effects : List Effect}
    (interrupted : Interrupted start.toMachine event callback machine effects)
    (reached : Reached start machine effects client) : Interrupts start event callback client :=
  ⟨effects, reached.log, reached.machine ▸ interrupted⟩

theorem Handled.handles {start client : Client} {input : Input} {event : FsmEventData}
    {machine : Machine} {effects : List Effect}
    (handled : Handled start.toMachine input event machine effects)
    (reached : Reached start machine effects client) : Handles start input event client :=
  ⟨effects, reached.log, reached.machine ▸ handled⟩

/-! ### The blocks -/

namespace Block

section Blocks

variable {start client : Client} {machine : Machine} {effects : List Effect}
  {during : Callback → Client → Prop} {post : Unit → Client → Prop}

theorem deliver_meets (reached : Reached start machine effects client)
    (cause : Option FsmEventData) (data : WebSocketEventData)
    (place : ∀ returned, Reached start machine (effects ++ [.delivered data]) returned →
      during (.handler cause data) returned)
    (after : ∀ returned, Reached start machine (effects ++ [.delivered data]) returned →
      post () returned) :
    (deliver cause data client).Meets Untouched during post := by
  have told : Reached start machine (effects ++ [.delivered data]) (client.deliver data) :=
    reached.append _ (deliver_machine _ _) (deliver_log _ _) rfl
  simp only [deliver, Routine.meets_bind, Routine.meets_get, Routine.meets_modify]
  split
  · exact fun returned quiet =>
      ⟨place returned (told.quiet quiet), after returned (told.quiet quiet)⟩
  · exact after _ told

theorem settle_meets (reached : Reached start machine effects client) (event : FsmEventData)
    (success : Bool)
    (place : ∀ returned, Reached start machine (effects ++ settlement event success) returned →
      during (.completion event success) returned)
    (after : ∀ returned, Reached start machine (effects ++ settlement event success) returned →
      post () returned) :
    (settle event success client).Meets Untouched during post := by
  have settled : Reached start machine (effects ++ settlement event success)
      (client.settle event success) :=
    reached.append _ (settle_machine _ _ _) (settle_log _ _ _) (fsmLog_settlement _ _)
  simp only [settle, Routine.meets_bind, Routine.meets_modify]
  split
  · exact fun returned quiet =>
      ⟨place returned (settled.quiet quiet), after returned (settled.quiet quiet)⟩
  · exact after _ settled

theorem handleCloseEvent_meets (reached : Reached start machine effects client)
    (event : FsmEventData) (given : Option WebSocketEventData)
    (place : ∀ returned, machine.isConnected = true →
      Reached start { machine with isConnected := false }
        (effects ++ [.delivered (given.getD normalClosure)]) returned →
      during (.handler (some event) (given.getD normalClosure)) returned)
    (after : ∀ returned, Reached start { machine with isConnected := false }
        (effects ++ closing machine.isConnected (given.getD normalClosure)) returned →
      post () returned) :
    (handleCloseEvent event given client).Meets Untouched during post := by
  have same : client.isConnected = machine.isConnected :=
    congrArg Machine.isConnected reached.machine
  simp only [handleCloseEvent, Routine.meets_bind, Routine.meets_get]
  split
  · rename_i connected
    rw [same] at connected
    have closed : Reached start { machine with isConnected := false } effects
        { client with isConnected := false } :=
      reached.write (fun machine => { machine with isConnected := false }) rfl rfl
    simp only [Routine.meets_bind, Routine.meets_modify]
    refine deliver_meets closed _ _ (fun returned => place returned connected) fun returned told =>
      after returned ?_
    rw [closing, if_pos connected]
    exact told
  · rename_i disconnected
    rw [same, Bool.not_eq_true] at disconnected
    refine after client ?_
    rw [closing, disconnected, if_neg Bool.false_ne_true, List.append_nil, ← disconnected]
    exact reached

end Blocks

section Requests

variable {start client : Client} {machine : Machine} {effects tried : List Effect}
  {event : FsmEventData} {post : Unit → Client → Prop}

theorem refuse_meets (prepared : Prepared start.toMachine event machine effects)
    (tries : tried = [] ∨ tried = [.initWebsocket false])
    (reached : Reached start machine (effects ++ tried) client)
    (after : ∀ returned, Reached start { machine with fsmState := .stopped }
        (effects ++ tried ++ [invalidConfiguration] ++ settlement event false) returned →
      post () returned) :
    (refuse event client).Meets Untouched (Interrupts start event) post := by
  simp only [refuse, handleErrorEvent, Routine.meets_bind]
  refine deliver_meets reached _ _ (fun _ => (Interrupted.told prepared tries).interrupts)
    fun noted told => ?_
  refine settle_meets told event false (fun _ => (Interrupted.refused prepared tries).interrupts)
    fun returned settled => ?_
  exact after _ (settled.write (fun machine => { machine with fsmState := .stopped }) rfl rfl)

theorem startAttempt_meets (input : Input)
    (prepared : Prepared start.toMachine event machine effects)
    (reached : Reached start machine effects client) {config : WebSocketConfig}
    (configured : machine.config = some config)
    (after : ∀ returned, Reached start (attempted event input machine).1
        (effects ++ (attempted event input machine).2) returned → post () returned) :
    (startAttempt event input client).Meets Untouched (Interrupts start event) post := by
  have present : client.config = some config :=
    (congrArg Machine.config reached.machine).trans configured
  have tried : Reached start machine (effects ++ [.initWebsocket input.init])
      (client.initWebsocket input.init) := reached.append _ rfl rfl rfl
  unfold attempted at after
  simp only [startAttempt, initWebsocket, Routine.meets_bind, Routine.meets_modify, present]
  split
  · rename_i started
    rw [started] at tried ⊢
    rw [if_pos started] at after
    have running : Reached start { machine with isRunning := true }
        (effects ++ [.initWebsocket true])
        { client.initWebsocket true with isRunning := true } :=
      tried.write (fun machine => { machine with isRunning := true }) rfl rfl
    simp only [Routine.meets_bind, Routine.meets_modify]
    refine settle_meets running event true (fun _ => (Interrupted.accepted prepared).interrupts)
      fun returned settled => ?_
    refine after { returned with fsmState := .connecting } ?_
    have ended : Reached start { machine with isRunning := true, fsmState := .connecting }
        (effects ++ [.initWebsocket true] ++ settlement event true)
        { returned with fsmState := .connecting } :=
      settled.write (fun machine => { machine with fsmState := .connecting }) rfl rfl
    rwa [List.append_assoc] at ended
  · rename_i failed
    rw [Bool.not_eq_true] at failed
    rw [failed] at tried ⊢
    rw [failed, if_neg Bool.false_ne_true] at after
    refine refuse_meets prepared (Or.inr rfl) tried fun returned ended => after returned ?_
    rwa [List.append_assoc, List.append_assoc] at ended

end Requests

section Switches

variable {start : Client} {input : Input} {event : FsmEventData}

/-- A specification of the switch, or of a block that ends it. -/
def Serves (start : Client) (input : Input) (event : FsmEventData)
    (course : Course Callback Client Unit) : Prop :=
  course.Meets Untouched (Interrupts start event) fun _ client => Handles start input event client

theorem requestConnect_serves (callback : Option ℕ)
    (state : start.fsmState = .init ∨ start.fsmState = .stopped) :
    Serves start input (.requestConnect callback)
      (requestConnect (.requestConnect callback) input start) := by
  have prepared : Prepared start.toMachine (.requestConnect callback) start.toMachine [] :=
    .connect callback state
  simp only [Serves, requestConnect, Routine.meets_bind, Routine.meets_get]
  cases configured : start.config with
  | none =>
    refine refuse_meets prepared (Or.inl rfl) (Reached.refl start) fun returned => ?_
    exact (Handled.unconfigured callback state configured).handles
  | some config =>
    refine startAttempt_meets input prepared (Reached.refl start) configured fun returned => ?_
    exact (Handled.connects callback state config configured).handles

theorem reconfigure_serves {client : Client} (state : start.fsmState ≠ .init)
    (config : Option WebSocketConfig) (callback : Option ℕ)
    (reached : Reached start (cleared start.toMachine).1 (cleared start.toMachine).2 client) :
    Serves start input (.updateConfig config callback)
      (reconfigure (.updateConfig config callback) config input client) := by
  cases config with
  | none =>
    have stored : Reached start { (cleared start.toMachine).1 with config := none }
        (cleared start.toMachine).2 { client with config := none } :=
      reached.write (fun machine => { machine with config := none }) rfl rfl
    rw [← List.append_nil (cleared start.toMachine).2] at stored
    simp only [Serves, reconfigure, Routine.meets_bind, Routine.meets_modify]
    refine refuse_meets (.deconfigured callback state) (Or.inl rfl) stored fun returned ended => ?_
    rw [List.append_nil, List.append_assoc] at ended
    exact (Handled.deconfigured callback state).handles ended
  | some config =>
    have stored : Reached start
        { (cleared start.toMachine).1 with config := some config, reconnectAttempt := 0 }
        (cleared start.toMachine).2
        { client.applyConfig config input with reconnectAttempt := 0 } :=
      reached.write (fun machine => { machine with config := some config, reconnectAttempt := 0 })
        rfl rfl
    simp only [Serves, reconfigure, Routine.meets_bind, Routine.meets_modify]
    exact startAttempt_meets input (.reconfigured config callback state) stored rfl
      fun returned => (Handled.reconfigured config callback state).handles

/-- The connection is given up, and the user told of it, before anything else happens. -/
theorem giveUp_meets {post : Unit → Client → Prop}
    (state : start.fsmState = .connecting ∨ start.fsmState = .working)
    (after : ∀ returned, Reached start { start.toMachine with isConnected := false }
      ([.deinitWebsocket] ++ closing start.isConnected normalClosure) returned → post () returned) :
    (handleCloseEvent event none start.deinitWebsocket).Meets Untouched (Interrupts start event)
      post := by
  have gone : Reached start start.toMachine [.deinitWebsocket] start.deinitWebsocket :=
    (Reached.refl start).append [.deinitWebsocket] rfl rfl rfl
  exact handleCloseEvent_meets gone event none
    (fun _ connected => (Interrupted.closed event state connected).interrupts) after

theorem disconnect_serves (callback : Option ℕ)
    (state : start.fsmState = .connecting ∨ start.fsmState = .working) :
    Serves start input (.requestDisconnect callback)
      (disconnect (.requestDisconnect callback) start) := by
  simp only [Serves, disconnect, Routine.meets_bind, Routine.meets_modify]
  refine giveUp_meets state fun closed told => ?_
  have cleared : Reached start
      { start.toMachine with isConnected := false, reconnectAttempt := 0, isRunning := false }
      ([.deinitWebsocket] ++ closing start.isConnected normalClosure)
      { closed with reconnectAttempt := 0, isRunning := false } :=
    told.write (fun machine => { machine with reconnectAttempt := 0, isRunning := false }) rfl rfl
  refine settle_meets cleared _ _
    (fun _ => (Interrupted.disconnected callback state).interrupts) fun returned settled => ?_
  exact (Handled.disconnected callback state).handles
    (settled.write (fun machine => { machine with fsmState := .init }) rfl rfl)

theorem replaceConfig_serves (config : Option WebSocketConfig) (callback : Option ℕ)
    (state : start.fsmState = .connecting ∨ start.fsmState = .working) :
    Serves start input (.updateConfig config callback)
      (replaceConfig (.updateConfig config callback) config input start) := by
  have elsewhere : start.fsmState ≠ .init := by rcases state with state | state <;> simp [state]
  simp only [Serves, replaceConfig, Routine.meets_bind, Routine.meets_modify]
  refine giveUp_meets state fun closed told => ?_
  refine reconfigure_serves elsewhere config callback ?_
  rw [cleared, if_pos state]
  exact told

theorem loseConnection_serves {client : Client} {report : BackendEvent} (attempt : ℕ)
    {errors : List Effect} {closeEvent : WebSocketEventData}
    (ends : Ends report = some (errors, closeEvent))
    (state : start.fsmState = .connecting ∨ start.fsmState = .working)
    (reached : Reached start start.toMachine errors client) :
    Serves start input (.backend report attempt)
      (loseConnection (.backend report attempt) closeEvent input client) := by
  have gone : Reached start start.toMachine (errors ++ [.deinitWebsocket]) client.deinitWebsocket :=
    reached.append [.deinitWebsocket] rfl rfl rfl
  simp only [Serves, loseConnection, Routine.meets_bind, Routine.meets_modify]
  refine handleCloseEvent_meets gone _ _
    (fun _ connected => (Interrupted.lost report attempt errors closeEvent ends state
      connected).interrupts) fun closed told => ?_
  have config : closed.config = start.config := by rw [told.machine]
  cases configured : start.config with
  | none =>
    rw [config, configured]
    have read := told.append [.nullConfig] (emit_machine closed .nullConfig) rfl rfl
    exact (Handled.undefined report attempt _ state configured).handles read
  | some given =>
    have log : fsmLog closed.log = fsmLog start.log ++
        (errors ++ .deinitWebsocket :: closing start.isConnected closeEvent) := by
      rw [told.log, List.append_assoc errors]
      rfl
    refine (Handled.lost report attempt errors closeEvent ends state given configured).handles ?_
    rw [config, configured]
    unfold afterLoss
    dsimp only
    split
    · exact ⟨by simp [told.machine, configured], log⟩
    · exact ⟨by simp [told.machine, configured], log⟩

theorem settle_serves (branch : TakesDefault start.fsmState event) :
    Serves start input event (settle event false start) :=
  settle_meets (Reached.refl start) event false
    (fun _ => (Interrupted.ignored event branch).interrupts)
    fun _ => (Handled.ignored event branch).handles

theorem message_serves (text : String) (attempt : ℕ)
    (state : start.fsmState = .working ∨ start.fsmState = .reconnecting) :
    Serves start input (.backend (.messageReceived text) attempt)
      (handleMessageEvent (.backend (.messageReceived text) attempt) text start) :=
  deliver_meets (Reached.refl start) _ _
    (fun _ => (Interrupted.message text attempt state).interrupts)
    fun _ => (Handled.message text attempt state).handles

theorem error_serves (errorCode : ErrorCode) (attempt : ℕ)
    (state : start.fsmState = .connecting ∨ start.fsmState = .working) :
    Serves start input (.backend (.connectionError errorCode) attempt)
      ((do
        handleErrorEvent (some (.backend (.connectionError errorCode) attempt)) errorCode
        loseConnection (.backend (.connectionError errorCode) attempt)
          (createWebsocketCloseEvent "Going Away" 1001) input : Block Unit) start) := by
  simp only [Serves, Routine.meets_bind]
  exact deliver_meets (Reached.refl start) _ _
    (fun _ => (Interrupted.reported errorCode attempt state).interrupts)
    fun _ => loseConnection_serves attempt rfl state

theorem opened_serves (statusCode : ℤ) (attempt : ℕ) (state : start.fsmState = .connecting) :
    Serves start input (.backend (.connectionOpened statusCode) attempt)
      (switchConnecting (.backend (.connectionOpened statusCode) attempt) input start) := by
  have ended : ∀ returned, Reached start { start.toMachine with isConnected := true }
      (if start.isConnected then [] else [.delivered (createWebsocketOpenEvent statusCode)])
        returned →
      Handles start input (.backend (.connectionOpened statusCode) attempt)
        { returned with reconnectAttempt := 0, isRunning := true, fsmState := .working } :=
    fun _ told => (Handled.opened statusCode attempt state).handles (told.write
      (fun machine => { machine with
        reconnectAttempt := 0, isRunning := true, fsmState := .working }) rfl rfl)
  simp only [Serves, switchConnecting, handleOpenEvent, Routine.meets_bind, Routine.meets_get]
  split
  · rename_i connected
    refine ended start ?_
    rw [if_pos connected]
    exact ⟨by simp [← connected], (List.append_nil _).symm⟩
  · rename_i disconnected
    rw [if_neg disconnected] at ended
    rw [Bool.not_eq_true] at disconnected
    have flagged : Reached start { start.toMachine with isConnected := true } []
        { start with isConnected := true } := ⟨rfl, (List.append_nil _).symm⟩
    simp only [Routine.meets_bind, Routine.meets_modify]
    exact deliver_meets flagged _ _
      (fun _ => (Interrupted.opened statusCode attempt state disconnected).interrupts) ended

theorem stored_serves (config : Option WebSocketConfig) (callback : Option ℕ)
    (state : start.fsmState = .init) :
    Serves start input (.updateConfig config callback)
      (switchInit (.updateConfig config callback) input start) := by
  have place := Interrupted.stored config callback state
  have ended : Handled start.toMachine input _ _ _ := .stored config callback state
  cases config with
  | none =>
    have written : Reached start { start.toMachine with config := none } []
        { start with config := none } := ⟨rfl, (List.append_nil _).symm⟩
    simp only [Serves, switchInit, Routine.meets_bind, Routine.meets_modify]
    exact settle_meets written _ _ (fun _ => place.interrupts) fun _ => ended.handles
  | some config =>
    have written : Reached start { start.toMachine with config := some config } []
        (start.applyConfig config input) := ⟨rfl, (List.append_nil _).symm⟩
    simp only [Serves, switchInit, Routine.meets_bind, Routine.meets_modify]
    exact settle_meets written _ _ (fun _ => place.interrupts) fun _ => ended.handles

theorem abandoned_serves (callback : Option ℕ) (state : start.fsmState = .reconnecting) :
    Serves start input (.requestDisconnect callback)
      (switchReconnecting (.requestDisconnect callback) input start) := by
  have written : Reached start { start.toMachine with isRunning := false } []
      { start with isRunning := false } := ⟨rfl, (List.append_nil _).symm⟩
  simp only [Serves, switchReconnecting, Routine.meets_bind, Routine.meets_modify]
  refine settle_meets written _ _ (fun _ => (Interrupted.abandoned callback state).interrupts)
    fun returned settled => ?_
  exact (Handled.abandoned callback state).handles
    (settled.write (fun machine => { machine with fsmState := .init }) rfl rfl)

/-- Without a connection there is nothing to give up. -/
theorem reconfigure_serves_unattached (config : Option WebSocketConfig) (callback : Option ℕ)
    (state : start.fsmState = .reconnecting ∨ start.fsmState = .stopped) :
    Serves start input (.updateConfig config callback)
      (reconfigure (.updateConfig config callback) config input start) := by
  have elsewhere : start.fsmState ≠ .init := by rcases state with state | state <;> simp [state]
  refine reconfigure_serves elsewhere config callback ?_
  rw [cleared, if_neg (by rcases state with state | state <;> simp [state])]
  exact Reached.refl start

/-- Every switch calls the user at the listed places, and has one of the listed ends. -/
theorem switch_serves (event : FsmEventData) :
    Serves start input event (switch start.fsmState event input start) := by
  cases state : start.fsmState with
  | init =>
    cases event with
    | requestConnect callback => exact requestConnect_serves callback (Or.inl state)
    | updateConfig config callback => exact stored_serves config callback state
    | _ => exact settle_serves (by rw [state]; trivial)
  | connecting =>
    cases event with
    | requestConnect callback => exact settle_serves (by rw [state]; trivial)
    | requestDisconnect callback => exact disconnect_serves callback (Or.inl state)
    | updateConfig config callback => exact replaceConfig_serves config callback (Or.inl state)
    | backend report attempt =>
      cases report with
      | connectionOpened statusCode => exact opened_serves statusCode attempt state
      | connectionClosed reason statusCode =>
        exact loseConnection_serves attempt rfl (Or.inl state) (Reached.refl start)
      | connectionError errorCode => exact error_serves errorCode attempt (Or.inl state)
      | messageReceived text => exact settle_serves (by rw [state]; trivial)
  | working =>
    cases event with
    | requestConnect callback => exact settle_serves (by rw [state]; trivial)
    | requestDisconnect callback => exact disconnect_serves callback (Or.inr state)
    | updateConfig config callback => exact replaceConfig_serves config callback (Or.inr state)
    | backend report attempt =>
      cases report with
      | connectionOpened statusCode => exact settle_serves (by rw [state]; trivial)
      | connectionClosed reason statusCode =>
        exact loseConnection_serves attempt rfl (Or.inr state) (Reached.refl start)
      | connectionError errorCode => exact error_serves errorCode attempt (Or.inr state)
      | messageReceived text => exact message_serves text attempt (Or.inl state)
  | reconnecting =>
    cases event with
    | requestConnect callback => exact settle_serves (by rw [state]; trivial)
    | requestDisconnect callback => exact abandoned_serves callback state
    | updateConfig config callback =>
      exact reconfigure_serves_unattached config callback (Or.inl state)
    | backend report attempt =>
      cases report with
      | messageReceived text => exact message_serves text attempt (Or.inr state)
      | _ => exact settle_serves (by rw [state]; trivial)
  | stopped =>
    cases event with
    | requestConnect callback => exact requestConnect_serves callback (Or.inr state)
    | updateConfig config callback =>
      exact reconfigure_serves_unattached config callback (Or.inr state)
    | _ => exact settle_serves (by rw [state]; trivial)

end Switches

/-- The timer calls the user at the listed place, and has one of the listed ends. -/
theorem reconnectTimer_meets (start : Client) (input : Input) :
    (reconnectTimer input start).Meets Untouched
      (fun callback client => ∃ effects, fsmLog client.log = fsmLog start.log ++ effects ∧
        TimerInterrupted start.toMachine callback client.toMachine effects)
      fun _ client => ∃ effects, fsmLog client.log = fsmLog start.log ++ effects ∧
        Timed start.toMachine input client.toMachine effects := by
  have ended : ∀ {machine effects client}, Timed start.toMachine input machine effects →
      Reached start machine effects client →
      ∃ effects, fsmLog client.log = fsmLog start.log ++ effects ∧
        Timed start.toMachine input client.toMachine effects :=
    fun timed reached => ⟨_, reached.log, reached.machine ▸ timed⟩
  have place : ∀ {tried client}, tried = [] ∨ tried = [Effect.initWebsocket false] →
      Reached start start.toMachine (tried ++ [invalidConfiguration]) client →
      ∃ effects, fsmLog client.log = fsmLog start.log ++ effects ∧
        TimerInterrupted start.toMachine
          (.handler none (createWebsocketErrorEvent .invalidConfiguration)) client.toMachine
          effects :=
    fun tries reached => ⟨_, reached.log, reached.machine ▸ .told _ tries⟩
  simp only [reconnectTimer, Routine.meets_bind, Routine.meets_get]
  cases configured : start.config with
  | none =>
    simp only [handleErrorEvent, Routine.meets_bind]
    refine deliver_meets (Reached.refl start) _ _ (fun _ => place (Or.inl rfl))
      fun returned told => ended (.missing configured) ?_
    exact told.write (fun machine => { machine with fsmState := .stopped }) rfl rfl
  | some config =>
    dsimp only
    split
    · rename_i enabled
      split
      · rename_i exhausted
        exact ended (.finished config configured (Or.inr exhausted)) ⟨rfl, (List.append_nil _).symm⟩
      · rename_i left
        split
        · rename_i elapsed
          have due : Due start.toMachine input config := ⟨enabled, left, elapsed⟩
          have tried : Reached start start.toMachine [.initWebsocket input.timerInit]
              (start.initWebsocket input.timerInit) := (Reached.refl start).append _ rfl rfl rfl
          simp only [Block.initWebsocket, Routine.meets_bind, Routine.meets_modify, configured]
          split
          · rename_i answer
            rw [answer] at tried ⊢
            exact ended (.started config configured due answer) (tried.write
              (fun machine => { machine with isRunning := true, fsmState := .connecting }) rfl rfl)
          · rename_i answer
            rw [Bool.not_eq_true] at answer
            rw [answer] at tried ⊢
            simp only [handleErrorEvent, Routine.meets_bind]
            refine deliver_meets tried _ _ (fun _ => place (Or.inr rfl)) fun returned told =>
              ended (.failed config configured due answer) ?_
            exact told.write (fun machine => { machine with fsmState := .stopped }) rfl rfl
        · rename_i early
          exact ended (.waiting config configured enabled left (Int.not_le.mp early))
            (Reached.refl start)
    · rename_i disabled
      rw [Bool.not_eq_true] at disabled
      exact ended (.finished config configured (Or.inl disabled)) ⟨rfl, (List.append_nil _).symm⟩

end Block

end Kurlyk.WebSocket
