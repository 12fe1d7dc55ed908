/-
This file is about when the user receives messages. A message event that the
backend has queued behind the end of its connection is not dropped: the state
`RECONNECTING` has a case for it and passes it on. In every other state a message
is delivered only while the connection is open for the user, and in `INIT`,
`CONNECTING` and `STOPPED` it is dropped.
-/

import Kurlyk.WebSocket.Connection

namespace Kurlyk.WebSocket

open Client

/-- The user has received an open event and no close event since. -/
def OpenForUser (log : List Effect) : Prop :=
  (opensAndCloses log).getLast? = some .wsOpen

instance (log : List Effect) : Decidable (OpenForUser log) :=
  inferInstanceAs (Decidable (_ = _))

/-- The entry delivers a message to the user. -/
def Effect.isMessage : Effect → Bool
  | .delivered event => event.eventType == .wsMessage
  | _ => false

/-! ### One outcome -/

section Outcomes

variable {before after : Machine} {input : Input} {event : FsmEventData} {effects : List Effect}
  {effect : Effect}

@[simp]
theorem messages_settlement (success : Bool) :
    (settlement event success).filter Effect.isMessage = [] := by
  cases event <;> rfl

@[simp]
theorem messages_invalidConfiguration (rest : List Effect) :
    (invalidConfiguration :: rest).filter Effect.isMessage = rest.filter Effect.isMessage :=
  List.filter_cons_of_neg (by decide)

theorem messages_closing (connected : Bool) {closeEvent : WebSocketEventData}
    (close : closeEvent.eventType = .wsClose) :
    (closing connected closeEvent).filter Effect.isMessage = [] := by
  cases connected <;> simp [closing, Effect.isMessage, close]

@[simp]
theorem messages_cleared : (cleared before).2.filter Effect.isMessage = [] := by
  unfold cleared
  split
  · exact messages_closing _ rfl
  · rfl

@[simp]
theorem messages_attempted : (attempted event input before).2.filter Effect.isMessage = [] := by
  unfold attempted
  split <;> simp [Effect.isMessage]

/-- A switch delivers a message only in `WORKING` and `RECONNECTING`, and nothing else with it. -/
theorem Handled.messages (handled : Handled before input event after effects)
    (shape : Shape before) :
    effects.filter Effect.isMessage = [] ∨
      (∃ data, effects = [.delivered data]) ∧
        (before.fsmState = .working ∨ before.fsmState = .reconnecting) := by
  cases handled with
  | message text attempt state => exact Or.inr ⟨⟨_, rfl⟩, state⟩
  | opened statusCode attempt state =>
    left
    split <;> rfl
  | lost report attempt errors closeEvent ends state config configured =>
    obtain ⟨close, reported⟩ := ends_cases ends
    left
    rcases reported with rfl | ⟨errorCode, rfl⟩
    · exact messages_closing _ close
    · exact messages_closing _ close
  | undefined report attempt effects state missing =>
    exact absurd missing (shape.not_missing state)
  | disconnected callback state =>
    left
    rw [List.filter_append, List.filter_cons_of_neg (by decide), messages_closing _ rfl]
    rfl
  | _ => simp [Effect.isMessage]

theorem Timed.messages (timed : Timed before input after effects) :
    effects.filter Effect.isMessage = [] := by
  cases timed <;> rfl

end Outcomes

/-! ### One call -/

section Calls

variable {client next : Client} {effects : List Effect}

/-- The log is extended by a call of `process_fsm_state`. -/
theorem log_prefix_processFsmState (client : Client) (input : Input) :
    client.log <+: (client.processFsmState input).log := by
  refine processFsmState_induction (fun current => client.log <+: current.log) List.prefix_rfl ?_ ?_
  · intro current event rest extends' _ _ _
    obtain ⟨effects, log, _⟩ := ((current.popEvent event rest).switch_does event input).outcome
    rw [log, popEvent_log, List.append_assoc]
    exact extends'.trans (List.prefix_append _ _)
  · intro current _ extends'
    obtain ⟨_, effects, log, _⟩ := current.reconnectTimer_does input
    rw [log]
    exact extends'.trans (List.prefix_append _ _)

theorem log_prefix_of_step {world after : ClientWorld} {action : ClientAction}
    (stepped : world.step action = some after) : world.client.log <+: after.client.log := by
  cases fsmStep_of_step stepped with
  | tick input _ given same => exact same ▸ log_prefix_processFsmState world.client input
  | push event _ machine queue log origin => rw [log]
  | aside _ machine queue effects log sends =>
    rw [log]
    exact List.prefix_append _ _

/-- The messages among the entries from a length of the log on were delivered while the
connection was open for the user. -/
def OpenFrom (length : ℕ) (log : List Effect) : Prop :=
  ∀ before effect after, log = before ++ effect :: after → effect.isMessage = true →
    length ≤ before.length → OpenForUser before

theorem OpenFrom.append {length : ℕ} {log : List Effect} (opened : OpenFrom length log)
    (quiet : effects.filter Effect.isMessage = []) : OpenFrom length (log ++ effects) := by
  intro before effect after split isMessage later
  rcases Log.split_append split with ⟨earlier, old⟩ | ⟨middle, _, member⟩
  · exact opened before effect earlier old isMessage later
  · exact absurd isMessage (List.filter_eq_nil_iff.mp quiet effect member)

theorem OpenFrom.concat {length : ℕ} {log : List Effect} (opened : OpenFrom length log)
    (user : OpenForUser log) (effect : Effect) : OpenFrom length (log ++ [effect]) := by
  intro before entry after split isMessage later
  rcases Log.concat_eq_append_cons_iff.mp split with ⟨_, rfl, rfl⟩ | ⟨earlier, _, old⟩
  · exact user
  · exact opened before entry earlier old isMessage later

/-- In `WORKING` the connection is open for the user. -/
theorem Agrees.openForUser (agrees : Agrees client) (state : client.fsmState = .working) :
    OpenForUser client.log := by
  have connected := agrees.shape.connected.mpr state
  have last := agrees.last
  rw [connected] at last
  unfold OpenForUser
  cases events : opensAndCloses client.log with
  | nil =>
    rw [events] at last
    simp [announcement] at last
  | cons first rest =>
    rw [events, List.getLast?_cons_cons] at last
    exact last

/-- Outside `RECONNECTING` a call delivers messages only while the connection is open. -/
theorem openFrom_processFsmState (agrees : Agrees client) (input : Input)
    (state : client.fsmState ≠ .reconnecting) :
    OpenFrom client.log.length (client.processFsmState input).log := by
  refine (agrees.induction input (fun current => OpenFrom client.log.length current.log)
    ?_ ?_ ?_).2
  · intro before effect after split _ later
    have equal := congrArg List.length split
    rw [List.length_append, List.length_cons] at equal
    omega
  · intro current event rest holds opened sameState _ _
    have popped : OpenFrom client.log.length (current.popEvent event rest).log :=
      opened.append (by rfl)
    obtain ⟨effects, log, handled⟩ :=
      ((current.popEvent event rest).switch_does event input).outcome
    rw [log]
    rcases handled.messages holds.shape with quiet | ⟨⟨data, rfl⟩, delivering⟩
    · exact popped.append quiet
    · have working : current.fsmState = .working :=
        delivering.resolve_right fun waiting => state (sameState.symm.trans waiting)
      exact popped.concat ((holds.pop event rest).openForUser working) _
  · intro current waiting
    exact absurd waiting state

end Calls

/-- In every run, a message is delivered only while the connection is open for the user, or by a
call of `process_fsm_state` that finds the client in `RECONNECTING`. -/
theorem message_open_or_reconnecting {actions : List ClientAction} {finish : ClientWorld}
    (runs : clientSystem.Runs clientSystem.init actions finish) {before after : List Effect}
    {event : WebSocketEventData}
    (delivered : finish.client.log = before ++ .delivered event :: after)
    (message : event.eventType = .wsMessage) :
    OpenForUser before ∨
      ∃ earlier action later world next input, actions = earlier ++ action :: later ∧
        clientSystem.Runs clientSystem.init earlier world ∧
        clientSystem.step world action = some next ∧ action.input? = some input ∧
        world.client.fsmState = .reconnecting ∧ world.client.log <+: before ∧
        ∃ rest, next.client.log = before ++ .delivered event :: rest := by
  have grows : ∀ state action next, clientSystem.step state action = some next →
      state.client.log <+: next.client.log := fun _ _ _ => log_prefix_of_step
  obtain ⟨earlier, action, later, world, next, split, first, stepped, held, rest, added⟩ :=
    runs.exists_appending grows delivered (Nat.zero_le _)
  have isMessage : (Effect.delivered event).isMessage = true := by
    simp [Effect.isMessage, message]
  cases fsmStep_of_step stepped with
  | tick input _ given same =>
    by_cases waiting : world.client.fsmState = .reconnecting
    · exact Or.inr ⟨earlier, action, later, world, next, input, split, first, stepped, given,
        waiting, held, rest, added⟩
    · have opened := openFrom_processFsmState (client_agrees ⟨earlier, first⟩) input waiting
      rw [← same] at opened
      exact Or.inl (opened before _ rest added isMessage held.length_le)
  | push fresh _ machine queue log origin =>
    have longer := congrArg List.length (log.symm.trans added)
    have shorter := held.length_le
    rw [List.length_append, List.length_cons] at longer
    omega
  | aside _ machine queue effects log sends =>
    rw [log] at added
    rcases Log.split_append added with ⟨earlier, old⟩ | ⟨middle, _, member⟩
    · have longer := congrArg List.length old
      have shorter := held.length_le
      rw [List.length_append, List.length_cons] at longer
      omega
    · exact (sends _ member).elim

/-- The backend reports the end of a connection and a message behind it. -/
def messageAfterClose : List ClientAction :=
  List.flatten [connectWith {}, openAttempt 1, [.report (.messageReceived "first") 1],
    processOnce {}, [.report (.connectionClosed "bye" 1000) 1, .report (.messageReceived "late") 1],
    processOnce { now := 5000000000 }, processOnce { now := 5000000000 }]

theorem message_open_or_reconnecting_messageAfterClose :
    ∃ world, clientSystem.Runs clientSystem.init messageAfterClose world ∧
      ∃ before, world.client.log = before ++ [.delivered (createWebsocketMessageEvent "late")] ∧
        (OpenForUser before ∨
          ∃ earlier action later world next input, messageAfterClose = earlier ++ action :: later ∧
            clientSystem.Runs clientSystem.init earlier world ∧
            clientSystem.step world action = some next ∧ action.input? = some input ∧
            world.client.fsmState = .reconnecting ∧ world.client.log <+: before ∧
            ∃ rest, next.client.log =
              before ++ .delivered (createWebsocketMessageEvent "late") :: rest) := by
  have evaluated : (clientSystem.run clientSystem.init messageAfterClose).any (fun world =>
      decide (world.client.log =
        world.client.log.dropLast ++ [.delivered (createWebsocketMessageEvent "late")])) = true := by
    decide +kernel
  obtain ⟨world, runs, checked⟩ := System.exists_runs evaluated
  rw [decide_eq_true_eq] at checked
  exact ⟨world, runs, _, checked, message_open_or_reconnecting runs checked rfl⟩

/-- The late message reaches a user who was told of the end of the connection. -/
theorem message_after_close :
    ¬ ∀ actions finish before event after,
      clientSystem.Runs clientSystem.init actions finish →
      finish.client.log = before ++ .delivered event :: after → event.eventType = .wsMessage →
      OpenForUser before := by
  have evaluated : (clientSystem.run clientSystem.init messageAfterClose).any (fun world =>
      decide (world.client.log =
          world.client.log.dropLast ++ [.delivered (createWebsocketMessageEvent "late")] ∧
        ¬ OpenForUser world.client.log.dropLast)) = true := by
    decide +kernel
  obtain ⟨world, runs, checked⟩ := System.exists_runs evaluated
  rw [decide_eq_true_eq] at checked
  intro always
  exact checked.2 (always messageAfterClose world _ _ [] runs checked.1 rfl)

end Kurlyk.WebSocket
