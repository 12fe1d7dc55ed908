/-
This file follows the loop of `shutdown()`, which runs until the client is not
running and its event queue is empty. The backend may enqueue events before each
test of the loop; no user makes a request.

Every event that the loop pops shortens the queue, and the request to disconnect
that `shutdown()` itself has enqueued ends what is running. It fails to do so in
two cases: in `STOPPED` with the running flag still set, where the request is
ignored, and in `RECONNECTING` with the timer due, where the same call connects
again.
-/

import Mathlib.Algebra.BigOperators.Intervals
import Kurlyk.WebSocket.Disconnect

namespace Kurlyk.WebSocket

open Client

/-- What the loop meets in one iteration: the events the backend has enqueued before the test,
each with the number of its attempt, and the input of the call. -/
structure Turn where
  arrivals : List (BackendEvent × ℕ) := []
  input : Input := {}

/-- The events of the queue that arrive. -/
def reported (arrivals : List (BackendEvent × ℕ)) : List FsmEventData :=
  arrivals.map fun arrival => .backend arrival.1 arrival.2

/-- The backend enqueues events. -/
def Client.receive (client : Client) (arrivals : List (BackendEvent × ℕ)) : Client :=
  arrivals.foldl (fun client arrival => client.addFsmEvent arrival.1 arrival.2) client

/-- The body of the loop. -/
def Client.loopBody (client : Client) (input : Input) : Client :=
  (client.processFsmState input).processSendCallbackQueue

/-- The client at each test of the loop `while (is_running())`, as long as the loop goes on. -/
def loopState (turns : ℕ → Turn) (client : Client) : ℕ → Option Client
  | 0 => some (client.receive (turns 0).arrivals)
  | count + 1 => (loopState turns client count).bind fun current =>
      if current.running then
        some ((current.loopBody (turns count).input).receive (turns (count + 1)).arrivals)
      else none

/-- `shutdown()` up to its loop. -/
def Client.beginShutdown (client : Client) : Client :=
  client.pushEvent (.requestDisconnect none)

/-- The loop of `shutdown()` comes to an end. -/
def ShutdownReturns (turns : ℕ → Turn) (client : Client) : Prop :=
  ∃ count finish, loopState turns client.beginShutdown count = some finish ∧
    finish.running = false

/-! ### The loop in the system -/

/-- The actions of all threads up to the given test of the loop. -/
def loopActions (turns : ℕ → Turn) : ℕ → List ClientAction
  | 0 => (turns 0).arrivals.map fun arrival => .report arrival.1 arrival.2
  | count + 1 => loopActions turns count ++
      [.loopShutdown (turns count).input, .processSendCallbackQueue] ++
      (turns (count + 1)).arrivals.map fun arrival => .report arrival.1 arrival.2

theorem runs_receive (world : ClientWorld) (arrivals : List (BackendEvent × ℕ)) :
    clientSystem.Runs world (arrivals.map fun arrival => .report arrival.1 arrival.2)
      { world with client := world.client.receive arrivals } := by
  induction arrivals generalizing world with
  | nil => exact System.runs_nil.mpr rfl
  | cons arrival rest inductionHypothesis =>
    exact System.runs_cons.mpr ⟨_, rfl, inductionHypothesis _⟩

/-- The loop as a function is a run of the system. -/
theorem runs_loopState {turns : ℕ → Turn} {world : ClientWorld} (idle : world.point = .idle)
    {count : ℕ} {current : Client}
    (reached : loopState turns world.client.beginShutdown count = some current) :
    clientSystem.Runs world (.callShutdown :: loopActions turns count)
      { world with client := current, point := .shutdownLoop } := by
  have called : clientSystem.step world .callShutdown =
      some { world with client := world.client.beginShutdown, point := .shutdownLoop } := by
    simp [clientSystem, ClientWorld.step, idle, beginShutdown]
  refine System.runs_cons.mpr ⟨_, called, ?_⟩
  induction count generalizing current with
  | zero =>
    obtain rfl := Option.some.inj reached
    exact runs_receive _ _
  | succ count inductionHypothesis =>
    obtain ⟨before, earlier, continued⟩ := Option.bind_eq_some_iff.mp reached
    rw [Option.ite_none_right_eq_some] at continued
    obtain ⟨goesOn, same⟩ := continued
    obtain rfl := Option.some.inj same
    refine System.runs_append.mpr ⟨_, System.runs_append.mpr
      ⟨_, inductionHypothesis earlier, ?_⟩, runs_receive
        { world with client := before.loopBody (turns count).input, point := .shutdownLoop } _⟩
    refine System.runs_cons.mpr ⟨{ world with
      client := before.processFsmState (turns count).input, point := .shutdownCallbacks }, ?_, ?_⟩
    · simp [clientSystem, ClientWorld.step, goesOn]
    · exact System.runs_cons.mpr ⟨_, rfl, System.runs_nil.mpr rfl⟩

/-! ### What the loop works off -/

/-- The event was enqueued by the backend. -/
def FsmEventData.FromBackend : FsmEventData → Prop
  | .backend _ _ => True
  | _ => False

instance (event : FsmEventData) : Decidable event.FromBackend :=
  match event with
  | .backend _ _ => isTrue trivial
  | .requestConnect _ => isFalse id
  | .requestDisconnect _ => isFalse id
  | .updateConfig _ _ => isFalse id

/-- The queue holds the request to disconnect, and behind it only reports of the backend. -/
def DisconnectPending (events : List FsmEventData) : Prop :=
  ∃ before after callback, events = before ++ .requestDisconnect callback :: after ∧
    ∀ event ∈ after, event.FromBackend

/-- The client is not running, and what is left in its queue cannot change that. -/
structure WindingDown (client : Client) : Prop where
  state : client.fsmState = .init ∨ client.fsmState = .stopped
  stopped : client.isRunning = false
  reports : ∀ event ∈ client.fsmEventQueue, event.FromBackend

/-- The call pops the last request to disconnect and does not stop the client: it is in `STOPPED`
with the running flag set, or in `RECONNECTING` with the timer due and `init_websocket`
succeeding. -/
def Client.Hangs (client : Client) (input : Input) : Prop :=
  nextDisconnects client.fsmEventQueue = true ∧
    (∀ event ∈ client.fsmEventQueue.tail, event.FromBackend) ∧
    ((client.fsmState = .stopped ∧ client.isRunning = true) ∨
      (client.fsmState = .reconnecting ∧ input.timerInit = true ∧
        ∃ config ∈ client.config, Due client.toMachine input config))

instance (client : Client) (input : Input) : Decidable (client.Hangs input) :=
  inferInstanceAs (Decidable (_ ∧ _ ∧ (_ ∨ _ ∧ _ ∧ ∃ config ∈ client.config, _)))

section Calls

variable {client : Client} {input : Input} {before after : Machine} {event : FsmEventData}
  {effects : List Effect}

/-- In `INIT` and `STOPPED` the reports of the backend are ignored. -/
theorem Handled.ignores_reports (handled : Handled before input event after effects)
    (state : before.fsmState = .init ∨ before.fsmState = .stopped)
    (report : event.FromBackend) : after = before := by
  cases handled with
  | ignored event branch => rfl
  | message text attempt elsewhere =>
    rcases state with state | state <;> simp [state] at elsewhere
  | opened statusCode attempt elsewhere =>
    rcases state with state | state <;> simp [state] at elsewhere
  | lost report attempt errors closeEvent ends elsewhere =>
    rcases state with state | state <;> simp [state] at elsewhere
  | undefined report attempt effects elsewhere =>
    rcases state with state | state <;> simp [state] at elsewhere
  | _ => exact report.elim

/-- Outside `RECONNECTING` a request to disconnect stops a client that is not stuck in
`STOPPED`. -/
theorem Handled.disconnect_stops {callback : Option ℕ}
    (handled : Handled before input (.requestDisconnect callback) after effects)
    (shape : Shape before) (state : before.fsmState ≠ .reconnecting)
    (stuck : before.fsmState = .stopped → before.isRunning = false) :
    (after.fsmState = .init ∨ after.fsmState = .stopped) ∧ after.isRunning = false := by
  cases handled with
  | ignored event branch =>
    cases current : before.fsmState with
    | init => exact ⟨Or.inl rfl, shape.resting current⟩
    | stopped => exact ⟨Or.inr rfl, stuck current⟩
    | _ =>
      rw [current] at branch
      exact branch.elim
  | disconnected callback attached => exact ⟨Or.inl rfl, rfl⟩
  | abandoned callback reconnecting => exact absurd reconnecting state

theorem WindingDown.switch (winding : WindingDown client) {rest : List FsmEventData}
    (queue : client.fsmEventQueue = event :: rest) (input : Input) :
    WindingDown ((client.popEvent event rest).switch event input) := by
  have does := (client.popEvent event rest).switch_does event input
  obtain ⟨effects, _, handled⟩ := does.outcome
  have reports := winding.reports
  rw [queue] at reports
  have same := handled.ignores_reports winding.state (reports event List.mem_cons_self)
  refine ⟨by rw [same]; exact winding.state, by rw [same]; exact winding.stopped, ?_⟩
  rw [does.queue]
  exact fun later member => reports later (List.mem_cons_of_mem _ member)

/-- An event is taken: the request to disconnect is still in the queue, or it was this one. -/
theorem DisconnectPending.cases {rest : List FsmEventData}
    (pending : DisconnectPending (event :: rest)) :
    DisconnectPending rest ∨
      ((∃ callback, event = .requestDisconnect callback) ∧ ∀ later ∈ rest, later.FromBackend) := by
  obtain ⟨earlier, later, callback, split, reports⟩ := pending
  cases earlier with
  | nil =>
    obtain ⟨rfl, rfl⟩ := List.cons.inj split
    exact Or.inr ⟨⟨callback, rfl⟩, reports⟩
  | cons head others =>
    obtain ⟨rfl, rfl⟩ := List.cons.inj split
    exact Or.inl ⟨others, later, callback, rfl, reports⟩

/-- The request to disconnect is still to come, or has done its work. -/
def Client.OnTheWay (client : Client) : Prop :=
  DisconnectPending client.fsmEventQueue ∨ WindingDown client

theorem onTheWay_switch (agrees : Agrees client) (onTheWay : client.OnTheWay)
    {rest : List FsmEventData} (queue : client.fsmEventQueue = event :: rest)
    (stops : (∃ callback, event = .requestDisconnect callback) →
      (∀ later ∈ rest, later.FromBackend) → client.fsmState ≠ .reconnecting ∧
        (client.fsmState = .stopped → client.isRunning = false)) :
    ((client.popEvent event rest).switch event input).OnTheWay := by
  rcases onTheWay with pending | winding
  · have does := (client.popEvent event rest).switch_does event input
    obtain ⟨effects, _, handled⟩ := does.outcome
    rw [queue] at pending
    rcases pending.cases with later | ⟨⟨callback, rfl⟩, reports⟩
    · exact Or.inl (does.queue.symm ▸ later)
    · obtain ⟨state, stuck⟩ := stops ⟨callback, rfl⟩ reports
      obtain ⟨ended, stopped⟩ := handled.disconnect_stops agrees.shape state stuck
      exact Or.inr ⟨ended, stopped, by rw [does.queue]; exact reports⟩
  · exact Or.inr (winding.switch queue input)

/-- The timer leaves a client alone that a request to disconnect has stopped, unless it is due
and connects again. -/
theorem Timed.winds_down (timed : Timed before input after effects)
    (state : before.fsmState = .init) (stopped : before.isRunning = false)
    {config : WebSocketConfig} (configured : before.config = some config)
    (quiet : ¬ (input.timerInit = true ∧ Due before input config)) :
    (after.fsmState = .init ∨ after.fsmState = .stopped) ∧ after.isRunning = false := by
  cases timed with
  | missing unset => exact ⟨Or.inr rfl, stopped⟩
  | finished found again ended => exact ⟨Or.inl rfl, rfl⟩
  | waiting found again enabled left early => exact ⟨Or.inl state, stopped⟩
  | started found again due answer =>
    obtain rfl := Option.some.inj (again.symm.trans configured)
    exact absurd ⟨answer, due⟩ quiet
  | failed found again due answer => exact ⟨Or.inr rfl, stopped⟩

theorem onTheWay_timer_of_pending (pending : DisconnectPending client.fsmEventQueue)
    (input : Input) : (client.reconnectTimer input).OnTheWay :=
  Or.inl ((client.reconnectTimer_does input).1.symm ▸ pending)

theorem onTheWay_processFsmState (agrees : Agrees client) (onTheWay : client.OnTheWay)
    (spared : ¬ client.Hangs input) : (client.processFsmState input).OnTheWay := by
  by_cases reconnecting : client.fsmState = .reconnecting
  · have pending : DisconnectPending client.fsmEventQueue := by
      refine onTheWay.resolve_right fun winding => ?_
      rcases winding.state with state | state <;> simp [reconnecting] at state
    rw [processFsmState_of_reconnecting _ _ reconnecting]
    split
    · exact onTheWay_timer_of_pending pending input
    · rename_i event rest queue
      have does := (client.popEvent event rest).switch_does event input
      obtain ⟨effects, _, handled⟩ := does.outcome
      rw [queue] at pending
      rcases pending.cases with later | ⟨⟨callback, rfl⟩, reports⟩
      · exact onTheWay_timer_of_pending (does.queue.symm ▸ later) input
      · obtain ⟨config, configured⟩ := agrees.shape.configured (Or.inr (Or.inr reconnecting))
        obtain ⟨abandoned, _⟩ := handled.abandons reconnecting
        obtain ⟨sameQueue, _, _, timed⟩ := Client.reconnectTimer_does
          ((client.popEvent (.requestDisconnect callback) rest).switch
            (.requestDisconnect callback) input) input
        rw [abandoned] at timed
        obtain ⟨ended, stopped⟩ := timed.winds_down rfl rfl configured fun ⟨answer, due⟩ => by
          refine spared ⟨by rw [queue]; rfl, by rw [queue]; exact reports, Or.inr ?_⟩
          exact ⟨reconnecting, answer, config, configured, due⟩
        refine Or.inr ⟨ended, stopped, ?_⟩
        rw [sameQueue, does.queue]
        exact reports
  · by_cases working : client.fsmState = .working
    · refine (agrees.induction input Client.OnTheWay onTheWay ?_ ?_).2
      · intro current event rest holds way sameState queue _
        refine onTheWay_switch holds way queue fun _ _ => ?_
        simp [sameState, working]
      · intro current state
        exact absurd state reconnecting
    · rw [processFsmState_of_plain _ _ working reconnecting]
      split
      · exact onTheWay
      · rename_i event rest queue
        refine onTheWay_switch agrees onTheWay queue fun ⟨callback, disconnects⟩ reports => ?_
        refine ⟨reconnecting, fun stopped => Bool.eq_false_iff.mpr fun running => spared ?_⟩
        exact ⟨by rw [queue, disconnects]; rfl, by rw [queue]; exact reports,
          Or.inl ⟨stopped, running⟩⟩

end Calls

/-! ### The end of the loop -/

theorem throughMessages_eq_nil_iff {events : List FsmEventData} :
    throughMessages events = [] ↔ events = [] := by
  cases events with
  | nil => simp [throughMessages]
  | cons event rest =>
    unfold throughMessages
    split <;> simp

/-- A call pops an event unless there is none. -/
theorem processFsmState_queue_length (client : Client) (input : Input)
    (waiting : client.fsmEventQueue ≠ []) :
    (client.processFsmState input).fsmEventQueue.length + 1 ≤ client.fsmEventQueue.length := by
  have popped : client.poppedEvents ≠ [] := by
    by_cases working : client.fsmState = .working
    · rw [poppedEvents_of_working _ working]
      exact mt throughMessages_eq_nil_iff.mp waiting
    · rw [poppedEvents_of_not_working _ working]
      simpa using waiting
  have split := congrArg List.length (client.processFsmState_queue input)
  rw [List.length_append] at split
  have positive := List.length_pos_iff.mpr popped
  omega

section Receiving

variable (client : Client) (arrivals : List (BackendEvent × ℕ))

@[simp]
theorem addFsmEvent_machine (event : BackendEvent) (attempt : ℕ) :
    (client.addFsmEvent event attempt).toMachine = client.toMachine := by
  cases event <;> rfl

@[simp]
theorem addFsmEvent_queue (event : BackendEvent) (attempt : ℕ) :
    (client.addFsmEvent event attempt).fsmEventQueue =
      client.fsmEventQueue ++ [.backend event attempt] := by
  cases event <;> rfl

theorem receive_machine : (client.receive arrivals).toMachine = client.toMachine := by
  unfold receive
  induction arrivals generalizing client with
  | nil => rfl
  | cons arrival rest inductionHypothesis =>
    rw [List.foldl_cons, inductionHypothesis, addFsmEvent_machine]

theorem receive_queue : (client.receive arrivals).fsmEventQueue =
    client.fsmEventQueue ++ reported arrivals := by
  unfold receive
  induction arrivals generalizing client with
  | nil => exact (List.append_nil _).symm
  | cons arrival rest inductionHypothesis =>
    rw [List.foldl_cons, inductionHypothesis, addFsmEvent_queue, List.append_assoc]
    rfl

theorem Client.OnTheWay.receive {client : Client} (onTheWay : client.OnTheWay)
    (arrivals : List (BackendEvent × ℕ)) : (client.receive arrivals).OnTheWay := by
  have reports : ∀ event ∈ reported arrivals, event.FromBackend := by
    intro event member
    obtain ⟨arrival, _, rfl⟩ := List.mem_map.mp member
    trivial
  rcases onTheWay with ⟨earlier, later, callback, split, behind⟩ | winding
  · refine Or.inl ⟨earlier, later ++ reported arrivals, callback, ?_, ?_⟩
    · rw [receive_queue, split, List.append_assoc, List.cons_append]
    · intro event member
      exact (List.mem_append.mp member).elim (behind event) (reports event)
  · have machine := receive_machine client arrivals
    refine Or.inr ⟨by rw [machine]; exact winding.state, by rw [machine]; exact winding.stopped, ?_⟩
    intro event member
    rw [receive_queue] at member
    exact (List.mem_append.mp member).elim (winding.reports event) (reports event)

end Receiving

/-- While the loop goes on there is an event to pop. -/
theorem Client.OnTheWay.waiting {client : Client} (onTheWay : client.OnTheWay)
    (running : client.running = true) : client.fsmEventQueue ≠ [] := by
  rcases onTheWay with ⟨earlier, later, callback, split, _⟩ | winding
  · simp [split]
  · simpa [Client.running, winding.stopped] using running

/-- The events that arrive from a turn on. -/
def arrivalsFrom (turns : ℕ → Turn) (last turn : ℕ) : ℕ :=
  ∑ later ∈ Finset.Ico turn last, (turns later).arrivals.length

theorem arrivalsFrom_step {turns : ℕ → Turn} {last : ℕ}
    (finitely : ∀ turn, last ≤ turn → (turns turn).arrivals = []) (turn : ℕ) :
    arrivalsFrom turns last turn =
      (turns turn).arrivals.length + arrivalsFrom turns last (turn + 1) := by
  unfold arrivalsFrom
  by_cases inside : turn < last
  · exact Finset.sum_eq_sum_Ico_succ_bot inside _
  · rw [Finset.Ico_eq_empty (by omega), Finset.Ico_eq_empty (by omega), finitely turn (by omega)]
    rfl

section Loop

variable {turns : ℕ → Turn} {world : ClientWorld}

/-- From a client on the way the loop ends, after no more iterations than there are events. -/
theorem loop_ends (reachable : clientSystem.Reachable world) (idle : world.point = .idle)
    {last : ℕ} (finitely : ∀ turn, last ≤ turn → (turns turn).arrivals = [])
    (spared : ∀ count current,
      loopState turns world.client.beginShutdown count = some current → current.running = true →
        ¬ current.Hangs (turns count).input)
    (measure count : ℕ) {current : Client}
    (reached : loopState turns world.client.beginShutdown count = some current)
    (onTheWay : current.OnTheWay)
    (bound : current.fsmEventQueue.length + arrivalsFrom turns last (count + 1) ≤ measure) :
    ShutdownReturns turns world.client := by
  induction measure generalizing count current with
  | zero =>
    refine ⟨count, current, reached, Bool.eq_false_iff.mpr fun running => ?_⟩
    have waiting := List.length_pos_iff.mpr (onTheWay.waiting running)
    omega
  | succ measure inductionHypothesis =>
    by_cases running : current.running = true
    · have agrees : Agrees current :=
        client_agrees (reachable.runs (runs_loopState idle reached))
      have next : loopState turns world.client.beginShutdown (count + 1) =
          some ((current.loopBody (turns count).input).receive (turns (count + 1)).arrivals) := by
        rw [loopState, reached, Option.bind_some, if_pos running]
      have shorter := processFsmState_queue_length current (turns count).input
        (onTheWay.waiting running)
      refine inductionHypothesis (count + 1) next ?_ ?_
      · have way : (current.loopBody (turns count).input).OnTheWay :=
          (onTheWay_processFsmState agrees onTheWay (spared count current reached running)).imp_right
            fun winding => ⟨winding.state, winding.stopped, winding.reports⟩
        exact way.receive _
      · have arrived := arrivalsFrom_step finitely (count + 1)
        rw [receive_queue, List.length_append, reported, List.length_map]
        change (current.processFsmState _).fsmEventQueue.length + _ + _ ≤ _
        omega
    · exact ⟨count, current, reached, Bool.eq_false_iff.mpr running⟩

/-- From every reachable state, with every finite event queue, every configuration, clock and
sequence of answers of `init_websocket`: if the backend enqueues finitely many further events and
no user makes a request, the loop of `shutdown()` makes finitely many iterations and ends with an
empty queue and the running flag cleared, provided that the call that pops its own request to
disconnect does not find the client in `STOPPED` with the running flag set, nor in `RECONNECTING`
with the timer due and `init_websocket` succeeding. -/
theorem shutdown_returns (reachable : clientSystem.Reachable world) (idle : world.point = .idle)
    {last : ℕ} (finitely : ∀ turn, last ≤ turn → (turns turn).arrivals = [])
    (spared : ∀ count current,
      loopState turns world.client.beginShutdown count = some current → current.running = true →
        ¬ current.Hangs (turns count).input) :
    ∃ count finish, loopState turns world.client.beginShutdown count = some finish ∧
      finish.running = false ∧ finish.fsmEventQueue = [] ∧ finish.isRunning = false := by
  have pending : world.client.beginShutdown.OnTheWay :=
    Or.inl ⟨world.client.fsmEventQueue, [], none, rfl, by simp⟩
  obtain ⟨count, finish, reached, ended⟩ := loop_ends reachable idle finitely spared _ 0 rfl
    (pending.receive _) le_rfl
  refine ⟨count, finish, reached, ended, ?_⟩
  simpa [Client.running, and_comm] using ended

end Loop

/-- A connected client. -/
def connected : List ClientAction :=
  connectWith {} ++ openAttempt 1

/-- One message arrives before the first test of the loop. -/
def lateMessage (turn : ℕ) : Turn :=
  if turn = 0 then { arrivals := [(.messageReceived "late", 1)] } else {}

theorem loopState_none_of_ended {turns : ℕ → Turn} {client finish : Client} {count : ℕ}
    (reached : loopState turns client count = some finish) (ended : finish.running = false)
    (more : ℕ) : loopState turns client (count + 1 + more) = none := by
  induction more with
  | zero => simp [loopState, reached, ended]
  | succ more inductionHypothesis =>
    rw [← Nat.add_assoc, loopState, inductionHypothesis, Option.bind_none]

/-- The loop ends at the given test, and no call before it hangs. -/
def returnsAfter (turns : ℕ → Turn) (client : Client) (count : ℕ) : Bool :=
  (List.range count).all (fun earlier =>
    (loopState turns client.beginShutdown earlier).all fun current =>
      !decide (current.Hangs (turns earlier).input)) &&
  (loopState turns client.beginShutdown count).any fun current => !current.running

theorem spared_of_returnsAfter {turns : ℕ → Turn} {client : Client} {count : ℕ}
    (returns : returnsAfter turns client count = true) (earlier : ℕ) (current : Client)
    (reached : loopState turns client.beginShutdown earlier = some current)
    (running : current.running = true) : ¬ current.Hangs (turns earlier).input := by
  rw [returnsAfter, Bool.and_eq_true, List.all_eq_true, Option.any_eq_true] at returns
  obtain ⟨calm, finish, found, ended⟩ := returns
  rcases Nat.lt_trichotomy earlier count with before | rfl | beyond
  · have checked := calm earlier (List.mem_range.mpr before)
    simpa [reached] using checked
  · obtain rfl := Option.some.inj (reached.symm.trans found)
    simp [running] at ended
  · obtain ⟨more, rfl⟩ := Nat.exists_eq_add_of_lt beyond
    have never := loopState_none_of_ended found (by simpa using ended) more
    rw [Nat.add_right_comm, reached] at never
    cases never

theorem shutdown_returns_connected :
    ∃ world, clientSystem.Runs clientSystem.init connected world ∧
      world.client.isConnected = true ∧
      ∃ count finish, loopState lateMessage world.client.beginShutdown count = some finish ∧
        finish.running = false ∧ finish.fsmEventQueue = [] ∧ finish.isRunning = false := by
  have evaluated : (clientSystem.run clientSystem.init connected).any (fun world =>
      world.client.isConnected && world.point.isIdle &&
        returnsAfter lateMessage world.client 2) = true := by decide +kernel
  obtain ⟨world, runs, checked⟩ := System.exists_runs evaluated
  simp only [Bool.and_eq_true] at checked
  obtain ⟨⟨isConnected, idle⟩, returns⟩ := checked
  have finitely : ∀ turn, 1 ≤ turn → (lateMessage turn).arrivals = [] := by
    intro turn beyond
    rw [lateMessage, if_neg (by omega)]
  exact ⟨world, runs, isConnected, shutdown_returns ⟨_, runs⟩ (Point.isIdle_iff.mp idle) finitely
    (spared_of_returnsAfter returns)⟩

/-- The client is stuck in `STOPPED`: it is running, and nothing in its queue can change that. -/
structure Stuck (client : Client) : Prop where
  state : client.fsmState = .stopped
  running : client.isRunning = true
  idle : ∀ event ∈ client.fsmEventQueue, TakesDefault .stopped event

theorem stopped_ignores (client : Client) (state : client.fsmState = .stopped)
    {event : FsmEventData} (branch : TakesDefault .stopped event) (input : Input) :
    (client.switch event input).toMachine = client.toMachine := by
  have ignored : client.switch event input = client.settle event false := by
    simp only [switch, state]
    cases event with
    | requestConnect callback => exact branch.elim
    | updateConfig config callback => exact branch.elim
    | _ => rfl
  rw [ignored, settle_machine]

theorem Stuck.loopBody {client : Client} (stuck : Stuck client) (input : Input) :
    Stuck (client.loopBody input) := by
  have processed : Stuck (client.processFsmState input) := by
    rw [processFsmState_of_plain _ _ (by simp [stuck.state]) (by simp [stuck.state])]
    split
    · exact stuck
    · rename_i event rest queue
      have idle := stuck.idle
      rw [queue] at idle
      have same : ((client.popEvent event rest).switch event input).toMachine =
          (client.popEvent event rest).toMachine :=
        stopped_ignores (client.popEvent event rest) stuck.state
          (idle event List.mem_cons_self) input
      refine ⟨by rw [same]; exact stuck.state, by rw [same]; exact stuck.running, ?_⟩
      rw [(switch_does _ _ _).queue]
      exact fun later member => idle later (List.mem_cons_of_mem _ member)
  exact ⟨processed.state, processed.running, processed.idle⟩

theorem Stuck.receive {client : Client} (stuck : Stuck client)
    (arrivals : List (BackendEvent × ℕ)) : Stuck (client.receive arrivals) := by
  have machine := receive_machine client arrivals
  refine ⟨by rw [machine]; exact stuck.state, by rw [machine]; exact stuck.running, ?_⟩
  intro event member
  rw [receive_queue] at member
  rcases List.mem_append.mp member with old | new
  · exact stuck.idle event old
  · obtain ⟨arrival, _, rfl⟩ := List.mem_map.mp new
    trivial

/-- A client that is stuck never returns from `shutdown()`. -/
theorem Stuck.not_returns {client : Client} (stuck : Stuck client) (turns : ℕ → Turn) :
    ¬ ShutdownReturns turns client := by
  have begun : Stuck client.beginShutdown := by
    refine ⟨stuck.state, stuck.running, fun event member => ?_⟩
    rcases List.mem_append.mp member with old | new
    · exact stuck.idle event old
    · rw [List.mem_singleton.mp new]
      trivial
  have always : ∀ count, ∃ current, loopState turns client.beginShutdown count = some current ∧
      Stuck current := by
    intro count
    induction count with
    | zero => exact ⟨_, rfl, begun.receive _⟩
    | succ count inductionHypothesis =>
      obtain ⟨current, reached, holds⟩ := inductionHypothesis
      refine ⟨_, ?_, (holds.loopBody (turns count).input).receive (turns (count + 1)).arrivals⟩
      rw [loopState, reached, Option.bind_some, if_pos (by simp [Client.running, holds.running])]
  rintro ⟨count, finish, reached, ended⟩
  obtain ⟨current, same, holds⟩ := always count
  rw [reached] at same
  obtain rfl := Option.some.inj same
  simp [Client.running, holds.running] at ended

/-- A connecting client is given no configuration. It is left in `STOPPED` with its running flag
set, and `shutdown()` never returns, whatever the backend enqueues. -/
theorem shutdown_hangs_in_stopped :
    ∃ world, clientSystem.Runs clientSystem.init
        (connectWith {} ++ .setConfig none true :: processOnce {}) world ∧
      world.point = .idle ∧ world.client.fsmState = .stopped ∧ world.client.isRunning = true ∧
      world.client.fsmEventQueue = [] ∧ ∀ turns, ¬ ShutdownReturns turns world.client := by
  have evaluated : (clientSystem.run clientSystem.init
      (connectWith {} ++ .setConfig none true :: processOnce {})).any (fun world =>
        world.point.isIdle && decide (
        world.client.fsmState = .stopped ∧ world.client.isRunning = true ∧
        world.client.fsmEventQueue = [])) = true := by decide +kernel
  obtain ⟨world, runs, checked⟩ := System.exists_runs evaluated
  rw [Bool.and_eq_true, decide_eq_true_eq] at checked
  obtain ⟨idle, state, running, queue⟩ := checked
  refine ⟨world, runs, Point.isIdle_iff.mp idle, state, running, queue, fun turns => ?_⟩
  exact Stuck.not_returns ⟨state, running, by simp [queue]⟩ turns

end Kurlyk.WebSocket
