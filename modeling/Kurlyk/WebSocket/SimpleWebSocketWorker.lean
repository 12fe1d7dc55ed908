/-
This file models `SimpleWebSocketWorker`, the thread that runs the I/O context of
all native WebSocket clients, and the threads that start it, stop it and notify it.
Every action is one atomic step of one thread.

`io_context::run` executes handlers until the context is stopped or a handler
throws: the work guard keeps it from running out of work. A stopped context runs
nothing until `restart`. `stop` sets `m_shutdown`, stops the context and notifies,
in this order, and the worker may be anywhere meanwhile, also on its way to a
`restart` that undoes the stopping.

`stop` keeps `m_is_worker_started_mutex` until it returns, and only one call of
`start` gets past its test; so at most one thread is inside `stop` and at most one
is starting the worker.
-/

import Mathlib.Data.Prod.Lex
import Kurlyk.Lib.Execution
import Kurlyk.Lib.Log

namespace Kurlyk.WebSocket

/-! ### The state -/

/-- The statement the worker's thread is at. -/
inductive WorkerPoint where
  | notStarted
  -- `while (!m_shutdown)`
  | loop
  -- `m_notify_condition.wait`
  | wait
  -- inside `m_io_context->run()`
  | run
  -- `if (m_shutdown) break`
  | testShutdown
  -- `m_io_context->restart()`
  | restart
  -- `m_work_guard.reset()`
  | resetGuard
  | returned
deriving DecidableEq

/-- The statement of the thread that is inside `stop`. -/
inductive StopPoint where
  -- `if (!m_future.valid()) return`
  | testFuture
  -- `m_shutdown = true`
  | setShutdown
  -- `m_io_context->stop()`
  | stopContext
  | notify
  -- `m_future.wait()`
  | wait
deriving DecidableEq

/-- The statement of the thread that starts the worker, behind the unlock. -/
inductive StartPoint where
  -- `std::async`
  | launch
  -- the assignment of `m_future`
  | assign
deriving DecidableEq

/-- What the worker and its users do. -/
inductive WorkerEvent where
  | posted (handler : ℕ)
  | notified
  | ran (handler : ℕ)
  | threw (handler : ℕ)
  -- `stop` has found a future and has waited for it
  | joined
deriving DecidableEq

/-- The members of `SimpleWebSocketWorker`, the state of its I/O context, and where its threads
are. The log is there for the statements only. -/
structure SimpleWebSocketWorker where
  isWorkerStarted : Bool := false
  notify : Bool := false
  futureValid : Bool := false
  shutdown : Bool := false
  workGuard : Bool := true
  contextStopped : Bool := false
  handlers : List ℕ := []
  thread : WorkerPoint := .notStarted
  starting : Option StartPoint := none
  stopping : Option StopPoint := none
  log : List WorkerEvent := []

/-- The steps of the users and of the worker's thread. -/
inductive WorkerAction where
  | callStart
  | start
  | callStop
  | stop
  | notify
  | post (handler : ℕ)
  | advance
  | handle (position : ℕ) (throws : Bool)
deriving DecidableEq

namespace SimpleWebSocketWorker

variable (worker : SimpleWebSocketWorker)

/-! ### The steps -/

def record (event : WorkerEvent) : SimpleWebSocketWorker :=
  { worker with log := worker.log ++ [event] }

/-- `notify`. -/
def setNotify : SimpleWebSocketWorker :=
  { worker.record .notified with notify := true }

/-- `start` up to the unlock. -/
def callStart : Option SimpleWebSocketWorker :=
  if worker.stopping.isSome then none
  else if worker.isWorkerStarted then some worker
  else some { worker with isWorkerStarted := true, starting := some .launch }

/-- The rest of `start`. -/
def startStep : Option SimpleWebSocketWorker :=
  match worker.starting with
  | none => none
  | some .launch => some { worker with thread := .loop, starting := some .assign }
  | some .assign => some { worker with futureValid := true, starting := none }

/-- `stop` takes the mutex. -/
def callStop : Option SimpleWebSocketWorker :=
  if worker.stopping.isSome then none else some { worker with stopping := some .testFuture }

/-- The next statement of `stop`. -/
def stopStep : Option SimpleWebSocketWorker :=
  match worker.stopping with
  | none => none
  | some .testFuture =>
    some { worker with stopping := if worker.futureValid then some .setShutdown else none }
  | some .setShutdown => some { worker with shutdown := true, stopping := some .stopContext }
  | some .stopContext => some { worker with contextStopped := true, stopping := some .notify }
  | some .notify => some { worker.setNotify with stopping := some .wait }
  | some .wait =>
    if worker.thread = .returned then some { worker.record .joined with stopping := none }
    else none

/-- The next statement of the worker's thread. It leaves `run` when the context is stopped. -/
def advance : Option SimpleWebSocketWorker :=
  match worker.thread with
  | .notStarted | .returned => none
  | .loop => some { worker with thread := if worker.shutdown then .resetGuard else .wait }
  | .wait => if worker.notify then some { worker with notify := false, thread := .run } else none
  | .run => if worker.contextStopped then some { worker with thread := .testShutdown } else none
  | .testShutdown =>
    some { worker with thread := if worker.shutdown then .resetGuard else .restart }
  | .restart => some { worker with contextStopped := false, thread := .loop }
  | .resetGuard => some { worker with workGuard := false, thread := .returned }

/-- `run` executes a handler that is ready, unless the context is stopped. An exception leaves
`run`. -/
def handle (position : ℕ) (throws : Bool) : Option SimpleWebSocketWorker :=
  if worker.thread = .run ∧ worker.contextStopped = false then
    (worker.handlers[position]?).map fun handler =>
      { worker.record (if throws then .threw handler else .ran handler) with
        handlers := worker.handlers.eraseIdx position
        thread := if throws then .testShutdown else .run }
  else none

/-- The step of an action. -/
def step : WorkerAction → Option SimpleWebSocketWorker
  | .callStart => worker.callStart
  | .start => worker.startStep
  | .callStop => worker.callStop
  | .stop => worker.stopStep
  | .notify => some worker.setNotify
  | .post handler =>
    some { worker.record (.posted handler) with handlers := worker.handlers ++ [handler] }
  | .advance => worker.advance
  | .handle position throws => worker.handle position throws

end SimpleWebSocketWorker

/-- The worker and its users, from the first call of `get_instance` on. -/
def workerSystem : System SimpleWebSocketWorker WorkerAction where
  init := {}
  step := SimpleWebSocketWorker.step

variable {worker next : SimpleWebSocketWorker} {action : WorkerAction}

/-! ### What one step can do -/

/-- The steps of all threads, with what they need and what they leave. -/
inductive WorkerStep (worker : SimpleWebSocketWorker) :
    WorkerAction → SimpleWebSocketWorker → Prop where
  | callStart (unlocked : worker.stopping = none) (fresh : worker.isWorkerStarted = false) :
      WorkerStep worker .callStart
        { worker with isWorkerStarted := true, starting := some .launch }
  | startedAlready : WorkerStep worker .callStart worker
  | launch (at_ : worker.starting = some .launch) :
      WorkerStep worker .start { worker with thread := .loop, starting := some .assign }
  | assign (at_ : worker.starting = some .assign) :
      WorkerStep worker .start { worker with futureValid := true, starting := none }
  | callStop (unlocked : worker.stopping = none) :
      WorkerStep worker .callStop { worker with stopping := some .testFuture }
  | noFuture (at_ : worker.stopping = some .testFuture) (invalid : worker.futureValid = false) :
      WorkerStep worker .stop { worker with stopping := none }
  | future (at_ : worker.stopping = some .testFuture) (valid : worker.futureValid = true) :
      WorkerStep worker .stop { worker with stopping := some .setShutdown }
  | setShutdown (at_ : worker.stopping = some .setShutdown) :
      WorkerStep worker .stop { worker with shutdown := true, stopping := some .stopContext }
  | stopContext (at_ : worker.stopping = some .stopContext) :
      WorkerStep worker .stop { worker with contextStopped := true, stopping := some .notify }
  | tell (at_ : worker.stopping = some .notify) :
      WorkerStep worker .stop { worker.setNotify with stopping := some .wait }
  | join (at_ : worker.stopping = some .wait) (returned : worker.thread = .returned) :
      WorkerStep worker .stop { worker.record .joined with stopping := none }
  | notify : WorkerStep worker .notify worker.setNotify
  | post (handler : ℕ) : WorkerStep worker (.post handler)
      { worker.record (.posted handler) with handlers := worker.handlers ++ [handler] }
  | leave (at_ : worker.thread = .loop) (shutdown : worker.shutdown = true) :
      WorkerStep worker .advance { worker with thread := .resetGuard }
  | enter (at_ : worker.thread = .loop) (running : worker.shutdown = false) :
      WorkerStep worker .advance { worker with thread := .wait }
  | wake (at_ : worker.thread = .wait) (notified : worker.notify = true) :
      WorkerStep worker .advance { worker with notify := false, thread := .run }
  | halt (at_ : worker.thread = .run) (stopped : worker.contextStopped = true) :
      WorkerStep worker .advance { worker with thread := .testShutdown }
  | breakLoop (at_ : worker.thread = .testShutdown) (shutdown : worker.shutdown = true) :
      WorkerStep worker .advance { worker with thread := .resetGuard }
  | goOn (at_ : worker.thread = .testShutdown) (running : worker.shutdown = false) :
      WorkerStep worker .advance { worker with thread := .restart }
  | restart (at_ : worker.thread = .restart) :
      WorkerStep worker .advance { worker with contextStopped := false, thread := .loop }
  | resetGuard (at_ : worker.thread = .resetGuard) :
      WorkerStep worker .advance { worker with workGuard := false, thread := .returned }
  | ran {position : ℕ} {handler : ℕ} (at_ : worker.thread = .run)
      (runs : worker.contextStopped = false) (found : worker.handlers[position]? = some handler) :
      WorkerStep worker (.handle position false)
        { worker.record (.ran handler) with
          handlers := worker.handlers.eraseIdx position, thread := .run }
  | threw {position : ℕ} {handler : ℕ} (at_ : worker.thread = .run)
      (runs : worker.contextStopped = false) (found : worker.handlers[position]? = some handler) :
      WorkerStep worker (.handle position true)
        { worker.record (.threw handler) with
          handlers := worker.handlers.eraseIdx position, thread := .testShutdown }

theorem workerStep_of_step (stepped : workerSystem.step worker action = some next) :
    WorkerStep worker action next := by
  cases action with
  | callStart =>
    change worker.callStart = some next at stepped
    unfold SimpleWebSocketWorker.callStart at stepped
    split at stepped
    · cases stepped
    · rename_i unlocked
      split at stepped
      · obtain rfl := Option.some.inj stepped
        exact .startedAlready
      · rename_i fresh
        obtain rfl := Option.some.inj stepped
        exact .callStart (by simpa using unlocked) (by simpa using fresh)
  | start =>
    change worker.startStep = some next at stepped
    unfold SimpleWebSocketWorker.startStep at stepped
    split at stepped
    · cases stepped
    · obtain rfl := Option.some.inj stepped
      exact .launch ‹_›
    · obtain rfl := Option.some.inj stepped
      exact .assign ‹_›
  | callStop =>
    change worker.callStop = some next at stepped
    unfold SimpleWebSocketWorker.callStop at stepped
    split at stepped
    · cases stepped
    · rename_i unlocked
      obtain rfl := Option.some.inj stepped
      exact .callStop (by simpa using unlocked)
  | stop =>
    change worker.stopStep = some next at stepped
    unfold SimpleWebSocketWorker.stopStep at stepped
    split at stepped
    · cases stepped
    · obtain rfl := Option.some.inj stepped
      split
      · exact .future ‹_› ‹_›
      · exact .noFuture ‹_› (by simpa using ‹¬ worker.futureValid = true›)
    · obtain rfl := Option.some.inj stepped
      exact .setShutdown ‹_›
    · obtain rfl := Option.some.inj stepped
      exact .stopContext ‹_›
    · obtain rfl := Option.some.inj stepped
      exact .tell ‹_›
    · split at stepped
      · obtain rfl := Option.some.inj stepped
        exact .join ‹_› ‹_›
      · cases stepped
  | notify =>
    obtain rfl := Option.some.inj stepped
    exact .notify
  | post handler =>
    obtain rfl := Option.some.inj stepped
    exact .post handler
  | advance =>
    change worker.advance = some next at stepped
    unfold SimpleWebSocketWorker.advance at stepped
    split at stepped
    · cases stepped
    · cases stepped
    · obtain rfl := Option.some.inj stepped
      split
      · exact .leave ‹_› ‹_›
      · exact .enter ‹_› (by simpa using ‹¬ worker.shutdown = true›)
    · split at stepped
      · obtain rfl := Option.some.inj stepped
        exact .wake ‹_› ‹_›
      · cases stepped
    · split at stepped
      · obtain rfl := Option.some.inj stepped
        exact .halt ‹_› ‹_›
      · cases stepped
    · obtain rfl := Option.some.inj stepped
      split
      · exact .breakLoop ‹_› ‹_›
      · exact .goOn ‹_› (by simpa using ‹¬ worker.shutdown = true›)
    · obtain rfl := Option.some.inj stepped
      exact .restart ‹_›
    · obtain rfl := Option.some.inj stepped
      exact .resetGuard ‹_›
  | handle position throws =>
    change worker.handle position throws = some next at stepped
    unfold SimpleWebSocketWorker.handle at stepped
    split at stepped
    · rename_i ready
      obtain ⟨handler, found, rfl⟩ := Option.map_eq_some_iff.mp stepped
      cases throws with
      | false => exact .ran ready.1 ready.2 found
      | true => exact .threw ready.1 ready.2 found
    · cases stepped

/-! ### The invariant -/

/-- How far the starting thread and the stopping thread are, and where the worker then cannot
be. -/
structure Coherent (worker : SimpleWebSocketWorker) : Prop where
  fresh : worker.isWorkerStarted = false →
    worker.starting = none ∧ worker.futureValid = false ∧ worker.thread = .notStarted
  launching : worker.starting = some .launch →
    worker.thread = .notStarted ∧ worker.futureValid = false
  launched : worker.starting = some .assign ∨ worker.futureValid = true →
    worker.thread ≠ .notStarted
  assigned : worker.futureValid = true → worker.starting = none
  valid : worker.stopping = some .setShutdown → worker.futureValid = true
  set : worker.stopping = some .stopContext ∨ worker.stopping = some .notify ∨
    worker.stopping = some .wait → worker.shutdown = true
  -- a context that `stop` has stopped is restarted only on the way out
  stopped : worker.stopping = some .notify ∨ worker.stopping = some .wait →
    worker.thread = .wait ∨ worker.thread = .run → worker.contextStopped = true
  told : worker.stopping = some .wait → worker.thread = .wait → worker.notify = true
  leaving : worker.thread = .resetGuard ∨ worker.thread = .returned → worker.shutdown = true
  context : worker.contextStopped = true → worker.shutdown = true
  owned : worker.shutdown = true → worker.futureValid = true
  joined : .joined ∈ worker.log → worker.thread = .returned
  guard : worker.thread = .returned → worker.workGuard = false

theorem Coherent.joined_append (coherent : Coherent worker) (event : WorkerEvent)
    (other : event ≠ .joined) (heard : .joined ∈ worker.log ++ [event]) :
    worker.thread = .returned := by
  rcases List.mem_append.mp heard with heard | heard
  · exact coherent.joined heard
  · exact absurd (List.mem_singleton.mp heard).symm other

/-- The worker's thread goes to another statement of its loop. -/
theorem Coherent.moved (coherent : Coherent worker) {point : WorkerPoint}
    (begun : worker.thread ≠ .notStarted) (running : worker.thread ≠ .returned)
    (inside : point ≠ .notStarted ∧ point ≠ .returned)
    (stopped : worker.stopping = some .notify ∨ worker.stopping = some .wait →
      point = .wait ∨ point = .run → worker.contextStopped = true)
    (told : worker.stopping = some .wait → point = .wait → worker.notify = true)
    (leaving : point = .resetGuard → worker.shutdown = true) :
    Coherent { worker with thread := point } :=
  { coherent with
    fresh := fun fresh => absurd (coherent.fresh fresh).2.2 begun
    launching := fun launching => absurd (coherent.launching launching).1 begun
    launched := fun _ => inside.1
    stopped := stopped
    told := told
    leaving := fun left => left.elim leaving fun returned => absurd returned inside.2
    joined := fun heard => absurd (coherent.joined heard) running
    guard := fun returned => absurd returned inside.2 }

theorem Coherent.step (coherent : Coherent worker) (step : WorkerStep worker action next) :
    Coherent next := by
  cases step with
  | callStart unlocked fresh =>
    obtain ⟨_, invalid, notStarted⟩ := coherent.fresh fresh
    exact { coherent with
      fresh := nofun
      launching := fun _ => ⟨notStarted, invalid⟩
      launched := by simp [invalid]
      assigned := by simp [invalid] }
  | startedAlready => exact coherent
  | launch at_ =>
    obtain ⟨notStarted, invalid⟩ := coherent.launching at_
    exact { coherent with
      fresh := fun fresh => by simp [(coherent.fresh fresh).1] at at_
      launching := nofun
      launched := fun _ => nofun
      assigned := by simp [invalid]
      stopped := fun _ => by simp
      told := fun _ => nofun
      leaving := by simp
      joined := fun heard => absurd (coherent.joined heard) (by simp [notStarted])
      guard := nofun }
  | assign at_ =>
    exact { coherent with
      fresh := fun fresh => by simp [(coherent.fresh fresh).1] at at_
      launching := nofun
      launched := fun _ => coherent.launched (.inl at_)
      assigned := fun _ => rfl
      valid := fun _ => rfl
      owned := fun _ => rfl }
  | callStop unlocked =>
    exact { coherent with valid := nofun, set := by simp, stopped := by simp, told := nofun }
  | noFuture at_ invalid =>
    exact { coherent with valid := nofun, set := by simp, stopped := by simp, told := nofun }
  | future at_ valid =>
    exact { coherent with
      valid := fun _ => valid, set := by simp, stopped := by simp, told := nofun }
  | setShutdown at_ =>
    exact { coherent with
      valid := nofun
      set := fun _ => rfl
      stopped := by simp
      told := nofun
      leaving := fun _ => rfl
      context := fun _ => rfl
      owned := fun _ => coherent.valid at_ }
  | stopContext at_ =>
    have shutdown := coherent.set (.inl at_)
    exact { coherent with
      valid := nofun
      set := fun _ => shutdown
      stopped := fun _ _ => rfl
      told := nofun
      context := fun _ => shutdown }
  | tell at_ =>
    exact { coherent with
      valid := nofun
      set := fun _ => coherent.set (.inr (.inl at_))
      stopped := fun _ => coherent.stopped (.inl at_)
      told := fun _ _ => rfl
      joined := coherent.joined_append _ nofun }
  | join at_ returned =>
    exact { coherent with
      valid := nofun
      set := by simp
      stopped := by simp
      told := nofun
      joined := fun _ => returned }
  | notify =>
    exact { coherent with told := fun _ _ => rfl, joined := coherent.joined_append _ nofun }
  | post => exact { coherent with joined := coherent.joined_append _ nofun }
  | leave at_ shutdown =>
    exact coherent.moved (by simp [at_]) (by simp [at_]) (by simp) (by simp) nofun
      (fun _ => shutdown)
  | enter at_ alive =>
    -- `stop` has not set `m_shutdown` yet
    have early := mt coherent.set (by simp [alive])
    exact coherent.moved (by simp [at_]) (by simp [at_]) (by simp)
      (fun told _ => absurd (.inr told) early) (fun told _ => absurd (.inr (.inr told)) early) nofun
  | wake at_ notified =>
    have moved : Coherent { worker with thread := .run } :=
      coherent.moved (by simp [at_]) (by simp [at_]) (by simp)
        (fun told _ => coherent.stopped told (.inl at_)) nofun nofun
    exact { moved with told := fun _ => nofun }
  | halt at_ stopped =>
    exact coherent.moved (by simp [at_]) (by simp [at_]) (by simp) (by simp) nofun nofun
  | breakLoop at_ shutdown =>
    exact coherent.moved (by simp [at_]) (by simp [at_]) (by simp) (by simp) nofun
      (fun _ => shutdown)
  | goOn at_ alive =>
    exact coherent.moved (by simp [at_]) (by simp [at_]) (by simp) (by simp) nofun nofun
  | restart at_ =>
    have moved : Coherent { worker with thread := .loop } :=
      coherent.moved (by simp [at_]) (by simp [at_]) (by simp) (by simp) nofun nofun
    exact { moved with stopped := fun _ => by simp, context := nofun }
  | resetGuard at_ =>
    exact { coherent with
      fresh := fun fresh => by simp [(coherent.fresh fresh).2.2] at at_
      launching := fun launching => by simp [(coherent.launching launching).1] at at_
      launched := fun _ => nofun
      stopped := fun _ => by simp
      told := fun _ => nofun
      leaving := fun _ => coherent.leaving (.inl at_)
      joined := fun _ => rfl
      guard := fun _ => rfl }
  | ran at_ runs =>
    have moved : Coherent { worker with thread := .run } :=
      coherent.moved (by simp [at_]) (by simp [at_]) (by simp)
        (fun told _ => coherent.stopped told (.inr at_)) nofun nofun
    exact { moved with
      joined := fun heard => absurd (coherent.joined_append (.ran _) nofun heard) (by simp [at_]) }
  | threw at_ runs =>
    have moved : Coherent { worker with thread := .testShutdown } :=
      coherent.moved (by simp [at_]) (by simp [at_]) (by simp) (by simp) nofun nofun
    exact { moved with
      joined := fun heard => absurd (coherent.joined_append (.threw _) nofun heard) (by simp [at_]) }

theorem coherent_of_reachable (reachable : workerSystem.Reachable worker) : Coherent worker := by
  refine reachable.induction Coherent ?_ ?_
  · constructor <;> simp [workerSystem]
  · exact fun _ _ _ _ coherent stepped => coherent.step (workerStep_of_step stepped)

/-! ### `stop` returns -/

/-- How many statements `stop` has to go. -/
def StopPoint.order : StopPoint → ℕ
  | .testFuture => 5
  | .setShutdown => 4
  | .stopContext => 3
  | .notify => 2
  | .wait => 1

/-- How many statements the worker has to go when `m_shutdown` is set. -/
def WorkerPoint.order : WorkerPoint → ℕ
  | .restart => 6
  | .loop => 5
  | .wait => 4
  | .run => 3
  | .testShutdown => 2
  | .resetGuard => 1
  | .notStarted | .returned => 0

namespace SimpleWebSocketWorker

/-- What is left until `stop` returns: its own statements, and then those of the worker it waits
for. -/
def rank (worker : SimpleWebSocketWorker) : ℕ ×ₗ ℕ :=
  toLex ((worker.stopping.map StopPoint.order).getD 0,
    if worker.stopping = some .wait then worker.thread.order else 0)

/-- Nobody is inside `stop`. -/
def Unstopped (worker : SimpleWebSocketWorker) : Prop :=
  worker.stopping = none

/-- A step of the thread inside `stop`, or of the worker when that thread waits for it. A handler
that runs is no such step. -/
def Stops (worker : SimpleWebSocketWorker) : WorkerAction → Prop
  | .stop => True
  | .advance => worker.stopping = some .wait
  | _ => False

end SimpleWebSocketWorker

theorem rank_lt_of_stopping
    (less : (next.stopping.map StopPoint.order).getD 0 <
      (worker.stopping.map StopPoint.order).getD 0) : next.rank < worker.rank :=
  Prod.Lex.toLex_lt_toLex.mpr (Or.inl less)

/-- A step that leaves the thread inside `stop` where it is. -/
theorem rank_of_thread (same : next.stopping = worker.stopping)
    (falls : worker.stopping = some .wait → next.thread.order < worker.thread.order) :
    (worker.stopping = some .wait → next.rank < worker.rank) ∧ next.rank ≤ worker.rank := by
  have lowers : worker.stopping = some .wait → next.rank < worker.rank := by
    intro waits
    refine Prod.Lex.toLex_lt_toLex.mpr (Or.inr ⟨by rw [same], ?_⟩)
    rw [same, if_pos waits, if_pos waits]
    exact falls waits
  refine ⟨lowers, ?_⟩
  by_cases waits : worker.stopping = some .wait
  · exact le_of_lt (lowers waits)
  · unfold SimpleWebSocketWorker.rank
    rw [same, if_neg waits, if_neg waits]

/-- While a thread is inside `stop` no step raises the rank, and the steps of that thread and then
of the worker lower it. -/
theorem rank_step (coherent : Coherent worker) (busy : ¬ worker.Unstopped)
    (step : WorkerStep worker action next) :
    (worker.Stops action → next.rank < worker.rank) ∧ next.rank ≤ worker.rank := by
  have own (less : (next.stopping.map StopPoint.order).getD 0 <
      (worker.stopping.map StopPoint.order).getD 0) :
      (worker.Stops action → next.rank < worker.rank) ∧ next.rank ≤ worker.rank :=
    ⟨fun _ => rank_lt_of_stopping less, le_of_lt (rank_lt_of_stopping less)⟩
  have other (foreign : ¬ worker.Stops action) (same : next.stopping = worker.stopping)
      (thread : worker.stopping = some .wait → next.thread = worker.thread) :
      (worker.Stops action → next.rank < worker.rank) ∧ next.rank ≤ worker.rank := by
    refine ⟨fun stops => absurd stops foreign, le_of_eq ?_⟩
    unfold SimpleWebSocketWorker.rank
    rw [same]
    split
    · rw [thread ‹_›]
    · rfl
  have shut (waits : worker.stopping = some .wait) : worker.shutdown = true :=
    coherent.set (Or.inr (Or.inr waits))
  cases step with
  | callStart unlocked | callStop unlocked => exact absurd unlocked busy
  | noFuture at_ | future at_ | setShutdown at_ | stopContext at_ | tell at_ | join at_ =>
    exact own (by simp [at_, StopPoint.order])
  | startedAlready | notify | post => exact other id rfl fun _ => rfl
  | launch at_ =>
    refine other id rfl fun waits => ?_
    have none := coherent.assigned (coherent.owned (shut waits))
    rw [at_] at none
    cases none
  | assign => exact other id rfl fun _ => rfl
  | ran at_ runs found => exact other id rfl fun _ => at_.symm
  | threw at_ runs found =>
    refine other id rfl fun waits => ?_
    have halted := coherent.stopped (Or.inr waits) (Or.inr at_)
    rw [runs] at halted
    cases halted
  | enter at_ running | goOn at_ running =>
    refine rank_of_thread rfl fun waits => ?_
    rw [shut waits] at running
    cases running
  | leave at_ | wake at_ | halt at_ | breakLoop at_ | restart at_ | resetGuard at_ =>
    exact rank_of_thread rfl fun _ => by simp [at_, WorkerPoint.order]

/-- The thread inside `stop`, or the worker it waits for, can always make its next step. -/
theorem stop_enabled (coherent : Coherent worker) (busy : ¬ worker.Unstopped) :
    ∃ action next, worker.Stops action ∧ workerSystem.step worker action = some next := by
  cases at_ : worker.stopping with
  | none => exact absurd at_ busy
  | some point =>
    by_cases waits : point = .wait
    · subst waits
      have valid := coherent.owned (coherent.set (Or.inr (Or.inr at_)))
      have advances {after : SimpleWebSocketWorker} (made : worker.advance = some after) :
          ∃ action next, worker.Stops action ∧ workerSystem.step worker action = some next :=
        ⟨.advance, after, at_, made⟩
      cases thread : worker.thread with
      | notStarted => exact absurd thread (coherent.launched (Or.inr valid))
      | wait =>
        have notified := coherent.told at_ thread
        exact advances (by rw [SimpleWebSocketWorker.advance, thread]; exact if_pos notified)
      | run =>
        have stopped := coherent.stopped (Or.inr at_) (Or.inr thread)
        exact advances (by rw [SimpleWebSocketWorker.advance, thread]; exact if_pos stopped)
      | returned =>
        have joins : ∃ next, worker.stopStep = some next := by
          rw [SimpleWebSocketWorker.stopStep, at_]
          exact ⟨_, if_pos thread⟩
        obtain ⟨after, made⟩ := joins
        exact ⟨.stop, after, trivial, made⟩
      | _ => exact advances (by rw [SimpleWebSocketWorker.advance, thread])
    · have steps : ∃ next, worker.stopStep = some next := by
        rw [SimpleWebSocketWorker.stopStep, at_]
        cases point with
        | wait => exact absurd rfl waits
        | _ => exact ⟨_, rfl⟩
      obtain ⟨after, made⟩ := steps
      exact ⟨.stop, after, trivial, made⟩

/-- `stop` always returns: whatever the worker does when it is called, also when it has just
decided to restart the context, the thread inside `stop` or the worker it waits for can make a
step, and when they go on making steps, nobody is inside `stop` any more. -/
theorem stop_returns {workers : ℕ → SimpleWebSocketWorker} {actions : ℕ → WorkerAction}
    (execution : workerSystem.Execution workers actions)
    (reachable : workerSystem.Reachable (workers 0))
    (scheduled : ∀ instant, ∃ later ≥ instant,
      (workers later).Unstopped ∨ (workers later).Stops (actions later)) (instant : ℕ) :
    (¬ (workers instant).Unstopped → ∃ action next, (workers instant).Stops action ∧
        workerSystem.step (workers instant) action = some next) ∧
      ∃ later ≥ instant, (workers later).Unstopped := by
  have coherent (instant : ℕ) : Coherent (workers instant) :=
    coherent_of_reachable (execution.reachable reachable instant)
  refine ⟨stop_enabled (coherent instant), ?_⟩
  exact execution.comes_to_rest SimpleWebSocketWorker.rank Coherent SimpleWebSocketWorker.Unstopped
    SimpleWebSocketWorker.Stops coherent
    (fun _ _ _ coherent busy stepped => (rank_step coherent busy (workerStep_of_step stepped)).2)
    (fun _ _ _ coherent busy stops stepped =>
      (rank_step coherent busy (workerStep_of_step stepped)).1 stops) scheduled instant

/-- The worker is started, runs, and is stopped from within `run`; then it is notified for ever. -/
def stopWhileRunning : List WorkerAction :=
  [.callStart, .start, .start, .advance, .notify, .advance, .post 7, .callStop, .stop, .stop, .stop,
    .stop, .advance, .advance, .advance, .stop]

def stopThenNotify (instant : ℕ) : WorkerAction :=
  (stopWhileRunning[instant]?).getD .notify

theorem stop_returns_stopThenNotify :
    ∃ later ≥ 8, (workerSystem.orbit stopThenNotify later).Unstopped := by
  have execution : workerSystem.Execution (workerSystem.orbit stopThenNotify) stopThenNotify := by
    refine System.orbit_execution fun instant => ?_
    match instant with
    | 0 | 1 | 2 | 3 | 4 | 5 | 6 | 7 | 8 | 9 | 10 | 11 | 12 | 13 | 14 | 15 | _ + 16 => rfl
  have ends (later : ℕ) : (workerSystem.orbit stopThenNotify (later + 16)).Unstopped := by
    induction later with
    | zero => rfl
    | succ later inductionHypothesis => exact inductionHypothesis
  refine (stop_returns execution System.reachable_init (fun instant => ?_) 8).2
  exact ⟨instant + 16, Nat.le_add_right _ _, Or.inl (ends instant)⟩

/-! ### What `stop` leaves -/

/-- No handler is executed in these events. -/
def Quiet (events : List WorkerEvent) : Prop :=
  ∀ handler, .ran handler ∉ events ∧ .threw handler ∉ events

/-- A worker that has returned does nothing any more. -/
theorem WorkerStep.of_returned (coherent : Coherent worker) (returned : worker.thread = .returned)
    (step : WorkerStep worker action next) :
    next.thread = .returned ∧ ∃ events, next.log = worker.log ++ events ∧ Quiet events := by
  have same (log : next.log = worker.log) :
      ∃ events, next.log = worker.log ++ events ∧ Quiet events :=
    ⟨[], by rw [log, List.append_nil], fun _ => ⟨List.not_mem_nil, List.not_mem_nil⟩⟩
  cases step with
  | leave at_ | enter at_ | wake at_ | halt at_ | breakLoop at_ | goOn at_ | restart at_
  | resetGuard at_ | ran at_ | threw at_ =>
    rw [returned] at at_
    cases at_
  | launch at_ =>
    have fresh := (coherent.launching at_).1
    rw [returned] at fresh
    cases fresh
  | tell | join | notify | post =>
    exact ⟨returned, [_], rfl, fun handler => ⟨by simp, by simp⟩⟩
  | _ => exact ⟨returned, same rfl⟩

theorem quiet_of_returned {actions : List WorkerAction} {later : SimpleWebSocketWorker}
    (reachable : workerSystem.Reachable worker) (returned : worker.thread = .returned)
    (runs : workerSystem.Runs worker actions later) :
    later.thread = .returned ∧ ∃ events, later.log = worker.log ++ events ∧ Quiet events := by
  refine runs.induction (fun later => later.thread = .returned ∧
    ∃ events, later.log = worker.log ++ events ∧ Quiet events) reachable
    ⟨returned, [], (List.append_nil _).symm, fun _ => ⟨List.not_mem_nil, List.not_mem_nil⟩⟩ ?_
  rintro before action after reached _ ⟨stays, events, log, quiet⟩ stepped
  obtain ⟨still, more, grown, silent⟩ :=
    (workerStep_of_step stepped).of_returned (coherent_of_reachable reached) stays
  refine ⟨still, events ++ more, by rw [grown, log, List.append_assoc], fun handler => ?_⟩
  exact ⟨fun member => (List.mem_append.mp member).elim (quiet handler).1 (silent handler).1,
    fun member => (List.mem_append.mp member).elim (quiet handler).2 (silent handler).2⟩

/-- When `stop` returns, either `m_future` had not been assigned when it looked, and it has done
nothing; or the worker's thread has returned and released the context, and no handler is ever
executed again, whoever posts, notifies, starts or stops. -/
theorem stop_joins (reachable : workerSystem.Reachable worker)
    (stepped : workerSystem.step worker .stop = some next) (done : next.Unstopped) :
    worker.futureValid = false ∧ next = { worker with stopping := none } ∨
      next.workGuard = false ∧ ∀ actions later, workerSystem.Runs next actions later →
        later.thread = .returned ∧ ∃ events, later.log = next.log ++ events ∧ Quiet events := by
  cases workerStep_of_step stepped with
  | noFuture at_ invalid => exact Or.inl ⟨invalid, rfl⟩
  | join at_ returned =>
    refine Or.inr ⟨(coherent_of_reachable reachable).guard returned, fun actions later runs => ?_⟩
    exact quiet_of_returned (reachable.step stepped) returned runs
  | future | setShutdown | stopContext | tell => cases done

theorem stop_joins_stopWhileRunning : ∃ worker,
    workerSystem.Runs workerSystem.init stopWhileRunning worker ∧ worker.workGuard = false := by
  have evaluated : (workerSystem.run workerSystem.init stopWhileRunning.dropLast).any (fun worker =>
      decide (worker.futureValid = true) && (workerSystem.step worker .stop).any fun next =>
        decide (next.stopping = none)) = true := by
    decide +kernel
  obtain ⟨worker, runs, checked⟩ := System.exists_runs evaluated
  obtain ⟨valid, ends⟩ := (Bool.and_eq_true _ _).mp checked
  obtain ⟨next, stepped, done⟩ := (Option.any_eq_true _ _).mp ends
  have ended : next.stopping = none := of_decide_eq_true done
  have last : workerSystem.Runs worker [.stop] next :=
    System.runs_cons.mpr ⟨next, stepped, System.runs_nil.mpr rfl⟩
  have whole : workerSystem.Runs workerSystem.init stopWhileRunning next :=
    System.runs_append.mpr ⟨worker, runs, last⟩
  refine ⟨next, whole, ?_⟩
  rcases stop_joins ⟨_, runs⟩ stepped ended with ⟨invalid, _⟩ | ⟨guard, _⟩
  · rw [of_decide_eq_true valid] at invalid
    cases invalid
  · exact guard

/-! ### A worker that waits -/

/-- Whoever has called `notify` since the last exception of a handler is heard: the worker runs the
context, or is about to. -/
def Heard (worker : SimpleWebSocketWorker) : Prop :=
  ∀ before after, worker.log = before ++ .notified :: after →
    (∃ handler, .threw handler ∈ after) ∨ worker.shutdown = true ∨ worker.notify = true ∨
      worker.thread = .run

theorem Heard.step (heard : Heard worker) (coherent : Coherent worker)
    (step : WorkerStep worker action next) : Heard next := by
  have moved (log : next.log = worker.log) (shutdown : next.shutdown = worker.shutdown)
      (notify : next.notify = worker.notify) (thread : worker.thread = .run → next.thread = .run) :
      Heard next := by
    intro before after split
    rw [shutdown, notify]
    exact (heard before after (log ▸ split)).imp_right (Or.imp_right (Or.imp_right thread))
  cases step with
  | tell | notify => exact fun _ _ _ => Or.inr (Or.inr (Or.inl rfl))
  | setShutdown => exact fun _ _ _ => Or.inr (Or.inl rfl)
  | ran | wake => exact fun _ _ _ => Or.inr (Or.inr (Or.inr rfl))
  | halt at_ stopped => exact fun _ _ _ => Or.inr (Or.inl (coherent.context stopped))
  | join at_ returned => exact fun _ _ _ => Or.inr (Or.inl (coherent.leaving (Or.inr returned)))
  | @threw _ handler =>
    intro before after split
    rcases Log.concat_eq_append_cons_iff.mp split with ⟨_, _, impossible⟩ | ⟨earlier, rfl, _⟩
    · cases impossible
    · exact Or.inl ⟨handler, List.mem_append_right _ List.mem_cons_self⟩
  | post handler =>
    intro before after split
    rcases Log.concat_eq_append_cons_iff.mp split with ⟨_, _, impossible⟩ | ⟨earlier, rfl, old⟩
    · cases impossible
    · exact (heard before earlier old).imp_left fun ⟨threw, member⟩ =>
        ⟨threw, List.mem_append_left _ member⟩
  | launch at_ =>
    refine moved rfl rfl rfl fun runs => ?_
    rw [(coherent.launching at_).1] at runs
    cases runs
  | leave at_ | enter at_ | breakLoop at_ | goOn at_ | restart at_ | resetGuard at_ =>
    refine moved rfl rfl rfl fun runs => ?_
    rw [at_] at runs
    cases runs
  | _ => exact moved rfl rfl rfl id

/-- A worker that has been notified, is not being stopped and waits for a notification nobody has
given since, has left the context because a handler threw, after the last call of `notify`. Of one
that was never notified nothing is said: it waits from the start. -/
theorem waits_untold (reachable : workerSystem.Reachable worker) (waits : worker.thread = .wait)
    (untold : worker.notify = false) (running : worker.shutdown = false)
    {before after : List WorkerEvent} (told : worker.log = before ++ .notified :: after) :
    ∃ handler, .threw handler ∈ after := by
  have heard : Heard worker := by
    refine reachable.induction Heard ?_ ?_
    · intro before after split
      exact absurd (congrArg List.length split.symm) (by simp [workerSystem])
    · exact fun _ _ _ reached heard stepped =>
        heard.step (coherent_of_reachable reached) (workerStep_of_step stepped)
  rcases heard before after told with threw | shutdown | notified | runs
  · exact threw
  · rw [running] at shutdown
    cases shutdown
  · rw [untold] at notified
    cases notified
  · rw [waits] at runs
    cases runs

/-- A handler throws, and the next one has to wait for a notification. -/
def handlerThrows : List WorkerAction :=
  [.callStart, .start, .start, .advance, .notify, .advance, .post 7, .post 8, .handle 0 true,
    .advance, .advance, .advance]

theorem waits_untold_handlerThrows : ∃ worker,
    workerSystem.Runs workerSystem.init handlerThrows worker ∧ worker.handlers = [8] ∧
      ∃ handler, WorkerEvent.threw handler ∈ [.posted 7, .posted 8, .threw 7] := by
  have evaluated : (workerSystem.run workerSystem.init handlerThrows).any (fun worker =>
      decide (worker.thread = .wait ∧ worker.notify = false ∧ worker.shutdown = false ∧
        worker.handlers = [8] ∧
        worker.log = [.notified, .posted 7, .posted 8, .threw 7])) = true := by
    decide +kernel
  obtain ⟨worker, runs, checked⟩ := System.exists_runs evaluated
  obtain ⟨waits, untold, running, handlers, log⟩ := of_decide_eq_true checked
  exact ⟨worker, runs, handlers,
    waits_untold ⟨_, runs⟩ waits untold running (log.trans (List.nil_append _).symm)⟩

end Kurlyk.WebSocket
