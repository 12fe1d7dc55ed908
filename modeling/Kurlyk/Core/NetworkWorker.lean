/-
This file models the thread of `NetworkWorker` and the threads that give it work.
Every action is one atomic step of one thread: a section under a mutex, a read of
an atomic flag, or a part of `process` between two of them.

`is_loaded` tests nothing but whether containers are empty, one after the other
and under different mutexes, so the model keeps for each container the labels of
the work in it. A producer puts its work into containers that `is_loaded`
inspects and then calls `notify`; work that nobody announces has no label. What
`process` does with the work in a container is left open: it may finish any part
of it, leave it, or move it elsewhere. The step behind a manager or the tasks is
always enabled here: where something rests on their returning, it is assumed.

Condition variables lose nothing here: the worker alone waits on this one, it
tests `m_notify` under the mutex under which `notify` sets it, and so it is
blocked in its outer wait exactly while the flag is clear.
-/

import Mathlib.Data.List.ReduceOption
import Mathlib.Logic.Function.Basic
import Kurlyk.Lib.System

namespace Kurlyk.Core

/-! ### What `is_loaded` reads -/

/-- The implementations of `INetworkTaskManager`. -/
inductive Manager where
  | http
  | webSocket
deriving DecidableEq

/-- What `is_loaded` of a manager or of the worker tests. The flag `m_is_running` of a client is a
container that holds what keeps the client running. -/
inductive Container where
  -- `HttpRequestManager`
  | pendingRequests
  | failedRequests
  | activeRequestBatches
  | groupRequestCounts
  | requestsToCancelById
  | groupsToCancel
  -- `BaseWebSocketClient`
  | isRunning (client : ℕ)
  | fsmEventQueue (client : ℕ)
  -- `NetworkWorker`
  | tasksList
deriving DecidableEq

/-- The manager that a container belongs to. -/
def Container.manager : Container → Option Manager
  | .pendingRequests | .failedRequests | .activeRequestBatches | .groupRequestCounts
  | .requestsToCancelById | .groupsToCancel => some .http
  | .isRunning _ | .fsmEventQueue _ => some .webSocket
  | .tasksList => none

/-- The atomic reads of `is_loaded` of a manager, in their order. The HTTP manager tests its
containers in one section; the WebSocket manager asks one client after the other, and a client
reads its flag and then its queue. -/
def Manager.reads (clients : List ℕ) : Manager → List (List Container)
  | .http => [[.pendingRequests, .failedRequests, .activeRequestBatches, .groupRequestCounts,
      .requestsToCancelById, .groupsToCancel]]
  | .webSocket => clients.flatMap fun client => [[.isRunning client], [.fsmEventQueue client]]

/-! ### The state -/

/-- The worker goes through its managers and its tasks in `process` and in `shutdown`. -/
inductive Round where
  | process
  | shutdown
deriving DecidableEq

/-- The statement the worker's thread is at. -/
inductive Point where
  | notStarted
  -- `m_notify_condition.wait`
  | outerWait
  -- `if (m_shutdown)` after the outer wait
  | testNotified
  -- `while (is_loaded())`
  | loop
  -- the managers `is_loaded` has still to ask, and what it has still to read of the current one
  | isLoaded (managers : List Manager) (reads : List (List Container))
  | hasPendingTasks
  -- the managers that `process` or `shutdown` has not gone through
  | enter (round : Round)
  | process (round : Round) (managers : List Manager)
  | processTasks (round : Round)
  | runTasks (round : Round)
  -- `if (m_shutdown)` after `process`
  | testProcessed
  -- `m_notify_condition.wait_for`
  | innerWait
  -- `if (m_shutdown)` after the inner wait
  | testWaited
  -- `if (m_shutdown)` after the loop
  | testIdle
  | returned
deriving DecidableEq

/-- The worker holds `m_managers_mutex`. -/
def Point.holdsManagers : Point → Bool
  | .isLoaded _ _ => true
  | .process _ _ => true
  | _ => false

/-- The worker holds the mutex of the client list. -/
def Point.holdsClientList : Point → Bool
  | .isLoaded _ (read :: _) => read.any (·.manager = some .webSocket)
  | .process _ (.webSocket :: _) => true
  | _ => false

/-- The members of `NetworkWorker` that its loop uses, what the containers hold, the clients in the
list of the WebSocket manager, and how far the producers are: `submitted` is the work that
was made visible, `notified` the work whose `notify` has returned. -/
structure NetworkWorker where
  notify : Bool := false
  shutdown : Bool := false
  managers : List Manager := []
  clients : List ℕ := []
  content : Container → List (Option ℕ) := fun _ => []
  point : Point := .notStarted
  submitted : List ℕ := []
  notified : List ℕ := []

/-- The actions of the producers and other threads, and those of the worker's thread. -/
inductive WorkerAction where
  | registerManager (manager : Manager)
  | createClient (client : ℕ)
  | submit (work : ℕ) (containers : List Container)
  | notifyOf (work : ℕ)
  | notify
  | appear (container : Container)
  | expire (client : ℕ)
  | requestShutdown
  | start
  | advance
  | work (container : Container) (left : List (Option ℕ))
  | throw

namespace NetworkWorker

variable (worker : NetworkWorker)

/-- The containers that `is_loaded` reads. -/
def inspected : List Container :=
  (worker.managers.flatMap fun manager => (manager.reads worker.clients).flatten) ++ [.tasksList]

/-- One atomic read finds something. -/
def found (read : List Container) : Bool :=
  read.any fun container => !(worker.content container).isEmpty

/-- What `is_loaded` returns when nothing happens in between. -/
def isLoaded : Bool :=
  (worker.managers.any fun manager => (manager.reads worker.clients).any worker.found) ||
    worker.found [.tasksList]

/-- The work is in a container that makes `is_loaded` return true. -/
def Unprocessed (work : ℕ) : Prop :=
  ∃ container ∈ worker.inspected, some work ∈ worker.content container

/-! ### The steps of the other threads -/

/-- Work is put into containers in one section. -/
def put (entry : Option ℕ) (containers : List Container) : NetworkWorker :=
  { worker with
    content := fun container =>
      if container ∈ containers then worker.content container ++ [entry]
      else worker.content container }

/-- `register_manager`. -/
def registerManager (manager : Manager) : Option NetworkWorker :=
  if worker.point.holdsManagers then none
  else if manager ∈ worker.managers then some worker
  else some { worker with managers := worker.managers ++ [manager] }

/-- `WebSocketManager::create_client`. -/
def createClient (client : ℕ) : Option NetworkWorker :=
  if worker.point.holdsClientList then none
  else some { worker with clients := worker.clients ++ [client] }

/-- The section of a submit, a cancel or `add_task` that makes new work visible. -/
def submit (work : ℕ) (containers : List Container) : Option NetworkWorker :=
  if work ∉ worker.submitted ∧ containers ⊆ worker.inspected then
    some { worker.put (some work) containers with submitted := work :: worker.submitted }
  else none

/-- `notify`. -/
def setNotify : NetworkWorker :=
  { worker with notify := true }

/-- `notify` of a producer whose work is visible. -/
def notifyOf (work : ℕ) : Option NetworkWorker :=
  if work ∈ worker.submitted then
    some { worker.setNotify with notified := work :: worker.notified }
  else none

/-- A client is destroyed: the weak pointer in the list gives nothing any more. -/
def expire (client : ℕ) : NetworkWorker :=
  { worker with
    content := fun container =>
      if container = .isRunning client ∨ container = .fsmEventQueue client then []
      else worker.content container }

/-! ### The steps of the worker's thread -/

/-- The worker goes on to a statement. -/
def goto (point : Point) : NetworkWorker :=
  { worker with point := point }

/-- `if (m_shutdown) { shutdown(); return; }`. -/
def testShutdown (otherwise : Point) : NetworkWorker :=
  worker.goto (if worker.shutdown then .enter .shutdown else otherwise)

/-- The next statement of the worker's thread, when it can go on. `wait_for` returns when it is
notified, when the shutdown has begun, and after a millisecond. -/
def advance : Option NetworkWorker :=
  match worker.point with
  | .notStarted => none
  | .outerWait =>
    if worker.notify then some { worker.goto .testNotified with notify := false } else none
  | .testNotified => some (worker.testShutdown .loop)
  | .loop => some (worker.goto (.isLoaded worker.managers []))
  | .isLoaded managers (read :: reads) =>
    some (worker.goto
      (if worker.found read then .enter .process else .isLoaded managers reads))
  | .isLoaded (manager :: managers) [] =>
    some (worker.goto (.isLoaded managers (manager.reads worker.clients)))
  | .isLoaded [] [] => some (worker.goto .hasPendingTasks)
  | .hasPendingTasks =>
    some (worker.goto (if worker.found [.tasksList] then .enter .process else .testIdle))
  | .enter round => some (worker.goto (.process round worker.managers))
  | .process round (_ :: managers) => some (worker.goto (.process round managers))
  | .process round [] => some (worker.goto (.processTasks round))
  | .processTasks round =>
    some { worker.goto (.runTasks round) with
      content := Function.update worker.content .tasksList [] }
  | .runTasks .process => some (worker.goto .testProcessed)
  | .runTasks .shutdown => some (worker.goto .returned)
  | .testProcessed => some (worker.testShutdown .innerWait)
  | .innerWait => some { worker.goto .testWaited with notify := false }
  | .testWaited => some (worker.testShutdown .loop)
  | .testIdle => some (worker.testShutdown .outerWait)
  | .returned => none

/-- The worker may work on the container now: the manager of the container is processed, or a task
runs, which may shut down a client or call `process` itself. -/
def worksOn (container : Container) : Bool :=
  match worker.point with
  | .process _ (manager :: _) => container.manager = some manager
  | .runTasks _ => true
  | _ => false

/-- A part of `process` or `shutdown` of a manager: the container holds what is left in it or was
moved to it. -/
def work (container : Container) (left : List (Option ℕ)) : Option NetworkWorker :=
  if worker.worksOn container ∧ container ∈ worker.inspected ∧
      left.reduceOption ⊆ worker.submitted then
    some { worker with content := Function.update worker.content container left }
  else none

/-- An exception of a callback ends the thread; the future keeps it. -/
def throw : Option NetworkWorker :=
  match worker.point with
  | .process _ (_ :: _) => some (worker.goto .returned)
  | .runTasks _ => some (worker.goto .returned)
  | _ => none

/-- `start(true)`, once. -/
def start : Option NetworkWorker :=
  if worker.point = .notStarted then some (worker.goto .outerWait) else none

/-- The step of an action. -/
def step : WorkerAction → Option NetworkWorker
  | .registerManager manager => worker.registerManager manager
  | .createClient client => worker.createClient client
  | .submit work containers => worker.submit work containers
  | .notifyOf work => worker.notifyOf work
  | .notify => some worker.setNotify
  | .appear container => some (worker.put none [container])
  | .expire client => some (worker.expire client)
  | .requestShutdown => some { worker with shutdown := true }
  | .start => worker.start
  | .advance => worker.advance
  | .work container left => worker.work container left
  | .throw => worker.throw

end NetworkWorker

/-- The worker and its producers, from the first call of `get_instance` on. -/
def workerSystem : System NetworkWorker WorkerAction where
  init := {}
  step := NetworkWorker.step

end Kurlyk.Core
