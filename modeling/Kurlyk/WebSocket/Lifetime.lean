/-
This file models how long a WebSocket client lives: the `WebSocketClient` a user has, the client
behind it, the list of weak pointers in `WebSocketManager`, the task that the destructor of
`WebSocketClient` passes to `NetworkWorker`, and the events, each of which owns the client that sent
it. A client is destroyed with the last shared pointer to it.

Any number of calls of `process`, `shutdown` and `is_loaded` may be in progress, also nested ones
from a running task. Every action is one section of one thread, or one call between sections. What a
client does when it is processed is left open, except for where its events go.
-/

import Mathlib.Data.Nat.Notation
import Mathlib.Logic.Basic
import Kurlyk.Lib.Log
import Kurlyk.Lib.System

namespace Kurlyk.WebSocket

/-! ### The state -/

/-- A task of `NetworkWorker`. -/
inductive Job where
  -- the task of a destructor, which owns the client
  | shutdown (client : ℕ)
  | other
deriving DecidableEq

/-- A call that goes through the clients of the manager. -/
inductive Visit where
  | process
  | shutdown
  | isLoaded
deriving DecidableEq

/-- Where such a call is. `visited` is there for the statements only. -/
inductive PassStage where
  | start
  -- in the loop of `WebSocketManager`, with the client that `lock` has given
  | clients (visited rest : List ℕ) (held : Option ℕ)
  | beforeTasks
  -- in the loop of `process_tasks`: the local list stays as it is until the loop ends
  | tasks (tasksList rest : List Job)
deriving DecidableEq

structure Pass where
  visit : Visit
  stage : PassStage
deriving DecidableEq

inductive LifetimeEvent where
  | shutDown (client : ℕ)
  -- a client or a task threw, and the call was left
  | threw
deriving DecidableEq

/-- Where an event goes. -/
inductive EventTarget where
  | dropped
  | user
  | stored
deriving DecidableEq

/-- All clients, numbered in the order of their creation, and what owns them. An event stands for
its sender. -/
structure Lifetimes where
  created : ℕ := 0
  facades : List ℕ := []
  -- in `~WebSocketClient`, behind `add_task`
  leaving : List ℕ := []
  clientList : List ℕ := []
  fsmEvents : List ℕ := []
  storedEvents : List ℕ := []
  userEvents : List ℕ := []
  tasksList : List Job := []
  passes : List Pass := []
  log : List LifetimeEvent := []

inductive LifetimeAction where
  | createClient
  | scheduleShutdown (client : ℕ)
  | dropFacade (client : ℕ)
  | addTask
  | report (client : ℕ)
  | consume (client : ℕ) (target : EventTarget)
  | emit (client : ℕ) (target : EventTarget)
  | receive (client : ℕ)
  | copySender (client : ℕ)
  | dropEvent (client : ℕ)
  | call (visit : Visit)
  | enter (position : ℕ)
  | visitNext (position : ℕ)
  | release (position : ℕ)
  | found (position : ℕ)
  | leave (position : ℕ)
  | takeTasks (position : ℕ)
  | runTask (position : ℕ)
  | throw (position : ℕ)
  | finish (position : ℕ)
deriving DecidableEq

/-- The client that a task owns. -/
def Job.clients : Job → List ℕ
  | .shutdown client => [client]
  | .other => []

namespace Pass

variable (pass : Pass)

/-- The clients that a call owns. -/
def clients : List ℕ :=
  match pass.stage with
  | .start | .beforeTasks => []
  | .clients _ _ held => held.toList
  | .tasks tasksList _ => tasksList.flatMap Job.clients

/-- The tasks that a call has yet to run. -/
def pending : List Job :=
  match pass.stage with
  | .tasks _ rest => rest
  | _ => []

/-- The call holds `m_client_list_mutex`. -/
def locks : Bool :=
  match pass.stage with
  | .clients .. => true
  | _ => false

/-- The client whose `process` or `shutdown` the call is in. -/
def inside : Option ℕ :=
  match pass.visit, pass.stage with
  | .process, .clients _ _ held | .shutdown, .clients _ _ held => held
  | _, .tasks _ (.shutdown client :: _) => some client
  | _, _ => none

end Pass

namespace Lifetimes

variable (world : Lifetimes)

/-- What owns clients, a client for each shared pointer. -/
def owned : List ℕ :=
  world.facades ++ world.leaving ++ world.tasksList.flatMap Job.clients ++
    world.passes.flatMap Pass.clients ++ world.fsmEvents ++ world.storedEvents ++ world.userEvents

/-- The client exists. -/
def Alive (client : ℕ) : Prop :=
  client ∈ world.owned

instance : DecidablePred world.Alive :=
  fun client => inferInstanceAs (Decidable (client ∈ world.owned))

/-- `m_client_list_mutex` is held. -/
def locked : Bool :=
  world.passes.any Pass.locks

/-- Some call is in `process` or `shutdown` of the client. -/
def busy (client : ℕ) : Bool :=
  world.passes.any (·.inside = some client)

def setPass (position : ℕ) (pass : Pass) : Lifetimes :=
  { world with passes := world.passes.set position pass }

/-- An event of the client comes to its target. -/
def sendTo (client : ℕ) : EventTarget → Lifetimes
  | .dropped => world
  | .user => { world with userEvents := client :: world.userEvents }
  | .stored => { world with storedEvents := client :: world.storedEvents }

/-! ### The steps of the users and of the backend -/

/-- `WebSocketClient()`, with `create_client` in it. -/
def createClient : Option Lifetimes :=
  if world.locked then none
  else some { world with
    created := world.created + 1
    facades := world.created :: world.facades
    clientList := world.clientList ++ [world.created] }

/-- `~WebSocketClient` up to the end of `add_task`. -/
def scheduleShutdown (client : ℕ) : Option Lifetimes :=
  if client ∈ world.facades then
    some { world with
      facades := world.facades.erase client
      leaving := client :: world.leaving
      tasksList := world.tasksList ++ [.shutdown client] }
  else none

/-- The rest of `~WebSocketClient`. -/
def dropFacade (client : ℕ) : Option Lifetimes :=
  if client ∈ world.leaving then some { world with leaving := world.leaving.erase client }
  else none

/-- A callback of the connection, which calls `add_fsm_event`. -/
def report (client : ℕ) : Option Lifetimes :=
  if world.Alive client then some { world with fsmEvents := client :: world.fsmEvents } else none

/-- The state machine takes an event from its queue. -/
def consume (client : ℕ) (target : EventTarget) : Option Lifetimes :=
  if world.busy client ∧ client ∈ world.fsmEvents then
    some ({ world with fsmEvents := world.fsmEvents.erase client }.sendTo client target)
  else none

/-- The state machine makes an event. -/
def emit (client : ℕ) (target : EventTarget) : Option Lifetimes :=
  if world.busy client then some (world.sendTo client target) else none

/-- `receive_event`, or one event of `receive_events`. -/
def receive (client : ℕ) : Option Lifetimes :=
  if client ∈ world.facades ∧ client ∈ world.storedEvents then
    some { world with
      storedEvents := world.storedEvents.erase client
      userEvents := client :: world.userEvents }
  else none

/-- A user copies the pointer to the sender of an event. -/
def copySender (client : ℕ) : Option Lifetimes :=
  if client ∈ world.userEvents then some { world with userEvents := client :: world.userEvents }
  else none

/-- A user is done with an event, or with a copied pointer. -/
def dropEvent (client : ℕ) : Option Lifetimes :=
  if client ∈ world.userEvents then some { world with userEvents := world.userEvents.erase client }
  else none

/-! ### The steps of the calls -/

/-- The manager's function locks the list. -/
def enter (position : ℕ) : Option Lifetimes :=
  match world.passes[position]? with
  | some ⟨visit, .start⟩ =>
    if world.locked then none
    else some (world.setPass position ⟨visit, .clients [] world.clientList none⟩)
  | _ => none

/-- The weak pointer of the next client is locked. -/
def visitNext (position : ℕ) : Option Lifetimes :=
  match world.passes[position]? with
  | some ⟨visit, .clients visited (client :: rest) none⟩ =>
    some (world.setPass position (if world.Alive client then
      ⟨visit, .clients (visited ++ [client]) rest (some client)⟩
    else ⟨visit, .clients visited rest none⟩))
  | _ => none

/-- The shared pointer of the loop goes out of scope. -/
def release (position : ℕ) : Option Lifetimes :=
  match world.passes[position]? with
  | some ⟨visit, .clients visited rest (some _)⟩ =>
    some (world.setPass position ⟨visit, .clients visited rest none⟩)
  | _ => none

/-- `is_loaded` has found a client that runs. -/
def found (position : ℕ) : Option Lifetimes :=
  match world.passes[position]? with
  | some ⟨.isLoaded, .clients _ _ (some _)⟩ =>
    some { world with passes := world.passes.eraseIdx position }
  | _ => none

/-- The loop over the clients ends. `process` removes the expired ones. -/
def leave (position : ℕ) : Option Lifetimes :=
  match world.passes[position]? with
  | some ⟨.process, .clients _ [] none⟩ =>
    some { world.setPass position ⟨.process, .beforeTasks⟩ with
      clientList := world.clientList.filter (decide <| world.Alive ·) }
  | some ⟨.shutdown, .clients _ [] none⟩ =>
    some (world.setPass position ⟨.shutdown, .beforeTasks⟩)
  | some ⟨.isLoaded, .clients _ [] none⟩ =>
    some { world with passes := world.passes.eraseIdx position }
  | _ => none

/-- The section of `process_tasks`. -/
def takeTasks (position : ℕ) : Option Lifetimes :=
  match world.passes[position]? with
  | some ⟨visit, .beforeTasks⟩ =>
    some { world.setPass position ⟨visit, .tasks world.tasksList world.tasksList⟩ with
      tasksList := [] }
  | _ => none

/-- A task returns. -/
def runTask (position : ℕ) : Option Lifetimes :=
  match world.passes[position]? with
  | some ⟨visit, .tasks tasksList (job :: rest)⟩ =>
    some { world.setPass position ⟨visit, .tasks tasksList rest⟩ with
      log := world.log ++ job.clients.map .shutDown }
  | _ => none

/-- A client or a task throws: the call is left, and its list is destroyed. -/
def throw (position : ℕ) : Option Lifetimes :=
  match world.passes[position]? with
  | some ⟨.process, .clients _ _ (some _)⟩ | some ⟨.shutdown, .clients _ _ (some _)⟩
  | some ⟨_, .tasks _ (_ :: _)⟩ =>
    some { world with
      passes := world.passes.eraseIdx position
      log := world.log ++ [.threw] }
  | _ => none

/-- The loop over the tasks ends, and the local list is destroyed. -/
def finish (position : ℕ) : Option Lifetimes :=
  match world.passes[position]? with
  | some ⟨_, .tasks _ []⟩ => some { world with passes := world.passes.eraseIdx position }
  | _ => none

/-- One step of one thread. -/
def step : LifetimeAction → Option Lifetimes
  | .createClient => world.createClient
  | .scheduleShutdown client => world.scheduleShutdown client
  | .dropFacade client => world.dropFacade client
  | .addTask => some { world with tasksList := world.tasksList ++ [.other] }
  | .report client => world.report client
  | .consume client target => world.consume client target
  | .emit client target => world.emit client target
  | .receive client => world.receive client
  | .copySender client => world.copySender client
  | .dropEvent client => world.dropEvent client
  | .call visit => some { world with passes := world.passes ++ [⟨visit, .start⟩] }
  | .enter position => world.enter position
  | .visitNext position => world.visitNext position
  | .release position => world.release position
  | .found position => world.found position
  | .leave position => world.leave position
  | .takeTasks position => world.takeTasks position
  | .runTask position => world.runTask position
  | .throw position => world.throw position
  | .finish position => world.finish position

end Lifetimes

/-- The clients with all threads, as a system. -/
def lifetimeSystem : System Lifetimes LifetimeAction where
  init := {}
  step := Lifetimes.step

/-! ### What one step can do -/

/-- The steps of all threads, with what they need and what they leave. -/
inductive LifetimeStep (world : Lifetimes) : LifetimeAction → Lifetimes → Prop where
  | createClient (unlocked : world.locked = false) : LifetimeStep world .createClient
      { world with
        created := world.created + 1
        facades := world.created :: world.facades
        clientList := world.clientList ++ [world.created] }
  | scheduleShutdown {client : ℕ} (owner : client ∈ world.facades) :
      LifetimeStep world (.scheduleShutdown client) { world with
        facades := world.facades.erase client
        leaving := client :: world.leaving
        tasksList := world.tasksList ++ [.shutdown client] }
  | dropFacade {client : ℕ} (owner : client ∈ world.leaving) :
      LifetimeStep world (.dropFacade client) { world with leaving := world.leaving.erase client }
  | addTask : LifetimeStep world .addTask { world with tasksList := world.tasksList ++ [.other] }
  | report {client : ℕ} (alive : world.Alive client) : LifetimeStep world (.report client)
      { world with fsmEvents := client :: world.fsmEvents }
  | consume {client : ℕ} {target : EventTarget} (queued : client ∈ world.fsmEvents) :
      LifetimeStep world (.consume client target)
        ({ world with fsmEvents := world.fsmEvents.erase client }.sendTo client target)
  | emit {client : ℕ} {target : EventTarget} (busy : world.busy client = true) :
      LifetimeStep world (.emit client target) (world.sendTo client target)
  | receive {client : ℕ} (owner : client ∈ world.facades) (stored : client ∈ world.storedEvents) :
      LifetimeStep world (.receive client) { world with
        storedEvents := world.storedEvents.erase client
        userEvents := client :: world.userEvents }
  | copySender {client : ℕ} (held : client ∈ world.userEvents) :
      LifetimeStep world (.copySender client)
        { world with userEvents := client :: world.userEvents }
  | dropEvent {client : ℕ} (held : client ∈ world.userEvents) :
      LifetimeStep world (.dropEvent client)
        { world with userEvents := world.userEvents.erase client }
  | call (visit : Visit) : LifetimeStep world (.call visit)
      { world with passes := world.passes ++ [⟨visit, .start⟩] }
  | enter {position : ℕ} {visit : Visit} (at_ : world.passes[position]? = some ⟨visit, .start⟩)
      (unlocked : world.locked = false) : LifetimeStep world (.enter position)
        (world.setPass position ⟨visit, .clients [] world.clientList none⟩)
  | locked {position client : ℕ} {visit : Visit} {visited rest : List ℕ}
      (at_ : world.passes[position]? = some ⟨visit, .clients visited (client :: rest) none⟩)
      (alive : world.Alive client) : LifetimeStep world (.visitNext position)
        (world.setPass position ⟨visit, .clients (visited ++ [client]) rest (some client)⟩)
  | expired {position client : ℕ} {visit : Visit} {visited rest : List ℕ}
      (at_ : world.passes[position]? = some ⟨visit, .clients visited (client :: rest) none⟩)
      (dead : ¬ world.Alive client) : LifetimeStep world (.visitNext position)
        (world.setPass position ⟨visit, .clients visited rest none⟩)
  | release {position client : ℕ} {visit : Visit} {visited rest : List ℕ}
      (at_ : world.passes[position]? = some ⟨visit, .clients visited rest (some client)⟩) :
      LifetimeStep world (.release position)
        (world.setPass position ⟨visit, .clients visited rest none⟩)
  | found {position client : ℕ} {visited rest : List ℕ}
      (at_ : world.passes[position]? = some ⟨.isLoaded, .clients visited rest (some client)⟩) :
      LifetimeStep world (.found position) { world with passes := world.passes.eraseIdx position }
  | leaveProcess {position : ℕ} {visited : List ℕ}
      (at_ : world.passes[position]? = some ⟨.process, .clients visited [] none⟩) :
      LifetimeStep world (.leave position) { world.setPass position ⟨.process, .beforeTasks⟩ with
        clientList := world.clientList.filter (decide <| world.Alive ·) }
  | leaveShutdown {position : ℕ} {visited : List ℕ}
      (at_ : world.passes[position]? = some ⟨.shutdown, .clients visited [] none⟩) :
      LifetimeStep world (.leave position) (world.setPass position ⟨.shutdown, .beforeTasks⟩)
  | leaveIsLoaded {position : ℕ} {visited : List ℕ}
      (at_ : world.passes[position]? = some ⟨.isLoaded, .clients visited [] none⟩) :
      LifetimeStep world (.leave position) { world with passes := world.passes.eraseIdx position }
  | takeTasks {position : ℕ} {visit : Visit}
      (at_ : world.passes[position]? = some ⟨visit, .beforeTasks⟩) :
      LifetimeStep world (.takeTasks position)
        { world.setPass position ⟨visit, .tasks world.tasksList world.tasksList⟩ with
          tasksList := [] }
  | runTask {position : ℕ} {visit : Visit} {tasksList rest : List Job} {job : Job}
      (at_ : world.passes[position]? = some ⟨visit, .tasks tasksList (job :: rest)⟩) :
      LifetimeStep world (.runTask position)
        { world.setPass position ⟨visit, .tasks tasksList rest⟩ with
          log := world.log ++ job.clients.map .shutDown }
  | throw {position : ℕ} {pass : Pass} (at_ : world.passes[position]? = some pass) :
      LifetimeStep world (.throw position) { world with
        passes := world.passes.eraseIdx position
        log := world.log ++ [.threw] }
  | finish {position : ℕ} {visit : Visit} {tasksList : List Job}
      (at_ : world.passes[position]? = some ⟨visit, .tasks tasksList []⟩) :
      LifetimeStep world (.finish position) { world with passes := world.passes.eraseIdx position }

variable {world next : Lifetimes} {action : LifetimeAction} {client : ℕ}

/-- A step that is made when its condition holds. -/
theorem eq_of_ite {condition : Prop} [Decidable condition] {result : Lifetimes}
    (stepped : (if condition then some result else none) = some next) :
    condition ∧ next = result := by
  by_cases holds : condition
  · rw [if_pos holds] at stepped
    exact ⟨holds, (Option.some.inj stepped).symm⟩
  · rw [if_neg holds] at stepped
    cases stepped

theorem lifetimeStep_of_step (stepped : lifetimeSystem.step world action = some next) :
    LifetimeStep world action next := by
  cases action with
  | createClient =>
    change world.createClient = some next at stepped
    unfold Lifetimes.createClient at stepped
    split at stepped
    · cases stepped
    · rename_i unlocked
      obtain rfl := Option.some.inj stepped
      exact .createClient (by simpa using unlocked)
  | scheduleShutdown client =>
    obtain ⟨owner, rfl⟩ := eq_of_ite stepped
    exact .scheduleShutdown owner
  | dropFacade client =>
    obtain ⟨owner, rfl⟩ := eq_of_ite stepped
    exact .dropFacade owner
  | addTask =>
    obtain rfl := Option.some.inj stepped
    exact .addTask
  | report client =>
    obtain ⟨alive, rfl⟩ := eq_of_ite stepped
    exact .report alive
  | consume client target =>
    obtain ⟨⟨_, queued⟩, rfl⟩ := eq_of_ite stepped
    exact .consume queued
  | emit client target =>
    obtain ⟨busy, rfl⟩ := eq_of_ite stepped
    exact .emit busy
  | receive client =>
    obtain ⟨⟨owner, stored⟩, rfl⟩ := eq_of_ite stepped
    exact .receive owner stored
  | copySender client =>
    obtain ⟨held, rfl⟩ := eq_of_ite stepped
    exact .copySender held
  | dropEvent client =>
    obtain ⟨held, rfl⟩ := eq_of_ite stepped
    exact .dropEvent held
  | call visit =>
    obtain rfl := Option.some.inj stepped
    exact .call visit
  | enter position =>
    change world.enter position = some next at stepped
    unfold Lifetimes.enter at stepped
    split at stepped
    · split at stepped
      · cases stepped
      · rename_i at_ unlocked
        obtain rfl := Option.some.inj stepped
        exact .enter at_ (by simpa using unlocked)
    · cases stepped
  | visitNext position =>
    change world.visitNext position = some next at stepped
    unfold Lifetimes.visitNext at stepped
    split at stepped
    · rename_i at_
      obtain rfl := Option.some.inj stepped
      split
      · exact .locked at_ ‹_›
      · exact .expired at_ ‹_›
    · cases stepped
  | release position =>
    change world.release position = some next at stepped
    unfold Lifetimes.release at stepped
    split at stepped
    · obtain rfl := Option.some.inj stepped
      exact .release ‹_›
    · cases stepped
  | found position =>
    change world.found position = some next at stepped
    unfold Lifetimes.found at stepped
    split at stepped
    · obtain rfl := Option.some.inj stepped
      exact .found ‹_›
    · cases stepped
  | leave position =>
    change world.leave position = some next at stepped
    unfold Lifetimes.leave at stepped
    split at stepped
    · obtain rfl := Option.some.inj stepped
      exact .leaveProcess ‹_›
    · obtain rfl := Option.some.inj stepped
      exact .leaveShutdown ‹_›
    · obtain rfl := Option.some.inj stepped
      exact .leaveIsLoaded ‹_›
    · cases stepped
  | takeTasks position =>
    change world.takeTasks position = some next at stepped
    unfold Lifetimes.takeTasks at stepped
    split at stepped
    · obtain rfl := Option.some.inj stepped
      exact .takeTasks ‹_›
    · cases stepped
  | runTask position =>
    change world.runTask position = some next at stepped
    unfold Lifetimes.runTask at stepped
    split at stepped
    · obtain rfl := Option.some.inj stepped
      exact .runTask ‹_›
    · cases stepped
  | throw position =>
    change world.throw position = some next at stepped
    unfold Lifetimes.throw at stepped
    split at stepped
    · obtain rfl := Option.some.inj stepped
      exact .throw ‹_›
    · obtain rfl := Option.some.inj stepped
      exact .throw ‹_›
    · obtain rfl := Option.some.inj stepped
      exact .throw ‹_›
    · cases stepped
  | finish position =>
    change world.finish position = some next at stepped
    unfold Lifetimes.finish at stepped
    split at stepped
    · obtain rfl := Option.some.inj stepped
      exact .finish ‹_›
    · cases stepped

/-! ### Who is alive -/

theorem alive_iff : world.Alive client ↔ client ∈ world.facades ∨ client ∈ world.leaving ∨
    client ∈ world.tasksList.flatMap Job.clients ∨ client ∈ world.passes.flatMap Pass.clients ∨
    client ∈ world.fsmEvents ∨ client ∈ world.storedEvents ∨ client ∈ world.userEvents := by
  simp only [Lifetimes.Alive, Lifetimes.owned, List.mem_append, or_assoc]

theorem alive_of_facade (owner : client ∈ world.facades) : world.Alive client :=
  alive_iff.mpr (.inl owner)

theorem alive_of_leaving (owner : client ∈ world.leaving) : world.Alive client :=
  alive_iff.mpr (.inr (.inl owner))

theorem alive_of_task {job : Job} (queued : job ∈ world.tasksList) (owner : client ∈ job.clients) :
    world.Alive client :=
  alive_iff.mpr (.inr (.inr (.inl (List.mem_flatMap.mpr ⟨job, queued, owner⟩))))

theorem alive_of_pass {pass : Pass} (member : pass ∈ world.passes) (owner : client ∈ pass.clients) :
    world.Alive client :=
  alive_iff.mpr (.inr (.inr (.inr (.inl (List.mem_flatMap.mpr ⟨pass, member, owner⟩)))))

theorem alive_of_fsmEvent (owner : client ∈ world.fsmEvents) : world.Alive client :=
  alive_iff.mpr (.inr (.inr (.inr (.inr (.inl owner)))))

theorem alive_of_storedEvent (owner : client ∈ world.storedEvents) : world.Alive client :=
  alive_iff.mpr (.inr (.inr (.inr (.inr (.inr (.inl owner))))))

theorem alive_of_userEvent (owner : client ∈ world.userEvents) : world.Alive client :=
  alive_iff.mpr (.inr (.inr (.inr (.inr (.inr (.inr owner))))))

/-- A client is alive when each of its pointers was there before or is a copy of such a pointer. -/
theorem alive_of_owners (alive : next.Alive client)
    (facades : client ∈ next.facades → client ∈ world.facades ∨ world.Alive client)
    (leaving : client ∈ next.leaving → client ∈ world.leaving ∨ world.Alive client)
    (tasks : ∀ job ∈ next.tasksList, client ∈ job.clients →
      job ∈ world.tasksList ∨ world.Alive client)
    (passes : ∀ pass ∈ next.passes, client ∈ pass.clients →
      pass ∈ world.passes ∨ world.Alive client)
    (fsmEvents : client ∈ next.fsmEvents → client ∈ world.fsmEvents ∨ world.Alive client)
    (storedEvents : client ∈ next.storedEvents →
      client ∈ world.storedEvents ∨ world.Alive client)
    (userEvents : client ∈ next.userEvents → client ∈ world.userEvents ∨ world.Alive client) :
    world.Alive client := by
  rcases alive_iff.mp alive with owner | owner | owner | owner | owner | owner | owner
  · exact (facades owner).elim alive_of_facade id
  · exact (leaving owner).elim alive_of_leaving id
  · obtain ⟨job, queued, owner⟩ := List.mem_flatMap.mp owner
    exact (tasks job queued owner).elim (alive_of_task · owner) id
  · obtain ⟨pass, member, owner⟩ := List.mem_flatMap.mp owner
    exact (passes pass member owner).elim (alive_of_pass · owner) id
  · exact (fsmEvents owner).elim alive_of_fsmEvent id
  · exact (storedEvents owner).elim alive_of_storedEvent id
  · exact (userEvents owner).elim alive_of_userEvent id

@[simp]
theorem mem_clients_job {job : Job} : client ∈ job.clients ↔ job = .shutdown client := by
  cases job with
  | shutdown other => simp [Job.clients, eq_comm]
  | other => simp [Job.clients]

/-- A client that is alive owing to a call is so owing to the call that was written, or was so. -/
theorem alive_of_setPass {position : ℕ} {pass : Pass}
    (alive : (world.setPass position pass).Alive client) :
    client ∈ pass.clients ∨ world.Alive client := by
  by_cases owner : client ∈ pass.clients
  · exact .inl owner
  · refine .inr (alive_of_owners alive .inl .inl (fun _ queued _ => .inl queued) ?_ .inl .inl .inl)
    intro other member owned
    rcases List.mem_or_eq_of_mem_set member with old | rfl
    · exact .inl old
    · exact absurd owned owner

theorem alive_of_erasePass {position : ℕ}
    (alive : { world with passes := world.passes.eraseIdx position }.Alive client) :
    world.Alive client :=
  alive_of_owners alive .inl .inl (fun _ queued _ => .inl queued)
    (fun _ member _ => .inl (List.mem_of_mem_eraseIdx member)) .inl .inl .inl

theorem alive_of_sendTo {target : EventTarget} {sender : ℕ}
    (alive : (world.sendTo sender target).Alive client) : client = sender ∨ world.Alive client := by
  rcases eq_or_ne client sender with same | other
  · exact .inl same
  · refine .inr ?_
    cases target with
    | dropped => exact alive
    | user =>
      exact alive_of_owners alive .inl .inl (fun _ queued _ => .inl queued)
        (fun _ member _ => .inl member) .inl .inl
        fun owner => .inl (List.mem_of_ne_of_mem other owner)
    | stored =>
      exact alive_of_owners alive .inl .inl (fun _ queued _ => .inl queued)
        (fun _ member _ => .inl member) .inl
        (fun owner => .inl (List.mem_of_ne_of_mem other owner)) .inl

/-! ### The invariant -/

/-- Where all clients are. -/
structure Tracked (world : Lifetimes) : Prop where
  -- a task that has yet to run is still in the local list
  listed : ∀ pass ∈ world.passes, ∀ client, .shutdown client ∈ pass.pending →
    client ∈ pass.clients
  registered : ∀ client, world.Alive client → client ∈ world.clientList ∧ client < world.created
  settled : ∀ client < world.created, client ∈ world.facades ∨
    .shutdown client ∈ world.tasksList ∨ (∃ pass ∈ world.passes, .shutdown client ∈ pass.pending) ∨
    .shutDown client ∈ world.log ∨ .threw ∈ world.log
  -- the list does not grow while a call is in its loop
  swept : ∀ pass ∈ world.passes, ∀ visited rest held, pass.stage = .clients visited rest held →
    ∀ client, world.Alive client → client ∈ visited ∨ client ∈ rest

/-- A client that some call is in is owned by it. -/
theorem Tracked.alive_of_busy (tracked : Tracked world) (busy : world.busy client = true) :
    world.Alive client := by
  obtain ⟨pass, member, inside⟩ := List.any_eq_true.mp busy
  rw [decide_eq_true_iff] at inside
  refine alive_of_pass member ?_
  have listed := tracked.listed pass member client
  unfold Pass.inside at inside
  split at inside
  · rename_i stage
    rw [Pass.clients, stage, Option.mem_toList, inside]
  · rename_i stage
    rw [Pass.clients, stage, Option.mem_toList, inside]
  · rename_i stage
    obtain rfl := Option.some.inj inside
    exact listed (by rw [Pass.pending, stage]; exact List.mem_cons_self)
  · cases inside

/-- No step brings a client back to life. -/
theorem alive_of_step (tracked : Tracked world) (step : LifetimeStep world action next)
    (alive : next.Alive client) :
    world.Alive client ∨ action = .createClient ∧ client = world.created := by
  cases step with
  | createClient unlocked =>
    rcases eq_or_ne client world.created with new | old
    · exact .inr ⟨rfl, new⟩
    · exact .inl (alive_of_owners alive (fun owner => .inl (List.mem_of_ne_of_mem old owner)) .inl
        (fun _ queued _ => .inl queued) (fun _ member _ => .inl member) .inl .inl .inl)
  | scheduleShutdown present =>
    refine .inl (alive_of_owners alive (fun owner => .inl (List.mem_of_mem_erase owner))
      (fun owner => ?_) (fun job queued owner => ?_) (fun _ member _ => .inl member) .inl .inl .inl)
    · rcases List.mem_cons.mp owner with rfl | old
      · exact .inr (alive_of_facade present)
      · exact .inl old
    · rcases List.mem_append.mp queued with old | new
      · exact .inl old
      · rw [List.mem_singleton.mp new, mem_clients_job, Job.shutdown.injEq] at owner
        exact .inr (alive_of_facade (owner ▸ present))
  | dropFacade present =>
    exact .inl (alive_of_owners alive .inl (fun owner => .inl (List.mem_of_mem_erase owner))
      (fun _ queued _ => .inl queued) (fun _ member _ => .inl member) .inl .inl .inl)
  | addTask =>
    refine .inl (alive_of_owners alive .inl .inl (fun job queued owner => ?_)
      (fun _ member _ => .inl member) .inl .inl .inl)
    rcases List.mem_append.mp queued with old | new
    · exact .inl old
    · rw [List.mem_singleton.mp new, mem_clients_job] at owner
      cases owner
  | report present =>
    refine .inl (alive_of_owners alive .inl .inl (fun _ queued _ => .inl queued)
      (fun _ member _ => .inl member) (fun owner => ?_) .inl .inl)
    rcases List.mem_cons.mp owner with rfl | old
    · exact .inr present
    · exact .inl old
  | consume queued =>
    rcases alive_of_sendTo alive with rfl | alive
    · exact .inl (alive_of_fsmEvent queued)
    · exact .inl (alive_of_owners alive .inl .inl (fun _ queued _ => .inl queued)
        (fun _ member _ => .inl member) (fun owner => .inl (List.mem_of_mem_erase owner)) .inl .inl)
  | emit busy =>
    rcases alive_of_sendTo alive with rfl | alive
    · exact .inl (tracked.alive_of_busy busy)
    · exact .inl alive
  | receive owner stored =>
    refine .inl (alive_of_owners alive .inl .inl (fun _ queued _ => .inl queued)
      (fun _ member _ => .inl member) .inl (fun owner => .inl (List.mem_of_mem_erase owner))
      fun held => ?_)
    rcases List.mem_cons.mp held with rfl | old
    · exact .inr (alive_of_facade owner)
    · exact .inl old
  | copySender held =>
    refine .inl (alive_of_owners alive .inl .inl (fun _ queued _ => .inl queued)
      (fun _ member _ => .inl member) .inl .inl fun owner => .inl ?_)
    rcases List.mem_cons.mp owner with rfl | old
    · exact held
    · exact old
  | dropEvent held =>
    exact .inl (alive_of_owners alive .inl .inl (fun _ queued _ => .inl queued)
      (fun _ member _ => .inl member) .inl .inl fun owner => .inl (List.mem_of_mem_erase owner))
  | call visit =>
    refine .inl (alive_of_owners alive .inl .inl (fun _ queued _ => .inl queued)
      (fun pass member owner => ?_) .inl .inl .inl)
    rcases List.mem_append.mp member with old | new
    · exact .inl old
    · rw [List.mem_singleton.mp new] at owner
      cases owner
  | enter at_ unlocked => exact .inl ((alive_of_setPass alive).resolve_left List.not_mem_nil)
  | locked at_ present =>
    rcases alive_of_setPass alive with same | alive
    · exact .inl (List.mem_singleton.mp same ▸ present)
    · exact .inl alive
  | expired at_ dead => exact .inl ((alive_of_setPass alive).resolve_left List.not_mem_nil)
  | release at_ => exact .inl ((alive_of_setPass alive).resolve_left List.not_mem_nil)
  | found at_ => exact .inl (alive_of_erasePass alive)
  | @leaveProcess position visited at_ =>
    have alive : (world.setPass position ⟨.process, .beforeTasks⟩).Alive client := alive
    exact .inl ((alive_of_setPass alive).resolve_left List.not_mem_nil)
  | leaveShutdown at_ => exact .inl ((alive_of_setPass alive).resolve_left List.not_mem_nil)
  | leaveIsLoaded at_ => exact .inl (alive_of_erasePass alive)
  | takeTasks at_ =>
    refine .inl (alive_of_owners alive .inl .inl
      (fun _ nothing _ => absurd nothing List.not_mem_nil) (fun pass member owner => ?_)
      .inl .inl .inl)
    rcases List.mem_or_eq_of_mem_set member with old | rfl
    · exact .inl old
    · obtain ⟨job, queued, owner⟩ := List.mem_flatMap.mp owner
      exact .inr (alive_of_task queued owner)
  | @runTask position visit tasksList rest job at_ =>
    have alive : (world.setPass position ⟨visit, .tasks tasksList rest⟩).Alive client := alive
    rcases alive_of_setPass alive with owner | alive
    · exact .inl (alive_of_pass (List.mem_of_getElem? at_) owner)
    · exact .inl alive
  | @throw position pass at_ =>
    have alive : { world with passes := world.passes.eraseIdx position }.Alive client := alive
    exact .inl (alive_of_erasePass alive)
  | finish at_ => exact .inl (alive_of_erasePass alive)

/-- A call that is written over or ends leaves the others. -/
theorem mem_set_or {passes : List Pass} {position : ℕ} {old pass other : Pass}
    (at_ : passes[position]? = some old) (member : other ∈ passes) :
    other = old ∨ other ∈ passes.set position pass := by
  obtain ⟨index, found⟩ := List.mem_iff_getElem?.mp member
  rcases eq_or_ne position index with rfl | differs
  · exact .inl (Option.some.inj (found.symm.trans at_))
  · exact .inr (List.mem_iff_getElem?.mpr ⟨index, by rw [List.getElem?_set_ne differs, found]⟩)

theorem mem_eraseIdx_or {passes : List Pass} {position : ℕ} {old other : Pass}
    (at_ : passes[position]? = some old) (member : other ∈ passes) :
    other = old ∨ other ∈ passes.eraseIdx position := by
  obtain ⟨index, found⟩ := List.mem_iff_getElem?.mp member
  rcases eq_or_ne index position with rfl | differs
  · exact .inl (Option.some.inj (found.symm.trans at_))
  · exact .inr (List.mem_eraseIdx_iff_getElem?.mpr ⟨index, differs, found⟩)

/-- The calls that a step writes. -/
inductive Written (world : Lifetimes) : Pass → Prop where
  | start (visit : Visit) : Written world ⟨visit, .start⟩
  | enter (visit : Visit) : Written world ⟨visit, .clients [] world.clientList none⟩
  | locked {visit : Visit} {visited rest : List ℕ} {client : ℕ}
      (old : ⟨visit, .clients visited (client :: rest) none⟩ ∈ world.passes) :
      Written world ⟨visit, .clients (visited ++ [client]) rest (some client)⟩
  | expired {visit : Visit} {visited rest : List ℕ} {client : ℕ}
      (old : ⟨visit, .clients visited (client :: rest) none⟩ ∈ world.passes)
      (dead : ¬ world.Alive client) : Written world ⟨visit, .clients visited rest none⟩
  | release {visit : Visit} {visited rest : List ℕ} {client : ℕ}
      (old : ⟨visit, .clients visited rest (some client)⟩ ∈ world.passes) :
      Written world ⟨visit, .clients visited rest none⟩
  | beforeTasks (visit : Visit) : Written world ⟨visit, .beforeTasks⟩
  | takeTasks (visit : Visit) : Written world ⟨visit, .tasks world.tasksList world.tasksList⟩
  | runTask {visit : Visit} {tasksList rest : List Job} {job : Job}
      (old : ⟨visit, .tasks tasksList (job :: rest)⟩ ∈ world.passes) :
      Written world ⟨visit, .tasks tasksList rest⟩

theorem written_of_mem_set {position : ℕ} {pass other : Pass} (written : Written world pass)
    (member : other ∈ world.passes.set position pass) :
    other ∈ world.passes ∨ Written world other := by
  rcases List.mem_or_eq_of_mem_set member with old | rfl
  · exact .inl old
  · exact .inr written

theorem written_of_step (step : LifetimeStep world action next) :
    ∀ pass ∈ next.passes, pass ∈ world.passes ∨ Written world pass := by
  intro pass member
  cases step with
  | createClient | scheduleShutdown | dropFacade | addTask | report | receive | copySender
  | dropEvent => exact .inl member
  | @consume _ target | @emit _ target => cases target <;> exact .inl member
  | call visit =>
    rcases List.mem_append.mp member with old | new
    · exact .inl old
    · exact .inr (List.mem_singleton.mp new ▸ .start visit)
  | enter at_ unlocked => exact written_of_mem_set (.enter _) member
  | locked at_ alive => exact written_of_mem_set (.locked (List.mem_of_getElem? at_)) member
  | expired at_ dead => exact written_of_mem_set (.expired (List.mem_of_getElem? at_) dead) member
  | release at_ => exact written_of_mem_set (.release (List.mem_of_getElem? at_)) member
  | leaveProcess at_ | leaveShutdown at_ => exact written_of_mem_set (.beforeTasks _) member
  | takeTasks at_ => exact written_of_mem_set (.takeTasks _) member
  | runTask at_ => exact written_of_mem_set (.runTask (List.mem_of_getElem? at_)) member
  | found | leaveIsLoaded | throw | finish => exact .inl (List.mem_of_mem_eraseIdx member)

/-- A task that waits in a call goes on waiting, or has been run, or the call was left. -/
theorem pending_step (step : LifetimeStep world action next) {pass : Pass}
    (member : pass ∈ world.passes) (waits : .shutdown client ∈ pass.pending) :
    (∃ other ∈ next.passes, .shutdown client ∈ other.pending) ∨
      .shutDown client ∈ next.log ∨ .threw ∈ next.log := by
  have idle {old : Pass} (same : pass = old) (idle : old.pending = []) : False := by
    rw [same, idle] at waits
    exact absurd waits List.not_mem_nil
  cases step with
  | createClient | scheduleShutdown | dropFacade | addTask | report | receive | copySender
  | dropEvent => exact .inl ⟨pass, member, waits⟩
  | @consume _ target | @emit _ target => cases target <;> exact .inl ⟨pass, member, waits⟩
  | call visit => exact .inl ⟨pass, List.mem_append_left _ member, waits⟩
  | enter at_ | locked at_ | expired at_ | release at_ | leaveProcess at_ | leaveShutdown at_
  | takeTasks at_ =>
    rcases mem_set_or at_ member with same | kept
    · exact (idle same rfl).elim
    · exact .inl ⟨pass, kept, waits⟩
  | found at_ | leaveIsLoaded at_ | finish at_ =>
    rcases mem_eraseIdx_or at_ member with same | kept
    · exact (idle same rfl).elim
    · exact .inl ⟨pass, kept, waits⟩
  | throw at_ => exact .inr (.inr (List.mem_append_right _ List.mem_cons_self))
  | @runTask position visit tasksList rest job at_ =>
    rcases mem_set_or at_ member with rfl | kept
    · rcases List.mem_cons.mp waits with rfl | later
      · exact .inr (.inl (List.mem_append_right _ List.mem_cons_self))
      · refine .inl ⟨⟨visit, .tasks tasksList rest⟩, ?_, later⟩
        exact List.mem_iff_getElem?.mpr ⟨position, by
          rw [Lifetimes.setPass, List.getElem?_set_self (List.getElem?_eq_some_iff.mp at_).1]⟩
    · exact .inl ⟨pass, kept, waits⟩

theorem log_step (step : LifetimeStep world action next) {event : LifetimeEvent}
    (logged : event ∈ world.log) : event ∈ next.log := by
  cases step with
  | runTask at_ | throw at_ => exact List.mem_append_left _ logged
  | @consume _ target | @emit _ target => cases target <;> exact logged
  | _ => exact logged

/-- What becomes of a client that was waiting for its shutdown. -/
theorem settled_step (tracked : Tracked world) (step : LifetimeStep world action next) :
    ∀ client < next.created, client ∈ next.facades ∨ .shutdown client ∈ next.tasksList ∨
      (∃ pass ∈ next.passes, .shutdown client ∈ pass.pending) ∨
      .shutDown client ∈ next.log ∨ .threw ∈ next.log := by
  intro client created
  have waits (waits : ∃ pass ∈ world.passes, .shutdown client ∈ pass.pending) :
      (∃ pass ∈ next.passes, .shutdown client ∈ pass.pending) ∨
        .shutDown client ∈ next.log ∨ .threw ∈ next.log := by
    obtain ⟨pass, member, waits⟩ := waits
    exact pending_step step member waits
  have finished (done : .shutDown client ∈ world.log ∨ .threw ∈ world.log) :
      .shutDown client ∈ next.log ∨ .threw ∈ next.log :=
    done.imp (log_step step) (log_step step)
  -- a facade that stays, and a task list that only grows
  have kept (old : client < world.created) (facade : client ∈ world.facades → client ∈ next.facades)
      (task : .shutdown client ∈ world.tasksList → .shutdown client ∈ next.tasksList) :
      client ∈ next.facades ∨ .shutdown client ∈ next.tasksList ∨
        (∃ pass ∈ next.passes, .shutdown client ∈ pass.pending) ∨
        .shutDown client ∈ next.log ∨ .threw ∈ next.log := by
    rcases tracked.settled client old with owner | queued | pending | done
    · exact .inl (facade owner)
    · exact .inr (.inl (task queued))
    · exact .inr (.inr (waits pending))
    · exact .inr (.inr (.inr (finished done)))
  cases step with
  | createClient unlocked =>
    rcases Nat.lt_succ_iff_lt_or_eq.mp created with old | rfl
    · exact kept old (List.mem_cons_of_mem _) id
    · exact .inl List.mem_cons_self
  | @scheduleShutdown leaver present =>
    rcases eq_or_ne client leaver with rfl | other
    · exact .inr (.inl (List.mem_append_right _ List.mem_cons_self))
    · exact kept created (List.mem_erase_of_ne other).mpr (List.mem_append_left _)
  | addTask => exact kept created id (List.mem_append_left _)
  | @takeTasks position visit at_ =>
    rcases tracked.settled client created with owner | queued | pending | done
    · exact .inl owner
    · refine .inr (.inr (.inl ⟨⟨visit, .tasks world.tasksList world.tasksList⟩, ?_, queued⟩))
      exact List.mem_iff_getElem?.mpr ⟨position, by
        rw [Lifetimes.setPass, List.getElem?_set_self (List.getElem?_eq_some_iff.mp at_).1]⟩
    · exact .inr (.inr (waits pending))
    · exact .inr (.inr (.inr (finished done)))
  | @consume _ target | @emit _ target => cases target <;> exact kept created id id
  | _ => exact kept created id id

theorem Tracked.step (tracked : Tracked world) (step : LifetimeStep world action next) :
    Tracked next where
  listed := by
    intro pass member client waits
    rcases written_of_step step pass member with old | written
    · exact tracked.listed pass old client waits
    · cases written with
      | takeTasks visit =>
        exact List.mem_flatMap.mpr ⟨.shutdown client, waits, List.mem_singleton_self client⟩
      | runTask old => exact tracked.listed _ old client (List.mem_cons_of_mem _ waits)
      | _ => exact absurd waits List.not_mem_nil
  registered := by
    intro client alive
    rcases alive_of_step tracked step alive with known | ⟨rfl, rfl⟩
    · obtain ⟨listed, created⟩ := tracked.registered client known
      cases step with
      | createClient unlocked => exact ⟨List.mem_append_left _ listed, Nat.lt_succ_of_lt created⟩
      | leaveProcess at_ => exact ⟨List.mem_filter.mpr ⟨listed, decide_eq_true known⟩, created⟩
      | @consume _ target | @emit _ target => cases target <;> exact ⟨listed, created⟩
      | _ => exact ⟨listed, created⟩
    · cases step with
      | createClient unlocked =>
        exact ⟨List.mem_append_right _ List.mem_cons_self, Nat.lt_succ_self _⟩
  settled := settled_step tracked step
  swept := by
    intro pass member visited rest held stage client alive
    have known : world.Alive client := by
      refine (alive_of_step tracked step alive).resolve_right ?_
      rintro ⟨rfl, _⟩
      cases step with
      | createClient unlocked =>
        have locked : world.locked = true :=
          List.any_eq_true.mpr ⟨pass, member, by rw [Pass.locks, stage]⟩
        exact absurd (unlocked.symm.trans locked) nofun
    rcases written_of_step step pass member with old | written
    · exact tracked.swept pass old visited rest held stage client known
    · cases written with
      | enter visit =>
        obtain ⟨rfl, rfl, rfl⟩ := PassStage.clients.inj stage
        exact .inr (tracked.registered client known).1
      | locked old =>
        obtain ⟨rfl, rfl, rfl⟩ := PassStage.clients.inj stage
        rcases tracked.swept _ old _ _ _ rfl client known with earlier | later
        · exact .inl (List.mem_append_left _ earlier)
        · rcases List.mem_cons.mp later with rfl | later
          · exact .inl (List.mem_append_right _ List.mem_cons_self)
          · exact .inr later
      | expired old dead =>
        obtain ⟨rfl, rfl, rfl⟩ := PassStage.clients.inj stage
        rcases tracked.swept _ old _ _ _ rfl client known with earlier | later
        · exact .inl earlier
        · rcases List.mem_cons.mp later with rfl | later
          · exact absurd known dead
          · exact .inr later
      | release old =>
        obtain ⟨rfl, rfl, rfl⟩ := PassStage.clients.inj stage
        exact tracked.swept _ old _ _ _ rfl client known
      | _ => cases stage

theorem tracked_of_reachable (reachable : lifetimeSystem.Reachable world) : Tracked world := by
  refine reachable.induction Tracked ?_ ?_
  · refine ⟨?_, ?_, ?_, ?_⟩
    · exact fun _ member => absurd member List.not_mem_nil
    · exact fun _ alive => absurd alive List.not_mem_nil
    · exact fun _ created => absurd created (Nat.not_lt_zero _)
    · exact fun _ member => absurd member List.not_mem_nil
  · exact fun _ _ _ _ tracked stepped => tracked.step (lifetimeStep_of_step stepped)

/-! ### How long clients live -/

/-- A task owns its client as long as it waits. -/
theorem Tracked.alive_of_pending (tracked : Tracked world) {pass : Pass}
    (member : pass ∈ world.passes) (waits : .shutdown client ∈ pass.pending) :
    world.Alive client :=
  alive_of_pass member (tracked.listed pass member client waits)

/-- The manager knows every living client, and a call that has been through its list has locked
each of them. No client is destroyed before its shutdown, and every client whose facade is gone gets
it as soon as no task waits, unless something has thrown. -/
theorem client_lifetime (reachable : lifetimeSystem.Reachable world) :
    (∀ client, world.Alive client → client ∈ world.clientList) ∧
    (∀ visit visited, ⟨visit, .clients visited [] none⟩ ∈ world.passes →
      ∀ client, world.Alive client → client ∈ visited) ∧
    (∀ client < world.created, ¬ world.Alive client →
      .shutDown client ∈ world.log ∨ .threw ∈ world.log) ∧
    (world.tasksList = [] → (∀ pass ∈ world.passes, pass.pending = []) →
      ∀ client < world.created, client ∉ world.facades →
        .shutDown client ∈ world.log ∨ .threw ∈ world.log) := by
  have tracked := tracked_of_reachable reachable
  refine ⟨fun client alive => (tracked.registered client alive).1,
    fun visit visited member client alive => ?_, fun client created dead => ?_,
    fun noTask noPending client created gone => ?_⟩
  · exact (tracked.swept _ member _ _ _ rfl client alive).resolve_right List.not_mem_nil
  · rcases tracked.settled client created with owner | queued | ⟨pass, member, waits⟩ | done
    · exact absurd (alive_of_facade owner) dead
    · exact absurd (alive_of_task queued (mem_clients_job.mpr rfl)) dead
    · exact absurd (tracked.alive_of_pending member waits) dead
    · exact done
  · rcases tracked.settled client created with owner | queued | ⟨pass, member, waits⟩ | done
    · exact absurd owner gone
    · exact absurd (noTask ▸ queued) List.not_mem_nil
    · exact absurd (noPending pass member ▸ waits) List.not_mem_nil
    · exact done

/-- A facade comes and goes, and a call of `process` runs the task of its destructor. -/
def shutDownInTime : List LifetimeAction :=
  [.createClient, .scheduleShutdown 0, .dropFacade 0, .call .process, .enter 0, .visitNext 0,
    .release 0, .leave 0, .takeTasks 0, .runTask 0, .finish 0]

/-- The same behind another task, which throws. -/
def lostShutdown : List LifetimeAction :=
  [.createClient, .addTask, .scheduleShutdown 0, .dropFacade 0, .call .process, .enter 0,
    .visitNext 0, .release 0, .leave 0, .takeTasks 0, .throw 0]

theorem client_lifetime_shutDownInTime :
    (∃ world, lifetimeSystem.Runs lifetimeSystem.init shutDownInTime world ∧
      ¬ world.Alive 0 ∧ (.shutDown 0 ∈ world.log ∨ .threw ∈ world.log)) ∧
    ∃ world, lifetimeSystem.Runs lifetimeSystem.init lostShutdown world ∧
      ¬ world.Alive 0 ∧ .shutDown 0 ∉ world.log ∧
        (.shutDown 0 ∈ world.log ∨ .threw ∈ world.log) := by
  constructor
  · have evaluated : (lifetimeSystem.run lifetimeSystem.init shutDownInTime).any (fun world =>
        decide (0 < world.created ∧ ¬ world.Alive 0)) = true := by decide
    obtain ⟨world, runs, checked⟩ := System.exists_runs evaluated
    rw [decide_eq_true_iff] at checked
    exact ⟨world, runs, checked.2, (client_lifetime ⟨_, runs⟩).2.2.1 0 checked.1 checked.2⟩
  · have evaluated : (lifetimeSystem.run lifetimeSystem.init lostShutdown).any (fun world =>
        decide (0 < world.created ∧ ¬ world.Alive 0 ∧ .shutDown 0 ∉ world.log)) = true := by
      decide
    obtain ⟨world, runs, checked⟩ := System.exists_runs evaluated
    rw [decide_eq_true_iff] at checked
    exact ⟨world, runs, checked.2.1, checked.2.2,
      (client_lifetime ⟨_, runs⟩).2.2.1 0 checked.1 checked.2.1⟩

/-! ### Events that nobody receives -/

/-- The facade of the client is gone, and its event list holds an event. -/
structure Abandoned (client : ℕ) (world : Lifetimes) : Prop where
  gone : client ∉ world.facades
  stored : client ∈ world.storedEvents

theorem Abandoned.step (tracked : Tracked world) (abandoned : Abandoned client world)
    (step : LifetimeStep world action next) : Abandoned client next := by
  have created := (tracked.registered client (alive_of_storedEvent abandoned.stored)).2
  cases step with
  | createClient unlocked =>
    refine ⟨fun owner => ?_, abandoned.stored⟩
    rcases List.mem_cons.mp owner with rfl | old
    · exact Nat.lt_irrefl _ created
    · exact abandoned.gone old
  | scheduleShutdown present =>
    exact ⟨fun owner => abandoned.gone (List.mem_of_mem_erase owner), abandoned.stored⟩
  | @receive other owner stored =>
    have differs : client ≠ other := fun same => abandoned.gone (same ▸ owner)
    exact ⟨abandoned.gone, (List.mem_erase_of_ne differs).mpr abandoned.stored⟩
  | @consume _ target | @emit _ target =>
    cases target with
    | stored => exact ⟨abandoned.gone, List.mem_cons_of_mem _ abandoned.stored⟩
    | _ => exact ⟨abandoned.gone, abandoned.stored⟩
  | _ => exact ⟨abandoned.gone, abandoned.stored⟩

/-- A client whose facade has gone while an event was in its list is never destroyed: the event owns
its sender, and only the facade can take it out. The manager goes on processing the client. -/
theorem abandoned_never_destroyed (reachable : lifetimeSystem.Reachable world)
    (abandoned : Abandoned client world) {actions : List LifetimeAction} {later : Lifetimes}
    (runs : lifetimeSystem.Runs world actions later) :
    later.Alive client ∧ client ∈ later.clientList := by
  have kept : Abandoned client later := by
    refine runs.induction (Abandoned client) reachable abandoned ?_
    intro before action after reached _ abandoned stepped
    exact abandoned.step (tracked_of_reachable reached) (lifetimeStep_of_step stepped)
  have alive : later.Alive client := alive_of_storedEvent kept.stored
  exact ⟨alive, ((tracked_of_reachable (reachable.runs runs)).registered client alive).1⟩

/-- An event comes when there is no handler, and then the facade goes. -/
def leftWithEvent : List LifetimeAction :=
  [.createClient, .report 0, .call .process, .enter 0, .visitNext 0, .consume 0 .stored,
    .release 0, .leave 0, .scheduleShutdown 0, .dropFacade 0]

theorem abandoned_never_destroyed_afterShutdown :
    ∃ world later, lifetimeSystem.Runs lifetimeSystem.init leftWithEvent world ∧
      lifetimeSystem.Runs world [.takeTasks 0, .runTask 0, .finish 0] later ∧
      later.log = [.shutDown 0] ∧ later.tasksList = [] ∧ later.passes = [] ∧ later.Alive 0 := by
  have evaluated : (lifetimeSystem.run lifetimeSystem.init
      (leftWithEvent ++ [.takeTasks 0, .runTask 0, .finish 0])).any (fun later =>
        decide (later.log = [.shutDown 0] ∧ later.tasksList = [] ∧ later.passes = [])) = true := by
    decide
  have abandons : (lifetimeSystem.run lifetimeSystem.init leftWithEvent).any (fun world =>
      decide (0 ∉ world.facades ∧ 0 ∈ world.storedEvents)) = true := by decide
  obtain ⟨later, total, checked⟩ := System.exists_runs evaluated
  obtain ⟨world, first, rest⟩ := System.runs_append.mp total
  obtain ⟨same, runs, left⟩ := System.exists_runs abandons
  obtain rfl := Option.some.inj (first.symm.trans runs)
  rw [decide_eq_true_iff] at checked left
  exact ⟨world, later, first, rest, checked.1, checked.2.1, checked.2.2,
    (abandoned_never_destroyed ⟨_, first⟩ ⟨left.1, left.2⟩ rest).1⟩

end Kurlyk.WebSocket
