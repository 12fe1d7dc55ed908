/-
This file is about the mutexes that the thread of `NetworkWorker::process` or of
`NetworkWorker::shutdown` holds when it calls a callback of the user, and about
what the callback may then call.

Both functions hold the mutex of the managers while they go through them, so
every callback of a request or of a WebSocket client that is called from there is
called under it. Only `process_tasks` runs with nothing held, and of the callbacks
it reaches those of finished sends are called under the mutex of their queue.

The library locks its mutexes in the order of a rank. From a callback that holds
nothing, no public entry point locks a mutex twice.
-/

import Kurlyk.Core.Locks

namespace Kurlyk.Core

open Program

/-! ### The order of the mutexes -/

/-- A mutex is locked only while mutexes of smaller rank are held. -/
@[simp]
def Mutex.rank : Mutex → ℕ
  | .submit _ => 1
  | .managers => 2
  | .clientList => 3
  | .requestManager => 4
  | .messageQueue _ => 5
  | .adapter _ => 6
  | .tasksList | .notify | .isWorkerStarted | .errorHandlers | .rateLimiter | .fsmEventQueue _
  | .eventQueue _ | .sendCallbackQueue _ | .webSocketRateLimiter _ | .simpleWorkerNotify
  | .simpleWorkerStarted => 7

/-- The callbacks of a request lock the mutex of the manager at most. -/
theorem invokeFinalCallback_climbs : invokeFinalCallback.Climbs Mutex.rank 3 := by
  simp [invokeFinalCallback, invokeCallback]

theorem invokeCallback_climbs : invokeCallback.Climbs Mutex.rank 3 :=
  invokeFinalCallback_climbs.1

theorem notifyGroupWaiters_climbs : notifyGroupWaiters.Climbs Mutex.rank 3 := by
  simp [notifyGroupWaiters]

theorem processCancelRequests_climbs : processCancelRequests.Climbs Mutex.rank 3 := by
  simp [processCancelRequests, invokeFinalCallback_climbs]

theorem processManager_climbs : processManager.Climbs Mutex.rank 3 := by
  simp [processManager, processPendingRequests, processActiveRequests, processRetryFailedRequests,
      processCancelRequests_climbs, notifyGroupWaiters_climbs, invokeFinalCallback_climbs,
      invokeCallback_climbs]

theorem shutdownManager_climbs : shutdownManager.Climbs Mutex.rank 3 := by
  simp [shutdownManager, cleanupPendingRequests, clearActiveRequestBatches,
      processCancelRequests_climbs, notifyGroupWaiters_climbs, invokeFinalCallback_climbs]

section Client

variable (client : ℕ)

theorem processFsmState_climbs : (processFsmState client).Climbs Mutex.rank 3 := by
  simp [processFsmState]

theorem processClient_climbs : (processClient client).Climbs Mutex.rank 3 := by
  simp [processClient, processFsmState_climbs, processSendCallbackQueue]

theorem shutdownClient_climbs : (shutdownClient client).Climbs Mutex.rank 3 := by
  simp [shutdownClient, processFsmState_climbs, processSendCallbackQueue]

end Client

theorem processTasks_climbs : processTasks.Climbs Mutex.rank 3 := by
  simp [processTasks, shutdownClient_climbs]

theorem process_climbs : process.Climbs Mutex.rank 1 := by
  have managers := processManager_climbs.anti (Nat.le_succ 2)
  have tasks := processTasks_climbs.anti (Nat.le_add_left 1 2)
  simp [process, processClients, processClient_climbs, managers, tasks]

theorem shutdown_climbs : shutdown.Climbs Mutex.rank 1 := by
  have managers := shutdownManager_climbs.anti (Nat.le_succ 2)
  have tasks := processTasks_climbs.anti (Nat.le_add_left 1 2)
  simp [shutdown, shutdownClients, shutdownClient_climbs, managers, tasks]

/-- Every public entry point locks its mutexes in the order of the rank. -/
theorem code_climbs (entry : EntryPoint) : entry.code.Climbs Mutex.rank 0 := by
  have processes := process_climbs.anti (Nat.zero_le 1)
  have shutsDown := shutdown_climbs.anti (Nat.zero_le 1)
  cases entry <;> simp [EntryPoint.code, processes, shutsDown, stop, cancelRequests]

/-- A thread that holds no mutex locks none twice in an entry point. -/
theorem code_locks_unheld {entry : EntryPoint} {frames : List Function} {mutex : Mutex}
    {now : List Mutex} (reaches : entry.code.Reaches [] frames (.acquires mutex) now) :
    mutex ∉ now :=
  (code_climbs entry).not_mem (fun _ member => absurd member List.not_mem_nil) reaches

/-! ### What is held at a callback -/

/-- The functions that call back the user. -/
inductive Operation where
  | process
  | shutdown

/-- What the operation does. -/
def Operation.code : Operation → Code
  | .process => Core.process
  | .shutdown => Core.shutdown

/-- A callback that is called with these mutexes held finds none of them held, and no public entry
point that it calls tries to lock a mutex that its thread holds. -/
def Reentrant (held : List Mutex) : Prop :=
  held = [] ∧ ∀ (entry : EntryPoint) (frames : List Function) (mutex : Mutex) (now : List Mutex),
    entry.code.Reaches held frames (.acquires mutex) now → mutex ∉ now

theorem reentrant_iff {held : List Mutex} : Reentrant held ↔ held = [] := by
  constructor
  · exact And.left
  · rintro rfl
    exact ⟨rfl, fun _ _ _ _ reaches => code_locks_unheld reaches⟩

section Paths

variable {held now : List Mutex} {frames : List Function} {called : Callback} {client : ℕ}

/-- The managers do not run the tasks of the worker. -/
theorem managers_not_calls_processTasks :
    ¬ Calls .processTasks (.orElse processManager processClients) ∧
      ¬ Calls .processTasks (.orElse shutdownManager shutdownClients) := by
  constructor
  · simp [processManager, processPendingRequests, processActiveRequests, processRetryFailedRequests,
      processCancelRequests, notifyGroupWaiters, processClients, processClient, processFsmState,
      processSendCallbackQueue, invokeFinalCallback, invokeCallback]
  · simp [shutdownManager, cleanupPendingRequests, processCancelRequests, clearActiveRequestBatches,
      notifyGroupWaiters, shutdownClients, shutdownClient, processFsmState,
      processSendCallbackQueue, invokeFinalCallback, invokeCallback]

/-- The state machine of a client calls back between its sections. -/
theorem processFsmState_invokes
    (reaches : (processFsmState client).Reaches held frames (.invokes called) now) :
    frames = [.processFsmState client] ∧ now = held := by
  simp only [processFsmState, block, fsmEventQueue, locked, maybe, handleEvent,
    deinitWebsocket, initWebsocket, Reaches, reduceCtorEq, false_and, and_false, or_self,
    or_false, false_or, or_self_left, exists_const] at reaches
  rcases reaches with ⟨inner, rfl, ⟨rfl, _, rfl⟩ | ⟨rfl, _, rfl⟩ | ⟨rfl, _, rfl⟩⟩ <;>
    exact ⟨rfl, rfl⟩

/-- The callbacks of finished sends are called under the mutex of their queue. -/
theorem processSendCallbackQueue_invokes
    (reaches : (processSendCallbackQueue client).Reaches held frames (.invokes called) now) :
    frames = [.processSendCallbackQueue client] ∧ now = .sendCallbackQueue client :: held := by
  simp only [processSendCallbackQueue, Reaches, reduceCtorEq, false_and, and_false, false_or,
    exists_const] at reaches
  obtain ⟨inner, rfl, rfl, _, rfl⟩ := reaches
  exact ⟨rfl, rfl⟩

/-- The shutdown of a client calls back with nothing more held, but for finished sends. -/
theorem shutdownClient_invokes
    (reaches : (shutdownClient client).Reaches held frames (.invokes called) now) :
    (now = held ∧ ∀ other, .processSendCallbackQueue other ∉ frames) ∨
      (now ≠ [] ∧ .processSendCallbackQueue client ∈ frames) := by
  simp only [shutdownClient, block, fsmEventQueue, locked, Reaches, reduceCtorEq, false_and,
    and_false, or_self, or_false, false_or, exists_const] at reaches
  obtain ⟨inner, rfl, fromState | fromSends⟩ := reaches
  · obtain ⟨rfl, rfl⟩ := processFsmState_invokes fromState
    exact Or.inl (by simp)
  · obtain ⟨rfl, rfl⟩ := processSendCallbackQueue_invokes fromSends
    exact Or.inr (by simp)

/-- A task is called with nothing more held, and so are the callbacks of the client that it shuts
down, but for those of finished sends. -/
theorem processTasks_invokes (reaches : processTasks.Reaches held frames (.invokes called) now) :
    .processTasks ∈ frames ∧
      ((now = held ∧ ∀ client, .processSendCallbackQueue client ∉ frames) ∨
        (now ≠ [] ∧ ∃ client, .processSendCallbackQueue client ∈ frames)) := by
  simp only [processTasks, block, locked, Reaches, reduceCtorEq, false_and, and_false, or_self,
    or_false, false_or] at reaches
  obtain ⟨inner, rfl, client, ⟨rfl, _, rfl⟩ | fromClient⟩ := reaches
  · exact ⟨List.mem_cons_self, Or.inl (by simp)⟩
  · refine ⟨List.mem_cons_self, ?_⟩
    rcases shutdownClient_invokes fromClient with ⟨same, without⟩ | ⟨holding, through⟩
    · exact Or.inl ⟨same, by simpa using without⟩
    · exact Or.inr ⟨holding, client, List.mem_cons_of_mem _ through⟩

/-- A function that goes through the managers under their mutex and then runs the tasks. -/
theorem managersThenTasks_invokes {function : Function} {manager : Code}
    (different : function ≠ .processTasks)
    (tasksFree : ¬ Calls .processTasks manager)
    (reaches : Reaches (.call function
      (block [.holding .managers (.each fun _ => manager), processTasks]))
      [] frames (.invokes called) now) :
    (now ≠ [] ∧ .processTasks ∉ frames) ∨
      ∃ inner, frames = function :: inner ∧
        processTasks.Reaches [] inner (.invokes called) now := by
  obtain ⟨inner, rfl, (⟨_, impossible, _⟩ | fromManagers) | fromTasks | impossible⟩ := reaches
  · cases impossible
  · refine Or.inl ⟨fromManagers.ne_nil, ?_⟩
    intro member
    rcases List.mem_cons.mp member with same | deeper
    · exact different same.symm
    · obtain ⟨_, calls⟩ := fromManagers.calls deeper
      exact tasksFree calls
  · exact Or.inr ⟨inner, rfl, fromTasks⟩
  · exact impossible.elim

theorem code_invokes {operation : Operation}
    (reaches : operation.code.Reaches [] frames (.invokes called) now) :
    (now ≠ [] ∧ .processTasks ∉ frames) ∨
      ∃ outer inner, frames = outer :: inner ∧
        (∀ client, outer ≠ .processSendCallbackQueue client) ∧
        processTasks.Reaches [] inner (.invokes called) now := by
  cases operation with
  | process =>
    refine Or.imp_right ?_
      (managersThenTasks_invokes (by decide) managers_not_calls_processTasks.1 reaches)
    rintro ⟨inner, rfl, fromTasks⟩
    exact ⟨.process, inner, rfl, by simp, fromTasks⟩
  | shutdown =>
    refine Or.imp_right ?_
      (managersThenTasks_invokes (by decide) managers_not_calls_processTasks.2 reaches)
    rintro ⟨inner, rfl, fromTasks⟩
    exact ⟨.shutdown, inner, rfl, by simp, fromTasks⟩

end Paths

/-- A callback that `NetworkWorker::process` or `NetworkWorker::shutdown` calls may call every
entry point exactly when it is called from `process_tasks` and not from
`process_send_callback_queue`. -/
theorem callback_reentrant_iff {operation : Operation} {frames : List Function}
    {called : Callback} {held : List Mutex}
    (reaches : operation.code.Reaches [] frames (.invokes called) held) :
    Reentrant held ↔
      .processTasks ∈ frames ∧ ∀ client, .processSendCallbackQueue client ∉ frames := by
  rw [reentrant_iff]
  rcases code_invokes reaches with ⟨holding, without⟩ | ⟨outer, inner, rfl, other, fromTasks⟩
  · exact ⟨fun empty => absurd empty holding, fun within => absurd within.1 without⟩
  · obtain ⟨tasks, cases⟩ := processTasks_invokes fromTasks
    rcases cases with ⟨rfl, without⟩ | ⟨holding, client, through⟩
    · refine ⟨fun _ => ⟨List.mem_cons_of_mem _ tasks, ?_⟩, fun _ => rfl⟩
      intro client member
      rcases List.mem_cons.mp member with same | deeper
      · exact other client same.symm
      · exact without client deeper
    · refine ⟨fun empty => absurd empty holding, fun avoids => ?_⟩
      exact absurd (List.mem_cons_of_mem _ through) (avoids.2 client)

/-- A task of the user. -/
theorem callback_reentrant_task :
    Operation.process.code.Reaches [] [.process, .processTasks] (.invokes .task) [] ∧
      Reentrant [] := by
  have reaches :
      Operation.process.code.Reaches [] [.process, .processTasks] (.invokes .task) [] := by
    simp [Operation.code, process, processTasks]
  exact ⟨reaches, (callback_reentrant_iff reaches).mpr (by simp)⟩

/-- The callback of a response that destroys an `HttpClient`, and an event callback that makes a
`WebSocketClient`. The first runs `NetworkWorker::process`, which locks the mutex of the managers
that its thread holds, and the second locks that of the client list. -/
theorem callback_locks_held_mutex :
    Operation.process.code.Reaches []
        [.process, .processManager, .processActiveRequests, .invokeCallback]
        (.invokes .response) [.managers] ∧
      EntryPoint.destroyHttpClient.code.Reaches [.managers] [.process] (.acquires .managers)
        [.managers] ∧
      Operation.process.code.Reaches []
        [.process, .processClients, .processClient 0, .processFsmState 0]
        (.invokes (.event 0)) [.clientList, .managers] ∧
      EntryPoint.createWebSocketClient.code.Reaches [.clientList, .managers] []
        (.acquires .clientList) [.clientList, .managers] ∧
      ¬ ∀ (operation : Operation) (frames : List Function) (called : Callback)
        (held : List Mutex), operation.code.Reaches [] frames (.invokes called) held →
          Reentrant held := by
  have response : Operation.process.code.Reaches []
      [.process, .processManager, .processActiveRequests, .invokeCallback]
      (.invokes .response) [.managers] := by
    simp [Operation.code, process, processManager, processActiveRequests, invokeFinalCallback,
        invokeCallback]
  have event : Operation.process.code.Reaches []
      [.process, .processClients, .processClient 0, .processFsmState 0]
      (.invokes (.event 0)) [.clientList, .managers] := by
    simp [Operation.code, process, processClients, processClient, processFsmState]
  refine ⟨response, ?_, event, ?_, ?_⟩
  · simp [EntryPoint.code, cancelRequests, process]
  · simp [EntryPoint.code]
  · intro reentrant
    exact absurd (reentrant .process _ .response _ response).1 (by simp)

end Kurlyk.Core
