/-
This file follows the tasks that are passed to `NetworkWorker::add_task`. The
worker's functions `process` and `shutdown` first go through the managers and
then call `process_tasks`, which takes the whole list in one section and runs
what it took; a task that runs, a callback of a manager and every other thread
may add further tasks at any time. Tasks do not throw here.

Any number of calls may be in progress: those of other threads, when the worker
has no thread of its own, and those that a running task makes. Every action is
one section or one task of one of the calls.

No task is lost or run twice, but `shutdown` takes the list once. What is added
after the list was taken for the last time stays there.
-/

import Kurlyk.Core.NetworkWorker
import Kurlyk.Lib.Books

namespace Kurlyk.Core.Tasks

/-! ### The state -/

/-- The name of a task. -/
abbrev Task := ℕ

/-- What happens to tasks. `taken` is the section of `process_tasks`, and `executed` the call of
a task. -/
inductive Event where
  | added (task : Task)
  | taken
  | executed (task : Task)
  | returned (round : Round)
deriving DecidableEq

/-- Where a call of `process` or `shutdown` is: before `process_tasks`, or in its loop with the
tasks it has not run. -/
inductive Stage where
  | managers
  | tasks (tasksList : List Task)
deriving DecidableEq

/-- A call of `process` or `shutdown` in progress. -/
structure Call where
  round : Round
  stage : Stage
deriving DecidableEq

/-- The tasks a call has taken and not run. -/
def Call.waiting (call : Call) : List Task :=
  match call.stage with
  | .managers => []
  | .tasks tasksList => tasksList

/-- `m_tasks_list` and the calls in progress. -/
structure Worker where
  tasksList : List Task := []
  calls : List Call := []
  nextTask : Task := 0
  log : List Event := []

/-- The actions of all threads; a position names a call in progress. -/
inductive Action where
  | addTask
  | call (round : Round)
  | takeTasks (position : ℕ)
  | runTask (position : ℕ)
  | finish (position : ℕ)
deriving DecidableEq

namespace Worker

variable (worker : Worker)

/-- `add_task`. -/
def addTask : Worker :=
  { worker with
    tasksList := worker.tasksList ++ [worker.nextTask]
    nextTask := worker.nextTask + 1
    log := worker.log ++ [.added worker.nextTask] }

/-- The section of `process_tasks`. -/
def takeTasks (position : ℕ) : Option Worker :=
  match worker.calls[position]? with
  | some ⟨round, .managers⟩ =>
    some { worker with
      tasksList := []
      calls := worker.calls.set position ⟨round, .tasks worker.tasksList⟩
      log := worker.log ++ [.taken] }
  | _ => none

/-- One iteration of the loop of `process_tasks`. -/
def runTask (position : ℕ) : Option Worker :=
  match worker.calls[position]? with
  | some ⟨round, .tasks (task :: rest)⟩ =>
    some { worker with
      calls := worker.calls.set position ⟨round, .tasks rest⟩
      log := worker.log ++ [.executed task] }
  | _ => none

/-- A call returns after its last task. -/
def finish (position : ℕ) : Option Worker :=
  match worker.calls[position]? with
  | some ⟨round, .tasks []⟩ =>
    some { worker with
      calls := worker.calls.eraseIdx position
      log := worker.log ++ [.returned round] }
  | _ => none

/-- One step of one thread. -/
def step : Action → Option Worker
  | .addTask => some worker.addTask
  | .call round => some { worker with calls := worker.calls ++ [⟨round, .managers⟩] }
  | .takeTasks position => worker.takeTasks position
  | .runTask position => worker.runTask position
  | .finish position => worker.finish position

/-- The tasks that are somewhere and have not been run. -/
def kept : List Task :=
  worker.tasksList ++ worker.calls.flatMap Call.waiting

end Worker

/-- The worker's task list with all threads, as a system. -/
def taskSystem : System Worker Action where
  init := {}
  step := Worker.step

variable {worker next : Worker} {action : Action} {task : Task}

/-! ### What a step can do -/

/-- What one step can do. -/
inductive TaskStep (worker : Worker) : Action → Worker → Prop where
  | add : TaskStep worker .addTask worker.addTask
  | begin_ {round} :
    TaskStep worker (.call round) { worker with calls := worker.calls ++ [⟨round, .managers⟩] }
  | take {position round} (found : worker.calls[position]? = some ⟨round, .managers⟩) :
    TaskStep worker (.takeTasks position) { worker with
      tasksList := []
      calls := worker.calls.set position ⟨round, .tasks worker.tasksList⟩
      log := worker.log ++ [.taken] }
  | run {position round task rest}
    (found : worker.calls[position]? = some ⟨round, .tasks (task :: rest)⟩) :
    TaskStep worker (.runTask position) { worker with
      calls := worker.calls.set position ⟨round, .tasks rest⟩
      log := worker.log ++ [.executed task] }
  | finish {position round} (found : worker.calls[position]? = some ⟨round, .tasks []⟩) :
    TaskStep worker (.finish position) { worker with
      calls := worker.calls.eraseIdx position
      log := worker.log ++ [.returned round] }

theorem taskStep_of_step (stepped : taskSystem.step worker action = some next) :
    TaskStep worker action next := by
  change worker.step action = some next at stepped
  cases action with
  | addTask =>
    rw [← Option.some.inj stepped]
    exact .add
  | call round =>
    rw [← Option.some.inj stepped]
    exact .begin_
  | takeTasks position =>
    simp only [Worker.step, Worker.takeTasks] at stepped
    split at stepped
    · rename_i found
      rw [← Option.some.inj stepped]
      exact .take found
    · exact absurd stepped (by simp)
  | runTask position =>
    simp only [Worker.step, Worker.runTask] at stepped
    split at stepped
    · rename_i found
      rw [← Option.some.inj stepped]
      exact .run found
    · exact absurd stepped (by simp)
  | finish position =>
    simp only [Worker.step, Worker.finish] at stepped
    split at stepped
    · rename_i found
      rw [← Option.some.inj stepped]
      exact .finish found
    · exact absurd stepped (by simp)

/-! ### No task is lost or run twice -/

/-- The tasks an event adds. -/
def Event.opens : Event → List Task
  | .added task => [task]
  | _ => []

/-- The tasks an event runs. -/
def Event.closes : Event → List Task
  | .executed task => [task]
  | _ => []

/-- The books of all tasks. -/
def Accounted (worker : Worker) : Prop :=
  Books Event.opens Event.closes worker.log worker.kept (· < worker.nextTask)

theorem mem_opens {log : List Event} : task ∈ log.flatMap Event.opens ↔ .added task ∈ log := by
  rw [List.mem_flatMap]
  constructor
  · rintro ⟨event, logged, member⟩
    cases event with
    | added other => rwa [List.mem_singleton.mp member]
    | _ => exact absurd member List.not_mem_nil
  · intro logged
    exact ⟨_, logged, List.mem_cons_self⟩

theorem count_closes (log : List Event) (task : Task) :
    List.count task (log.flatMap Event.closes) = log.count (.executed task) := by
  induction log with
  | nil => rfl
  | cons event rest inductionHypothesis =>
    rw [List.flatMap_cons, List.count_append, inductionHypothesis, List.count_cons, Nat.add_comm]
    cases event with
    | executed other => simp [Event.closes, List.count_singleton]
    | _ => simp [Event.closes]

theorem count_kept (task : Task) (worker : Worker) :
    List.count task worker.kept =
      List.count task worker.tasksList + List.count task (worker.calls.flatMap Call.waiting) :=
  List.count_append ..

/-- A step that adds no task. -/
theorem Accounted.move (accounted : Accounted worker) (events : List Event)
    (logged : next.log = worker.log ++ events) (silent : events.flatMap Event.opens = [])
    (balance : ∀ task, List.count task next.kept + List.count task (events.flatMap Event.closes) =
      List.count task worker.kept)
    (counter : next.nextTask = worker.nextTask) : Accounted next := by
  unfold Accounted
  rw [logged, counter]
  exact Books.move accounted events silent balance fun _ old => old

theorem Accounted.step (accounted : Accounted worker) (step : TaskStep worker action next) :
    Accounted next := by
  cases step with
  | add =>
    refine Books.take accounted [.added worker.nextTask] (Nat.lt_irrefl _) rfl rfl (fun other => ?_)
      (fun _ old => Nat.lt_succ_of_lt old) (Nat.lt_succ_self _)
    simp only [count_kept, Worker.addTask, List.count_append, count_cons_mark, List.count_nil]
    omega
  | begin_ =>
    refine accounted.move [] (List.append_nil _).symm rfl (fun task => ?_) rfl
    simp [count_kept, Call.waiting]
  | @take position round found =>
    refine accounted.move [.taken] rfl rfl (fun task => ?_) rfl
    have written := count_flatMap_set found Call.waiting ⟨round, .tasks worker.tasksList⟩ task
    simp only [count_kept, Call.waiting, Event.closes, List.flatMap_cons, List.flatMap_nil,
      List.append_nil, List.count_nil] at written ⊢
    omega
  | @run position round task rest found =>
    refine accounted.move [.executed task] rfl rfl (fun other => ?_) rfl
    have written := count_flatMap_set found Call.waiting ⟨round, .tasks rest⟩ other
    simp only [count_kept, Call.waiting, Event.closes, List.flatMap_cons, List.flatMap_nil,
      List.append_nil, count_cons_mark, List.count_nil] at written ⊢
    omega
  | @finish position round found =>
    refine accounted.move [.returned round] rfl rfl (fun task => ?_) rfl
    have erased := count_flatMap_eraseIdx found Call.waiting task
    simp only [count_kept, Call.waiting, Event.closes, List.flatMap_cons, List.flatMap_nil,
      List.append_nil, List.count_nil] at erased ⊢
    omega

/-- In every reachable state each task that was added waits at one place or was run once. -/
theorem accounted_of_reachable (reachable : taskSystem.Reachable worker) : Accounted worker := by
  refine reachable.induction Accounted ?_ ?_
  · exact ⟨fun _ => rfl, fun _ => Nat.zero_le _, fun _ _ => rfl⟩
  · intro state action after _ accounted stepped
    exact accounted.step (taskStep_of_step stepped)

/-! ### What is left in the list -/

/-- The tasks added since the list was last taken, after one more event. -/
def Event.since (tasks : List Task) : Event → List Task
  | .added task => tasks ++ [task]
  | .taken => []
  | _ => tasks

/-- The tasks that were passed to `add_task` after `process_tasks` took the list for the last
time. -/
def addedSinceTaken (log : List Event) : List Task :=
  log.foldl Event.since []

theorem addedSinceTaken_concat (log : List Event) (event : Event) :
    addedSinceTaken (log ++ [event]) = event.since (addedSinceTaken log) := by
  rw [addedSinceTaken, List.foldl_append]
  rfl

/-- The list holds what was added since it was taken. -/
theorem tasksList_eq (reachable : taskSystem.Reachable worker) :
    worker.tasksList = addedSinceTaken worker.log := by
  refine reachable.induction (fun worker => worker.tasksList = addedSinceTaken worker.log) rfl ?_
  intro state action after _ same stepped
  cases taskStep_of_step stepped with
  | add =>
    change state.tasksList ++ [state.nextTask] = addedSinceTaken (state.log ++ _)
    rw [addedSinceTaken_concat, same]
    rfl
  | begin_ => exact same
  | take =>
    dsimp only
    rw [addedSinceTaken_concat]
    rfl
  | run | finish =>
    dsimp only
    rw [addedSinceTaken_concat]
    exact same

/-- A task that is not in the list is never put into it again. -/
theorem not_mem_tasksList_of_runs {actions : List Action} {later : Worker}
    (reachable : taskSystem.Reachable worker) (runs : taskSystem.Runs worker actions later)
    (added : .added task ∈ worker.log) (absent : task ∉ worker.tasksList) :
    .added task ∈ later.log ∧ task ∉ later.tasksList := by
  refine runs.induction (fun state => .added task ∈ state.log ∧ task ∉ state.tasksList) reachable
    ⟨added, absent⟩ ?_
  rintro state action after reached _ ⟨logged, outside⟩ stepped
  cases taskStep_of_step stepped with
  | add =>
    have used : task < state.nextTask :=
      (accounted_of_reachable reached).used_of_mem (mem_opens.mpr logged)
    refine ⟨List.mem_append_left _ logged, fun member => ?_⟩
    rcases List.mem_append.mp member with old | new
    · exact outside old
    · exact Nat.ne_of_lt used (List.mem_singleton.mp new)
  | begin_ => exact ⟨logged, outside⟩
  | take => exact ⟨List.mem_append_left _ logged, List.not_mem_nil⟩
  | run | finish => exact ⟨List.mem_append_left _ logged, outside⟩

/-! ### When `shutdown` returns -/

/-- What `shutdown` promises at its return: the list is empty, and every task that was added is
run exactly once. A task that another call has taken is run when no call is in progress any
more. -/
structure Completed (worker : Worker) : Prop where
  emptied : worker.tasksList = []
  once : ∀ task, .added task ∈ worker.log → ∀ actions later,
    taskSystem.Runs worker actions later → later.calls = [] →
      later.log.count (.executed task) = 1

theorem completed_of_empty (reachable : taskSystem.Reachable worker)
    (empty : worker.tasksList = []) : Completed worker := by
  refine ⟨empty, fun task added actions later runs returned => ?_⟩
  have absent : task ∉ worker.tasksList := by
    rw [empty]
    exact List.not_mem_nil
  obtain ⟨logged, outside⟩ := not_mem_tasksList_of_runs reachable runs added absent
  have gone : task ∉ later.kept := by
    rw [Worker.kept, returned, List.flatMap_nil, List.append_nil]
    exact outside
  rw [← count_closes]
  exact (accounted_of_reachable (reachable.runs runs)).closed_once (mem_opens.mpr logged) gone

/-- No task is added once a call of `shutdown` has taken the list. -/
def InTime (worker : Worker) (action : Action) : Prop :=
  action = .addTask → ∀ call ∈ worker.calls, call.round = .shutdown → call.stage = .managers

/-- While a call of `shutdown` runs tasks, and when it has just returned, the list is empty. -/
structure Drained (worker : Worker) : Prop where
  running : ∀ call ∈ worker.calls, call.round = .shutdown → call.stage ≠ .managers →
    worker.tasksList = []
  returned : worker.log.getLast? = some (.returned .shutdown) → worker.tasksList = []

theorem Drained.step (drained : Drained worker) (inTime : InTime worker action)
    (step : TaskStep worker action next) : Drained next := by
  cases step with
  | add =>
    refine ⟨fun call present shutdown past => ?_, fun last => ?_⟩
    · exact absurd (inTime rfl call present shutdown) past
    · simp [Worker.addTask] at last
  | begin_ =>
    refine ⟨fun call present shutdown past => ?_, drained.returned⟩
    rcases List.mem_append.mp present with old | new
    · exact drained.running call old shutdown past
    · exact absurd (by rw [List.mem_singleton.mp new]) past
  | take found => exact ⟨fun _ _ _ _ => rfl, fun _ => rfl⟩
  | run found =>
    refine ⟨fun call present shutdown past => ?_, fun last => ?_⟩
    · rcases List.mem_or_eq_of_mem_set present with old | rfl
      · exact drained.running call old shutdown past
      · exact drained.running _ (List.mem_of_getElem? found) shutdown (by simp)
    · simp at last
  | finish found =>
    refine ⟨fun call present => drained.running call (List.mem_of_mem_eraseIdx present),
      fun last => ?_⟩
    rw [List.getLast?_concat, Option.some.injEq, Event.returned.injEq] at last
    exact drained.running _ (List.mem_of_getElem? found) last (by simp)

/-- When `shutdown` has returned, the list is empty and every task is run exactly once, if and
only if no task was added after the list was taken for the last time. That is so in every run in
which no task is added once a call of `shutdown` has taken the list. -/
theorem shutdown_completes_iff {actions : List Action}
    (runs : taskSystem.Runs taskSystem.init actions worker)
    (returned : worker.log.getLast? = some (.returned .shutdown)) :
    (Completed worker ↔ addedSinceTaken worker.log = []) ∧
      (taskSystem.Throughout InTime taskSystem.init actions → Completed worker) := by
  have reachable : taskSystem.Reachable worker := ⟨actions, runs⟩
  refine ⟨⟨fun completed => ?_, fun none => ?_⟩, fun met => ?_⟩
  · rw [← tasksList_eq reachable]
    exact completed.emptied
  · exact completed_of_empty reachable ((tasksList_eq reachable).trans none)
  · have initially : Drained taskSystem.init :=
      ⟨fun call present => absurd present List.not_mem_nil, fun _ => rfl⟩
    have drained := runs.induction_throughout met Drained System.reachable_init initially
      fun _ _ _ _ inTime held stepped => held.step inTime (taskStep_of_step stepped)
    exact completed_of_empty reachable (drained.returned returned)

/-- A task adds another one in a round of `process`, and `shutdown` runs both. -/
def taskInTime : List Action :=
  [.addTask, .call .process, .takeTasks 0, .runTask 0, .addTask, .finish 0,
    .call .shutdown, .takeTasks 0, .runTask 0, .finish 0]

theorem shutdown_completes_iff_taskInTime :
    ∃ worker, taskSystem.Runs taskSystem.init taskInTime worker ∧ .added 1 ∈ worker.log ∧
      Completed worker := by
  have checked : (taskSystem.run taskSystem.init taskInTime).any (fun worker =>
      decide (worker.log.getLast? = some (.returned .shutdown) ∧ .added 1 ∈ worker.log ∧
        addedSinceTaken worker.log = [])) = true := by
    decide +kernel
  obtain ⟨worker, runs, facts⟩ := System.exists_runs checked
  obtain ⟨returned, added, none⟩ := of_decide_eq_true facts
  exact ⟨worker, runs, added, (shutdown_completes_iff runs returned).1.mpr none⟩

/-- The task that `shutdown` runs adds another one. -/
def taskTooLate : List Action :=
  [.addTask, .call .shutdown, .takeTasks 0, .runTask 0, .addTask, .finish 0]

/-- The other task is in the list when `shutdown` returns, and nobody has run it. -/
theorem task_left_behind :
    ∃ worker, taskSystem.Runs taskSystem.init taskTooLate worker ∧
      worker.log.getLast? = some (.returned .shutdown) ∧ worker.calls = [] ∧
      worker.tasksList = [1] ∧ .added 1 ∈ worker.log ∧ worker.log.count (.executed 1) = 0 ∧
      ¬ Completed worker := by
  have checked : (taskSystem.run taskSystem.init taskTooLate).any (fun worker =>
      decide (worker.log.getLast? = some (.returned .shutdown) ∧ worker.calls = [] ∧
        worker.tasksList = [1] ∧ .added 1 ∈ worker.log ∧
        worker.log.count (.executed 1) = 0)) = true := by
    decide +kernel
  obtain ⟨worker, runs, facts⟩ := System.exists_runs checked
  obtain ⟨returned, idle, left, added, never⟩ := of_decide_eq_true facts
  refine ⟨worker, runs, returned, idle, left, added, never, fun completed => ?_⟩
  exact absurd (left.symm.trans completed.emptied) (by simp)

end Kurlyk.Core.Tasks
