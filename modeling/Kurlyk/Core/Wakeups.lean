/-
This file shows that no wake-up of the worker is lost. The worker clears
`m_notify` at two places of its loop, and each time it still has the whole of
`is_loaded` before it. Work whose `notify` has returned is therefore in a
container that the worker has still to read before it can wait again, or the flag
has been set since.
-/

import Kurlyk.Core.NetworkWorker

namespace Kurlyk.Core

/-! ### What is inspected -/

section Reads

variable {manager : Manager} {clients : List ℕ} {container : Container} {worker : NetworkWorker}

/-- A manager reads its own containers. -/
theorem Manager.manager_of_mem_reads (member : container ∈ (manager.reads clients).flatten) :
    container.manager = some manager := by
  cases manager with
  | http =>
    simp only [reads, List.flatten_cons, List.flatten_nil, List.append_nil, List.mem_cons,
      List.not_mem_nil, or_false] at member
    rcases member with rfl | rfl | rfl | rfl | rfl | rfl <;> rfl
  | webSocket =>
    obtain ⟨read, among, within⟩ := List.mem_flatten.mp member
    obtain ⟨client, _, same⟩ := List.mem_flatMap.mp among
    simp only [List.mem_cons, List.not_mem_nil, or_false] at same
    rcases same with rfl | rfl <;> rw [List.mem_singleton.mp within] <;> rfl

theorem Container.manager_eq_none : container.manager = none ↔ container = .tasksList := by
  cases container <;> simp [Container.manager]

/-- What is inspected belongs to a registered manager, which reads it, or is the list of tasks. -/
theorem NetworkWorker.mem_inspected : container ∈ worker.inspected ↔
    (∃ manager ∈ worker.managers, container ∈ (manager.reads worker.clients).flatten) ∨
      container.manager = none := by
  rw [Container.manager_eq_none, inspected, List.mem_append, List.mem_flatMap, List.mem_singleton]

/-- A manager reads those of its containers that are inspected. -/
theorem NetworkWorker.mem_reads_of_inspected (member : container ∈ worker.inspected)
    (belongs : container.manager = some manager) :
    container ∈ (manager.reads worker.clients).flatten := by
  rcases mem_inspected.mp member with ⟨reader, _, read⟩ | none
  · have same := Manager.manager_of_mem_reads read
    rw [belongs] at same
    rwa [Option.some.inj same]
  · rw [none] at belongs
    cases belongs

/-- A read that finds nothing has read empty containers. -/
theorem NetworkWorker.content_eq_nil_of_not_found {read : List Container}
    (nothing : ¬ worker.found read = true) (member : container ∈ read) :
    worker.content container = [] := by
  simp only [found, List.any_eq_true, Bool.not_eq_true', not_exists, not_and,
    Bool.not_eq_false, List.isEmpty_iff] at nothing
  exact nothing container member

/-- Unprocessed work makes `is_loaded` return true. -/
theorem NetworkWorker.Unprocessed.isLoaded {work : ℕ} (unprocessed : worker.Unprocessed work) :
    worker.isLoaded = true := by
  obtain ⟨container, member, inside⟩ := unprocessed
  have finds (read : List Container) (among : container ∈ read) : worker.found read = true := by
    by_contra nothing
    rw [content_eq_nil_of_not_found nothing among] at inside
    exact absurd inside List.not_mem_nil
  rw [NetworkWorker.isLoaded, Bool.or_eq_true]
  rcases mem_inspected.mp member with ⟨manager, registered, read⟩ | none
  · obtain ⟨part, among, within⟩ := List.mem_flatten.mp read
    refine Or.inl (List.any_eq_true.mpr ⟨manager, registered, ?_⟩)
    exact List.any_eq_true.mpr ⟨part, among, finds part within⟩
  · rw [Container.manager_eq_none] at none
    exact Or.inr (finds [.tasksList] (List.mem_singleton.mpr none))

end Reads

/-! ### The invariant -/

/-- The worker reads the container before it can come to its outer wait, or never comes there. -/
def Point.Ahead (container : Container) : Point → Prop
  | .notStarted | .outerWait | .testIdle => False
  | .isLoaded managers reads => container ∈ reads.flatten ∨ container.manager = none ∨
      ∃ manager ∈ managers, container.manager = some manager
  | .hasPendingTasks => container.manager = none
  | .testNotified | .loop | .enter _ | .process _ _ | .processTasks _ | .runTasks _
  | .testProcessed | .innerWait | .testWaited | .returned => True

namespace NetworkWorker

/-- The worker is about to see what is in the container. -/
def Attends (worker : NetworkWorker) (container : Container) : Prop :=
  worker.notify = true ∨ worker.point.Ahead container

/-- Labelled work was submitted and is inspected, and when its `notify` has returned the worker is
about to see it. -/
structure Attentive (worker : NetworkWorker) : Prop where
  submitted : ∀ container work, some work ∈ worker.content container → work ∈ worker.submitted
  inspected : ∀ container work, some work ∈ worker.content container →
    container ∈ worker.inspected
  notified : worker.notified ⊆ worker.submitted
  attends : ∀ container, ∀ work ∈ worker.notified, some work ∈ worker.content container →
    worker.Attends container

variable {worker next : NetworkWorker}

/-- A step that adds no labelled work and no `notify` of a producer keeps the invariant, when the
worker goes on to attend to what is not empty. -/
theorem Attentive.frame (attentive : worker.Attentive)
    (content : ∀ container work, some work ∈ next.content container →
      some work ∈ worker.content container)
    (submitted : next.submitted = worker.submitted) (notified : next.notified = worker.notified)
    (inspected : worker.inspected ⊆ next.inspected)
    (attends : ∀ container ∈ worker.inspected, worker.content container ≠ [] →
      worker.Attends container → next.Attends container) : next.Attentive where
  submitted container work inside := by
    rw [submitted]
    exact attentive.submitted container work (content container work inside)
  inspected container work inside :=
    inspected (attentive.inspected container work (content container work inside))
  notified := by
    rw [notified, submitted]
    exact attentive.notified
  attends container work announced inside := by
    rw [notified] at announced
    have before := content container work inside
    exact attends container (attentive.inspected container work before)
      (List.ne_nil_of_mem before) (attentive.attends container work announced before)

/-- A step of the worker's thread that leaves all but its place as it is. -/
theorem Attentive.goto {point : Point} (attentive : worker.Attentive)
    (attends : ∀ container ∈ worker.inspected, worker.content container ≠ [] →
      worker.Attends container → (worker.goto point).Attends container) :
    (worker.goto point).Attentive :=
  attentive.frame (fun _ _ inside => inside) rfl rfl (List.Subset.refl _) attends

/-- The worker goes to a place from which it reads everything again, or never waits. -/
theorem Attentive.goto_of_ahead {point : Point} (attentive : worker.Attentive)
    (ahead : ∀ container, point.Ahead container) : (worker.goto point).Attentive :=
  attentive.goto fun container _ _ _ => Or.inr (ahead container)

/-- The flag is cleared where the worker is about to read everything. -/
theorem Attentive.clear {point : Point} (attentive : worker.Attentive)
    (ahead : ∀ container, point.Ahead container) :
    Attentive { worker.goto point with notify := false } :=
  attentive.frame (fun _ _ inside => inside) rfl rfl (List.Subset.refl _)
    fun container _ _ _ => Or.inr (ahead container)

theorem Attentive.testShutdown {point : Point} (attentive : worker.Attentive)
    (otherwise : (worker.goto point).Attentive) : (worker.testShutdown point).Attentive := by
  unfold NetworkWorker.testShutdown
  split
  · exact attentive.goto_of_ahead fun _ => trivial
  · exact otherwise

/-! ### The steps of `is_loaded` -/

/-- `is_loaded` begins: everything inspected is still to be read. -/
theorem Attentive.beginScan (attentive : worker.Attentive) :
    (worker.goto (.isLoaded worker.managers [])).Attentive := by
  refine attentive.goto fun container inspected _ _ => Or.inr (Or.inr ?_)
  rcases mem_inspected.mp inspected with ⟨manager, registered, read⟩ | none
  · exact Or.inr ⟨manager, registered, Manager.manager_of_mem_reads read⟩
  · exact Or.inl none

/-- The mutex of the next manager is locked. -/
theorem Attentive.askManager {manager : Manager} {managers : List Manager}
    (attentive : worker.Attentive) (here : worker.point = .isLoaded (manager :: managers) []) :
    (worker.goto (.isLoaded managers (manager.reads worker.clients))).Attentive := by
  refine attentive.goto fun container inspected _ attends => attends.imp_right ?_
  rw [here]
  rintro (impossible | none | ⟨other, member, belongs⟩)
  · exact absurd impossible List.not_mem_nil
  · exact Or.inr (Or.inl none)
  · rcases List.mem_cons.mp member with rfl | later
    · exact Or.inl (mem_reads_of_inspected inspected belongs)
    · exact Or.inr (Or.inr ⟨other, later, belongs⟩)

/-- A read of containers that are all empty. -/
theorem Attentive.readNothing {managers : List Manager} {read : List Container}
    {reads : List (List Container)} (attentive : worker.Attentive)
    (here : worker.point = .isLoaded managers (read :: reads))
    (nothing : ¬ worker.found read = true) :
    (worker.goto (.isLoaded managers reads)).Attentive := by
  refine attentive.goto fun container _ filled attends => attends.imp_right ?_
  rw [here]
  rintro (unread | other)
  · rcases List.mem_append.mp unread with now | later
    · exact absurd (content_eq_nil_of_not_found nothing now) filled
    · exact Or.inl later
  · exact Or.inr other

/-- All managers have been asked, and only the list of tasks is left. -/
theorem Attentive.leaveManagers (attentive : worker.Attentive)
    (here : worker.point = .isLoaded [] []) : (worker.goto .hasPendingTasks).Attentive := by
  refine attentive.goto fun container _ _ attends => attends.imp_right ?_
  rw [here]
  rintro (impossible | none | ⟨_, impossible, _⟩)
  · exact absurd impossible List.not_mem_nil
  · exact none
  · exact absurd impossible List.not_mem_nil

/-- There are no tasks either: what has been announced has set the flag again. -/
theorem Attentive.noPendingTasks (attentive : worker.Attentive)
    (here : worker.point = .hasPendingTasks)
    (nothing : ¬ worker.found [.tasksList] = true) : (worker.goto .testIdle).Attentive := by
  refine attentive.goto fun container _ filled attends => attends.imp_right ?_
  rw [here]
  intro none
  rw [Container.manager_eq_none.mp none] at filled
  exact filled (content_eq_nil_of_not_found nothing List.mem_cons_self)

/-! ### The steps of the threads -/

/-- What is in the containers after one of them has been changed. -/
theorem mem_update {content : Container → List (Option ℕ)} {container other : Container}
    {left : List (Option ℕ)} {entry : Option ℕ}
    (inside : entry ∈ Function.update content container left other) :
    (other = container ∧ entry ∈ left) ∨ entry ∈ content other := by
  by_cases here : other = container
  · subst here
    rw [Function.update_self] at inside
    exact Or.inl ⟨rfl, inside⟩
  · rw [Function.update_of_ne here] at inside
    exact Or.inr inside

/-- What is in the containers after work has been put into some of them. -/
theorem mem_put {entry new : Option ℕ} {containers : List Container} {container : Container}
    (inside : entry ∈ (worker.put new containers).content container) :
    (entry = new ∧ container ∈ containers) ∨ entry ∈ worker.content container := by
  simp only [put] at inside
  split at inside
  · rcases List.mem_append.mp inside with before | now
    · exact Or.inr before
    · exact Or.inl ⟨List.mem_singleton.mp now, ‹_›⟩
  · exact Or.inr inside

/-- `process_tasks` takes the tasks out of their list. -/
theorem Attentive.takeTasks {round : Round} (attentive : worker.Attentive) :
    Attentive { worker.goto (.runTasks round) with
      content := Function.update worker.content .tasksList [] } := by
  refine attentive.frame ?_ rfl rfl (List.Subset.refl _) fun _ _ _ _ => Or.inr trivial
  intro container work inside
  rcases mem_update inside with ⟨_, impossible⟩ | before
  · exact absurd impossible List.not_mem_nil
  · exact before

theorem Attentive.advance (attentive : worker.Attentive) (stepped : worker.advance = some next) :
    next.Attentive := by
  cases here : worker.point <;> rw [NetworkWorker.advance, here] at stepped
  case notStarted => cases stepped
  case outerWait =>
    obtain ⟨_, same⟩ := Option.ite_none_right_eq_some.mp stepped
    obtain rfl := Option.some.inj same
    exact attentive.clear fun _ => trivial
  case testNotified =>
    obtain rfl := Option.some.inj stepped
    exact attentive.testShutdown (attentive.goto_of_ahead fun _ => trivial)
  case loop =>
    obtain rfl := Option.some.inj stepped
    exact attentive.beginScan
  case isLoaded managers reads =>
    rcases reads with _ | ⟨read, reads⟩
    · rcases managers with _ | ⟨manager, managers⟩
      · obtain rfl := Option.some.inj stepped
        exact attentive.leaveManagers here
      · obtain rfl := Option.some.inj stepped
        exact attentive.askManager here
    · obtain rfl := Option.some.inj stepped
      split
      · exact attentive.goto_of_ahead fun _ => trivial
      · exact attentive.readNothing here ‹_›
  case hasPendingTasks =>
    obtain rfl := Option.some.inj stepped
    split
    · exact attentive.goto_of_ahead fun _ => trivial
    · exact attentive.noPendingTasks here ‹_›
  case enter round =>
    obtain rfl := Option.some.inj stepped
    exact attentive.goto_of_ahead fun _ => trivial
  case process round managers =>
    rcases managers with _ | ⟨manager, managers⟩ <;>
      obtain rfl := Option.some.inj stepped <;>
      exact attentive.goto_of_ahead fun _ => trivial
  case processTasks round =>
    obtain rfl := Option.some.inj stepped
    exact attentive.takeTasks
  case runTasks round =>
    cases round <;> obtain rfl := Option.some.inj stepped <;>
      exact attentive.goto_of_ahead fun _ => trivial
  case testProcessed =>
    obtain rfl := Option.some.inj stepped
    exact attentive.testShutdown (attentive.goto_of_ahead fun _ => trivial)
  case innerWait =>
    obtain rfl := Option.some.inj stepped
    exact attentive.clear fun _ => trivial
  case testWaited =>
    obtain rfl := Option.some.inj stepped
    exact attentive.testShutdown (attentive.goto_of_ahead fun _ => trivial)
  case testIdle =>
    obtain rfl := Option.some.inj stepped
    refine attentive.testShutdown (attentive.goto fun container _ _ attends => ?_)
    exact attends.imp_right (by rw [here]; exact False.elim)
  case returned => cases stepped

/-- The worker works on a container while it is in `process` or `shutdown`, and comes to
`is_loaded` again before it waits. -/
theorem Attentive.work {container : Container} {left : List (Option ℕ)}
    (attentive : worker.Attentive) (stepped : worker.work container left = some next) :
    next.Attentive := by
  obtain ⟨⟨works, inspected, known⟩, same⟩ := Option.ite_none_right_eq_some.mp stepped
  obtain rfl := Option.some.inj same
  have busy (other : Container) : worker.point.Ahead other := by
    unfold worksOn at works
    split at works
    · rw [‹worker.point = _›]
      trivial
    · rw [‹worker.point = _›]
      trivial
    · cases works
  constructor
  · intro other label inside
    rcases mem_update inside with ⟨_, stays⟩ | before
    · exact known (List.reduceOption_mem_iff.mpr stays)
    · exact attentive.submitted other label before
  · intro other label inside
    rcases mem_update inside with ⟨rfl, _⟩ | before
    · exact inspected
    · exact attentive.inspected other label before
  · exact attentive.notified
  · exact fun other _ _ _ => Or.inr (busy other)

/-- New work has not been announced yet. -/
theorem Attentive.submit {work : ℕ} {containers : List Container} (attentive : worker.Attentive)
    (stepped : worker.submit work containers = some next) : next.Attentive := by
  obtain ⟨⟨fresh, visible⟩, same⟩ := Option.ite_none_right_eq_some.mp stepped
  obtain rfl := Option.some.inj same
  constructor
  · intro container label inside
    rcases mem_put inside with ⟨same, _⟩ | before
    · exact Option.some.inj same ▸ List.mem_cons_self
    · exact List.mem_cons_of_mem _ (attentive.submitted container label before)
  · intro container label inside
    rcases mem_put inside with ⟨_, member⟩ | before
    · exact visible member
    · exact attentive.inspected container label before
  · exact fun label announced => List.mem_cons_of_mem _ (attentive.notified announced)
  · intro container label announced inside
    rcases mem_put inside with ⟨same, _⟩ | before
    · exact absurd (attentive.notified announced) (Option.some.inj same ▸ fresh)
    · exact attentive.attends container label announced before

/-- `notify` sets the flag. -/
theorem Attentive.notifyOf {work : ℕ} (attentive : worker.Attentive)
    (stepped : worker.notifyOf work = some next) : next.Attentive := by
  obtain ⟨member, same⟩ := Option.ite_none_right_eq_some.mp stepped
  obtain rfl := Option.some.inj same
  constructor
  · exact attentive.submitted
  · exact attentive.inspected
  · intro label announced
    rcases List.mem_cons.mp announced with rfl | before
    · exact member
    · exact attentive.notified before
  · exact fun _ _ _ _ => Or.inl rfl

theorem Attentive.registerManager {manager : Manager} (attentive : worker.Attentive)
    (stepped : worker.registerManager manager = some next) : next.Attentive := by
  unfold NetworkWorker.registerManager at stepped
  split at stepped
  · cases stepped
  · split at stepped
    · exact Option.some.inj stepped ▸ attentive
    · obtain rfl := Option.some.inj stepped
      refine attentive.frame (fun _ _ inside => inside) rfl rfl ?_ fun _ _ _ attends => attends
      intro container member
      rcases mem_inspected.mp member with ⟨reader, registered, read⟩ | none
      · exact mem_inspected.mpr (Or.inl ⟨reader, List.mem_append_left _ registered, read⟩)
      · exact mem_inspected.mpr (Or.inr none)

/-- A manager reads more when there are more clients. -/
theorem reads_subset {clients : List ℕ} {client : ℕ} {manager : Manager} :
    (manager.reads clients).flatten ⊆ (manager.reads (clients ++ [client])).flatten := by
  intro container member
  cases manager with
  | http => exact member
  | webSocket =>
    rw [Manager.reads, List.flatMap_append, List.flatten_append]
    exact List.mem_append_left _ member

theorem Attentive.createClient {client : ℕ} (attentive : worker.Attentive)
    (stepped : worker.createClient client = some next) : next.Attentive := by
  unfold NetworkWorker.createClient at stepped
  split at stepped
  · cases stepped
  · obtain rfl := Option.some.inj stepped
    refine attentive.frame (fun _ _ inside => inside) rfl rfl ?_ fun _ _ _ attends => attends
    intro container member
    rcases mem_inspected.mp member with ⟨reader, registered, read⟩ | none
    · exact mem_inspected.mpr (Or.inl ⟨reader, registered, reads_subset read⟩)
    · exact mem_inspected.mpr (Or.inr none)

/-- Work that nobody announces has no label. -/
theorem Attentive.appear {container : Container} (attentive : worker.Attentive) :
    (worker.put none [container]).Attentive := by
  refine attentive.frame ?_ rfl rfl (List.Subset.refl _) fun _ _ _ attends => attends
  intro other work inside
  rcases mem_put inside with ⟨impossible, _⟩ | before
  · cases impossible
  · exact before

theorem Attentive.expire {client : ℕ} (attentive : worker.Attentive) :
    (worker.expire client).Attentive := by
  refine attentive.frame ?_ rfl rfl (List.Subset.refl _) fun _ _ _ attends => attends
  intro container work inside
  simp only [NetworkWorker.expire] at inside
  split at inside
  · exact absurd inside List.not_mem_nil
  · exact inside

theorem Attentive.throw (attentive : worker.Attentive) (stepped : worker.throw = some next) :
    next.Attentive := by
  unfold NetworkWorker.throw at stepped
  split at stepped
  · exact Option.some.inj stepped ▸ attentive.goto_of_ahead fun _ => trivial
  · exact Option.some.inj stepped ▸ attentive.goto_of_ahead fun _ => trivial
  · cases stepped

/-- The thread begins to wait; what was announced before has left the flag set. -/
theorem Attentive.start (attentive : worker.Attentive) (stepped : worker.start = some next) :
    next.Attentive := by
  obtain ⟨here, same⟩ := Option.ite_none_right_eq_some.mp stepped
  obtain rfl := Option.some.inj same
  refine attentive.goto fun container _ _ attends => attends.imp_right ?_
  rw [here]
  exact False.elim

/-- Every step of every thread keeps the invariant. -/
theorem Attentive.step {action : WorkerAction} (attentive : worker.Attentive)
    (stepped : worker.step action = some next) : next.Attentive := by
  cases action with
  | registerManager manager => exact attentive.registerManager stepped
  | createClient client => exact attentive.createClient stepped
  | submit work containers => exact attentive.submit stepped
  | notifyOf work => exact attentive.notifyOf stepped
  | notify =>
    obtain rfl := Option.some.inj stepped
    exact attentive.frame (fun _ _ inside => inside) rfl rfl (List.Subset.refl _)
      fun _ _ _ _ => Or.inl rfl
  | appear container => exact Option.some.inj stepped ▸ attentive.appear
  | expire client => exact Option.some.inj stepped ▸ attentive.expire
  | requestShutdown =>
    obtain rfl := Option.some.inj stepped
    exact attentive.frame (fun _ _ inside => inside) rfl rfl (List.Subset.refl _)
      fun _ _ _ attends => attends
  | start => exact attentive.start stepped
  | advance => exact attentive.advance stepped
  | work container left => exact attentive.work stepped
  | throw => exact attentive.throw stepped

end NetworkWorker

/-- The invariant holds in every run. -/
theorem attentive_of_reachable {worker : NetworkWorker}
    (reachable : workerSystem.Reachable worker) : worker.Attentive := by
  refine reachable.induction _ ?_ fun _ _ _ _ attentive stepped => attentive.step stepped
  constructor
  · exact fun _ _ impossible => absurd impossible List.not_mem_nil
  · exact fun _ _ impossible => absurd impossible List.not_mem_nil
  · exact List.nil_subset _
  · exact fun _ _ impossible => absurd impossible List.not_mem_nil

/-- A wake-up is lost: the worker is blocked in its outer wait with the flag clear, and work whose
`notify` has returned is still in a container that makes `is_loaded` return true. -/
def NetworkWorker.LostWakeup (worker : NetworkWorker) : Prop :=
  worker.point = .outerWait ∧ worker.notify = false ∧
    ∃ work ∈ worker.notified, worker.Unprocessed work ∧ worker.isLoaded = true

/-- No interleaving of the producers with the worker's thread loses a wake-up. -/
theorem no_lost_wakeup {worker : NetworkWorker} (reachable : workerSystem.Reachable worker) :
    ¬ worker.LostWakeup := by
  rintro ⟨waiting, clear, work, announced, ⟨container, _, inside⟩, _⟩
  rcases (attentive_of_reachable reachable).attends container work announced inside with set | ahead
  · rw [clear] at set
    cases set
  · rw [waiting] at ahead
    exact ahead

/-- A request is submitted and announced, and the worker processes it and comes back to its outer
wait. -/
def requestRun : List WorkerAction :=
  List.flatten [[.registerManager .http, .registerManager .webSocket, .createClient 0, .start,
    .submit 7 [.pendingRequests, .groupRequestCounts], .notifyOf 7], List.replicate 6 .advance,
    [.work .pendingRequests [], .work .groupRequestCounts []], List.replicate 17 .advance]

theorem no_lost_wakeup_requestRun :
    ∃ worker, workerSystem.Runs workerSystem.init requestRun worker ∧
      worker.point = .outerWait ∧ worker.notify = false ∧ worker.notified = [7] ∧
      ¬ worker.LostWakeup := by
  have evaluated : (workerSystem.run workerSystem.init requestRun).any (fun worker =>
      decide (worker.point = .outerWait ∧ worker.notify = false ∧
        worker.notified = [7])) = true := by
    decide +kernel
  obtain ⟨worker, runs, checked⟩ := System.exists_runs evaluated
  obtain ⟨waiting, clear, announced⟩ := of_decide_eq_true checked
  exact ⟨worker, runs, waiting, clear, announced, no_lost_wakeup ⟨_, runs⟩⟩

end Kurlyk.Core
