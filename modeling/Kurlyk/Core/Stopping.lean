/-
This file proves that `NetworkWorker::stop` returns. `stop` sets `m_shutdown`, calls
`notify` and waits for the worker's thread. The thread may be anywhere in its loop
when that happens: about to fall asleep, in the middle of `is_loaded`, inside
`process`, in either wait, or on its way out because of an earlier `stop`. From
every one of these points it goes to its end without coming back to a wait that it
could not leave, and on the way it shuts down the managers. That it leaves the
managers and the tasks themselves is assumed of these: a manager that shuts down for
ever, or a task that calls `stop` on the worker's own thread, holds it for good.

What is left to the worker is a rank: the statement it is at, then the managers
and reads it has still to go through.
-/

import Kurlyk.Core.NetworkWorker
import Kurlyk.Lib.Execution
import Mathlib.Data.Prod.Lex

namespace Kurlyk.Core

variable {worker next : NetworkWorker} {action : WorkerAction}

/-! ### What is left to a worker that is told to stop -/

/-- Where a statement of the worker's thread stands on the way to its end once `m_shutdown` is set:
each is followed by statements of a smaller number. -/
def Point.order : Point → ℕ
  | .notStarted | .returned => 0
  | .runTasks .shutdown => 1
  | .processTasks .shutdown => 2
  | .process .shutdown _ => 3
  | .enter .shutdown => 4
  | .testNotified | .testProcessed | .testWaited | .testIdle => 5
  | .outerWait | .innerWait | .runTasks .process => 6
  | .processTasks .process => 7
  | .process .process _ => 8
  | .enter .process => 9
  | .hasPendingTasks => 10
  | .isLoaded _ _ => 11
  | .loop => 12

/-- The managers that the statement has still to go through. -/
def Point.managersLeft : Point → ℕ
  | .isLoaded managers _ => managers.length
  | .process _ managers => managers.length
  | _ => 0

/-- What `is_loaded` has still to read of the manager it asks. -/
def Point.readsLeft : Point → ℕ
  | .isLoaded _ reads => reads.length
  | _ => 0

def Point.rank (point : Point) : ℕ ×ₗ ℕ ×ₗ ℕ :=
  toLex (point.order, toLex (point.managersLeft, point.readsLeft))

theorem rank_lt_of_order {point later : Point} (less : later.order < point.order) :
    later.rank < point.rank :=
  Prod.Lex.toLex_lt_toLex.mpr (Or.inl less)

theorem rank_lt_of_managers {point later : Point} (order : later.order = point.order)
    (less : later.managersLeft < point.managersLeft) : later.rank < point.rank :=
  Prod.Lex.toLex_lt_toLex.mpr (Or.inr ⟨order, Prod.Lex.toLex_lt_toLex.mpr (Or.inl less)⟩)

theorem rank_lt_of_reads {point later : Point} (order : later.order = point.order)
    (managers : later.managersLeft = point.managersLeft)
    (less : later.readsLeft < point.readsLeft) : later.rank < point.rank :=
  Prod.Lex.toLex_lt_toLex.mpr (Or.inr ⟨order, Prod.Lex.toLex_lt_toLex.mpr
    (Or.inr ⟨managers, less⟩)⟩)

/-- The worker's thread is running, `m_shutdown` is set, and the thread is not asleep. -/
structure Told (worker : NetworkWorker) : Prop where
  shutdown : worker.shutdown = true
  started : worker.point ≠ .notStarted
  awake : worker.point = .outerWait → worker.notify = true

/-- A statement behind which the thread is at another one, closer to its end. -/
theorem Told.moves (told : Told worker) {point : Point} (later : Point)
    (ahead : later ≠ .notStarted ∧ later ≠ .outerWait) (less : later.rank < point.rank)
    (at_ : next.point = later) (shutdown : next.shutdown = worker.shutdown) :
    Told next ∧ next.point.rank < point.rank := by
  subst at_
  exact ⟨⟨shutdown.trans told.shutdown, ahead.1, fun waits => absurd waits ahead.2⟩, less⟩

/-- Behind every test of `m_shutdown` the thread enters `shutdown`. -/
theorem Told.leaves (told : Told worker) {point otherwise : Point} (before : point.order = 5)
    (same : some (worker.testShutdown otherwise) = some next) :
    Told next ∧ next.point.rank < point.rank := by
  obtain rfl := Option.some.inj same
  refine told.moves (.enter .shutdown) ⟨nofun, nofun⟩ (rank_lt_of_order ?_) ?_ rfl
  · rw [before]
    decide
  · exact if_pos told.shutdown

/-- The thread goes on, and comes closer to its end. -/
theorem Told.advance (told : Told worker) (stepped : worker.advance = some next) :
    Told next ∧ next.point.rank < worker.point.rank := by
  cases here : worker.point <;> rw [NetworkWorker.advance, here] at stepped
  case notStarted | returned => cases stepped
  case testNotified | testProcessed | testWaited | testIdle => exact told.leaves rfl stepped
  case outerWait =>
    obtain ⟨_, same⟩ := Option.ite_none_right_eq_some.mp stepped
    obtain rfl := Option.some.inj same
    exact told.moves .testNotified ⟨nofun, nofun⟩ (rank_lt_of_order (by decide)) rfl rfl
  all_goals dsimp only at stepped
  case loop =>
    obtain rfl := Option.some.inj stepped
    exact told.moves (.isLoaded worker.managers []) ⟨nofun, nofun⟩
      (rank_lt_of_order (Nat.lt_succ_self 11)) rfl rfl
  case isLoaded managers reads =>
    rcases reads with _ | ⟨read, reads⟩
    · rcases managers with _ | ⟨manager, managers⟩ <;> obtain rfl := Option.some.inj stepped
      · exact told.moves .hasPendingTasks ⟨nofun, nofun⟩
          (rank_lt_of_order (Nat.lt_succ_self 10)) rfl rfl
      · exact told.moves (.isLoaded managers (manager.reads worker.clients)) ⟨nofun, nofun⟩
          (rank_lt_of_managers rfl (Nat.lt_succ_self managers.length)) rfl rfl
    · obtain rfl := Option.some.inj stepped
      by_cases found : worker.found read = true
      · exact told.moves (.enter .process) ⟨nofun, nofun⟩
          (rank_lt_of_order (show 9 < 11 by decide)) (if_pos found) rfl
      · exact told.moves (.isLoaded managers reads) ⟨nofun, nofun⟩
          (rank_lt_of_reads rfl rfl (Nat.lt_succ_self reads.length)) (if_neg found) rfl
  case hasPendingTasks =>
    obtain rfl := Option.some.inj stepped
    by_cases found : worker.found [.tasksList] = true
    · exact told.moves (.enter .process) ⟨nofun, nofun⟩ (rank_lt_of_order (by decide))
        (if_pos found) rfl
    · exact told.moves .testIdle ⟨nofun, nofun⟩ (rank_lt_of_order (by decide)) (if_neg found) rfl
  case enter round =>
    obtain rfl := Option.some.inj stepped
    refine told.moves (.process round worker.managers) ⟨nofun, nofun⟩ (rank_lt_of_order ?_) rfl rfl
    cases round <;> exact Nat.lt_succ_self _
  case process round managers =>
    rcases managers with _ | ⟨manager, managers⟩ <;> obtain rfl := Option.some.inj stepped
    · refine told.moves (.processTasks round) ⟨nofun, nofun⟩ (rank_lt_of_order ?_) rfl rfl
      cases round <;> exact Nat.lt_succ_self _
    · refine told.moves (.process round managers) ⟨nofun, nofun⟩ (rank_lt_of_managers ?_ ?_) rfl rfl
      · cases round <;> rfl
      · exact Nat.lt_succ_self managers.length
  case processTasks round =>
    obtain rfl := Option.some.inj stepped
    refine told.moves (.runTasks round) ⟨nofun, nofun⟩ (rank_lt_of_order ?_) rfl rfl
    cases round <;> decide
  case runTasks round =>
    cases round <;> obtain rfl := Option.some.inj stepped
    · exact told.moves .testProcessed ⟨nofun, nofun⟩ (rank_lt_of_order (by decide)) rfl rfl
    · exact told.moves .returned ⟨nofun, nofun⟩ (rank_lt_of_order (by decide)) rfl rfl
  case innerWait =>
    obtain rfl := Option.some.inj stepped
    exact told.moves .testWaited ⟨nofun, nofun⟩ (rank_lt_of_order (by decide)) rfl rfl

theorem Told.stays (told : Told worker) (point : next.point = worker.point)
    (shutdown : worker.shutdown = true → next.shutdown = true)
    (notify : worker.notify = true → next.notify = true) :
    Told next ∧ next.point.rank ≤ worker.point.rank := by
  refine ⟨⟨shutdown told.shutdown, ?_, fun waits => ?_⟩, le_of_eq (congrArg Point.rank point)⟩
  · rw [point]
    exact told.started
  · rw [point] at waits
    exact notify (told.awake waits)

/-- Whatever the other threads do, the thread stays awake and does not go back. -/
theorem Told.step (told : Told worker) (stepped : workerSystem.step worker action = some next) :
    Told next ∧ next.point.rank ≤ worker.point.rank := by
  cases action with
  | advance => exact ⟨(told.advance stepped).1, le_of_lt (told.advance stepped).2⟩
  | registerManager manager =>
    change worker.registerManager manager = some next at stepped
    unfold NetworkWorker.registerManager at stepped
    split at stepped
    · cases stepped
    · split at stepped <;> obtain rfl := Option.some.inj stepped <;> exact told.stays rfl id id
  | createClient client =>
    obtain ⟨_, same⟩ := Option.ite_none_left_eq_some.mp stepped
    obtain rfl := Option.some.inj same
    exact told.stays rfl id id
  | submit | work =>
    obtain ⟨_, same⟩ := Option.ite_none_right_eq_some.mp stepped
    obtain rfl := Option.some.inj same
    exact told.stays rfl id id
  | notifyOf =>
    obtain ⟨_, same⟩ := Option.ite_none_right_eq_some.mp stepped
    obtain rfl := Option.some.inj same
    exact told.stays rfl id fun _ => rfl
  | notify =>
    obtain rfl := Option.some.inj stepped
    exact told.stays rfl id fun _ => rfl
  | appear | expire =>
    obtain rfl := Option.some.inj stepped
    exact told.stays rfl id id
  | requestShutdown =>
    obtain rfl := Option.some.inj stepped
    exact told.stays rfl (fun _ => rfl) id
  | start =>
    obtain ⟨fresh, _⟩ := Option.ite_none_right_eq_some.mp stepped
    exact absurd fresh told.started
  | throw =>
    change worker.throw = some next at stepped
    unfold NetworkWorker.throw at stepped
    have ends (before : 0 < worker.point.order) (same : some (worker.goto .returned) = some next) :
        Told next ∧ next.point.rank ≤ worker.point.rank := by
      obtain rfl := Option.some.inj same
      exact ⟨⟨told.shutdown, nofun, nofun⟩, le_of_lt (rank_lt_of_order before)⟩
    split at stepped
    · rename_i round _ _ at_
      exact ends (by rw [at_]; cases round <;> exact Nat.succ_pos _) stepped
    · rename_i round at_
      exact ends (by rw [at_]; cases round <;> exact Nat.succ_pos _) stepped
    · cases stepped

/-- The thread is never blocked before its end. -/
theorem Told.enabled (told : Told worker) (busy : worker.point ≠ .returned) :
    worker.advance.isSome = true := by
  cases here : worker.point <;> rw [NetworkWorker.advance, here]
  case notStarted => exact absurd here told.started
  case returned => exact absurd here busy
  case outerWait => rw [if_pos (told.awake here)]; rfl
  case isLoaded managers reads =>
    rcases reads with _ | ⟨read, reads⟩
    · rcases managers with _ | ⟨manager, managers⟩ <;> rfl
    · rfl
  case process round managers => rcases managers with _ | ⟨manager, managers⟩ <;> rfl
  case runTasks round => cases round <;> rfl
  all_goals rfl

/-! ### `stop` returns -/

/-- The thread is inside `shutdown`, or behind it. -/
def Point.Closing : Point → Prop
  | .process .shutdown _ | .processTasks .shutdown | .runTasks .shutdown | .returned => True
  | _ => False

/-- The thread is inside `process` or `shutdown` of a manager, or runs tasks. -/
def Point.Calling : Point → Prop
  | .process _ (_ :: _) | .runTasks _ => True
  | _ => False

/-- The thread moves by its own steps only. -/
theorem point_of_step (stepped : workerSystem.step worker action = some next)
    (other : action ≠ .start ∧ action ≠ .advance ∧ action ≠ .throw) :
    next.point = worker.point := by
  cases action with
  | start => exact absurd rfl other.1
  | advance => exact absurd rfl other.2.1
  | throw => exact absurd rfl other.2.2
  | registerManager manager =>
    change worker.registerManager manager = some next at stepped
    unfold NetworkWorker.registerManager at stepped
    split at stepped
    · cases stepped
    · split at stepped <;> obtain rfl := Option.some.inj stepped <;> rfl
  | createClient client =>
    obtain ⟨_, moved⟩ := Option.ite_none_left_eq_some.mp stepped
    obtain rfl := Option.some.inj moved
    rfl
  | submit | work | notifyOf =>
    obtain ⟨_, moved⟩ := Option.ite_none_right_eq_some.mp stepped
    obtain rfl := Option.some.inj moved
    rfl
  | notify | appear | expire | requestShutdown =>
    obtain rfl := Option.some.inj stepped
    rfl

/-- The thread comes into `shutdown` with all its managers before it. -/
theorem closing_of_step (stepped : workerSystem.step worker action = some next)
    (kept : action ≠ .throw) (before : ¬ worker.point.Closing) (after : next.point.Closing) :
    next.point = .process .shutdown next.managers := by
  cases action with
  | throw => exact absurd rfl kept
  | start =>
    obtain ⟨_, moved⟩ := Option.ite_none_right_eq_some.mp stepped
    obtain rfl := Option.some.inj moved
    exact absurd after id
  | advance =>
    change worker.advance = some next at stepped
    have tested {otherwise : Point} (moved : some (worker.testShutdown otherwise) = some next)
        (open_ : ¬ otherwise.Closing) : next.point = .process .shutdown next.managers := by
      obtain rfl := Option.some.inj moved
      refine absurd after ?_
      change ¬ (if worker.shutdown then Point.enter .shutdown else otherwise).Closing
      split
      · exact id
      · exact open_
    cases here : worker.point <;> rw [NetworkWorker.advance, here] at stepped <;>
      rw [here] at before
    case notStarted | returned => cases stepped
    case testNotified | testProcessed | testWaited | testIdle => exact tested stepped id
    case outerWait =>
      obtain ⟨_, moved⟩ := Option.ite_none_right_eq_some.mp stepped
      obtain rfl := Option.some.inj moved
      exact after.elim
    case isLoaded managers reads =>
      rcases reads with _ | ⟨read, reads⟩
      · rcases managers with _ | ⟨manager, managers⟩ <;>
          obtain rfl := Option.some.inj stepped <;> exact after.elim
      · obtain rfl := Option.some.inj stepped
        refine absurd after ?_
        change ¬ (if worker.found read then Point.enter .process
          else .isLoaded managers reads).Closing
        split <;> exact id
    case hasPendingTasks =>
      obtain rfl := Option.some.inj stepped
      refine absurd after ?_
      change ¬ (if worker.found [.tasksList] then Point.enter .process else .testIdle).Closing
      split <;> exact id
    case enter round =>
      obtain rfl := Option.some.inj stepped
      cases round with
      | process => exact after.elim
      | shutdown => rfl
    case process round managers =>
      cases round with
      | process =>
        rcases managers with _ | ⟨manager, managers⟩ <;>
          obtain rfl := Option.some.inj stepped <;> exact after.elim
      | shutdown => exact absurd trivial before
    case processTasks round | runTasks round =>
      cases round with
      | process =>
        obtain rfl := Option.some.inj stepped
        exact after.elim
      | shutdown => exact absurd trivial before
    case loop | innerWait =>
      obtain rfl := Option.some.inj stepped
      exact after.elim
  | _ =>
    rw [point_of_step stepped ⟨nofun, nofun, nofun⟩] at after
    exact absurd after before

section Executions

variable {workers : ℕ → NetworkWorker} {actions : ℕ → WorkerAction} {told : ℕ}

/-- Every call of `process` or `shutdown` of a manager, and every round of tasks, returns or
throws. -/
def CallsReturn (workers : ℕ → NetworkWorker) (actions : ℕ → WorkerAction) : Prop :=
  ∀ instant, (workers instant).point.Calling →
    ∃ later ≥ instant, actions later = .advance ∨ actions later = .throw

/-- `stop` was called by a manager or a task, on the worker's own thread: the call waits for the
thread, and goes on only behind its end. -/
def StopsItself (workers : ℕ → NetworkWorker) (actions : ℕ → WorkerAction) (told : ℕ) : Prop :=
  (workers told).point.Calling ∧ ∀ later ≥ told,
    actions later = .advance ∨ actions later = .throw → (workers later).point = .returned

/-- A `stop` on the worker's own thread never returns. -/
theorem StopsItself.calling (itself : StopsItself workers actions told)
    (execution : workerSystem.Execution workers actions) (later : ℕ) (late : told ≤ later) :
    (workers later).point.Calling := by
  induction later, late using Nat.le_induction with
  | base => exact itself.1
  | succ later late inductionHypothesis =>
    have still : (workers later).point ≠ .returned := by
      intro returned
      rw [returned] at inductionHypothesis
      exact inductionHypothesis
    rw [point_of_step (execution later) ⟨?_, ?_, ?_⟩]
    · exact inductionHypothesis
    · intro started
      have stepped := execution later
      rw [started] at stepped
      obtain ⟨fresh, _⟩ := Option.ite_none_right_eq_some.mp stepped
      rw [fresh] at inductionHypothesis
      exact inductionHypothesis
    · exact fun advanced => still (itself.2 later late (Or.inl advanced))
    · exact fun thrown => still (itself.2 later late (Or.inr thrown))

theorem returned_of_throw (stepped : workerSystem.step worker .throw = some next) :
    next.point = .returned := by
  change worker.throw = some next at stepped
  unfold NetworkWorker.throw at stepped
  split at stepped
  · obtain rfl := Option.some.inj stepped
    rfl
  · obtain rfl := Option.some.inj stepped
    rfl
  · cases stepped

/-- So calls that return do not stop the worker themselves. -/
theorem CallsReturn.elsewhere (returns : CallsReturn workers actions)
    (execution : workerSystem.Execution workers actions) :
    ¬ StopsItself workers actions told := by
  intro itself
  obtain ⟨later, late, left⟩ := returns told itself.1
  have calling := itself.calling execution later late
  rw [itself.2 later late left] at calling
  exact calling

/-- `stop` returns when it is called off the worker's thread and every call of a manager and every
task returns or throws. When `notify` is called with `m_shutdown` set and the thread started, the
thread is at no later instant blocked before its end, unless in such a call, and if it goes on
making steps it comes to its end; and unless it was inside `shutdown` already, or a callback throws,
it has on the way called `shutdown` of every manager that is then registered. -/
theorem stop_ends (execution : workerSystem.Execution workers actions)
    (shutdown : (workers told).shutdown = true) (notified : actions told = .notify)
    (started : (workers told).point ≠ .notStarted)
    (scheduled : ∀ instant, ∃ later ≥ instant, (workers later).point = .returned ∨
      (workers later).point.Calling ∨ actions later = .advance)
    (returns : CallsReturn workers actions) :
    (∀ instant > told, (workers instant).point ≠ .returned → ¬ (workers instant).point.Calling →
        (workers instant).advance.isSome = true) ∧
      ∃ later > told, (workers later).point = .returned ∧
        (¬ (workers told).point.Closing →
          (∀ instant, told ≤ instant → instant < later → actions instant ≠ .throw) →
          ∃ entered > told, entered ≤ later ∧
            (workers entered).point = .process .shutdown (workers entered).managers) := by
  have first : Told (workers (told + 1)) := by
    have stepped := execution told
    rw [notified] at stepped
    obtain same := Option.some.inj stepped
    rw [← same]
    exact ⟨shutdown, started, fun _ => rfl⟩
  have always (instant : ℕ) : Told (workers (told + 1 + instant)) := by
    induction instant with
    | zero => exact first
    | succ instant inductionHypothesis => exact (inductionHypothesis.step (execution _)).1
  have shifted : workerSystem.Execution (fun instant => workers (told + 1 + instant))
      (fun instant => actions (told + 1 + instant)) := fun instant => execution _
  have moves (instant : ℕ) : ∃ later ≥ instant,
      (workers later).point = .returned ∨ actions later = .advance := by
    obtain ⟨later, late, returned | calling | advanced⟩ := scheduled instant
    · exact ⟨later, late, Or.inl returned⟩
    · obtain ⟨left, after, advanced | thrown⟩ := returns later calling
      · exact ⟨left, Nat.le_trans late after, Or.inr advanced⟩
      · exact ⟨left + 1, by omega, Or.inl (returned_of_throw (thrown ▸ execution left))⟩
    · exact ⟨later, late, Or.inr advanced⟩
  have again (instant : ℕ) : ∃ later ≥ instant, (workers (told + 1 + later)).point = .returned ∨
      actions (told + 1 + later) = .advance := by
    obtain ⟨later, late, made⟩ := moves (told + 1 + instant)
    obtain ⟨beyond, rfl⟩ := Nat.exists_eq_add_of_le late
    exact ⟨instant + beyond, Nat.le_add_right _ _, by rwa [← Nat.add_assoc]⟩
  refine ⟨fun instant late busy _ => ?_, ?_⟩
  · obtain ⟨beyond, rfl⟩ := Nat.exists_eq_add_of_le (Nat.succ_le_of_lt late)
    exact (always beyond).enabled busy
  · obtain ⟨beyond, _, returned⟩ := shifted.comes_to_rest (fun worker => worker.point.rank) Told
      (fun worker => worker.point = .returned) (fun _ action => action = .advance) always
      (fun _ _ _ told _ stepped => (told.step stepped).2)
      (fun _ _ _ told _ own stepped => by
        subst own
        exact (told.advance stepped).2) again 0
    refine ⟨told + 1 + beyond, by omega, returned, fun open_ kept => ?_⟩
    obtain ⟨instant, late, early, before, begins⟩ := System.exists_beginning
      (fun instant => (workers instant).point.Closing)
      (Nat.le_trans (Nat.le_succ told) (Nat.le_add_right _ beyond)) open_
      (by rw [returned]; exact trivial)
    refine ⟨instant + 1, Nat.lt_succ_of_le late, Nat.succ_le_of_lt early, ?_⟩
    exact closing_of_step (execution instant) (kept instant late early) before begins

end Executions

/-- The worker sleeps in its outer wait when it is stopped; afterwards it is notified for ever. -/
def stopAsleep : List WorkerAction :=
  [.registerManager .http, .start, .requestShutdown, .notify] ++ List.replicate 7 .advance

def stopAsleepThenNotify (instant : ℕ) : WorkerAction :=
  (stopAsleep[instant]?).getD .notify

theorem stop_ends_stopAsleep : ∃ later > 3,
    (workerSystem.orbit stopAsleepThenNotify later).point = .returned := by
  have execution : workerSystem.Execution (workerSystem.orbit stopAsleepThenNotify)
      stopAsleepThenNotify := by
    refine System.orbit_execution fun instant => ?_
    match instant with
    | 0 | 1 | 2 | 3 | 4 | 5 | 6 | 7 | 8 | 9 | 10 | _ + 11 => rfl
  have ends (later : ℕ) :
      (workerSystem.orbit stopAsleepThenNotify (later + 11)).point = .returned := by
    induction later with
    | zero => rfl
    | succ later inductionHypothesis => exact inductionHypothesis
  have returns : CallsReturn (workerSystem.orbit stopAsleepThenNotify) stopAsleepThenNotify := by
    intro instant calling
    rcases Nat.lt_or_ge instant 11 with early | late
    · exact ⟨10, Nat.le_of_lt_succ early, Or.inl rfl⟩
    · obtain ⟨later, rfl⟩ := Nat.exists_eq_add_of_le' late
      rw [ends later] at calling
      exact calling.elim
  obtain ⟨_, later, late, returned, _⟩ := stop_ends execution
    (rfl : (workerSystem.orbit stopAsleepThenNotify 3).shutdown = true) rfl nofun
    (fun instant => ⟨instant + 11, Nat.le_add_right _ _, Or.inl (ends instant)⟩) returns
  exact ⟨later, late, returned⟩

end Kurlyk.Core
