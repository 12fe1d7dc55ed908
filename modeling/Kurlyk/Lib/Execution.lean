/-
This file is about runs without an end. An execution is an infinite sequence of
steps, one for every instant. Where a run is finite and says what is safe, an
execution says what comes about in the end: a rank in a well-founded order that no
step raises, and that the steps of one kind lower, leaves room for only finitely
many steps of that kind. A thread whose every own step lowers the rank therefore
comes to rest, provided that it goes on making steps until it does.
-/

import Mathlib.Data.Nat.Notation
import Mathlib.Order.WellFounded
import Mathlib.Order.Monotone.Basic
import Kurlyk.Lib.System

namespace Kurlyk

namespace System

variable {State Action Rank : Type} {system : System State Action} {states : ℕ → State}
  {actions : ℕ → Action}

/-- An infinite sequence of states, each reached from the one before by the action beside it. -/
def Execution (system : System State Action) (states : ℕ → State) (actions : ℕ → Action) : Prop :=
  ∀ instant, system.step (states instant) (actions instant) = some (states (instant + 1))

theorem Execution.reachable (execution : system.Execution states actions)
    (reachable : system.Reachable (states 0)) (instant : ℕ) :
    system.Reachable (states instant) := by
  induction instant with
  | zero => exact reachable
  | succ instant inductionHypothesis => exact inductionHypothesis.step (execution instant)

/-- The states that actions which can all happen lead through. -/
def orbit (system : System State Action) (actions : ℕ → Action) : ℕ → State
  | 0 => system.init
  | instant + 1 =>
    (system.step (orbit system actions instant) (actions instant)).getD
      (orbit system actions instant)

theorem orbit_execution
    (enabled : ∀ instant,
      (system.step (system.orbit actions instant) (actions instant)).isSome = true) :
    system.Execution (system.orbit actions) actions := by
  intro instant
  obtain ⟨next, stepped⟩ := Option.isSome_iff_exists.mp (enabled instant)
  rw [orbit, stepped, Option.getD_some]

/-- A list of actions, and then one action for ever. -/
def prolonged (run : List Action) (last : Action) (instant : ℕ) : Action :=
  (run[instant]?).getD last

/-- As long as the list lasts, what is left of it leads to where the whole list does. -/
theorem Runs.of_orbit {run : List Action} {finish : State}
    (runs : system.Runs system.init run finish) (last : Action) :
    ∀ instant ≤ run.length,
      system.Runs (system.orbit (prolonged run last) instant) (run.drop instant) finish := by
  intro instant
  induction instant with
  | zero => exact fun _ => runs
  | succ instant inductionHypothesis =>
    intro inside
    have left := inductionHypothesis (Nat.le_of_succ_le inside)
    rw [List.drop_eq_getElem_cons inside] at left
    obtain ⟨next, stepped, remaining⟩ := runs_cons.mp left
    have chosen : prolonged run last instant = run[instant] := by
      rw [prolonged, List.getElem?_eq_getElem inside, Option.getD_some]
    rwa [orbit, chosen, stepped, Option.getD_some]

/-- A run that ends where an action changes nothing goes on for ever. -/
theorem Runs.execution {run : List Action} {last : Action} {finish : State}
    (runs : system.Runs system.init run finish) (stays : system.step finish last = some finish) :
    system.Execution (system.orbit (prolonged run last)) (prolonged run last) ∧
      ∀ later ≥ run.length, system.orbit (prolonged run last) later = finish := by
  have idle {instant : ℕ} (late : instant ≥ run.length) : prolonged run last instant = last := by
    rw [prolonged, List.getElem?_eq_none late, Option.getD_none]
  have ends : ∀ later ≥ run.length, system.orbit (prolonged run last) later = finish := by
    intro later late
    induction later, late using Nat.le_induction with
    | base =>
      have left := runs.of_orbit last run.length (Nat.le_refl _)
      rw [List.drop_length] at left
      exact runs_nil.mp left
    | succ later late inductionHypothesis =>
      rw [orbit, inductionHypothesis, idle late, stays, Option.getD_some]
  refine ⟨orbit_execution fun instant => ?_, ends⟩
  rcases Nat.lt_or_ge instant run.length with inside | late
  · have left := runs.of_orbit last instant (Nat.le_of_lt inside)
    rw [List.drop_eq_getElem_cons inside] at left
    obtain ⟨next, stepped, _⟩ := runs_cons.mp left
    rw [prolonged, List.getElem?_eq_getElem inside, Option.getD_some, stepped, Option.isSome_some]
  · rw [ends instant late, idle late, stays, Option.isSome_some]

/-- Between an instant without a property and one with it there is one at which it begins. -/
theorem exists_beginning (property : ℕ → Prop) {first last : ℕ} (order : first ≤ last)
    (before : ¬ property first) (after : property last) :
    ∃ instant, first ≤ instant ∧ instant < last ∧ ¬ property instant ∧ property (instant + 1) := by
  induction last, order using Nat.le_induction with
  | base => exact absurd after before
  | succ last late inductionHypothesis =>
    by_cases already : property last
    · obtain ⟨instant, here, earlier, begins⟩ := inductionHypothesis already
      exact ⟨instant, here, Nat.lt_succ_of_lt earlier, begins⟩
    · exact ⟨last, late, Nat.lt_succ_self last, already, after⟩

section Rank

variable [PartialOrder Rank] [WellFoundedLT Rank] (rank : State → Rank)

/-- Where no step raises the rank from some instant on, it is lowered at finitely many instants
only. -/
theorem finally_not_lowered {start : ℕ}
    (stays : ∀ instant ≥ start, rank (states (instant + 1)) ≤ rank (states instant)) :
    ∃ bound, ∀ instant ≥ bound, ¬ rank (states (instant + 1)) < rank (states instant) := by
  obtain ⟨_, ⟨bound, late, rfl⟩, least⟩ := WellFounded.has_min (wellFounded_lt (α := Rank))
    (Set.image (fun instant => rank (states instant)) {instant | start ≤ instant})
    ⟨_, start, Nat.le_refl _, rfl⟩
  have falling : ∀ instant ≥ bound, rank (states instant) ≤ rank (states bound) := by
    intro instant after
    induction instant, after using Nat.le_induction with
    | base => exact le_refl _
    | succ instant after inductionHypothesis =>
      exact (stays instant (Nat.le_trans late after)).trans inductionHypothesis
  refine ⟨bound, fun instant after lowered => ?_⟩
  have past : start ≤ instant + 1 := Nat.le_trans late (Nat.le_trans after (Nat.le_succ _))
  exact least _ ⟨instant + 1, past, rfl⟩ (lowered.trans_le (falling instant after))

/-- As long as a thread is not at rest no step raises the rank, and its own steps lower it. If it
then makes a step again and again, it always comes to rest. The steps are those from the states of
the execution, of which an invariant may be known. -/
theorem Execution.comes_to_rest (execution : system.Execution states actions)
    (holds rests : State → Prop) (own : State → Action → Prop)
    (always : ∀ instant, holds (states instant))
    (stays : ∀ state action next, holds state → ¬ rests state →
      system.step state action = some next → rank next ≤ rank state)
    (lowers : ∀ state action next, holds state → ¬ rests state → own state action →
      system.step state action = some next → rank next < rank state)
    (scheduled : ∀ instant, ∃ later ≥ instant,
      rests (states later) ∨ own (states later) (actions later))
    (instant : ℕ) : ∃ later ≥ instant, rests (states later) := by
  by_contra never
  have busy : ∀ later ≥ instant, ¬ rests (states later) :=
    fun later after resting => never ⟨later, after, resting⟩
  have falling : ∀ later ≥ instant, rank (states (later + 1)) ≤ rank (states later) :=
    fun later after => stays _ _ _ (always later) (busy later after) (execution later)
  obtain ⟨bound, last⟩ := finally_not_lowered rank falling
  obtain ⟨later, after, resting | made⟩ := scheduled (max instant bound)
  · exact busy later (Nat.le_trans (Nat.le_max_left _ _) after) resting
  · have unlowered := last later (Nat.le_trans (Nat.le_max_right _ _) after)
    exact unlowered (lowers _ _ _ (always later)
      (busy later (Nat.le_trans (Nat.le_max_left _ _) after)) made (execution later))

end Rank

end System

end Kurlyk
