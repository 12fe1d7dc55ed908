/-
This file compares two systems. A simulation relates the states of a concrete
system to those of an abstract one such that every step of the first is matched
by a run of the second that shows the same events. What a run shows is its trace;
whatever the abstract system guarantees of its traces then holds of the traces of
the concrete one.
-/

import Mathlib.Data.Nat.Notation
import Kurlyk.Lib.System

namespace Kurlyk

namespace System

variable {State Action Shadow Move Seen : Type}

/-! ### What a run shows -/

section Trace

variable (system : System State Action) (seen : State → Action → State → List Seen)

/-- The events that the steps of a run show, in order. -/
def trace : State → List Action → List Seen
  | _, [] => []
  | state, action :: rest =>
    match system.step state action with
    | none => []
    | some next => seen state action next ++ trace next rest

variable {system} {start middle finish next : State} {action : Action}
  {actions rest : List Action}

@[simp]
theorem trace_nil : system.trace seen start [] = [] :=
  rfl

theorem trace_cons (stepped : system.step start action = some next) :
    system.trace seen start (action :: rest) =
      seen start action next ++ system.trace seen next rest := by
  rw [trace, stepped]

theorem trace_append (runs : system.Runs start actions middle) :
    system.trace seen start (actions ++ rest) =
      system.trace seen start actions ++ system.trace seen middle rest := by
  induction actions generalizing start with
  | nil =>
    obtain rfl := runs_nil.mp runs
    rfl
  | cons action later inductionHypothesis =>
    obtain ⟨next, stepped, remaining⟩ := runs_cons.mp runs
    rw [List.cons_append, trace_cons seen stepped, trace_cons seen stepped,
      inductionHypothesis remaining, List.append_assoc]

/-- A list that every step extends by what it shows ends as the trace of the run. -/
theorem Runs.eq_append_trace (history : State → List Seen)
    (extends_ : ∀ state action next, system.step state action = some next →
      history next = history state ++ seen state action next)
    (runs : system.Runs start actions finish) :
    history finish = history start ++ system.trace seen start actions := by
  induction actions generalizing start with
  | nil =>
    obtain rfl := runs_nil.mp runs
    rw [trace_nil, List.append_nil]
  | cons action rest inductionHypothesis =>
    obtain ⟨next, stepped, remaining⟩ := runs_cons.mp runs
    rw [inductionHypothesis remaining, trace_cons seen stepped, extends_ _ _ _ stepped,
      List.append_assoc]

/-- What each step adds to a count at most, by the events it shows, the run adds at most. -/
theorem Runs.le_trace (reachable : system.Reachable start) (count : State → ℕ)
    (counts : Seen → Bool)
    (bounded : ∀ state action next, system.Reachable state →
      system.step state action = some next →
      count next ≤ count state + (seen state action next).countP counts)
    (runs : system.Runs start actions finish) :
    count finish ≤ count start + (system.trace seen start actions).countP counts := by
  induction actions generalizing start with
  | nil =>
    obtain rfl := runs_nil.mp runs
    exact Nat.le_add_right _ _
  | cons action rest inductionHypothesis =>
    obtain ⟨next, stepped, remaining⟩ := runs_cons.mp runs
    have here := bounded _ _ _ reachable stepped
    have later := inductionHypothesis (reachable.step stepped) remaining
    rw [trace_cons seen stepped, List.countP_append]
    omega

end Trace

/-! ### Simulations -/

/-- Every step of the concrete system, from a reachable state, is matched by a run of the
abstract one that shows the same. -/
structure Simulates (concrete : System State Action) (abstract : System Shadow Move)
    (related : State → Shadow → Prop) (seen : State → Action → State → List Seen)
    (shown : Shadow → Move → Shadow → List Seen) : Prop where
  init : related concrete.init abstract.init
  step : ∀ {state shadow action next}, concrete.Reachable state → abstract.Reachable shadow →
    related state shadow → concrete.step state action = some next →
    ∃ moves later, abstract.Runs shadow moves later ∧ related next later ∧
      abstract.trace shown shadow moves = seen state action next

namespace Simulates

variable {concrete : System State Action} {abstract : System Shadow Move}
  {related : State → Shadow → Prop} {seen : State → Action → State → List Seen}
  {shown : Shadow → Move → Shadow → List Seen}
  {start finish : State} {shadow : Shadow} {actions : List Action}

/-- A run of the concrete system is matched by one of the abstract system with its trace. -/
theorem run_from (simulates : Simulates concrete abstract related seen shown)
    (reachable : concrete.Reachable start) (reached : abstract.Reachable shadow)
    (relates : related start shadow) (runs : concrete.Runs start actions finish) :
    ∃ moves later, abstract.Runs shadow moves later ∧ related finish later ∧
      abstract.trace shown shadow moves = concrete.trace seen start actions := by
  induction actions generalizing start shadow with
  | nil =>
    obtain rfl := runs_nil.mp runs
    exact ⟨[], shadow, runs_nil.mpr rfl, relates, rfl⟩
  | cons action rest inductionHypothesis =>
    obtain ⟨next, stepped, remaining⟩ := runs_cons.mp runs
    obtain ⟨first, middle, opening, between, shows⟩ :=
      simulates.step reachable reached relates stepped
    obtain ⟨second, later, closing, ends, rest_⟩ := inductionHypothesis (reachable.step stepped)
      (reached.runs opening) between remaining
    refine ⟨first ++ second, later, runs_append.mpr ⟨middle, opening, closing⟩, ends, ?_⟩
    rw [trace_append shown opening, trace_cons seen stepped, shows, rest_]

/-- The same for runs from the first states. -/
theorem run (simulates : Simulates concrete abstract related seen shown)
    (runs : concrete.Runs concrete.init actions finish) :
    ∃ moves later, abstract.Runs abstract.init moves later ∧ related finish later ∧
      abstract.trace shown abstract.init moves = concrete.trace seen concrete.init actions :=
  simulates.run_from reachable_init reachable_init simulates.init runs

end Simulates

end System

end Kurlyk
