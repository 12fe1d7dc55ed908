/-
This file fixes what a run of a system is. A system has a first state and a
partial step function: `step state action = none` says that the action cannot
happen in that state, because its thread waits for a lock or is somewhere else.
A run is a list of actions, and a state is reachable when some run leads to it.
The induction rules are the only way later files reason about runs. A condition
on the steps of a run is `Throughout`: a run either meets it, or has a first part
that leads to a step that does not.
-/

import Mathlib.Init

namespace Kurlyk

/-- A labelled transition system with a deterministic, partial step for each action. All
nondeterminism is in the choice of the actions. -/
structure System (State Action : Type) where
  init : State
  step : State → Action → Option State

namespace System

variable {State Action : Type} (system : System State Action)

/-- The state after performing the actions in order, if each of them can happen. -/
def run : State → List Action → Option State
  | state, [] => some state
  | state, action :: rest => (system.step state action).bind (run · rest)

/-- The run leads from one state to the other. -/
def Runs (start : State) (actions : List Action) (finish : State) : Prop :=
  system.run start actions = some finish

/-- Some run from the first state leads here. -/
def Reachable (state : State) : Prop :=
  ∃ actions, system.Runs system.init actions state

/-- Every step of the run meets the condition, which may depend on the state the step is made
in. -/
def Throughout (condition : State → Action → Prop) : State → List Action → Prop
  | _, [] => True
  | state, action :: rest => condition state action ∧
      ∀ next, system.step state action = some next → Throughout condition next rest

instance decidableThroughout (condition : State → Action → Prop)
    [∀ state action, Decidable (condition state action)] :
    ∀ state actions, Decidable (system.Throughout condition state actions)
  | _, [] => isTrue trivial
  | state, action :: rest =>
    haveI : Decidable (∀ next, system.step state action = some next →
        system.Throughout condition next rest) :=
      match stepped : system.step state action with
      | none => isTrue fun _ impossible => absurd impossible (by simp)
      | some next =>
        haveI := decidableThroughout condition next rest
        decidable_of_iff (system.Throughout condition next rest)
          ⟨fun met _ same => Option.some.inj same ▸ met, fun met => met next rfl⟩
    inferInstanceAs (Decidable (_ ∧ _))

variable {system} {start middle finish state : State} {actions rest : List Action}
  {action : Action}

@[simp]
theorem runs_nil : system.Runs start [] finish ↔ start = finish :=
  Option.some_inj

theorem runs_cons : system.Runs start (action :: rest) finish ↔
    ∃ next, system.step start action = some next ∧ system.Runs next rest finish :=
  Option.bind_eq_some_iff

theorem runs_append : system.Runs start (actions ++ rest) finish ↔
    ∃ middle, system.Runs start actions middle ∧ system.Runs middle rest finish := by
  induction actions generalizing start with
  | nil => simp
  | cons action later inductionHypothesis =>
    rw [List.cons_append, runs_cons]
    constructor
    · rintro ⟨next, stepped, remaining⟩
      obtain ⟨middle, first, second⟩ := inductionHypothesis.mp remaining
      exact ⟨middle, runs_cons.mpr ⟨next, stepped, first⟩, second⟩
    · rintro ⟨middle, first, second⟩
      obtain ⟨next, stepped, remaining⟩ := runs_cons.mp first
      exact ⟨next, stepped, inductionHypothesis.mpr ⟨middle, remaining, second⟩⟩

theorem reachable_init : system.Reachable system.init :=
  ⟨[], runs_nil.mpr rfl⟩

theorem Reachable.runs (reachable : system.Reachable start)
    (runs : system.Runs start actions finish) : system.Reachable finish := by
  obtain ⟨earlier, reaches⟩ := reachable
  exact ⟨earlier ++ actions, runs_append.mpr ⟨start, reaches, runs⟩⟩

theorem Reachable.step (reachable : system.Reachable start)
    (stepped : system.step start action = some finish) : system.Reachable finish :=
  reachable.runs (runs_cons.mpr ⟨finish, stepped, runs_nil.mpr rfl⟩)

/-- Performing a list of actions and testing the state it leads to. -/
theorem exists_runs {check : State → Bool}
    (checked : (system.run start actions).any check = true) :
    ∃ finish, system.Runs start actions finish ∧ check finish = true :=
  (Option.any_eq_true check _).mp checked

/-- What every step of a run preserves holds at its end. The step may use that the state it
starts from is reachable, and that its action belongs to the run. -/
theorem Runs.induction (runs : system.Runs start actions finish) (invariant : State → Prop)
    (reachable : system.Reachable start) (holds : invariant start)
    (preserved : ∀ state action next, system.Reachable state → action ∈ actions →
      invariant state → system.step state action = some next → invariant next) :
    invariant finish := by
  induction actions generalizing start with
  | nil => rwa [← runs_nil.mp runs]
  | cons action rest inductionHypothesis =>
    obtain ⟨next, stepped, remaining⟩ := runs_cons.mp runs
    refine inductionHypothesis remaining (reachable.step stepped)
      (preserved start action next reachable List.mem_cons_self holds stepped) ?_
    intro state later after reached member
    exact preserved state later after reached (List.mem_cons_of_mem _ member)

/-- What holds at first and is preserved by every step holds in every reachable state. -/
theorem Reachable.induction (reachable : system.Reachable state) (invariant : State → Prop)
    (base : invariant system.init)
    (preserved : ∀ state action next, system.Reachable state → invariant state →
      system.step state action = some next → invariant next) : invariant state := by
  obtain ⟨actions, runs⟩ := reachable
  refine runs.induction invariant reachable_init base ?_
  intro before action after reached _ holds stepped
  exact preserved before action after reached holds stepped

/-- What is preserved by every step that meets the condition holds at the end of a run whose
steps all do. -/
theorem Runs.induction_throughout {condition : State → Action → Prop}
    (runs : system.Runs start actions finish)
    (met : system.Throughout condition start actions) (invariant : State → Prop)
    (reachable : system.Reachable start) (holds : invariant start)
    (preserved : ∀ state action next, system.Reachable state → condition state action →
      invariant state → system.step state action = some next → invariant next) :
    invariant finish := by
  induction actions generalizing start with
  | nil => rwa [← runs_nil.mp runs]
  | cons action rest inductionHypothesis =>
    obtain ⟨next, stepped, remaining⟩ := runs_cons.mp runs
    exact inductionHypothesis remaining (met.2 next stepped) (reachable.step stepped)
      (preserved start action next reachable met.1 holds stepped)

/-- A first part of a run meets what the run meets. -/
theorem Throughout.of_append {condition : State → Action → Prop}
    (met : system.Throughout condition start (actions ++ rest)) :
    system.Throughout condition start actions := by
  induction actions generalizing start with
  | nil => exact trivial
  | cons action later inductionHypothesis =>
    exact ⟨met.1, fun next stepped => inductionHypothesis (met.2 next stepped)⟩

/-- The condition holds at every step of the run. -/
theorem Throughout.here {condition : State → Action → Prop}
    (met : system.Throughout condition start (actions ++ action :: rest))
    (runs : system.Runs start actions state) : condition state action := by
  induction actions generalizing start with
  | nil =>
    rw [← runs_nil.mp runs]
    exact met.1
  | cons earlier later inductionHypothesis =>
    obtain ⟨next, stepped, remaining⟩ := runs_cons.mp runs
    exact inductionHypothesis (met.2 next stepped) remaining

/-- A condition may be replaced by one that follows from it in every reachable state. -/
theorem Throughout.imp {condition weaker : State → Action → Prop}
    (reachable : system.Reachable start)
    (follows : ∀ state action, system.Reachable state → condition state action →
      weaker state action)
    (met : system.Throughout condition start actions) :
    system.Throughout weaker start actions := by
  induction actions generalizing start with
  | nil => exact trivial
  | cons action later inductionHypothesis =>
    exact ⟨follows start action reachable met.1, fun next stepped =>
      inductionHypothesis (reachable.step stepped) (met.2 next stepped)⟩

/-- A run that does not meet the condition throughout has a step that does not meet it. -/
theorem Runs.exists_violation {condition : State → Action → Prop}
    (runs : system.Runs start actions finish)
    (violated : ¬ system.Throughout condition start actions) :
    ∃ before action after state next, actions = before ++ action :: after ∧
      system.Runs start before state ∧ ¬ condition state action ∧
      system.step state action = some next ∧ system.Runs next after finish := by
  induction actions generalizing start with
  | nil => exact absurd trivial violated
  | cons action rest inductionHypothesis =>
    obtain ⟨next, stepped, remaining⟩ := runs_cons.mp runs
    by_cases here : condition start action
    · have later : ¬ system.Throughout condition next rest := by
        intro met
        refine violated ⟨here, fun other same => ?_⟩
        rw [stepped, Option.some.injEq] at same
        exact same ▸ met
      obtain ⟨before, broken, after, state, reached, rfl, first, fails, step, second⟩ :=
        inductionHypothesis remaining later
      exact ⟨action :: before, broken, after, state, reached, rfl,
        runs_cons.mpr ⟨next, stepped, first⟩, fails, step, second⟩
    · exact ⟨[], action, rest, start, next, rfl, runs_nil.mpr rfl, here, stepped, remaining⟩

/-- A log that every step extends is extended by every run. -/
theorem Runs.log_prefix {Entry : Type} {log : State → List Entry}
    (grows : ∀ state action next, system.step state action = some next → log state <+: log next)
    (runs : system.Runs start actions finish) : log start <+: log finish := by
  induction actions generalizing start with
  | nil =>
    obtain rfl := runs_nil.mp runs
    exact List.prefix_rfl
  | cons action rest inductionHypothesis =>
    obtain ⟨next, stepped, remaining⟩ := runs_cons.mp runs
    exact (grows start action next stepped).trans (inductionHypothesis remaining)

/-- In a system with an append-only log, an entry that a run has added was added by one of its
steps: the log stood before the entry when the step began, and holds it when the step is done. -/
theorem Runs.exists_appending {Entry : Type} {log : State → List Entry}
    (grows : ∀ state action next, system.step state action = some next → log state <+: log next)
    (runs : system.Runs start actions finish) {before after : List Entry} {entry : Entry}
    (there : log finish = before ++ entry :: after)
    (fresh : (log start).length ≤ before.length) :
    ∃ earlier action later state next, actions = earlier ++ action :: later ∧
      system.Runs start earlier state ∧ system.step state action = some next ∧
      log state <+: before ∧ ∃ rest, log next = before ++ entry :: rest := by
  induction actions generalizing start with
  | nil =>
    have equal := congrArg List.length there
    rw [← runs_nil.mp runs, List.length_append, List.length_cons] at equal
    omega
  | cons action rest inductionHypothesis =>
    obtain ⟨next, stepped, remaining⟩ := runs_cons.mp runs
    have nextGrows : log next <+: before ++ entry :: after := there ▸ remaining.log_prefix grows
    rcases Nat.lt_or_ge before.length (log next).length with added | notYet
    · refine ⟨[], action, rest, start, next, rfl, runs_nil.mpr rfl, stepped, ?_, ?_⟩
      · have prior := (grows start action next stepped).trans nextGrows
        exact List.prefix_of_prefix_length_le prior (List.prefix_append _ _) fresh
      · have split : before ++ [entry] <+: log next := by
          refine List.prefix_of_prefix_length_le ⟨after, ?_⟩ nextGrows ?_
          · rw [List.append_assoc, List.singleton_append]
          · rw [List.length_append, List.length_singleton]
            exact added
        obtain ⟨tail, whole⟩ := split
        exact ⟨tail, by rw [← whole, List.append_assoc, List.singleton_append]⟩
    · obtain ⟨earlier, one, later, state, after', rfl, first, once, held, added⟩ :=
        inductionHypothesis remaining notYet
      exact ⟨action :: earlier, one, later, state, after', rfl,
        runs_cons.mpr ⟨next, stepped, first⟩, once, held, added⟩

end System

end Kurlyk
