/-
This file is about code that calls back. A routine runs on a state and stops
wherever it calls a function that somebody else has given it: it shows which one,
and goes on from the state that the function leaves. What the function does, and
whether it returns at all, the routine does not fix.

Between a call and its return others may act. A relation says what they may do to
the state, and a routine meets its specification if what is asked at each call
holds whenever the function ends, and what is asked at the end holds there. The
rule for a sequence is that of a weakest precondition.
-/

import Mathlib.Init

namespace Kurlyk

/-- What is left of a routine that has begun: it has ended with a value, or it is inside a call
and will go on from the state in which the function returns. -/
inductive Course (Label State Value : Type) where
  | ended (value : Value) (state : State)
  | calling (label : Label) (state : State) (resume : State → Course Label State Value)

/-- Code that starts in a state and calls functions that are known by their labels. -/
def Routine (Label State Value : Type) : Type :=
  State → Course Label State Value

variable {Label State Value Result Seen : Type}

namespace Course

/-- The state at the first stop. -/
def state : Course Label State Value → State
  | .ended _ state => state
  | .calling _ state _ => state

/-- The end of a course in which every function returns at once and does nothing. -/
def outcome : Course Label State Value → Value × State
  | .ended value state => (value, state)
  | .calling _ state resume => (resume state).outcome

/-- The course goes on with a routine that receives its value. -/
def andThen : Course Label State Value → (Value → Routine Label State Result) →
    Course Label State Result
  | .ended value state, next => next value state
  | .calling label state resume, next =>
    .calling label state fun returned => (resume returned).andThen next

/-- Whatever others do during the calls, `during` holds when a called function ends and `post`
at the end of the course. -/
def Meets (rely : State → State → Prop) (during : Label → State → Prop)
    (post : Value → State → Prop) : Course Label State Value → Prop
  | .ended value state => post value state
  | .calling label state resume => ∀ returned, rely state returned →
      during label returned ∧ (resume returned).Meets rely during post

/-- No piece of the course changes what is seen of the state. -/
def Keeps (seen : State → Seen) : Seen → Course Label State Value → Prop
  | before, .ended _ state => seen state = before
  | before, .calling _ state resume => seen state = before ∧
      ∀ returned, (resume returned).Keeps seen (seen returned)

end Course

/-- No piece of the routine changes what is seen of the state. -/
def Routine.Keeps (seen : State → Seen) (routine : Routine Label State Value) : Prop :=
  ∀ state, (routine state).Keeps seen (seen state)

namespace Course

section Rules

variable {rely : State → State → Prop} {during : Label → State → Prop}
  {post : Value → State → Prop} {seen : State → Seen}

theorem Meets.imp {course : Course Label State Value} {meanwhile : Label → State → Prop}
    {after : Value → State → Prop} (meets : course.Meets rely during post)
    (weaker : ∀ label state, during label state → meanwhile label state)
    (follows : ∀ value state, post value state → after value state) :
    course.Meets rely meanwhile after := by
  induction course with
  | ended value state => exact follows value state meets
  | calling label state resume inductionHypothesis =>
    exact fun returned allowed => ⟨weaker label returned (meets returned allowed).1,
      inductionHypothesis returned (meets returned allowed).2⟩

theorem meets_andThen {course : Course Label State Value}
    {next : Value → Routine Label State Result} {after : Result → State → Prop} :
    (course.andThen next).Meets rely during after ↔
      course.Meets rely during fun value state => (next value state).Meets rely during after := by
  induction course with
  | ended value state => exact Iff.rfl
  | calling label state resume inductionHypothesis =>
    exact forall_congr' fun returned => imp_congr_right fun _ =>
      and_congr_right fun _ => inductionHypothesis returned

theorem Keeps.state {course : Course Label State Value} {before : Seen}
    (keeps : course.Keeps seen before) : seen course.state = before := by
  cases course with
  | ended value state => exact keeps
  | calling label state resume => exact keeps.1

theorem Keeps.andThen {course : Course Label State Value}
    {next : Value → Routine Label State Result} {before : Seen}
    (keeps : course.Keeps seen before) (later : ∀ value, (next value).Keeps seen) :
    (course.andThen next).Keeps seen before := by
  induction course generalizing before with
  | ended value state => exact keeps ▸ later value state
  | calling label state resume inductionHypothesis =>
    exact ⟨keeps.1, fun returned => inductionHypothesis returned (keeps.2 returned)⟩

theorem outcome_andThen (course : Course Label State Value)
    (next : Value → Routine Label State Result) :
    (course.andThen next).outcome = (next course.outcome.1 course.outcome.2).outcome := by
  induction course with
  | ended value state => rfl
  | calling label state resume inductionHypothesis => exact inductionHypothesis state

end Rules

end Course

namespace Routine

instance : Monad (Routine Label State) where
  pure value state := .ended value state
  bind routine next state := (routine state).andThen next

/-- Reads the state. -/
def get : Routine Label State State := fun state => .ended state state

/-- Changes the state. -/
def modify (change : State → State) : Routine Label State Unit := fun state =>
  .ended () (change state)

/-- Calls a function. -/
def call (label : Label) : Routine Label State Unit := fun state =>
  .calling label state (.ended ())

/-! ### The rules -/

section Meets

variable {rely : State → State → Prop} {during : Label → State → Prop}
  {post : Value → State → Prop}

@[simp]
theorem meets_bind (routine : Routine Label State Value)
    (next : Value → Routine Label State Result) (state : State)
    (after : Result → State → Prop) :
    ((routine >>= next) state).Meets rely during after ↔
      (routine state).Meets rely during
        fun value state => (next value state).Meets rely during after :=
  Course.meets_andThen

@[simp]
theorem meets_pure (value : Value) (state : State) :
    ((pure value : Routine Label State Value) state).Meets rely during post ↔ post value state :=
  Iff.rfl

@[simp]
theorem meets_get (state : State) (after : State → State → Prop) :
    ((get : Routine Label State State) state).Meets rely during after ↔ after state state :=
  Iff.rfl

@[simp]
theorem meets_modify (change : State → State) (state : State) (after : Unit → State → Prop) :
    ((modify change : Routine Label State Unit) state).Meets rely during after ↔
      after () (change state) :=
  Iff.rfl

@[simp]
theorem meets_call (label : Label) (state : State) (after : Unit → State → Prop) :
    ((call label : Routine Label State Unit) state).Meets rely during after ↔
      ∀ returned, rely state returned → during label returned ∧ after () returned :=
  Iff.rfl

end Meets

section Keeps

variable {seen : State → Seen}

theorem keeps_bind {routine : Routine Label State Value}
    {next : Value → Routine Label State Result} (keeps : routine.Keeps seen)
    (later : ∀ value, (next value).Keeps seen) : (routine >>= next).Keeps seen :=
  fun state => (keeps state).andThen later

theorem keeps_pure (value : Value) : (pure value : Routine Label State Value).Keeps seen :=
  fun _ => rfl

theorem keeps_get : (get : Routine Label State State).Keeps seen :=
  fun _ => rfl

theorem keeps_modify {change : State → State} (same : ∀ state, seen (change state) = seen state) :
    (modify change : Routine Label State Unit).Keeps seen :=
  same

theorem keeps_call (label : Label) : (call label : Routine Label State Unit).Keeps seen :=
  fun _ => ⟨rfl, fun _ => rfl⟩

theorem keeps_ite {condition : Prop} [Decidable condition]
    {first second : Routine Label State Value} (keeps : first.Keeps seen)
    (later : second.Keeps seen) : (if condition then first else second).Keeps seen := by
  split
  · exact keeps
  · exact later

end Keeps

/-! ### Functions that return at once -/

section Outcome

@[simp]
theorem outcome_bind (routine : Routine Label State Value)
    (next : Value → Routine Label State Result) (state : State) :
    ((routine >>= next) state).outcome =
      (next (routine state).outcome.1 (routine state).outcome.2).outcome :=
  Course.outcome_andThen _ _

@[simp]
theorem outcome_pure (value : Value) (state : State) :
    ((pure value : Routine Label State Value) state).outcome = (value, state) :=
  rfl

@[simp]
theorem outcome_get (state : State) :
    ((get : Routine Label State State) state).outcome = (state, state) :=
  rfl

@[simp]
theorem outcome_modify (change : State → State) (state : State) :
    ((modify change : Routine Label State Unit) state).outcome = ((), change state) :=
  rfl

@[simp]
theorem outcome_call (label : Label) (state : State) :
    ((call label : Routine Label State Unit) state).outcome = ((), state) :=
  rfl

end Outcome

end Routine

end Kurlyk
