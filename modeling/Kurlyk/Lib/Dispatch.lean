/-
This file is about loops that call one function after the other in a language
with exceptions. What a statement has done is the list of the callbacks it
invoked and whether an exception has left it; a statement behind one that threw
is not executed, and a `try` block whose handler swallows everything hides the
exception from what follows.

A loop invokes a beginning of the callbacks that are there to be invoked. It
invokes all of them exactly when no iteration that throws has a callback in the
iterations behind it.
-/

import Mathlib.Data.List.Perm.Basic
import Mathlib.Data.List.ReduceOption

namespace Kurlyk

/-- What a statement has done: the callbacks it invoked, in order, and whether an exception has
left it. -/
structure Outcome (Callback : Type) where
  invoked : List Callback
  threw : Bool
deriving DecidableEq

namespace Outcome

variable {Callback Item Part : Type}

/-- The empty statement. -/
def done : Outcome Callback := ⟨[], false⟩

/-- A statement and the one behind it. -/
def andThen (first second : Outcome Callback) : Outcome Callback :=
  if first.threw then first else ⟨first.invoked ++ second.invoked, second.threw⟩

/-- The statement in a `try` block whose handler swallows every exception. -/
def caught (outcome : Outcome Callback) : Outcome Callback :=
  { outcome with threw := false }

/-- A range-based `for`. -/
def forEach (body : Item → Outcome Callback) : List Item → Outcome Callback
  | [] => done
  | item :: rest => (body item).andThen (forEach body rest)

/-- A function that is there is called. -/
def call (throws : Callback → Bool) (callback : Callback) : Outcome Callback :=
  ⟨[callback], throws callback⟩

/-- `if (callback) callback();` -/
def callIfSet (throws : Callback → Bool) (callback : Option Callback) : Outcome Callback :=
  (callback.map (call throws)).getD done

/-- `callback();`, which throws when the function is empty. -/
def callAnyway (throws : Callback → Bool) (callback : Option Callback) : Outcome Callback :=
  (callback.map (call throws)).getD ⟨[], true⟩

/-! ### Statements in sequence -/

theorem andThen_assoc (first second third : Outcome Callback) :
    (first.andThen second).andThen third = first.andThen (second.andThen third) := by
  obtain ⟨calls, threw⟩ := first
  obtain ⟨more, threwAgain⟩ := second
  cases threw <;> cases threwAgain <;> simp [andThen]

theorem andThen_of_not_threw {first : Outcome Callback} (smooth : first.threw = false)
    (second : Outcome Callback) :
    first.andThen second = ⟨first.invoked ++ second.invoked, second.threw⟩ := by
  rw [andThen, if_neg (by simp [smooth])]

theorem invoked_callIfSet (throws : Callback → Bool) (callback : Option Callback) :
    (callIfSet throws callback).invoked = callback.toList := by
  cases callback <;> rfl

theorem invoked_callAnyway (throws : Callback → Bool) (callback : Option Callback) :
    (callAnyway throws callback).invoked = callback.toList := by
  cases callback <;> rfl

/-! ### Loops -/

variable {body : Item → Outcome Callback} {items : List Item}

theorem forEach_append (body : Item → Outcome Callback) (front back : List Item) :
    forEach body (front ++ back) = (forEach body front).andThen (forEach body back) := by
  induction front with
  | nil => rfl
  | cons item rest inductionHypothesis =>
    rw [List.cons_append, forEach, inductionHypothesis, forEach, andThen_assoc]

/-- A loop in a loop runs over the concatenated lists. -/
theorem forEach_forEach (body : Part → Outcome Callback) (parts : Item → List Part)
    (items : List Item) :
    forEach (fun item => forEach body (parts item)) items =
      forEach body (items.flatMap parts) := by
  induction items with
  | nil => rfl
  | cons item rest inductionHypothesis =>
    rw [forEach, inductionHypothesis, List.flatMap_cons, forEach_append]

theorem forEach_map (body : Part → Outcome Callback) (part : Item → Part) (items : List Item) :
    forEach (fun item => body (part item)) items = forEach body (items.map part) := by
  induction items with
  | nil => rfl
  | cons item rest inductionHypothesis =>
    rw [forEach, inductionHypothesis, List.map_cons, forEach]

/-- Iterations that do not throw are all executed. -/
theorem forEach_of_not_threw (smooth : ∀ item ∈ items, (body item).threw = false) :
    forEach body items = ⟨items.flatMap fun item => (body item).invoked, false⟩ := by
  induction items with
  | nil => rfl
  | cons item rest inductionHypothesis =>
    rw [forEach, inductionHypothesis fun other member => smooth other (List.mem_cons_of_mem _ member),
      andThen_of_not_threw (smooth item List.mem_cons_self), List.flatMap_cons]

/-- What a loop has invoked is a beginning of what there is to invoke. -/
theorem invoked_forEach_isPrefix (body : Item → Outcome Callback) (items : List Item) :
    (forEach body items).invoked <+: items.flatMap fun item => (body item).invoked := by
  induction items with
  | nil => exact List.prefix_rfl
  | cons item rest inductionHypothesis =>
    rw [forEach, List.flatMap_cons, andThen]
    split
    · exact List.prefix_append _ _
    · exact (List.prefix_append_right_inj _).mpr inductionHypothesis

/-- No iteration that throws has a callback behind it. -/
def Unhindered (body : Item → Outcome Callback) (items : List Item) : Prop :=
  ∀ before item after, items = before ++ item :: after → (body item).threw = true →
    after.flatMap (fun item => (body item).invoked) = []

theorem unhindered_cons {item : Item} {rest : List Item} :
    Unhindered body (item :: rest) ↔
      ((body item).threw = true → rest.flatMap (fun item => (body item).invoked) = []) ∧
        Unhindered body rest := by
  constructor
  · intro unhindered
    refine ⟨unhindered [] item rest rfl, fun before other after split => ?_⟩
    exact unhindered (item :: before) other after (by rw [split, List.cons_append])
  · rintro ⟨first, others⟩ before other after split threw
    cases before with
    | nil =>
      obtain ⟨rfl, rfl⟩ := List.cons.inj split
      exact first threw
    | cons head tail =>
      obtain ⟨_, behind⟩ := List.cons.inj split
      exact others tail other after behind threw

/-- When a loop invokes everything. -/
theorem invoked_forEach_eq_iff :
    ((forEach body items).invoked = items.flatMap fun item => (body item).invoked) ↔
      Unhindered body items := by
  induction items with
  | nil =>
    refine iff_of_true rfl fun before item after split => ?_
    exact absurd split (by simp)
  | cons item rest inductionHypothesis =>
    rw [unhindered_cons, ← inductionHypothesis, forEach, List.flatMap_cons, andThen]
    cases threw : (body item).threw with
    | true =>
      rw [if_pos rfl]
      constructor
      · intro whole
        have behind := List.self_eq_append_right.mp whole
        refine ⟨fun _ => behind, ?_⟩
        have bounded := invoked_forEach_isPrefix body rest
        rw [behind, List.prefix_nil] at bounded
        rw [bounded, behind]
      · rintro ⟨nothing, _⟩
        rw [nothing rfl, List.append_nil]
    | false => simp

/-- A loop that invokes every callback once invokes them in order. -/
theorem invoked_forEach_perm_iff (body : Item → Outcome Callback) (items : List Item) :
    ((forEach body items).invoked.Perm (items.flatMap fun item => (body item).invoked)) ↔
      Unhindered body items := by
  rw [← invoked_forEach_eq_iff]
  refine ⟨fun same => ?_, fun same => by rw [same]⟩
  exact (invoked_forEach_isPrefix body items).eq_of_length same.length_eq

end Outcome

end Kurlyk
