/-
This file is about the mutexes a thread holds. A program is what is left of code
when one looks at nothing but the sections it runs under a mutex, the functions it
calls and the places where it calls back into foreign code: a test becomes a
choice, and a loop runs its body for any of its elements. Every path of the code
is a path of the program.

`Reaches` says with which mutexes in hand, and inside which functions, a path
gets to a place where a mutex is locked or foreign code is called. A program that
locks its mutexes in the order of a rank never locks one that the thread holds.
-/

import Mathlib.Data.List.Infix

namespace Kurlyk

/-- The locks, calls and callbacks of a piece of code. -/
inductive Program (Mutex Callback Function : Type) where
  | skip
  | holding (mutex : Mutex) (body : Program Mutex Callback Function)
  | callback (called : Callback)
  | call (function : Function) (body : Program Mutex Callback Function)
  | andThen (first second : Program Mutex Callback Function)
  | orElse (left right : Program Mutex Callback Function)
  | each (body : ℕ → Program Mutex Callback Function)

/-- The places of interest on a path: a mutex is about to be locked, or foreign code to be
called. -/
inductive Place (Mutex Callback : Type) where
  | acquires (mutex : Mutex)
  | invokes (called : Callback)

namespace Program

variable {Mutex Callback Function : Type}

/-- A section that calls nothing. -/
@[simp]
def locked (mutex : Mutex) : Program Mutex Callback Function :=
  .holding mutex .skip

/-- Code that a test may skip. -/
@[simp]
def maybe (program : Program Mutex Callback Function) : Program Mutex Callback Function :=
  .orElse program .skip

/-- One statement after the other. -/
@[simp]
def block : List (Program Mutex Callback Function) → Program Mutex Callback Function
  | [] => .skip
  | first :: rest => .andThen first (block rest)

/-- A path through the program, entered with some mutexes held, gets to the place with the
mutexes `now` held and inside the functions `frames`, the outermost first. -/
@[simp]
def Reaches : Program Mutex Callback Function → List Mutex → List Function →
    Place Mutex Callback → List Mutex → Prop
  | .skip, _, _, _, _ => False
  | .holding mutex body, held, frames, place, now =>
    (frames = [] ∧ place = .acquires mutex ∧ now = held) ∨
      Reaches body (mutex :: held) frames place now
  | .callback called, held, frames, place, now =>
    frames = [] ∧ place = .invokes called ∧ now = held
  | .call function body, held, frames, place, now =>
    ∃ inner, frames = function :: inner ∧ Reaches body held inner place now
  | .andThen first second, held, frames, place, now =>
    Reaches first held frames place now ∨ Reaches second held frames place now
  | .orElse left right, held, frames, place, now =>
    Reaches left held frames place now ∨ Reaches right held frames place now
  | .each body, held, frames, place, now => ∃ element, Reaches (body element) held frames place now

/-- The program calls the function somewhere. -/
@[simp]
def Calls (function : Function) : Program Mutex Callback Function → Prop
  | .skip => False
  | .holding _ body => Calls function body
  | .callback _ => False
  | .call other body => other = function ∨ Calls function body
  | .andThen first second => Calls function first ∨ Calls function second
  | .orElse left right => Calls function left ∨ Calls function right
  | .each body => ∃ element, Calls function (body element)

/-- The program locks its mutexes in the order of the rank, starting above the level. -/
@[simp]
def Climbs (rank : Mutex → ℕ) : ℕ → Program Mutex Callback Function → Prop
  | _, .skip => True
  | level, .holding mutex body => level < rank mutex ∧ Climbs rank (rank mutex) body
  | _, .callback _ => True
  | level, .call _ body => Climbs rank level body
  | level, .andThen first second => Climbs rank level first ∧ Climbs rank level second
  | level, .orElse left right => Climbs rank level left ∧ Climbs rank level right
  | level, .each body => ∀ element, Climbs rank level (body element)

variable {program : Program Mutex Callback Function} {held now : List Mutex}
  {frames : List Function} {place : Place Mutex Callback}

/-- A path gives back what it locks: what was held at first is held throughout. -/
theorem Reaches.suffix (reaches : program.Reaches held frames place now) : held <:+ now := by
  induction program generalizing held frames with
  | skip => exact reaches.elim
  | holding mutex body inductionHypothesis =>
    rcases reaches with ⟨_, _, rfl⟩ | inside
    · exact List.suffix_rfl
    · exact (List.suffix_cons mutex held).trans (inductionHypothesis inside)
  | callback called =>
    obtain ⟨_, _, rfl⟩ := reaches
    exact List.suffix_rfl
  | call function body inductionHypothesis =>
    obtain ⟨inner, _, inside⟩ := reaches
    exact inductionHypothesis inside
  | andThen first second firstHypothesis secondHypothesis =>
    exact reaches.elim firstHypothesis secondHypothesis
  | orElse left right leftHypothesis rightHypothesis =>
    exact reaches.elim leftHypothesis rightHypothesis
  | each body inductionHypothesis =>
    obtain ⟨element, inside⟩ := reaches
    exact inductionHypothesis element inside

/-- Something is held inside a section. -/
theorem Reaches.ne_nil {mutex : Mutex}
    (reaches : program.Reaches (mutex :: held) frames place now) : now ≠ [] := by
  rintro rfl
  exact absurd (List.suffix_nil.mp reaches.suffix) (List.cons_ne_nil mutex held)

/-- A path is inside functions that the program calls. -/
theorem Reaches.calls {function : Function} (reaches : program.Reaches held frames place now)
    (member : function ∈ frames) : program.Calls function := by
  induction program generalizing held frames with
  | skip => exact reaches.elim
  | holding mutex body inductionHypothesis =>
    rcases reaches with ⟨rfl, _, _⟩ | inside
    · exact absurd member List.not_mem_nil
    · exact inductionHypothesis inside member
  | callback called =>
    obtain ⟨rfl, _, _⟩ := reaches
    exact absurd member List.not_mem_nil
  | call other body inductionHypothesis =>
    obtain ⟨inner, rfl, inside⟩ := reaches
    rcases List.mem_cons.mp member with same | deeper
    · exact Or.inl same.symm
    · exact Or.inr (inductionHypothesis inside deeper)
  | andThen first second firstHypothesis secondHypothesis =>
    exact reaches.imp (firstHypothesis · member) (secondHypothesis · member)
  | orElse left right leftHypothesis rightHypothesis =>
    exact reaches.imp (leftHypothesis · member) (rightHypothesis · member)
  | each body inductionHypothesis =>
    obtain ⟨element, inside⟩ := reaches
    exact ⟨element, inductionHypothesis element inside member⟩

/-- A program that starts above a level starts above every lower one. -/
theorem Climbs.anti {rank : Mutex → ℕ} {lower level : ℕ} (climbs : program.Climbs rank level)
    (le : lower ≤ level) : program.Climbs rank lower := by
  induction program with
  | skip => exact trivial
  | holding mutex body => exact ⟨Nat.lt_of_le_of_lt le climbs.1, climbs.2⟩
  | callback called => exact trivial
  | call function body inductionHypothesis => exact inductionHypothesis climbs
  | andThen first second firstHypothesis secondHypothesis =>
    exact ⟨firstHypothesis climbs.1, secondHypothesis climbs.2⟩
  | orElse left right leftHypothesis rightHypothesis =>
    exact ⟨leftHypothesis climbs.1, rightHypothesis climbs.2⟩
  | each body inductionHypothesis =>
    exact fun element => inductionHypothesis element (climbs element)

/-- A program that climbs locks no mutex that the thread holds. -/
theorem Climbs.not_mem {rank : Mutex → ℕ} {level : ℕ} {mutex : Mutex}
    (climbs : program.Climbs rank level) (below : ∀ other ∈ held, rank other ≤ level)
    (reaches : program.Reaches held frames (.acquires mutex) now) : mutex ∉ now := by
  induction program generalizing held frames level with
  | skip => exact reaches.elim
  | holding other body inductionHypothesis =>
    rcases reaches with ⟨_, same, rfl⟩ | inside
    · obtain rfl := (Place.acquires.inj same).symm
      intro member
      exact Nat.not_le_of_lt climbs.1 (below _ member)
    · refine inductionHypothesis climbs.2 ?_ inside
      intro earlier member
      rcases List.mem_cons.mp member with rfl | older
      · exact Nat.le_refl _
      · exact Nat.le_of_lt (Nat.lt_of_le_of_lt (below earlier older) climbs.1)
  | callback called =>
    obtain ⟨_, impossible, _⟩ := reaches
    cases impossible
  | call function body inductionHypothesis =>
    obtain ⟨inner, _, inside⟩ := reaches
    exact inductionHypothesis climbs below inside
  | andThen first second firstHypothesis secondHypothesis =>
    exact reaches.elim (firstHypothesis climbs.1 below) (secondHypothesis climbs.2 below)
  | orElse left right leftHypothesis rightHypothesis =>
    exact reaches.elim (leftHypothesis climbs.1 below) (rightHypothesis climbs.2 below)
  | each body inductionHypothesis =>
    obtain ⟨element, inside⟩ := reaches
    exact inductionHypothesis element (climbs element) below inside

end Program

end Kurlyk
