/-
This file is about rejection sampling from a stream. A loop draws as many symbols as are missing,
keeps those it accepts, and repeats until it has enough of them. It never has too many, so nothing
it accepts is thrown away, and how the stream is cut into draws does not show in the result: the
loop returns the first accepted symbols of the stream, in order. With infinitely many accepted
symbols it does return.
-/

import Mathlib.Data.Nat.Nth

namespace Kurlyk.Rejection

variable {Symbol : Type} (stream : ℕ → Symbol) (accepts : Symbol → Bool)

/-- The next symbols of the stream from a position on. -/
def draw (position size : ℕ) : List Symbol :=
  (List.range size).map fun offset => stream (position + offset)

/-- The loop, stopped after so many rounds. -/
def fill (goal : ℕ) : ℕ → ℕ → List Symbol → Option (List Symbol)
  | 0, _, _ => none
  | rounds + 1, position, kept =>
    if kept.length < goal then
      fill goal rounds (position + (goal - kept.length))
        (kept ++ (draw stream position (goal - kept.length)).filter accepts)
    else some kept

/-- The number of accepted symbols before a position. -/
def acceptedBefore (position : ℕ) : ℕ :=
  Nat.count (fun index => accepts (stream index) = true) position

/-- The position of an accepted symbol. -/
noncomputable def acceptedAt (index : ℕ) : ℕ :=
  Nat.nth (fun position => accepts (stream position) = true) index

/-- The first accepted symbols. -/
noncomputable def firstAccepted (count : ℕ) : List Symbol :=
  (List.range count).map fun index => stream (acceptedAt stream accepts index)

/-- There is an accepted symbol behind every position. -/
def Inexhaustible : Prop :=
  ∀ position, ∃ later ≥ position, accepts (stream later) = true

variable {stream accepts}

theorem length_draw (position size : ℕ) : (draw stream position size).length = size := by
  rw [draw, List.length_map, List.length_range]

/-- What is accepted of the beginning of the stream. -/
theorem filter_draw_zero (size : ℕ) :
    (draw stream 0 size).filter accepts =
      firstAccepted stream accepts (acceptedBefore stream accepts size) := by
  induction size with
  | zero => rfl
  | succ size inductionHypothesis =>
    have step : draw stream 0 (size + 1) = draw stream 0 size ++ [stream size] := by
      rw [draw, List.range_succ, List.map_append, List.map_singleton, Nat.zero_add]
      rfl
    rw [step, List.filter_append, inductionHypothesis]
    cases taken : accepts (stream size) with
    | false =>
      have count : acceptedBefore stream accepts (size + 1) =
          acceptedBefore stream accepts size := by
        rw [acceptedBefore, Nat.count_succ, if_neg (by simp [taken])]
        rfl
      rw [count, List.filter_cons_of_neg (by simp [taken]), List.filter_nil, List.append_nil]
    | true =>
      have count : acceptedBefore stream accepts (size + 1) =
          acceptedBefore stream accepts size + 1 := by
        rw [acceptedBefore, Nat.count_succ, if_pos taken]
        rfl
      have here : acceptedAt stream accepts (acceptedBefore stream accepts size) = size :=
        Nat.nth_count taken
      rw [count, firstAccepted, firstAccepted, List.range_succ, List.map_append,
        List.map_singleton, here, List.filter_cons_of_pos taken, List.filter_nil]

theorem draw_append (position first second : ℕ) :
    draw stream position (first + second) =
      draw stream position first ++ draw stream (position + first) second := by
  rw [draw, List.range_add, List.map_append, List.map_map]
  refine congrArg (_ ++ ·) (List.map_congr_left fun offset _ => ?_)
  rw [Nat.add_assoc]
  rfl

/-- What has been kept is what is accepted of the symbols drawn so far, and not too much. -/
structure Kept (stream : ℕ → Symbol) (accepts : Symbol → Bool) (goal position : ℕ)
    (kept : List Symbol) : Prop where
  accepted : kept = (draw stream 0 position).filter accepts
  bounded : kept.length ≤ goal

theorem Kept.nil (goal : ℕ) : Kept stream accepts goal 0 [] :=
  ⟨rfl, Nat.zero_le _⟩

variable {goal position : ℕ} {kept : List Symbol}

theorem Kept.round (holds : Kept stream accepts goal position kept) :
    Kept stream accepts goal (position + (goal - kept.length))
      (kept ++ (draw stream position (goal - kept.length)).filter accepts) where
  accepted := by
    rw [draw_append, List.filter_append, ← holds.accepted, Nat.zero_add]
  bounded := by
    have batch := List.length_filter_le accepts (draw stream position (goal - kept.length))
    have bounded := holds.bounded
    rw [length_draw] at batch
    rw [List.length_append]
    omega

theorem Kept.eq_firstAccepted (holds : Kept stream accepts goal position kept) :
    kept = firstAccepted stream accepts (acceptedBefore stream accepts position) := by
  rw [holds.accepted, filter_draw_zero]

theorem length_firstAccepted (count : ℕ) : (firstAccepted stream accepts count).length = count := by
  rw [firstAccepted, List.length_map, List.length_range]

/-- The loop has enough at the latest when it has read up to a position with enough accepted symbols
before it. -/
theorem Kept.fill {limit rounds : ℕ} (holds : Kept stream accepts goal position kept)
    (enough : goal ≤ acceptedBefore stream accepts limit) (often : limit - position < rounds) :
    Rejection.fill stream accepts goal rounds position kept =
      some (firstAccepted stream accepts goal) := by
  induction rounds generalizing position kept with
  | zero => exact absurd often (Nat.not_lt_zero _)
  | succ rounds inductionHypothesis =>
    have counted := congrArg List.length holds.eq_firstAccepted
    rw [length_firstAccepted] at counted
    rw [Rejection.fill]
    split
    · rename_i missing
      have unread : position < limit := by
        by_contra behind
        have grows : acceptedBefore stream accepts limit ≤ acceptedBefore stream accepts position :=
          Nat.count_monotone _ (Nat.not_lt.mp behind)
        omega
      exact inductionHypothesis holds.round (by omega)
    · rename_i full
      have bounded := holds.bounded
      have exact_ : acceptedBefore stream accepts position = goal := by omega
      rw [holds.eq_firstAccepted, exact_]

/-! ### Accepted symbols behind every position -/

variable (inexhaustible : Inexhaustible stream accepts)

include inexhaustible

theorem infinite_accepted : {position | accepts (stream position) = true}.Infinite := by
  refine Set.infinite_of_not_bddAbove fun ⟨bound, above⟩ => ?_
  obtain ⟨later, behind, taken⟩ := inexhaustible (bound + 1)
  exact absurd (above taken) (by omega)

theorem acceptedAt_strictMono : StrictMono (acceptedAt stream accepts) :=
  Nat.nth_strictMono (infinite_accepted inexhaustible)

/-- The accepted symbols are at these positions and at no other. -/
theorem accepts_iff (position : ℕ) :
    accepts (stream position) = true ↔ ∃ index, acceptedAt stream accepts index = position := by
  have range := Nat.range_nth_of_infinite (infinite_accepted inexhaustible)
  constructor
  · intro taken
    have member : position ∈ Set.range (acceptedAt stream accepts) := range ▸ taken
    exact member
  · rintro ⟨index, rfl⟩
    exact Nat.nth_mem_of_infinite (infinite_accepted inexhaustible) index

/-- The loop returns the first accepted symbols. -/
theorem fill_eq (goal : ℕ) :
    ∃ enough, ∀ rounds ≥ enough,
      fill stream accepts goal rounds 0 [] = some (firstAccepted stream accepts goal) := by
  have counted : acceptedBefore stream accepts (acceptedAt stream accepts goal) = goal :=
    Nat.count_nth_of_infinite (infinite_accepted inexhaustible) goal
  refine ⟨acceptedAt stream accepts goal + 1, fun rounds often => ?_⟩
  exact (Kept.nil goal).fill counted.ge (by omega)

end Kurlyk.Rejection
