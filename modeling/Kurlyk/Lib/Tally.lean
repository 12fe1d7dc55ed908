/-
This file is about a fixed-window counter that reads the clock twice for each
request: it checks the request at one instant and charges it at a later one, so
that the window may run out in between. A request is let through when the window
has run out at the check or is not full; it is charged to a new window when the
window has run out at the charge.

Fix an interval of one period. A `Tally` says how many of the requests let
through lie in it, by where the current window stands: before the interval, the
first to reach into it, the second, or past it. Each charge moves the tally on,
and no tally exceeds twice the capacity. A request counts as lying in the
interval by any instant between its check and its charge.
-/

import Kurlyk.Lib.Window

namespace Kurlyk

namespace Current

/-- The counter lets a request through that is checked at this instant. -/
def Admits (period capacity : ℕ) (current : Current) (checked : ℕ) : Prop :=
  current.start + period ≤ checked ∨ current.count < capacity

/-- The counter after a charge. -/
def charge (period : ℕ) (current : Current) (charged : ℕ) : Current :=
  if current.start + period ≤ charged then ⟨charged, 1⟩
  else ⟨current.start, current.count + 1⟩

end Current

/-- The number of requests inside the interval of one period from `opening`, by where the current
window stands. -/
structure Tally (period capacity opening inside : ℕ) (current : Current) (clock : ℕ) :
    Prop where
  begun : current.start ≤ clock
  fits : current.count ≤ capacity
  phase : (current.start + period ≤ opening ∧ inside = 0) ∨
    (opening < current.start + period ∧ inside ≤ current.count) ∨
    (opening < current.start ∧ inside ≤ capacity + current.count) ∨
    (opening + period ≤ current.start ∧ inside ≤ 2 * capacity)

namespace Tally

variable {period capacity opening inside clock checked charged instant : ℕ} {current : Current}

/-- A window that has admitted nothing yet. -/
theorem begin {start : ℕ} (begun : start ≤ clock) :
    Tally period capacity opening 0 ⟨start, 0⟩ clock := by
  refine ⟨begun, Nat.zero_le _, ?_⟩
  rcases Nat.lt_or_ge opening (start + period) with reaching | past
  · exact Or.inr (Or.inl ⟨reaching, Nat.le_refl _⟩)
  · exact Or.inl ⟨past, rfl⟩

/-- Time passes. -/
theorem advance (tally : Tally period capacity opening inside current clock) {now : ℕ}
    (later : clock ≤ now) : Tally period capacity opening inside current now :=
  ⟨le_trans tally.begun later, tally.fits, tally.phase⟩

/-- A request that was let through is charged. -/
theorem charge (tally : Tally period capacity opening inside current clock)
    (positive : 0 < capacity) (lasting : 0 < period) (later : clock ≤ checked)
    (admits : current.Admits period capacity checked) (after : checked ≤ instant)
    (before : instant ≤ charged) :
    Tally period capacity opening
      (inside + if opening ≤ instant ∧ instant < opening + period then 1 else 0)
      (current.charge period charged) charged := by
  obtain ⟨begun, fits, phase⟩ := tally
  unfold Current.Admits at admits
  unfold Current.charge
  rcases Nat.lt_or_ge charged (current.start + period) with inWindow | expired
  · rw [if_neg (Nat.not_le.mpr inWindow)]
    refine ⟨by dsimp only; omega, by dsimp only; omega, ?_⟩
    dsimp only
    split <;> omega
  · rw [if_pos expired]
    refine ⟨le_rfl, positive, ?_⟩
    dsimp only
    split <;> omega

/-- The interval holds at most twice the capacity. -/
theorem le_two_mul (tally : Tally period capacity opening inside current clock) :
    inside ≤ 2 * capacity := by
  have fits := tally.fits
  have phase := tally.phase
  omega

end Tally

/-! ### What an unexpired window says of the last period -/

/-- The charges that the current window counts were made since it opened. -/
def Current.Covered (current : Current) (instants : List ℕ) : Prop :=
  current.count ≤ instants.countP fun instant => decide (current.start ≤ instant)

namespace Current

variable {current : Current} {instants : List ℕ} {period charged now : ℕ}

theorem Covered.charge (covered : current.Covered instants) (begun : current.start ≤ charged) :
    (current.charge period charged).Covered (instants ++ [charged]) := by
  unfold Current.charge
  split
  · simp [Covered]
  · unfold Covered at covered ⊢
    rw [List.countP_append, List.countP_singleton, if_pos (decide_eq_true begun)]
    exact Nat.add_le_add_right covered 1

theorem Covered.count_le_recent (covered : current.Covered instants)
    (unexpired : now < current.start + period) :
    current.count ≤ Window.countRecent period now instants := by
  refine le_trans covered (List.countP_mono_left fun instant _ since => ?_)
  have opened := of_decide_eq_true since
  exact decide_eq_true (by omega)

end Current

end Kurlyk
