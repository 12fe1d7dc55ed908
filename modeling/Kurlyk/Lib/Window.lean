/-
This file is about fixed-window counters in general. Such a counter charges each
admission to a window; a window admits at most `capacity` requests during the
`period` after it opened, and a later window opens a period or more after the
one before it.

A `Ledger` relates the whole sequence of admission instants to the little that a
counter remembers: when the current window opened and how many it has admitted,
or nothing once the window has run out. The counter may forget an expired window
at any time; the ledger shows that forgetting loses nothing. Two facts come out
of it: an interval as long as a period holds at most twice the capacity, and an
exhausted current window means that the capacity was used within the last period.
An interval that opens with a window, `Aligned`, holds no more than the capacity.
-/

import Mathlib.Algebra.Order.Ring.Nat
import Mathlib.Data.List.Pairwise
import Mathlib.Tactic.Linarith

namespace Kurlyk

/-- One window of a counter: when it opened and the instants it admitted. -/
structure Window where
  start : ℕ
  admitted : List ℕ

/-- The window admitted within its period and within its capacity. -/
def Window.Fits (period capacity : ℕ) (window : Window) : Prop :=
  window.admitted.length ≤ capacity ∧
    ∀ instant ∈ window.admitted, window.start ≤ instant ∧ instant < window.start + period

namespace Window

variable {period capacity : ℕ}

/-- The number of instants in the half-open interval of one period that opens at `opening`. -/
def countIn (period opening : ℕ) (instants : List ℕ) : ℕ :=
  instants.countP fun instant => decide (opening ≤ instant ∧ instant < opening + period)

/-- The number of instants less than a period before `now`. -/
def countRecent (period now : ℕ) (instants : List ℕ) : ℕ :=
  instants.countP fun instant => decide (now < instant + period)

theorem countIn_append (opening : ℕ) (first second : List ℕ) :
    countIn period opening (first ++ second) =
      countIn period opening first + countIn period opening second :=
  List.countP_append

theorem Fits.countIn_le {window : Window} (fits : window.Fits period capacity) (opening : ℕ) :
    countIn period opening window.admitted ≤ capacity :=
  le_trans List.countP_le_length fits.1

theorem Fits.countIn_eq_zero {window : Window} (fits : window.Fits period capacity) {opening : ℕ}
    (apart : window.start + period ≤ opening ∨ opening + period ≤ window.start) :
    countIn period opening window.admitted = 0 := by
  refine List.countP_eq_zero.mpr fun instant member inside => ?_
  have bounds := fits.2 instant member
  have within := of_decide_eq_true inside
  omega

/-- Windows in order of opening, each a period or more after the one before. -/
def Spaced (period : ℕ) (windows : List Window) : Prop :=
  windows.Pairwise fun earlier later => earlier.start + period ≤ later.start

/-- The instants the windows admitted, in order. -/
def instants (windows : List Window) : List ℕ :=
  windows.flatMap Window.admitted

theorem instants_cons (window : Window) (rest : List Window) :
    instants (window :: rest) = window.admitted ++ instants rest :=
  List.flatMap_cons

theorem countIn_eq_zero_of_later (windows : List Window)
    (fits : ∀ window ∈ windows, window.Fits period capacity) (opening : ℕ)
    (later : ∀ window ∈ windows, opening + period ≤ window.start) :
    countIn period opening (instants windows) = 0 := by
  induction windows with
  | nil => rfl
  | cons window rest inductionHypothesis =>
    rw [instants_cons, countIn_append,
      (fits window List.mem_cons_self).countIn_eq_zero (Or.inr (later window List.mem_cons_self)),
      inductionHypothesis (fun other member => fits other (List.mem_cons_of_mem _ member))
        (fun other member => later other (List.mem_cons_of_mem _ member))]

/-- Windows that all open inside the interval: only the first of them can reach into it. -/
theorem countIn_le_capacity (windows : List Window) (spaced : Spaced period windows)
    (fits : ∀ window ∈ windows, window.Fits period capacity) (opening : ℕ)
    (inside : ∀ window ∈ windows, opening ≤ window.start) :
    countIn period opening (instants windows) ≤ capacity := by
  cases windows with
  | nil => exact Nat.zero_le _
  | cons window rest =>
    obtain ⟨headSpaced, _⟩ := List.pairwise_cons.mp spaced
    have restZero := countIn_eq_zero_of_later rest
      (fun other member => fits other (List.mem_cons_of_mem _ member)) opening
      (fun other member => le_trans (Nat.add_le_add_right (inside window List.mem_cons_self) _)
        (headSpaced other member))
    rw [instants_cons, countIn_append, restZero, Nat.add_zero]
    exact (fits window List.mem_cons_self).countIn_le opening

/-- An interval of one period meets at most two windows. -/
theorem countIn_le_two_mul (windows : List Window) (spaced : Spaced period windows)
    (fits : ∀ window ∈ windows, window.Fits period capacity) (opening : ℕ) :
    countIn period opening (instants windows) ≤ 2 * capacity := by
  induction windows with
  | nil => exact Nat.zero_le _
  | cons window rest inductionHypothesis =>
    obtain ⟨headSpaced, restSpaced⟩ := List.pairwise_cons.mp spaced
    have restFits := fun other member => fits other (List.mem_cons_of_mem window member)
    rw [instants_cons, countIn_append]
    by_cases past : window.start + period ≤ opening
    · rw [(fits window List.mem_cons_self).countIn_eq_zero (Or.inl past), Nat.zero_add]
      exact inductionHypothesis restSpaced restFits
    · have headLe := (fits window List.mem_cons_self).countIn_le opening
      have restLe := countIn_le_capacity rest restSpaced restFits opening
        (fun other member => le_trans (Nat.le_of_not_le past) (headSpaced other member))
      omega

end Window

/-! ### What the counter remembers -/

/-- What a counter remembers: the opening and the count of its current window. -/
structure Current where
  start : ℕ
  count : ℕ

/-- The current window is the last one, open since an instant not after `clock`; with nothing
remembered, every window has run out. -/
def Current.Describes (period clock : ℕ) (windows : List Window) : Option Current → Prop
  | some current => current.start ≤ clock ∧ ∃ earlier window, windows = earlier ++ [window] ∧
      window.start = current.start ∧ window.admitted.length = current.count
  | none => ∀ window ∈ windows, window.start + period ≤ clock

/-- How a counter takes an admission. With nothing remembered it opens a window, at the instant of
the admission or, less than a period after the epoch, at the epoch; otherwise the current window
is charged until it has run out. -/
inductive Current.Takes (period capacity now : ℕ) : Option Current → Current → Prop where
  | fresh (past : period ≤ now) : Takes period capacity now none ⟨now, 1⟩
  | early (before : now < period) : Takes period capacity now none ⟨0, 1⟩
  | reopened {current : Current} (expired : current.start + period ≤ now) :
      Takes period capacity now (some current) ⟨now, 1⟩
  | charged {current : Current} (inside : now < current.start + period)
      (below : current.count < capacity) :
      Takes period capacity now (some current) ⟨current.start, current.count + 1⟩

/-- A window that takes an admission has not run out. -/
theorem Current.Takes.unexpired {period capacity now : ℕ} {current : Option Current}
    {taken : Current} (takes : Takes period capacity now current taken) (lasting : 0 < period) :
    now < taken.start + period := by
  cases takes with
  | fresh past => exact Nat.lt_add_of_pos_right lasting
  | early before => rwa [Nat.zero_add]
  | reopened expired => exact Nat.lt_add_of_pos_right lasting
  | charged inside below => exact inside

/-- The admissions so far are those of spaced windows within their capacity, and the counter
remembers the last of them. -/
def Ledger (period capacity : ℕ) (admissions : List ℕ) (current : Option Current)
    (clock : ℕ) : Prop :=
  ∃ windows, admissions = Window.instants windows ∧ Window.Spaced period windows ∧
    (∀ window ∈ windows, window.Fits period capacity) ∧
    Current.Describes period clock windows current

namespace Ledger

variable {period capacity : ℕ} {admissions : List ℕ} {current : Option Current}
  {clock now : ℕ}

/-- Before any admission. -/
theorem empty (period capacity clock : ℕ) : Ledger period capacity [] none clock :=
  ⟨[], rfl, List.Pairwise.nil, fun _ member => absurd member List.not_mem_nil,
    fun _ member => absurd member List.not_mem_nil⟩

/-- Time passes. -/
theorem advance (ledger : Ledger period capacity admissions current clock) (later : clock ≤ now) :
    Ledger period capacity admissions current now := by
  obtain ⟨windows, sum, spaced, fits, describes⟩ := ledger
  refine ⟨windows, sum, spaced, fits, ?_⟩
  cases current with
  | none => exact fun window member => le_trans (describes window member) later
  | some remembered => exact ⟨le_trans describes.1 later, describes.2⟩

/-- Every window has run out once the last one has. -/
theorem expired_all {windows : List Window} {remembered : Current}
    (spaced : Window.Spaced period windows)
    (describes : Current.Describes period clock windows (some remembered))
    (expired : remembered.start + period ≤ now) :
    ∀ window ∈ windows, window.start + period ≤ now := by
  obtain ⟨_, earlier, last, rfl, opened, _⟩ := describes
  intro window member
  rcases List.mem_append.mp member with before | final
  · have apart := (List.pairwise_append.mp spaced).2.2 window before last (by simp)
    omega
  · rw [List.mem_singleton.mp final, opened]
    exact expired

/-- An expired window may be forgotten. -/
theorem forget {remembered : Current}
    (ledger : Ledger period capacity admissions (some remembered) clock)
    (expired : remembered.start + period ≤ clock) :
    Ledger period capacity admissions none clock := by
  obtain ⟨windows, sum, spaced, fits, describes⟩ := ledger
  exact ⟨windows, sum, spaced, fits, expired_all spaced describes expired⟩

/-- Opening a window at `start` for an admission at `now`, after all windows have run out. -/
theorem openWindow {windows : List Window} {start : ℕ}
    (sum : admissions = Window.instants windows) (spaced : Window.Spaced period windows)
    (fits : ∀ window ∈ windows, window.Fits period capacity)
    (expired : ∀ window ∈ windows, window.start + period ≤ start) (positive : 0 < capacity)
    (begun : start ≤ now) (inside : now < start + period) :
    Ledger period capacity (admissions ++ [now]) (some ⟨start, 1⟩) now := by
  refine ⟨windows ++ [⟨start, [now]⟩], ?_, ?_, ?_, begun, windows, _, rfl, rfl, rfl⟩
  · rw [sum]
    simp [Window.instants]
  · refine List.pairwise_append.mpr ⟨spaced, List.pairwise_singleton _ _, ?_⟩
    intro window member fresh freshMember
    rw [List.mem_singleton.mp freshMember]
    exact expired window member
  · intro window member
    rcases List.mem_append.mp member with before | final
    · exact fits window before
    · rw [List.mem_singleton.mp final]
      refine ⟨positive, fun instant found => ?_⟩
      rw [List.mem_singleton.mp found]
      exact ⟨begun, inside⟩

/-- With nothing remembered, an admission opens a window at its own instant. -/
theorem openFresh (ledger : Ledger period capacity admissions none clock) (later : clock ≤ now)
    (positive : 0 < capacity) (lasting : 0 < period) :
    Ledger period capacity (admissions ++ [now]) (some ⟨now, 1⟩) now := by
  obtain ⟨windows, sum, spaced, fits, describes⟩ := ledger.advance later
  exact openWindow sum spaced fits describes positive le_rfl (by omega)

/-- With nothing remembered, an admission within the first period may be charged to a window
that opened at the epoch: no window can have run out by then. -/
theorem openAtEpoch (ledger : Ledger period capacity admissions none clock) (later : clock ≤ now)
    (positive : 0 < capacity) (early : now < period) :
    Ledger period capacity (admissions ++ [now]) (some ⟨0, 1⟩) now := by
  obtain ⟨windows, sum, spaced, fits, describes⟩ := ledger.advance later
  refine openWindow sum spaced fits ?_ positive (Nat.zero_le _) (by omega)
  intro window member
  have expired : window.start + period ≤ now := describes window member
  omega

/-- An admission after the current window has run out opens a window at its own instant. -/
theorem reopen {remembered : Current}
    (ledger : Ledger period capacity admissions (some remembered) clock) (later : clock ≤ now)
    (expired : remembered.start + period ≤ now) (positive : 0 < capacity)
    (lasting : 0 < period) :
    Ledger period capacity (admissions ++ [now]) (some ⟨now, 1⟩) now :=
  ((ledger.advance later).forget expired).openFresh le_rfl positive lasting

/-- An admission inside the current window is charged to it. -/
theorem charge {remembered : Current}
    (ledger : Ledger period capacity admissions (some remembered) clock) (later : clock ≤ now)
    (inside : now < remembered.start + period) (below : remembered.count < capacity) :
    Ledger period capacity (admissions ++ [now])
      (some ⟨remembered.start, remembered.count + 1⟩) now := by
  obtain ⟨windows, sum, spaced, fits, begun, earlier, window, rfl, opened, counted⟩ := ledger
  refine ⟨earlier ++ [⟨remembered.start, window.admitted ++ [now]⟩], ?_, ?_, ?_,
    le_trans begun later, earlier, _, rfl, rfl, by simp [counted]⟩
  · rw [sum]
    simp [Window.instants]
  · obtain ⟨before, _, apart⟩ := List.pairwise_append.mp spaced
    refine List.pairwise_append.mpr ⟨before, List.pairwise_singleton _ _, ?_⟩
    intro other member charged chargedMember
    rw [List.mem_singleton.mp chargedMember, ← opened]
    exact apart other member window (by simp)
  · intro other member
    rcases List.mem_append.mp member with before | final
    · exact fits other (List.mem_append_left _ before)
    · have lastFits := fits window (by simp)
      rw [List.mem_singleton.mp final]
      refine ⟨by simp only [List.length_append, List.length_singleton, counted]; omega, ?_⟩
      intro instant found
      rcases List.mem_append.mp found with old | fresh
      · rw [← opened]
        exact lastFits.2 instant old
      · rw [List.mem_singleton.mp fresh]
        exact ⟨le_trans begun later, inside⟩

/-- Taking an admission. -/
theorem take {current : Option Current} {taken : Current}
    (ledger : Ledger period capacity admissions current clock) (later : clock ≤ now)
    (takes : Current.Takes period capacity now current taken) (positive : 0 < capacity)
    (lasting : 0 < period) : Ledger period capacity (admissions ++ [now]) (some taken) now := by
  cases takes with
  | fresh past => exact ledger.openFresh later positive lasting
  | early before => exact ledger.openAtEpoch later positive before
  | reopened expired => exact ledger.reopen later expired positive lasting
  | charged inside below => exact ledger.charge later inside below

/-- An interval of one period holds at most twice the capacity. -/
theorem countIn_le (ledger : Ledger period capacity admissions current clock) (opening : ℕ) :
    Window.countIn period opening admissions ≤ 2 * capacity := by
  obtain ⟨windows, sum, spaced, fits, _⟩ := ledger
  rw [sum]
  exact Window.countIn_le_two_mul windows spaced fits opening

/-- What an unexpired window has admitted was admitted within the last period. -/
theorem count_le_recent {remembered : Current}
    (ledger : Ledger period capacity admissions (some remembered) clock)
    (inside : now < remembered.start + period) :
    remembered.count ≤ Window.countRecent period now admissions := by
  obtain ⟨windows, sum, _, fits, _, earlier, window, rfl, opened, counted⟩ := ledger
  have every : window.admitted.countP (fun instant => decide (now < instant + period)) =
      window.admitted.length := by
    refine List.countP_eq_length.mpr fun instant member => decide_eq_true ?_
    have bounds := (fits window (by simp)).2 instant member
    omega
  rw [sum, Window.countRecent, Window.instants, List.flatMap_append, List.countP_append,
    List.flatMap_singleton, every, counted]
  exact Nat.le_add_left _ _

end Ledger

/-! ### An interval that opens with a window -/

/-- How many admissions lie in the interval of one period from `opening`, when the current window
opened with the interval or no earlier than its end. -/
def Current.Aligned (period capacity opening inside clock : ℕ) : Option Current → Prop
  | none => opening + period ≤ clock ∧ inside ≤ capacity
  | some current => current.start ≤ clock ∧
      ((current.start = opening ∧ inside ≤ current.count ∧ current.count ≤ capacity) ∨
        (opening + period ≤ current.start ∧ inside ≤ capacity))

namespace Current.Aligned

variable {period capacity opening inside clock now : ℕ} {current : Option Current}

/-- Time passes. -/
theorem advance (aligned : Aligned period capacity opening inside clock current)
    (later : clock ≤ now) : Aligned period capacity opening inside now current := by
  cases current with
  | none => exact ⟨le_trans aligned.1 later, aligned.2⟩
  | some remembered => exact ⟨le_trans aligned.1 later, aligned.2⟩

/-- An expired window may be forgotten. -/
theorem forget {remembered : Current}
    (aligned : Aligned period capacity opening inside clock (some remembered))
    (expired : remembered.start + period ≤ clock) :
    Aligned period capacity opening inside clock none := by
  obtain ⟨_, ⟨opened, within, fits⟩ | ⟨past, within⟩⟩ := aligned
  · exact ⟨opened ▸ expired, le_trans within fits⟩
  · exact ⟨le_trans past (le_trans (Nat.le_add_right _ _) expired), within⟩

/-- Taking an admission. -/
theorem take {taken : Current}
    (aligned : Aligned period capacity opening inside clock current) (later : clock ≤ now)
    (takes : Takes period capacity now current taken) (lasting : 0 < period) :
    Aligned period capacity opening
      (inside + if opening ≤ now ∧ now < opening + period then 1 else 0) now (some taken) := by
  cases takes with
  | fresh past =>
    obtain ⟨elapsed, within⟩ := aligned
    refine ⟨le_rfl, Or.inr ⟨le_trans elapsed later, ?_⟩⟩
    rw [if_neg (by omega)]
    exact within
  | early before =>
    obtain ⟨elapsed, _⟩ := aligned
    omega
  | reopened expired =>
    obtain ⟨begun, phase⟩ := aligned
    have elapsed : opening + period ≤ now := by omega
    refine ⟨le_rfl, Or.inr ⟨elapsed, ?_⟩⟩
    rw [if_neg (by omega)]
    omega
  | charged insideWindow below =>
    obtain ⟨begun, ⟨opened, within, _⟩ | ⟨past, within⟩⟩ := aligned
    · refine ⟨le_trans begun later, Or.inl ⟨opened, ?_, below⟩⟩
      split
      · exact Nat.succ_le_succ within
      · exact Nat.le_succ_of_le within
    · refine ⟨le_trans begun later, Or.inr ⟨past, ?_⟩⟩
      rw [if_neg (by omega)]
      exact within

theorem inside_le (aligned : Aligned period capacity opening inside clock current) :
    inside ≤ capacity := by
  cases current with
  | none => exact aligned.2
  | some remembered =>
    obtain ⟨_, ⟨_, within, fits⟩ | ⟨_, within⟩⟩ := aligned
    · exact le_trans within fits
    · exact within

end Current.Aligned

end Kurlyk
