/-
This file is about programs that walk a list by position. A list around one of
its positions is what stands before, the element, and what stands after; writing
or erasing the position keeps both sides. A walk over the whole list that erases
some elements filters it, and one that rewrites every element maps it.

Occurrences add up over the parts of a list, so that an equation between the contents
of two states is linear arithmetic.
-/

import Mathlib.Data.List.Basic

namespace Kurlyk

variable {Value Other : Type}

/-- A list splits around a position that holds an element. -/
theorem exists_split {values : List Value} {position : ℕ} {value : Value}
    (found : values[position]? = some value) :
    ∃ before after, values = before ++ value :: after ∧ before.length = position ∧
      values.eraseIdx position = before ++ after ∧
      ∀ written, values.set position written = before ++ written :: after := by
  obtain ⟨inside, rfl⟩ := List.getElem?_eq_some_iff.mp found
  refine ⟨values.take position, values.drop (position + 1), ?_, ?_, ?_, ?_⟩
  · rw [← List.drop_eq_getElem_cons inside, List.take_append_drop]
  · rw [List.length_take, Nat.min_eq_left (Nat.le_of_lt inside)]
  · exact List.eraseIdx_eq_take_drop_succ values position
  · intro written
    rw [List.set_eq_take_append_cons_drop, if_pos inside]

/-- Erasing a position takes away one element that passes a test, or none. -/
theorem countP_eraseIdx {values : List Value} {position : ℕ} {value : Value}
    (found : values[position]? = some value) (test : Value → Bool) :
    (values.eraseIdx position).countP test + (if test value then 1 else 0) =
      values.countP test := by
  obtain ⟨before, after, split, _, erased, _⟩ := exists_split found
  rw [erased, split, List.countP_append, List.countP_append, List.countP_cons]
  omega

/-! ### Walks -/

/-- A walk over a list erases some elements: before the position stands what it has kept so far,
and behind it what it has not visited. -/
def Swept (keep : Value → Bool) (all current : List Value) (position : ℕ) : Prop :=
  ∃ seen rest, all = seen ++ rest ∧ current = seen.filter keep ++ rest ∧
    position = (seen.filter keep).length

section Swept

variable {keep : Value → Bool} {all current : List Value} {position : ℕ} {value : Value}

theorem swept_start (keep : Value → Bool) (all : List Value) : Swept keep all all 0 :=
  ⟨[], all, rfl, rfl, rfl⟩

/-- The element at the position is the next one to visit. -/
theorem Swept.next (swept : Swept keep all current position)
    (found : current[position]? = some value) :
    ∃ seen rest, all = seen ++ value :: rest ∧ current = seen.filter keep ++ value :: rest ∧
      position = (seen.filter keep).length := by
  obtain ⟨seen, rest, split, now, rfl⟩ := swept
  cases rest with
  | nil =>
    rw [now, List.append_nil, List.getElem?_eq_none (Nat.le_refl _)] at found
    exact absurd found (by simp)
  | cons head rest =>
    rw [now, List.getElem?_append_right (Nat.le_refl _), Nat.sub_self] at found
    obtain rfl : head = value := Option.some.inj found
    exact ⟨seen, rest, split, now, rfl⟩

theorem Swept.mem (swept : Swept keep all current position)
    (found : current[position]? = some value) : value ∈ all := by
  obtain ⟨seen, rest, rfl, _⟩ := swept.next found
  exact List.mem_append_right _ List.mem_cons_self

theorem Swept.kept (swept : Swept keep all current position)
    (found : current[position]? = some value) (kept : keep value = true) :
    Swept keep all current (position + 1) := by
  obtain ⟨seen, rest, split, now, rfl⟩ := swept.next found
  have visited : (seen ++ [value]).filter keep = seen.filter keep ++ [value] := by
    rw [List.filter_append, List.filter_cons, if_pos kept, List.filter_nil]
  refine ⟨seen ++ [value], rest, ?_, ?_, ?_⟩
  · rw [split, List.append_assoc, List.singleton_append]
  · rw [now, visited, List.append_assoc, List.singleton_append]
  · rw [visited, List.length_append, List.length_singleton]

theorem Swept.erased (swept : Swept keep all current position)
    (found : current[position]? = some value) (dropped : keep value = false) :
    Swept keep all (current.eraseIdx position) position := by
  obtain ⟨seen, rest, split, now, rfl⟩ := swept.next found
  have visited : (seen ++ [value]).filter keep = seen.filter keep := by
    rw [List.filter_append, List.filter_cons, if_neg (by rw [dropped]; simp), List.filter_nil,
      List.append_nil]
  refine ⟨seen ++ [value], rest, ?_, ?_, ?_⟩
  · rw [split, List.append_assoc, List.singleton_append]
  · rw [now, visited, List.eraseIdx_append_of_length_le (Nat.le_refl _), Nat.sub_self,
      List.eraseIdx_cons_zero]
  · rw [visited]

/-- A walk that has reached the end has filtered the list. -/
theorem Swept.finished (swept : Swept keep all current position)
    (absent : current[position]? = none) : current = all.filter keep := by
  obtain ⟨seen, rest, rfl, rfl, rfl⟩ := swept
  rw [List.getElem?_eq_none_iff, List.length_append] at absent
  have none : rest = [] := List.eq_nil_of_length_eq_zero (by omega)
  rw [none, List.append_nil, List.append_nil]

end Swept

/-- A walk over a list rewrites every element. -/
def Rewritten (change : Value → Value) (all current : List Value) (position : ℕ) : Prop :=
  ∃ seen rest, all = seen ++ rest ∧ current = seen.map change ++ rest ∧ position = seen.length

section Rewritten

variable {change : Value → Value} {all current : List Value} {position : ℕ} {value : Value}

theorem rewritten_start (change : Value → Value) (all : List Value) :
    Rewritten change all all 0 :=
  ⟨[], all, rfl, rfl, rfl⟩

theorem Rewritten.step (rewritten : Rewritten change all current position)
    (found : current[position]? = some value) :
    value ∈ all ∧ Rewritten change all (current.set position (change value)) (position + 1) := by
  obtain ⟨seen, rest, rfl, rfl, rfl⟩ := rewritten
  have length : seen.length = (seen.map change).length := (List.length_map _).symm
  cases rest with
  | nil =>
    rw [List.append_nil, length, List.getElem?_eq_none (Nat.le_refl _)] at found
    exact absurd found (by simp)
  | cons head rest =>
    rw [length, List.getElem?_append_right (Nat.le_refl _), Nat.sub_self] at found
    obtain rfl : head = value := Option.some.inj found
    refine ⟨List.mem_append_right _ List.mem_cons_self, seen ++ [head], rest, ?_, ?_, ?_⟩
    · rw [List.append_assoc, List.singleton_append]
    · rw [length, List.set_append_right _ _ (Nat.le_refl _), Nat.sub_self, List.map_append,
        List.append_assoc]
      rfl
    · rw [List.length_append, List.length_singleton]

/-- A walk that has reached the end has mapped the list. -/
theorem Rewritten.finished (rewritten : Rewritten change all current position)
    (absent : current[position]? = none) : current = all.map change := by
  obtain ⟨seen, rest, rfl, rfl, rfl⟩ := rewritten
  rw [List.getElem?_eq_none_iff, List.length_append, List.length_map] at absent
  have none : rest = [] := List.eq_nil_of_length_eq_zero (by omega)
  rw [none, List.append_nil, List.append_nil]

end Rewritten

/-! ### Occurrences -/

variable [BEq Value]

/-- Whether two values agree, as a number. -/
def mark (value other : Value) : ℕ :=
  if other == value then 1 else 0

theorem mark_self [LawfulBEq Value] (value : Value) : mark value value = 1 :=
  if_pos (beq_self_eq_true value)

theorem mark_of_ne [LawfulBEq Value] {value other : Value} (different : other ≠ value) :
    mark value other = 0 :=
  if_neg fun same => different (eq_of_beq same)

theorem count_cons_mark (value other : Value) (rest : List Value) :
    List.count value (other :: rest) = mark value other + List.count value rest := by
  rw [List.count_cons, Nat.add_comm, mark]

theorem count_singleton_mark (value other : Value) : List.count value [other] = mark value other :=
  List.count_singleton

section Positions

variable {others : List Other} {position : ℕ} {other : Other}

/-- Erasing a position takes away one occurrence. -/
theorem count_map_eraseIdx (found : others[position]? = some other) (label : Other → Value)
    (value : Value) :
    List.count value ((others.eraseIdx position).map label) + mark value (label other) =
      List.count value (others.map label) := by
  obtain ⟨before, after, split, _, erased, _⟩ := exists_split found
  rw [erased, split]
  simp only [List.map_append, List.map_cons, List.count_append, count_cons_mark]
  omega

/-- Erasing a position takes away what its element contributes. -/
theorem count_flatMap_eraseIdx (found : others[position]? = some other)
    (label : Other → List Value) (value : Value) :
    List.count value ((others.eraseIdx position).flatMap label) + List.count value (label other) =
      List.count value (others.flatMap label) := by
  obtain ⟨before, after, split, _, erased, _⟩ := exists_split found
  rw [erased, split]
  simp only [List.flatMap_append, List.flatMap_cons, List.count_append]
  omega

/-- Writing a position exchanges what its element contributes. -/
theorem count_flatMap_set (found : others[position]? = some other) (label : Other → List Value)
    (written : Other) (value : Value) :
    List.count value ((others.set position written).flatMap label) +
        List.count value (label other) =
      List.count value (others.flatMap label) + List.count value (label written) := by
  obtain ⟨before, after, split, _, _, set⟩ := exists_split found
  rw [set, split]
  simp only [List.flatMap_append, List.flatMap_cons, List.count_append]
  omega

/-- Erasing the first element that passes a test takes away what it contributes. -/
theorem count_flatMap_eraseP {test : Other → Bool} (found : others.find? test = some other)
    (label : Other → List Value) (value : Value) :
    List.count value ((others.eraseP test).flatMap label) + List.count value (label other) =
      List.count value (others.flatMap label) := by
  obtain ⟨passed, before, after, split, failed⟩ := List.find?_eq_some_iff_append.mp found
  have skipped : ∀ earlier ∈ before, ¬ test earlier = true := by
    intro earlier member
    simpa using failed earlier member
  rw [split, List.eraseP_append_right _ skipped, List.eraseP_cons_of_pos passed]
  simp only [List.flatMap_append, List.flatMap_cons, List.count_append]
  omega

end Positions

/-- Splitting a list by a test splits its occurrences. -/
theorem count_map_filter (value : Value) (label : Other → Value) (test : Other → Bool)
    (others : List Other) :
    List.count value ((others.filter test).map label) +
        List.count value ((others.filter (!test ·)).map label) =
      List.count value (others.map label) := by
  induction others with
  | nil => rfl
  | cons other rest inductionHypothesis =>
    cases tested : test other with
    | true =>
      simp only [List.filter_cons, tested, Bool.not_true, if_true, Bool.false_eq_true, if_false,
        List.map_cons, count_cons_mark]
      omega
    | false =>
      simp only [List.filter_cons, tested, Bool.not_false, if_true, Bool.false_eq_true, if_false,
        List.map_cons, count_cons_mark]
      omega

/-- The same for a list whose elements each contribute several values. -/
theorem count_flatMap_filter (value : Value) (label : Other → List Value) (test : Other → Bool)
    (others : List Other) :
    List.count value ((others.filter test).flatMap label) +
        List.count value ((others.filter (!test ·)).flatMap label) =
      List.count value (others.flatMap label) := by
  induction others with
  | nil => rfl
  | cons other rest inductionHypothesis =>
    cases tested : test other with
    | true =>
      simp only [List.filter_cons, tested, Bool.not_true, if_true, Bool.false_eq_true, if_false,
        List.flatMap_cons, List.count_append]
      omega
    | false =>
      simp only [List.filter_cons, tested, Bool.not_false, if_true, Bool.false_eq_true, if_false,
        List.flatMap_cons, List.count_append]
      omega

end Kurlyk
