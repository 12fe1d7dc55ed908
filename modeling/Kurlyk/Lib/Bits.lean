/-
This file is about bit strings read in groups of a fixed width. A number is
written most significant bit first; a bit string is cut into groups from the
left, and where the last group is short it is filled with zeros on the right.

Text encodings of binary data regroup the bits of bytes into smaller digits. The
two facts such an encoding needs are here: a number of `left + right` bits is its
high part followed by its low part, and grouping goes through a string group by
group.
-/

import Mathlib.Data.List.Basic
import Mathlib.Data.Nat.Bitwise
import Mathlib.Tactic.Linarith
import Mathlib.Tactic.Ring

namespace Kurlyk.Bits

/-- The `width` low bits of a number, most significant first. -/
def toBits : ℕ → ℕ → List Bool
  | 0, _ => []
  | width + 1, value => value.testBit width :: toBits width value

/-- The number that a bit string writes, most significant bit first. -/
def ofBits (bits : List Bool) : ℕ :=
  bits.foldl (fun value bit => 2 * value + bit.toNat) 0

@[simp] theorem length_toBits (width value : ℕ) : (toBits width value).length = width := by
  induction width with
  | zero => rfl
  | succ width inductionHypothesis => simp [toBits, inductionHypothesis]

/-- The bits of a number are those of its high part followed by those of its low part. -/
theorem toBits_add (left right value : ℕ) :
    toBits (left + right) value = toBits left (value / 2 ^ right) ++ toBits right value := by
  induction left with
  | zero => simp [toBits]
  | succ left inductionHypothesis =>
    rw [Nat.succ_add, toBits, toBits, inductionHypothesis, Nat.testBit_div_two_pow]
    rfl

theorem foldl_bits (bits : List Bool) (value : ℕ) :
    bits.foldl (fun value bit => 2 * value + bit.toNat) value =
      value * 2 ^ bits.length + ofBits bits := by
  induction bits generalizing value with
  | nil => simp [ofBits]
  | cons bit rest inductionHypothesis =>
    rw [ofBits, List.foldl_cons, List.foldl_cons, inductionHypothesis, inductionHypothesis,
      List.length_cons, pow_succ]
    ring

theorem ofBits_append (first second : List Bool) :
    ofBits (first ++ second) = ofBits first * 2 ^ second.length + ofBits second := by
  rw [ofBits, List.foldl_append, foldl_bits second]
  rfl

theorem ofBits_replicate_false (count : ℕ) : ofBits (List.replicate count false) = 0 := by
  induction count with
  | zero => rfl
  | succ count inductionHypothesis =>
    rw [List.replicate_succ, ← List.singleton_append, ofBits_append, inductionHypothesis]
    simp [ofBits]

theorem ofBits_toBits (width value : ℕ) : ofBits (toBits width value) = value % 2 ^ width := by
  induction width with
  | zero => simp [toBits, ofBits, Nat.mod_one]
  | succ width inductionHypothesis =>
    rw [toBits, ← List.singleton_append, ofBits_append, inductionHypothesis, length_toBits,
      Nat.mod_pow_succ, Nat.testBit_eq_decide_div_mod_eq]
    have twoCases := Nat.mod_two_eq_zero_or_one (value / 2 ^ width)
    rcases twoCases with even | odd
    · simp [ofBits, even]
    · simp [ofBits, odd]
      ring

/-! ### Groups -/

/-- The group at an index: the bits there, and zeros where the string has ended. -/
def group (width : ℕ) (bits : List Bool) (index : ℕ) : List Bool :=
  (List.range width).map fun offset => bits.getD (index * width + offset) false

/-- The bit string in groups of the width, as many as cover it. -/
def groups (width : ℕ) (bits : List Bool) : List (List Bool) :=
  (List.range ((bits.length + width - 1) / width)).map (group width bits)

variable {width : ℕ} {first : List Bool}

theorem length_groups (width : ℕ) (bits : List Bool) :
    (groups width bits).length = (bits.length + width - 1) / width := by
  simp [groups]

theorem groups_nil (positive : 0 < width) : groups width [] = [] := by
  have none : (width - 1) / width = 0 := Nat.div_eq_of_lt (by omega)
  simp [groups, none]

theorem group_append_zero (rest : List Bool) (full : first.length = width) :
    group width (first ++ rest) 0 = first := by
  refine List.ext_getElem (by simp [group, full]) fun offset inGroup inFirst => ?_
  simp [group, List.getElem?_append_left inFirst, inFirst]

theorem group_append_succ (rest : List Bool) (full : first.length = width) (index : ℕ) :
    group width (first ++ rest) (index + 1) = group width rest index := by
  refine List.map_congr_left fun offset _ => ?_
  have shifted : (index + 1) * width + offset = first.length + (index * width + offset) := by
    rw [full]
    ring
  rw [shifted, List.getD_append_right _ _ _ _ (Nat.le_add_right _ _), Nat.add_sub_cancel_left]

/-- A full first group is split off. -/
theorem groups_append (positive : 0 < width) (full : first.length = width) (rest : List Bool) :
    groups width (first ++ rest) = first :: groups width rest := by
  have more : ((first ++ rest).length + width - 1) / width =
      (rest.length + width - 1) / width + 1 := by
    rw [List.length_append, full, ← Nat.add_div_right _ positive]
    congr 1
    omega
  rw [groups, more, List.range_succ_eq_map, List.map_cons, List.map_map,
    group_append_zero rest full]
  congr 1
  exact List.map_congr_left fun index _ => group_append_succ rest full index

/-- The last group is filled with zeros. -/
theorem groups_last (nonempty : first ≠ []) (short : first.length ≤ width) :
    groups width first = [first ++ List.replicate (width - first.length) false] := by
  have positive : 0 < first.length := List.length_pos_iff.mpr nonempty
  have one : (first.length + width - 1) / width = 1 :=
    Nat.div_eq_of_lt_le (by omega) (by omega)
  have filled : group width first 0 = first ++ List.replicate (width - first.length) false := by
    refine List.ext_getElem (by simp [group]; omega) fun offset inGroup inFirst => ?_
    rcases Nat.lt_or_ge offset first.length with inside | beyond
    · simp [group, inside]
    · simp [group, List.getElem_append_right beyond, List.getElem?_eq_none beyond]
  rw [groups, one]
  simp [filled]

end Kurlyk.Bits
