/-
This file models `std::chrono::duration` with an integer representation. A
duration type is a representation and a tick, a positive rational number of
seconds; a value of it is a number of ticks. `duration_cast` multiplies by the
numerator and divides by the denominator of the ratio of the two ticks, in the
common type of the representations, and truncates toward zero.

A conversion without overflow of a count that is not negative is the floor of the
exact quotient. Unsigned arithmetic that overflows on the way, and a result that does
not fit, are taken modulo; signed arithmetic that overflows has no defined result.
-/

import Mathlib.Data.Rat.Floor
import Mathlib.Tactic.FieldSimp

namespace Kurlyk

/-! ### Integer representations -/

/-- An integer type that can count ticks. -/
structure IntegerRep where
  bits : ℕ
  signed : Bool
  atLeastAByte : 8 ≤ bits
  atMostAWord : bits ≤ 64

namespace IntegerRep

/-- `intmax_t`. -/
def intMax : IntegerRep :=
  ⟨64, true, by decide, by decide⟩

def min (rep : IntegerRep) : ℤ :=
  if rep.signed then -2 ^ (rep.bits - 1) else 0

def max (rep : IntegerRep) : ℤ :=
  if rep.signed then 2 ^ (rep.bits - 1) - 1 else 2 ^ rep.bits - 1

/-- The value is one of the type. -/
def Contains (rep : IntegerRep) (value : ℤ) : Prop :=
  rep.min ≤ value ∧ value ≤ rep.max

instance (rep : IntegerRep) (value : ℤ) : Decidable (rep.Contains value) :=
  inferInstanceAs (Decidable (_ ∧ _))

/-- The conversion of a value to the type, modulo two to the number of its bits. -/
def wrap (rep : IntegerRep) (value : ℤ) : ℤ :=
  if rep.signed then value.bmod (2 ^ rep.bits) else value % 2 ^ rep.bits

theorem wrap_of_contains {rep : IntegerRep} {value : ℤ} (contains : rep.Contains value) :
    rep.wrap value = value := by
  obtain ⟨below, above⟩ := contains
  have wide := rep.atLeastAByte
  unfold wrap
  unfold min at below
  unfold max at above
  split
  · rename_i signed
    rw [if_pos signed] at below above
    obtain ⟨width, same⟩ : ∃ width, rep.bits = width + 1 := ⟨rep.bits - 1, by omega⟩
    rw [same, Nat.add_sub_cancel] at below above
    refine Int.bmod_eq_of_le_mul_two ?_ ?_
    · rw [same, pow_succ]
      push_cast
      omega
    · rw [same, pow_succ]
      push_cast
      omega
  · rename_i unsigned
    rw [if_neg unsigned] at below above
    exact Int.emod_eq_of_lt below (by omega)

/-- A value that is not negative does not grow when it is taken modulo. -/
theorem wrap_le {rep : IntegerRep} {value : ℤ} (nonneg : 0 ≤ value) : rep.wrap value ≤ value := by
  have positive : (0 : ℤ) < 2 ^ rep.bits := by positivity
  have less : value % 2 ^ rep.bits ≤ value := by
    have quotient := Int.mul_ediv_add_emod value (2 ^ rep.bits)
    have some_times := mul_nonneg positive.le (Int.ediv_nonneg nonneg positive.le)
    omega
  unfold wrap
  split
  · rw [Int.bmod_def]
    push_cast
    split <;> omega
  · exact less

theorem wrap_nonneg {rep : IntegerRep} (unsigned : rep.signed = false) (value : ℤ) :
    0 ≤ rep.wrap value := by
  rw [wrap, unsigned, if_neg Bool.false_ne_true]
  exact Int.emod_nonneg _ (by positivity)

theorem max_pos (rep : IntegerRep) : 0 < rep.max := by
  have wide := rep.atLeastAByte
  have grows : ∀ width, 0 < width → (1 : ℤ) < 2 ^ width := fun width positive =>
    one_lt_pow₀ (by decide) positive.ne'
  unfold max
  split
  · have := grows (rep.bits - 1) (by omega)
    omega
  · have := grows rep.bits (by omega)
    omega

theorem min_nonpos (rep : IntegerRep) : rep.min ≤ 0 := by
  unfold min
  split
  · exact neg_nonpos.mpr (by positivity)
  · exact le_rfl

theorem contains_of_nonneg {rep : IntegerRep} {value : ℤ} (nonneg : 0 ≤ value)
    (le : value ≤ rep.max) : rep.Contains value :=
  ⟨le_trans rep.min_nonpos nonneg, le⟩

/-- The first value that does not fit becomes the least. -/
theorem wrap_max_add_one (rep : IntegerRep) : rep.wrap (rep.max + 1) = rep.min := by
  unfold wrap max min
  split
  · have wide := rep.atLeastAByte
    obtain ⟨width, same⟩ : ∃ width, rep.bits = width + 1 := ⟨rep.bits - 1, by omega⟩
    have positive : (0 : ℤ) < 2 ^ width := by positivity
    have half : (2 ^ width : ℤ) % (2 ^ width * 2) = 2 ^ width :=
      Int.emod_eq_of_lt positive.le (by omega)
    rw [same, Nat.add_sub_cancel, Int.sub_add_cancel, Int.bmod_def]
    push_cast
    rw [pow_succ, half, if_neg (by omega)]
    omega
  · rw [Int.sub_add_cancel, Int.emod_self]

end IntegerRep

/-! ### Duration types -/

/-- A duration type: what counts its ticks, and how many seconds a tick lasts. -/
structure DurationType where
  rep : IntegerRep
  tick : ℚ
  tick_pos : 0 < tick

namespace DurationType

variable {target : DurationType} {source : ℚ} {count smaller : ℤ}

/-- `std::ratio_divide` of the ticks. Both are in lowest terms, as a rational number is. -/
def factor (target : DurationType) (source : ℚ) : ℚ :=
  source / target.tick

/-- The type a conversion computes in: `intmax_t`, unless the representation is the unsigned type
of the same size. -/
def common (target : DurationType) : IntegerRep :=
  if target.rep.signed = false ∧ target.rep.bits = 64 then target.rep else .intMax

/-- The number of ticks a conversion computes before it is stored. -/
def converted (target : DurationType) (source : ℚ) (count : ℤ) : ℤ :=
  (target.common.wrap (count * (target.factor source).num)).tdiv (target.factor source).den

/-- `duration_cast` of a count of ticks that last `source` seconds each. -/
def durationCast (target : DurationType) (source : ℚ) (count : ℤ) : ℤ :=
  target.rep.wrap (target.converted source count)

/-- The conversion has a defined result: no signed arithmetic overflows on the way. -/
def Defined (target : DurationType) (source : ℚ) (count : ℤ) : Prop :=
  target.common.signed = true → target.common.Contains (count * (target.factor source).num)

/-- The conversion does not overflow, neither on the way nor when the result is stored. -/
def Converts (target : DurationType) (source : ℚ) (count : ℤ) : Prop :=
  target.common.Contains (count * (target.factor source).num) ∧
    target.rep.Contains (target.converted source count)

instance (target : DurationType) (source : ℚ) (count : ℤ) :
    Decidable (target.Converts source count) :=
  inferInstanceAs (Decidable (_ ∧ _))

/-- The whole ticks in a number of seconds. -/
def ticks (target : DurationType) (seconds : ℚ) : ℤ :=
  ⌊seconds / target.tick⌋

theorem factor_pos (positive : 0 < source) : 0 < target.factor source :=
  div_pos positive target.tick_pos

theorem product_nonneg (positive : 0 < source) (nonneg : 0 ≤ count) :
    0 ≤ count * (target.factor source).num :=
  mul_nonneg nonneg (Rat.num_nonneg.mpr (factor_pos positive).le)

/-- Exact arithmetic computes the floor of the quotient. -/
theorem tdiv_eq_ticks (positive : 0 < source) (nonneg : 0 ≤ count) :
    (count * (target.factor source).num).tdiv (target.factor source).den =
      target.ticks (count * source) := by
  have quotient : (count * source : ℚ) / target.tick =
      ((count * (target.factor source).num : ℤ) : ℚ) / ((target.factor source).den : ℕ) := by
    rw [Int.cast_mul, mul_div_assoc, mul_div_assoc, Rat.num_div_den]
    rfl
  rw [Int.tdiv_eq_ediv_of_nonneg (product_nonneg positive nonneg), ticks, quotient,
    Rat.floor_intCast_div_natCast]

theorem converted_eq_ticks (fits : target.common.Contains (count * (target.factor source).num))
    (positive : 0 < source) (nonneg : 0 ≤ count) :
    target.converted source count = target.ticks (count * source) := by
  rw [converted, IntegerRep.wrap_of_contains fits, tdiv_eq_ticks positive nonneg]

theorem durationCast_eq_ticks (converts : target.Converts source count) (positive : 0 < source)
    (nonneg : 0 ≤ count) : target.durationCast source count = target.ticks (count * source) := by
  rw [durationCast, IntegerRep.wrap_of_contains converts.2,
    converted_eq_ticks converts.1 positive nonneg]

theorem durationCast_le_max (converts : target.Converts source count) :
    target.durationCast source count ≤ target.rep.max := by
  rw [durationCast, IntegerRep.wrap_of_contains converts.2]
  exact converts.2.2

theorem durationCast_zero (target : DurationType) (source : ℚ) :
    target.durationCast source 0 = 0 := by
  have kept : ∀ rep : IntegerRep, rep.wrap 0 = 0 := fun rep =>
    IntegerRep.wrap_of_contains (IntegerRep.contains_of_nonneg le_rfl rep.max_pos.le)
  rw [durationCast, converted, zero_mul, kept, Int.zero_tdiv, kept]

/-- A defined conversion whose exact result fits counts at most the exact ticks. -/
theorem durationCast_le_ticks (defined : target.Defined source count) (positive : 0 < source)
    (nonneg : 0 ≤ count) (fits : target.ticks (count * source) ≤ target.rep.max) :
    0 ≤ target.durationCast source count ∧
      target.durationCast source count ≤ target.ticks (count * source) := by
  have product : 0 ≤ count * (target.factor source).num := product_nonneg positive nonneg
  have reduced : 0 ≤ target.common.wrap (count * (target.factor source).num) ∧
      target.common.wrap (count * (target.factor source).num) ≤
        count * (target.factor source).num := by
    cases signed : target.common.signed with
    | true =>
      rw [IntegerRep.wrap_of_contains (defined signed)]
      exact ⟨product, le_rfl⟩
    | false => exact ⟨IntegerRep.wrap_nonneg signed _, IntegerRep.wrap_le product⟩
  have below : 0 ≤ target.converted source count :=
    Int.tdiv_nonneg reduced.1 (Int.natCast_nonneg _)
  have above : target.converted source count ≤ target.ticks (count * source) := by
    rw [← tdiv_eq_ticks positive nonneg, converted, Int.tdiv_eq_ediv_of_nonneg reduced.1,
      Int.tdiv_eq_ediv_of_nonneg product]
    exact Int.ediv_le_ediv (Int.natCast_pos.mpr (target.factor source).den_pos) reduced.2
  have kept : target.durationCast source count = target.converted source count :=
    IntegerRep.wrap_of_contains (IntegerRep.contains_of_nonneg below (le_trans above fits))
  rw [kept]
  exact ⟨below, above⟩

theorem ticks_mono {less more : ℚ} (le : less ≤ more) : target.ticks less ≤ target.ticks more :=
  Int.floor_le_floor (div_le_div_of_nonneg_right le target.tick_pos.le)

theorem ticks_nonneg {seconds : ℚ} (nonneg : 0 ≤ seconds) : 0 ≤ target.ticks seconds :=
  Int.floor_nonneg.mpr (div_nonneg nonneg target.tick_pos.le)

theorem ticks_zero : target.ticks 0 = 0 := by
  rw [ticks, zero_div, Int.floor_zero]

/-- Waiting for a number of ticks adds at least so many. -/
theorem ticks_add_le {seconds waited : ℚ} {wait : ℤ} (enough : wait * target.tick ≤ waited) :
    target.ticks seconds + wait ≤ target.ticks (seconds + waited) := by
  rw [ticks, ticks, ← Int.floor_add_intCast, add_div]
  refine Int.floor_le_floor (add_le_add_right ?_ _)
  exact (le_div_iff₀ target.tick_pos).mpr enough

end DurationType

end Kurlyk
