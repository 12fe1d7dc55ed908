/-
This file is about texts over an arbitrary alphabet, searched by position. The functions are those
of `std::string`: a search gives no position where the source has `npos`, and `substr` throws when
it is asked to begin behind the end. `sizeSub` is the subtraction of `size_t`, which wraps around.

A position in a text is most easily reasoned about by what stands behind it, so every search is
described by the text that is left at the position where it begins.
-/

import Mathlib.Algebra.Group.Nat.Defs
import Mathlib.Data.List.Basic
import Mathlib.Data.List.Infix
import Mathlib.Data.List.TakeWhile

namespace Kurlyk.Text

variable {Character : Type}

/-! ### Cutting -/

/-- `std::out_of_range`. -/
inductive OutOfRange where
  | outOfRange
deriving DecidableEq

/-- What follows a call that throws nothing. -/
theorem ok_bind {Value Result : Type} (value : Value) (next : Value → Except OutOfRange Result) :
    (Except.ok value >>= next) = next value :=
  rfl

/-- The difference of two values of `size_t`. -/
def sizeSub (minuend subtrahend : ℕ) : ℕ :=
  if subtrahend ≤ minuend then minuend - subtrahend else 2 ^ 64 - (subtrahend - minuend)

/-- `text.substr(start, count)`. -/
def substr (text : List Character) (start count : ℕ) : Except OutOfRange (List Character) :=
  if start ≤ text.length then .ok ((text.drop start).take count) else .error .outOfRange

/-- `text.substr(start)`. -/
def substrFrom (text : List Character) (start : ℕ) : Except OutOfRange (List Character) :=
  if start ≤ text.length then .ok (text.drop start) else .error .outOfRange

/-- `text.erase(start, count)` at a position in the text. -/
def erase (text : List Character) (start count : ℕ) : List Character :=
  text.take start ++ text.drop (start + count)

/-- `text[position]`, which is a terminator at the end and must not be further behind. -/
def charAt (text : List Character) (position : ℕ) : Except OutOfRange (Option Character) :=
  if position ≤ text.length then .ok text[position]? else .error .outOfRange

section Cutting

variable {text front rest : List Character} {start : ℕ} {separator : Character}

/-- The length of a text that is split at a position. -/
theorem length_of_drop (left : text.drop start = front ++ separator :: rest) :
    text.length = start + front.length + 1 + rest.length := by
  have counted := congrArg List.length left
  rw [List.length_drop, List.length_append, List.length_cons] at counted
  omega

/-- The text that is left further behind. -/
theorem drop_of_drop (left : text.drop start = front ++ rest) :
    text.drop (start + front.length) = rest := by
  rw [← List.drop_drop, left, List.drop_left]

theorem le_length_of_drop (left : text.drop start = front ++ rest) (inside : start ≤ text.length) :
    start + front.length ≤ text.length := by
  have counted := congrArg List.length left
  rw [List.length_drop, List.length_append] at counted
  omega

theorem substr_of_le (inside : start ≤ text.length) (count : ℕ) :
    substr text start count = .ok ((text.drop start).take count) :=
  if_pos inside

/-- What stands from a position on. -/
theorem substrFrom_of_drop (left : text.drop start = rest) (inside : start ≤ text.length) :
    substrFrom text start = .ok rest := by
  rw [substrFrom, if_pos inside, left]

/-- What stands between two positions. -/
theorem substr_between (left : text.drop start = front ++ rest) (inside : start ≤ text.length) :
    substr text start (sizeSub (start + front.length) start) = .ok front := by
  have count : sizeSub (start + front.length) start = front.length := by
    rw [sizeSub, if_pos (Nat.le_add_right _ _), Nat.add_sub_cancel_left]
  rw [substr_of_le inside, count, left, List.take_left]

end Cutting

/-! ### Searching -/

variable [DecidableEq Character]

/-- `text.find_first_of(set, start)`. -/
def findFirstOf (text set : List Character) (start : ℕ) : Option ℕ :=
  ((text.drop start).findIdx? (· ∈ set)).map (start + ·)

/-- `text.find_first_not_of(set, start)`. -/
def findFirstNotOf (text set : List Character) (start : ℕ) : Option ℕ :=
  ((text.drop start).findIdx? (· ∉ set)).map (start + ·)

/-- `text.find(character, start)`. -/
def findChar (text : List Character) (character : Character) (start : ℕ) : Option ℕ :=
  findFirstOf text [character] start

/-- `text.rfind(character)`. -/
def rfindChar (text : List Character) (character : Character) : Option ℕ :=
  (text.reverse.findIdx? (· = character)).map (text.length - 1 - ·)

/-- The first place where the pattern stands. -/
def occurrence (pattern : List Character) : List Character → Option ℕ
  | [] => if pattern.isEmpty then some 0 else none
  | character :: rest =>
    if pattern.isPrefixOf (character :: rest) then some 0
    else (occurrence pattern rest).map (· + 1)

/-- `text.find(pattern, start)`. -/
def find (text pattern : List Character) (start : ℕ) : Option ℕ :=
  if start ≤ text.length then (occurrence pattern (text.drop start)).map (start + ·) else none

variable {text set pattern front rest : List Character} {start position : ℕ}
  {separator : Character}

theorem findFirstOf_eq_none (absent : ∀ character ∈ text.drop start, character ∉ set) :
    findFirstOf text set start = none := by
  rw [findFirstOf, Option.map_eq_none_iff, List.findIdx?_eq_none_iff]
  intro character member
  simpa using absent character member

/-- The first character of the set is found where it stands. -/
theorem findFirstOf_eq_some (left : text.drop start = front ++ separator :: rest)
    (absent : ∀ character ∈ front, character ∉ set) (present : separator ∈ set) :
    findFirstOf text set start = some (start + front.length) := by
  rw [findFirstOf, left, List.findIdx?_append]
  have none : front.findIdx? (· ∈ set) = none := by
    rw [List.findIdx?_eq_none_iff]
    intro character member
    simpa using absent character member
  rw [none, List.findIdx?_cons, if_pos (by simpa using present)]
  simp

/-- What a search has found splits the text that is left. -/
theorem split_of_findFirstOf (found : findFirstOf text set start = some position) :
    ∃ front separator rest, text.drop start = front ++ separator :: rest ∧
      (∀ character ∈ front, character ∉ set) ∧ separator ∈ set ∧
      position = start + front.length := by
  rw [findFirstOf, Option.map_eq_some_iff] at found
  obtain ⟨offset, within, rfl⟩ := found
  rw [List.findIdx?_eq_some_iff_getElem] at within
  obtain ⟨inside, here, earlier⟩ := within
  refine ⟨(text.drop start).take offset, (text.drop start)[offset], (text.drop start).drop
    (offset + 1), ?_, ?_, by simpa using here, ?_⟩
  · rw [← List.drop_eq_getElem_cons inside, List.take_append_drop]
  · intro character member
    obtain ⟨index, bound, rfl⟩ := List.mem_iff_getElem.mp member
    rw [List.length_take] at bound
    rw [List.getElem_take]
    simpa using earlier index (by omega)
  · rw [List.length_take, Nat.min_eq_left (Nat.le_of_lt inside)]

/-- The first character that is not of the set is found where it stands. -/
theorem findFirstNotOf_eq_some (left : text.drop start = front ++ separator :: rest)
    (present : ∀ character ∈ front, character ∈ set) (absent : separator ∉ set) :
    findFirstNotOf text set start = some (start + front.length) := by
  have none : front.findIdx? (· ∉ set) = none := by
    rw [List.findIdx?_eq_none_iff]
    intro character member
    simpa using present character member
  rw [findFirstNotOf, left, List.findIdx?_append, none, List.findIdx?_cons,
    if_pos (by simpa using absent)]
  simp

theorem findFirstNotOf_eq_none (present : ∀ character ∈ text.drop start, character ∈ set) :
    findFirstNotOf text set start = none := by
  rw [findFirstNotOf, Option.map_eq_none_iff, List.findIdx?_eq_none_iff]
  intro character member
  simpa using present character member

/-- The text from there on, or nothing, is what is left without its first characters of the set. -/
theorem substrFrom_findFirstNotOf (text set : List Character) (start : ℕ) :
    (match findFirstNotOf text set start with
      | some position => substrFrom text position
      | none => .ok []) = .ok ((text.drop start).dropWhile (· ∈ set)) := by
  have split := (List.takeWhile_append_dropWhile (p := (· ∈ set)) (l := text.drop start)).symm
  have inSet : ∀ character ∈ (text.drop start).takeWhile (· ∈ set), character ∈ set := by
    intro character member
    simpa using List.mem_takeWhile_imp member
  cases behind : (text.drop start).dropWhile (· ∈ set) with
  | nil =>
    rw [behind, List.append_nil] at split
    rw [findFirstNotOf_eq_none]
    rw [split]
    exact inSet
  | cons character rest =>
    rw [behind] at split
    have outside : character ∉ set := by
      have stopped := List.head?_dropWhile_not (· ∈ set) (text.drop start)
      rw [behind] at stopped
      simpa using stopped
    have length := length_of_drop split
    rw [findFirstNotOf_eq_some split inSet outside]
    exact substrFrom_of_drop (drop_of_drop split) (by omega)

theorem findChar_eq_none (absent : separator ∉ text.drop start) :
    findChar text separator start = none := by
  refine findFirstOf_eq_none fun character member same => absent ?_
  rw [← List.mem_singleton.mp same]
  exact member

theorem findChar_eq_some (left : text.drop start = front ++ separator :: rest)
    (absent : separator ∉ front) :
    findChar text separator start = some (start + front.length) := by
  refine findFirstOf_eq_some left (fun character member same => absent ?_) List.mem_cons_self
  rw [← List.mem_singleton.mp same]
  exact member

/-- A position that is found is not before the start, and in the text. -/
theorem findChar_bounds (found : findChar text separator start = some position) :
    start ≤ position ∧ position < text.length := by
  obtain ⟨front, character, rest, left, _, _, rfl⟩ := split_of_findFirstOf found
  have length := length_of_drop left
  omega

/-- A character that stands neither before nor at a position is found behind it. -/
theorem lt_of_findChar {other : Character} (left : text.drop start = front ++ separator :: rest)
    (absent : other ∉ front) (differs : other ≠ separator)
    (found : findChar text other start = some position) : start + front.length < position := by
  obtain ⟨earlier, character, behind, split, _, here, rfl⟩ := split_of_findFirstOf found
  obtain rfl := List.mem_singleton.mp here
  rw [left] at split
  rcases List.append_eq_append_iff.mp split with ⟨between, rfl, tail⟩ | ⟨between, rfl, tail⟩
  · cases between with
    | nil => exact absurd (List.cons.inj tail).1.symm differs
    | cons head more =>
      rw [List.length_append, List.length_cons]
      omega
  · cases between with
    | nil => exact absurd (List.cons.inj tail).1 differs
    | cons head more =>
      rw [(List.cons.inj tail).1] at absent
      exact absurd (List.mem_append_right _ List.mem_cons_self) absent

theorem rfindChar_eq_none (absent : separator ∉ text) : rfindChar text separator = none := by
  rw [rfindChar, Option.map_eq_none_iff, List.findIdx?_eq_none_iff]
  intro character member
  rw [decide_eq_false_iff_not]
  exact fun same => absent (same ▸ List.mem_reverse.mp member)

/-- The last of a character is found where it stands. -/
theorem rfindChar_eq_some (absent : separator ∉ rest) :
    rfindChar (front ++ separator :: rest) separator = some front.length := by
  have none : rest.reverse.findIdx? (· = separator) = none := by
    rw [List.findIdx?_eq_none_iff]
    intro character member
    rw [decide_eq_false_iff_not]
    exact fun same => absent (same ▸ List.mem_reverse.mp member)
  have reversed : (front ++ separator :: rest).reverse =
      rest.reverse ++ separator :: front.reverse := by
    rw [List.reverse_append, List.reverse_cons, List.append_assoc, List.singleton_append]
  rw [rfindChar, reversed, List.findIdx?_append, none, List.findIdx?_cons,
    if_pos (decide_eq_true rfl)]
  simp

theorem find_zero (text pattern : List Character) :
    find text pattern 0 = occurrence pattern text := by
  rw [find, if_pos (Nat.zero_le _), List.drop_zero]
  simp

/-- A pattern is found nowhere exactly when it does not stand in the text. -/
theorem occurrence_eq_none_iff (text : List Character) :
    occurrence pattern text = none ↔ ¬ pattern <:+: text := by
  induction text with
  | nil =>
    rw [occurrence, List.infix_nil]
    cases pattern <;> simp
  | cons character rest inductionHypothesis =>
    rw [occurrence, List.infix_cons_iff, ← List.isPrefixOf_iff_prefix, not_or,
      ← inductionHypothesis]
    split
    · simp [*]
    · simp [*]

/-- What a search has found splits the text, and the pattern stands nowhere earlier. -/
theorem split_of_occurrence (found : occurrence pattern text = some position) :
    ∃ front rest, text = front ++ pattern ++ rest ∧ front.length = position ∧
      ∀ other behind, text = other ++ pattern ++ behind → position ≤ other.length := by
  induction text generalizing position with
  | nil =>
    rw [occurrence] at found
    split at found
    · rename_i empty
      rw [List.isEmpty_iff.mp empty, ← Option.some.inj found]
      exact ⟨[], [], rfl, rfl, fun _ _ _ => Nat.zero_le _⟩
    · exact absurd found (by simp)
  | cons character more inductionHypothesis =>
    rw [occurrence] at found
    split at found
    · rename_i here
      obtain ⟨rest, same⟩ := List.isPrefixOf_iff_prefix.mp here
      rw [← Option.some.inj found]
      exact ⟨[], rest, same.symm, rfl, fun _ _ _ => Nat.zero_le _⟩
    · rename_i notHere
      obtain ⟨offset, further, rfl⟩ := Option.map_eq_some_iff.mp found
      obtain ⟨front, rest, rfl, rfl, earliest⟩ := inductionHypothesis further
      refine ⟨character :: front, rest, rfl, rfl, fun other behind same => ?_⟩
      cases other with
      | nil =>
        refine absurd (List.isPrefixOf_iff_prefix.mpr ?_) notHere
        rw [same, List.nil_append]
        exact List.prefix_append _ _
      | cons head tail =>
        exact Nat.succ_le_succ (earliest tail behind (List.cons.inj same).2)

/-- The position of the first occurrence. -/
theorem occurrence_eq_some (first : ∀ other behind, front ++ pattern ++ rest =
    other ++ pattern ++ behind → front.length ≤ other.length) :
    occurrence pattern (front ++ pattern ++ rest) = some front.length := by
  cases found : occurrence pattern (front ++ pattern ++ rest) with
  | none =>
    rw [occurrence_eq_none_iff] at found
    exact absurd ⟨front, rest, rfl⟩ found
  | some position =>
    obtain ⟨other, behind, split, rfl, earliest⟩ := split_of_occurrence found
    exact congrArg some (Nat.le_antisymm (earliest front rest rfl) (first other behind split))

/-- No part of the text that begins in it and goes to its end can be the beginning of the pattern,
or have the pattern as its beginning. -/
def Clear (pattern front : List Character) : Prop :=
  ∀ tail ∈ front.tails, tail ≠ [] → ¬ tail <+: pattern ∧ ¬ pattern <+: tail

instance (pattern front : List Character) : Decidable (Clear pattern front) :=
  inferInstanceAs (Decidable (∀ _ ∈ _, _))

/-- Behind such a text a pattern is found where it is found in the rest. -/
theorem occurrence_of_clear (clear : Clear pattern front) (rest : List Character) :
    occurrence pattern (front ++ rest) = (occurrence pattern rest).map (front.length + ·) := by
  induction front with
  | nil => simp
  | cons character more inductionHypothesis =>
    have further : Clear pattern more := fun tail member =>
      clear tail (List.mem_cons_of_mem _ member)
    have here := clear (character :: more) (by simp) (by simp)
    rw [List.cons_append, occurrence, if_neg, inductionHypothesis further, Option.map_map]
    · refine congrArg (Option.map · _) (funext fun offset => ?_)
      show more.length + offset + 1 = more.length + 1 + offset
      omega
    · intro starts
      have both := List.isPrefixOf_iff_prefix.mp starts
      rcases List.prefix_or_prefix_of_prefix both (List.prefix_append (character :: more) rest)
        with shorter | longer
      · exact here.2 shorter
      · exact here.1 longer

omit [DecidableEq Character] in
/-- A text without the first character of a pattern is clear of it. -/
theorem clear_of_not_mem {head : Character} {tail : List Character} (absent : head ∉ front) :
    Clear (head :: tail) front := by
  intro suffix member some
  obtain ⟨first, more, rfl⟩ := List.exists_cons_of_ne_nil some
  have inside : first ∈ front := ((List.mem_tails _ _).mp member).subset List.mem_cons_self
  have differs : first ≠ head := fun same => absent (same ▸ inside)
  refine ⟨fun starts => ?_, fun starts => ?_⟩
  · exact differs (List.cons_prefix_cons.mp starts).1
  · exact differs (List.cons_prefix_cons.mp starts).1.symm

theorem occurrence_append {head : Character} {tail : List Character} (absent : head ∉ front) :
    occurrence (head :: tail) (front ++ (head :: tail) ++ rest) = some front.length := by
  have here : occurrence (head :: tail) (head :: tail ++ rest) = some 0 := by
    rw [List.cons_append, occurrence, if_pos]
    rw [List.isPrefixOf_iff_prefix, ← List.cons_append]
    exact List.prefix_append _ _
  rw [List.append_assoc, occurrence_of_clear (clear_of_not_mem absent), here]
  rfl

/-- A pattern is not found when only its first character stands, at the end. -/
theorem occurrence_concat {head next : Character} {tail : List Character}
    (absent : head ∉ front) : occurrence (head :: next :: tail) (front ++ [head]) = none := by
  rw [occurrence_of_clear (clear_of_not_mem absent)]
  simp [occurrence]

/-! ### Separators -/

/-- The text before the first separator, or all of it. -/
def before (separator : Character) : List Character → List Character
  | [] => []
  | character :: rest =>
    if character = separator then [] else character :: before separator rest

/-- The text behind the first separator. -/
def after (separator : Character) : List Character → Option (List Character)
  | [] => none
  | character :: rest => if character = separator then some rest else after separator rest

theorem after_of_not_mem (absent : separator ∉ text) : after separator text = none := by
  induction text with
  | nil => rfl
  | cons character more inductionHypothesis =>
    rw [List.mem_cons, not_or] at absent
    rw [after, if_neg (Ne.symm absent.1)]
    exact inductionHypothesis absent.2

theorem before_append_cons (absent : separator ∉ front) :
    before separator (front ++ separator :: rest) = front := by
  induction front with
  | nil => exact if_pos rfl
  | cons character more inductionHypothesis =>
    rw [List.mem_cons, not_or] at absent
    rw [List.cons_append, before, if_neg (Ne.symm absent.1), inductionHypothesis absent.2]

theorem after_append_cons (absent : separator ∉ front) :
    after separator (front ++ separator :: rest) = some rest := by
  induction front with
  | nil => exact if_pos rfl
  | cons character more inductionHypothesis =>
    rw [List.mem_cons, not_or] at absent
    rw [List.cons_append, after, if_neg (Ne.symm absent.1)]
    exact inductionHypothesis absent.2

/-- A text is split at its first separator in one way. -/
theorem eq_of_append_cons {otherFront otherRest : List Character} (absent : separator ∉ front)
    (otherAbsent : separator ∉ otherFront)
    (same : front ++ separator :: rest = otherFront ++ separator :: otherRest) :
    front = otherFront ∧ rest = otherRest := by
  have fronts := congrArg (before separator) same
  have rests := congrArg (after separator) same
  rw [before_append_cons absent, before_append_cons otherAbsent] at fronts
  rw [after_append_cons absent, after_append_cons otherAbsent] at rests
  exact ⟨fronts, Option.some.inj rests⟩

/-- A text is split at its last separator in one way. -/
theorem eq_of_append_cons_last {otherFront otherRest : List Character} (absent : separator ∉ rest)
    (otherAbsent : separator ∉ otherRest)
    (same : front ++ separator :: rest = otherFront ++ separator :: otherRest) :
    front = otherFront ∧ rest = otherRest := by
  have lengths : rfindChar (front ++ separator :: rest) separator = some front.length :=
    rfindChar_eq_some absent
  rw [same, rfindChar_eq_some otherAbsent, Option.some.injEq] at lengths
  obtain ⟨fronts, rests⟩ := List.append_inj same lengths.symm
  exact ⟨fronts, (List.cons.inj rests).2⟩

omit [DecidableEq Character] in
/-- A text with the separator in it can be split at the last one. -/
theorem exists_append_cons_last (present : separator ∈ text) :
    ∃ front rest, text = front ++ separator :: rest ∧ separator ∉ rest := by
  obtain ⟨front, rest, reversed, absent⟩ :=
    List.eq_append_cons_of_mem (List.mem_reverse.mpr present)
  refine ⟨rest.reverse, front.reverse, ?_, fun member => absent (List.mem_reverse.mp member)⟩
  rw [← List.reverse_reverse text, reversed, List.reverse_append, List.reverse_cons,
    List.append_assoc, List.singleton_append]

/-- What stands behind a separator is shorter. -/
theorem length_after_lt (found : after separator text = some rest) :
    rest.length < text.length := by
  induction text with
  | nil => exact absurd found (by simp [after])
  | cons character more inductionHypothesis =>
    rw [after] at found
    split at found
    · rw [← Option.some.inj found]
      exact Nat.lt_succ_self _
    · exact Nat.lt_succ_of_lt (inductionHypothesis found)

end Kurlyk.Text
