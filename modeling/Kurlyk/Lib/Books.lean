/-
This file keeps the books of items that a program takes in and has to hand out
again. Each event of an append-only log takes some items in and hands some out;
the items in between are kept somewhere. The books balance when every item was
taken in as often as it is kept or was handed out, and the number of an item
that is taken in was never used before.

The balance is an equation between occurrences, so that a program may keep its
items in any number of places, and a step only has to show what it moved.
-/

import Kurlyk.Lib.Position

namespace Kurlyk

variable {Event Item : Type} [BEq Item]

/-- The books of a log: `opened` and `closed` are the items an event takes in and hands out,
`kept` the items that are kept now, and `used` the items whose number was given out. -/
structure Books (opened closed : Event → List Item) (log : List Event) (kept : List Item)
    (used : Item → Prop) : Prop where
  balanced : ∀ item, List.count item kept + List.count item (log.flatMap closed) =
    List.count item (log.flatMap opened)
  once : ∀ item, List.count item (log.flatMap opened) ≤ 1
  fresh : ∀ item, ¬ used item → List.count item (log.flatMap opened) = 0

namespace Books

variable {opened closed : Event → List Item} {log events : List Event} {kept left : List Item}
  {used later : Item → Prop} {item : Item}

/-- More numbers may be given out at any time. -/
theorem grow (books : Books opened closed log kept used) (grows : ∀ item, used item → later item) :
    Books opened closed log kept later where
  balanced := books.balanced
  once := books.once
  fresh item unused := books.fresh item fun old => unused (grows item old)

/-- A step that takes nothing in. -/
theorem move (books : Books opened closed log kept used) (events : List Event)
    (silent : events.flatMap opened = [])
    (balance : ∀ item, List.count item left + List.count item (events.flatMap closed) =
      List.count item kept)
    (grows : ∀ item, used item → later item) :
    Books opened closed (log ++ events) left later where
  balanced item := by
    rw [List.flatMap_append, List.flatMap_append, silent, List.append_nil, List.count_append]
    have before := books.balanced item
    have moved := balance item
    omega
  once item := by
    rw [List.flatMap_append, silent, List.append_nil]
    exact books.once item
  fresh item unused := by
    rw [List.flatMap_append, silent, List.append_nil]
    exact books.fresh item fun old => unused (grows item old)

/-- Only what was taken in is handed out, and at most once. -/
theorem closed_le (books : Books opened closed log kept used) (item : Item) :
    List.count item (log.flatMap closed) ≤ List.count item (log.flatMap opened) := by
  have balanced := books.balanced item
  omega

variable [LawfulBEq Item]

/-- A step that takes in one item with an unused number. -/
theorem take (books : Books opened closed log kept used) (events : List Event)
    (unused : ¬ used item) (opens : events.flatMap opened = [item])
    (closes : events.flatMap closed = [])
    (balance : ∀ other, List.count other left = List.count other kept + mark other item)
    (grows : ∀ other, used other → later other) (marks : later item) :
    Books opened closed (log ++ events) left later where
  balanced other := by
    rw [List.flatMap_append, List.flatMap_append, opens, closes, List.append_nil, List.count_append,
      count_cons_mark, List.count_nil, balance other]
    have before := books.balanced other
    omega
  once other := by
    rw [List.flatMap_append, opens, List.count_append, count_cons_mark, List.count_nil]
    have before := books.once other
    by_cases same : item = other
    · subst same
      have none := books.fresh item unused
      have one := mark_self item
      omega
    · have none := mark_of_ne same
      omega
  fresh other never := by
    have different : item ≠ other := fun same => never (same ▸ marks)
    rw [List.flatMap_append, opens, List.count_append, count_cons_mark, List.count_nil,
      mark_of_ne different, books.fresh other fun old => never (grows other old)]

/-- An item that was taken in and is kept nowhere was handed out once. -/
theorem closed_once (books : Books opened closed log kept used)
    (taken : item ∈ log.flatMap opened) (gone : item ∉ kept) :
    List.count item (log.flatMap closed) = 1 := by
  have balanced := books.balanced item
  have once := books.once item
  have positive := List.count_pos_iff.mpr taken
  have absent : List.count item kept = 0 := List.count_eq_zero.mpr gone
  omega

/-- A kept item was taken in, and not handed out. -/
theorem of_kept (books : Books opened closed log kept used) (member : item ∈ kept) :
    item ∈ log.flatMap opened ∧ item ∉ log.flatMap closed := by
  have balanced := books.balanced item
  have once := books.once item
  have positive := List.count_pos_iff.mpr member
  constructor
  · exact List.count_pos_iff.mp (by omega)
  · intro out
    have handed := List.count_pos_iff.mpr out
    omega

/-- An item was given out before it was taken in. -/
theorem used_of_mem (books : Books opened closed log kept used)
    (taken : item ∈ log.flatMap opened) : used item := by
  by_contra unused
  have none := books.fresh item unused
  have positive := List.count_pos_iff.mpr taken
  omega

end Books

end Kurlyk
