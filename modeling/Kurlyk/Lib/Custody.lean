/-
This file is about items that are handed from place to place. At any time some
items are held, each at one place, and an item's status says which places fit
it. A step moves one item, takes one in, lets one go, or relabels a group of
items without touching their status.

The rules are stated on the list of all holdings up to permutation, so that a
program may keep its items in any number of containers: a proof about a step
only has to exhibit what the step moved.
-/

import Mathlib.Data.List.Nodup
import Mathlib.Data.List.Perm.Basic
import Kurlyk.Lib.Position

namespace Kurlyk

/-- Which places fit a status, which statuses have to be held somewhere, and which statuses
may occur at all. -/
structure Rules (Status Place : Type) where
  fits : Status → Place → Prop
  owed : Status → Prop
  sound : Status → Prop
  sound_of_fits : ∀ {status place}, fits status place → sound status

variable {Item Status Place : Type}

/-- Every item is held at most once, at a place that fits its status, and every item that has
to be held is. -/
structure Custody (rules : Rules Status Place) (holdings : List (Item × Place))
    (status : Item → Status) : Prop where
  once : (holdings.map Prod.fst).Nodup
  fits : ∀ item place, (item, place) ∈ holdings → rules.fits (status item) place
  held : ∀ item, rules.owed (status item) → item ∈ holdings.map Prod.fst
  sound : ∀ item, rules.sound (status item)

namespace Custody

variable {rules : Rules Status Place} {holdings others rest : List (Item × Place)}
  {status later : Item → Status} {item : Item} {source target : Place}

/-- Custody does not depend on where the holdings stand. -/
theorem perm (custody : Custody rules holdings status) (same : holdings.Perm others) :
    Custody rules others status where
  once := (same.map Prod.fst).nodup_iff.mp custody.once
  fits item place member := custody.fits item place (same.mem_iff.mpr member)
  held item owed := (same.map Prod.fst).mem_iff.mp (custody.held item owed)
  sound := custody.sound

/-- Custody only depends on the statuses. -/
theorem congr (custody : Custody rules holdings status)
    (same : ∀ item, later item = status item) : Custody rules holdings later := by
  have equal : later = status := funext same
  rw [equal]
  exact custody

/-- The status of an item at the head of the holdings fits its place. -/
theorem head (custody : Custody rules ((item, source) :: rest) status) :
    rules.fits (status item) source :=
  custody.fits item source List.mem_cons_self

theorem not_mem_rest (custody : Custody rules ((item, source) :: rest) status) :
    item ∉ rest.map Prod.fst :=
  (List.nodup_cons.mp custody.once).1

/-- The holdings behind the head concern other items. -/
theorem rest_ne (custody : Custody rules ((item, source) :: rest) status) {other : Item}
    {place : Place} (member : (other, place) ∈ rest) : other ≠ item := by
  rintro rfl
  exact custody.not_mem_rest (List.mem_map.mpr ⟨_, member, rfl⟩)

/-- One item moves to another place and may change its status. -/
theorem move (custody : Custody rules ((item, source) :: rest) status)
    (unchanged : ∀ other, other ≠ item → later other = status other)
    (fitting : rules.fits (later item) target) :
    Custody rules ((item, target) :: rest) later where
  once := custody.once
  fits other place member := by
    rcases List.mem_cons.mp member with same | behind
    · rw [Prod.mk.injEq] at same
      rw [same.1, same.2]
      exact fitting
    · rw [unchanged other (custody.rest_ne behind)]
      exact custody.fits other place (List.mem_cons_of_mem _ behind)
  held other owed := by
    by_cases same : other = item
    · rw [same]
      exact List.mem_cons_self
    · rw [unchanged other same] at owed
      exact custody.held other owed
  sound other := by
    by_cases same : other = item
    · rw [same]
      exact rules.sound_of_fits fitting
    · rw [unchanged other same]
      exact custody.sound other

/-- One item is let go. -/
theorem release (custody : Custody rules ((item, source) :: rest) status)
    (unchanged : ∀ other, other ≠ item → later other = status other)
    (free : ¬ rules.owed (later item)) (sound : rules.sound (later item)) :
    Custody rules rest later where
  once := (List.nodup_cons.mp custody.once).2
  fits other place member := by
    rw [unchanged other (custody.rest_ne member)]
    exact custody.fits other place (List.mem_cons_of_mem _ member)
  held other owed := by
    by_cases same : other = item
    · rw [same] at owed
      exact absurd owed free
    · rw [unchanged other same] at owed
      exact (List.mem_cons.mp (custody.held other owed)).resolve_left same
  sound other := by
    by_cases same : other = item
    · rw [same]
      exact sound
    · rw [unchanged other same]
      exact custody.sound other

/-- One item is taken in. -/
theorem take (custody : Custody rules holdings status) (target : Place)
    (absent : item ∉ holdings.map Prod.fst)
    (unchanged : ∀ other, other ≠ item → later other = status other)
    (fitting : rules.fits (later item) target) :
    Custody rules ((item, target) :: holdings) later where
  once := List.nodup_cons.mpr ⟨absent, custody.once⟩
  fits other place member := by
    rcases List.mem_cons.mp member with same | behind
    · rw [Prod.mk.injEq] at same
      rw [same.1, same.2]
      exact fitting
    · have different : other ≠ item := by
        rintro rfl
        exact absent (List.mem_map.mpr ⟨_, behind, rfl⟩)
      rw [unchanged other different]
      exact custody.fits other place behind
  held other owed := by
    by_cases same : other = item
    · rw [same]
      exact List.mem_cons_self
    · rw [unchanged other same] at owed
      exact List.mem_cons_of_mem _ (custody.held other owed)
  sound other := by
    by_cases same : other = item
    · rw [same]
      exact rules.sound_of_fits fitting
    · rw [unchanged other same]
      exact custody.sound other

/-- A group of items moves to one place that fits them all. -/
theorem relabel {moved : List (Item × Place)} (custody : Custody rules (moved ++ rest) status)
    (weaker : ∀ item source, (item, source) ∈ moved → rules.fits (status item) source →
      rules.fits (status item) target) :
    Custody rules (moved.map (fun entry => (entry.1, target)) ++ rest) status where
  once := by
    have once := custody.once
    rw [List.map_append] at once
    rw [List.map_append, List.map_map]
    exact once
  fits item place member := by
    rcases List.mem_append.mp member with relabelled | behind
    · obtain ⟨⟨other, source⟩, found, same⟩ := List.mem_map.mp relabelled
      rw [Prod.mk.injEq] at same
      rw [← same.1, ← same.2]
      exact weaker other source found
        (custody.fits other source (List.mem_append_left _ found))
    · exact custody.fits item place (List.mem_append_right _ behind)
  held item owed := by
    have held := custody.held item owed
    rw [List.map_append] at held
    rw [List.map_append, List.map_map]
    exact held
  sound := custody.sound

section Exchange

variable [BEq Item] [LawfulBEq Item] [BEq Place] [LawfulBEq Place]

/-- One item moves, whatever the containers it moves between: the holdings only have to be
the old ones with one entry exchanged. -/
theorem exchange (custody : Custody rules holdings status) (member : (item, source) ∈ holdings)
    (counts : ∀ entry, List.count entry others + mark entry (item, source) =
      List.count entry holdings + mark entry (item, target))
    (unchanged : ∀ other, other ≠ item → later other = status other)
    (fitting : rules.fits (status item) source → rules.fits (later item) target) :
    Custody rules others later := by
  have front : holdings.Perm ((item, source) :: holdings.erase (item, source)) :=
    List.perm_cons_erase member
  have moved := (custody.perm front).move unchanged (fitting (custody.fits item source member))
  refine moved.perm (List.perm_iff_count.mpr fun entry => ?_)
  have split : List.count entry holdings =
      mark entry (item, source) + List.count entry (holdings.erase (item, source)) := by
    rw [← count_cons_mark, front.count_eq]
  have exchanged := counts entry
  rw [count_cons_mark]
  omega

/-- One item is let go, whatever container it leaves. -/
theorem discharge (custody : Custody rules holdings status) (member : (item, source) ∈ holdings)
    (counts : ∀ entry, List.count entry others + mark entry (item, source) =
      List.count entry holdings)
    (unchanged : ∀ other, other ≠ item → later other = status other)
    (free : ¬ rules.owed (later item))
    (sound : rules.fits (status item) source → rules.sound (later item)) :
    Custody rules others later := by
  have front : holdings.Perm ((item, source) :: holdings.erase (item, source)) :=
    List.perm_cons_erase member
  have left := (custody.perm front).release unchanged free
    (sound (custody.fits item source member))
  refine left.perm (List.perm_iff_count.mpr fun entry => ?_)
  have split : List.count entry holdings =
      mark entry (item, source) + List.count entry (holdings.erase (item, source)) := by
    rw [← count_cons_mark, front.count_eq]
  have exchanged := counts entry
  omega

/-- A group of items moves, whatever the containers: `rest` is what the step leaves alone. -/
theorem regroup (custody : Custody rules holdings status) (moved rest : List (Item × Place))
    (target : Place)
    (before : ∀ entry, List.count entry holdings = List.count entry moved + List.count entry rest)
    (after : ∀ entry, List.count entry others =
      List.count entry (moved.map fun entry => (entry.1, target)) + List.count entry rest)
    (weaker : ∀ item source, (item, source) ∈ moved → rules.fits (status item) source →
      rules.fits (status item) target) :
    Custody rules others status := by
  have grouped : Custody rules (moved ++ rest) status := by
    refine custody.perm (List.perm_iff_count.mpr fun entry => ?_)
    rw [before entry, List.count_append]
  refine (grouped.relabel weaker).perm (List.perm_iff_count.mpr fun entry => ?_)
  rw [after entry, List.count_append]

end Exchange

/-- An item is held at one place only. -/
theorem unique (custody : Custody rules holdings status) {first second : Place}
    (one : (item, first) ∈ holdings) (two : (item, second) ∈ holdings) : first = second := by
  have inside := List.inj_on_of_nodup_map custody.once one two rfl
  exact (Prod.mk.inj inside).2

end Custody

end Kurlyk
