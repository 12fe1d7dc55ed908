/-
This file is about append-only logs. A statement about every entry of a log and
what stands before it is carried from one step to the next by one case split: an
entry of the longer log is the new one, with the whole old log before it, or an
entry of the old log with the same entries before it.

A fold over a log is an observer of it. Entries that it does not react to leave
what it has observed as it is.
-/

import Mathlib.Init

namespace Kurlyk.Log

variable {Entry : Type}

/-- An entry of an extended log is the last one or an entry of the old log. -/
theorem concat_eq_append_cons_iff {log before after : List Entry} {fresh entry : Entry} :
    log ++ [fresh] = before ++ entry :: after ↔
      (after = [] ∧ log = before ∧ fresh = entry) ∨
        ∃ earlier, after = earlier ++ [fresh] ∧ log = before ++ entry :: earlier := by
  constructor
  · intro equal
    rcases List.eq_nil_or_concat after with rfl | ⟨earlier, last, rfl⟩
    · left
      obtain ⟨sameLog, sameEntry⟩ := List.append_inj' equal rfl
      exact ⟨rfl, sameLog, List.singleton_inj.mp sameEntry⟩
    · right
      have equal' : log ++ [fresh] = (before ++ entry :: earlier) ++ [last] := by
        rw [equal]; simp
      obtain ⟨sameLog, sameEntry⟩ := List.append_inj' equal' rfl
      rw [List.singleton_inj] at sameEntry
      exact ⟨earlier, by rw [sameEntry, List.concat_eq_append], sameLog⟩
  · rintro (⟨rfl, rfl, rfl⟩ | ⟨earlier, rfl, rfl⟩)
    · rfl
    · simp

/-- An entry of an extended log is an entry of the old log, or a new one with the whole old log
before it. -/
theorem split_append {log fresh before after : List Entry} {entry : Entry}
    (equal : log ++ fresh = before ++ entry :: after) :
    (∃ earlier, log = before ++ entry :: earlier) ∨
      ∃ middle, before = log ++ middle ∧ entry ∈ fresh := by
  rcases List.append_eq_append_iff.mp equal with ⟨middle, split, later⟩ | ⟨middle, split, later⟩
  · exact Or.inr ⟨middle, split, later ▸ List.mem_append_right _ List.mem_cons_self⟩
  · cases middle with
    | nil =>
      rw [List.nil_append] at later
      rw [List.append_nil] at split
      exact Or.inr ⟨[], by rw [split, List.append_nil], later ▸ List.mem_cons_self⟩
    | cons head rest =>
      rw [List.cons_append, List.cons.injEq] at later
      exact Or.inl ⟨rest, later.1 ▸ split⟩

theorem split_of_not_mem {log fresh before after : List Entry} {entry : Entry}
    (absent : entry ∉ fresh) (equal : log ++ fresh = before ++ entry :: after) :
    ∃ earlier, log = before ++ entry :: earlier :=
  (split_append equal).resolve_right fun ⟨_, _, member⟩ => absent member

/-- A property of every entry and what stands before it survives a new entry that has it. -/
theorem forall_concat {log : List Entry} {fresh : Entry}
    {property : List Entry → Entry → Prop}
    (old : ∀ before entry after, log = before ++ entry :: after → property before entry)
    (new : property log fresh) :
    ∀ before entry after, log ++ [fresh] = before ++ entry :: after → property before entry := by
  intro before entry after equal
  rcases concat_eq_append_cons_iff.mp equal with ⟨_, rfl, rfl⟩ | ⟨earlier, _, split⟩
  · exact new
  · exact old before entry earlier split

/-- An observer does not see entries it does not react to. -/
theorem foldl_of_blind {Observed : Type} {observe : Observed → Entry → Observed}
    {fresh : List Entry} (blind : ∀ entry ∈ fresh, ∀ observed, observe observed entry = observed)
    (observed : Observed) : fresh.foldl observe observed = observed := by
  induction fresh with
  | nil => rfl
  | cons entry rest inductionHypothesis =>
    rw [List.foldl_cons, blind entry List.mem_cons_self]
    exact inductionHypothesis fun later member => blind later (List.mem_cons_of_mem _ member)

end Kurlyk.Log
