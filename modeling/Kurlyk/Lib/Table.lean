/-
This file adds to Mathlib's association lists what a hash table of a C++ program
needs: a sweep over all entries that may drop or rewrite each of them, and the
emptiness test. Both are characterised by `lookup` alone, so that no proof
depends on the order in which the entries are kept.

A table of lists holds the concatenation of its lists, and occurrences in it
are counted one key at a time.
-/

import Mathlib.Data.List.AList
import Kurlyk.Lib.Position

namespace Kurlyk

/-- A finite map with at most one value for each key. -/
abbrev Table (Key Value : Type) := AList fun _ : Key => Value

namespace Table

variable {Key Value : Type}

/-- What a sweep makes of one entry. -/
def visitEntry (visit : Key → Value → Option Value) (entry : Sigma fun _ : Key => Value) :
    Option (Sigma fun _ : Key => Value) :=
  (visit entry.1 entry.2).map fun value => ⟨entry.1, value⟩

/-- The keys of the entries a sweep keeps are keys of the swept entries, in order. -/
theorem keys_filterMap_sublist (visit : Key → Value → Option Value)
    (entries : List (Sigma fun _ : Key => Value)) :
    (entries.filterMap (visitEntry visit)).keys.Sublist entries.keys := by
  induction entries with
  | nil => simp
  | cons entry rest inductionHypothesis =>
    cases visited : visit entry.1 entry.2 with
    | none =>
      simp only [List.filterMap_cons, visitEntry, visited, Option.map_none, List.keys_cons]
      exact inductionHypothesis.cons _
    | some value =>
      simp only [List.filterMap_cons, visitEntry, visited, Option.map_some, List.keys_cons]
      exact inductionHypothesis.cons_cons _

/-- One pass over all entries: `visit` rewrites an entry or, answering `none`, erases it. -/
def sweep (table : Table Key Value) (visit : Key → Value → Option Value) : Table Key Value where
  entries := table.entries.filterMap (visitEntry visit)
  nodupKeys := (keys_filterMap_sublist visit table.entries).nodup table.nodupKeys

/-- The table holds no entry. -/
def isEmpty (table : Table Key Value) : Bool :=
  table.entries.isEmpty

/-- The concatenated lists of a table of lists. -/
def contents (table : Table Key (List Value)) : List Value :=
  table.entries.flatMap Sigma.snd

@[simp]
theorem isEmpty_empty : isEmpty (∅ : Table Key Value) = true := rfl

variable [DecidableEq Key]

theorem dlookup_filterMap (visit : Key → Value → Option Value) (key : Key)
    (entries : List (Sigma fun _ : Key => Value)) (nodup : entries.NodupKeys) :
    (entries.filterMap (visitEntry visit)).dlookup key =
      (entries.dlookup key).bind (visit key) := by
  induction entries with
  | nil => rfl
  | cons entry rest inductionHypothesis =>
    obtain ⟨entryKey, value⟩ := entry
    obtain ⟨fresh, restNodup⟩ := List.nodupKeys_cons.mp nodup
    by_cases same : key = entryKey
    · subst same
      rw [List.dlookup_cons_eq]
      cases visited : visit key value with
      | none =>
        have absent : key ∉ (rest.filterMap (visitEntry visit)).keys :=
          fun member => fresh ((keys_filterMap_sublist visit rest).subset member)
        simp only [List.filterMap_cons, visitEntry, visited, Option.map_none, Option.bind_some]
        exact List.dlookup_eq_none.mpr absent
      | some kept =>
        simp only [List.filterMap_cons, visitEntry, visited, Option.map_some, Option.bind_some]
        exact List.dlookup_cons_eq _ _ _
    · rw [List.dlookup_cons_ne _ _ same, ← inductionHypothesis restNodup]
      cases visited : visit entryKey value with
      | none => simp only [List.filterMap_cons, visitEntry, visited, Option.map_none]
      | some kept =>
        simp only [List.filterMap_cons, visitEntry, visited, Option.map_some]
        exact List.dlookup_cons_ne _ _ same

/-- A sweep acts on each key separately. -/
@[simp]
theorem lookup_sweep (table : Table Key Value) (visit : Key → Value → Option Value) (key : Key) :
    (table.sweep visit).lookup key = (table.lookup key).bind (visit key) :=
  dlookup_filterMap visit key table.entries table.nodupKeys

theorem isEmpty_iff (table : Table Key Value) :
    table.isEmpty = true ↔ ∀ key, table.lookup key = none := by
  constructor
  · intro empty key
    have noEntries : table.entries = [] := List.isEmpty_iff.mp empty
    rw [AList.lookup, noEntries, List.dlookup_nil]
  · intro absent
    cases entries : table.entries with
    | nil => rw [isEmpty, entries, List.isEmpty_nil]
    | cons entry rest =>
      have present : table.lookup entry.1 = some entry.2 := by
        rw [AList.lookup, entries, List.dlookup_cons_eq]
      rw [absent] at present
      exact absurd present (by simp)

/-- Reading one key after writing another, in one equation. -/
theorem lookup_insert_eq (table : Table Key Value) (written read : Key) (value : Value) :
    (table.insert written value).lookup read =
      if read = written then some value else table.lookup read := by
  by_cases same : read = written
  · rw [if_pos same, same, AList.lookup_insert]
  · rw [if_neg same, AList.lookup_insert_ne same]

/-- Reading one key after erasing another, in one equation. -/
theorem lookup_erase_eq (table : Table Key Value) (erased read : Key) :
    (table.erase erased).lookup read = if read = erased then none else table.lookup read := by
  by_cases same : read = erased
  · rw [if_pos same, same, AList.lookup_erase]
  · rw [if_neg same, AList.lookup_erase_ne same]

/-! ### Tables of lists -/

/-- A value of a table of lists is in the list of one key. -/
theorem mem_contents_iff {table : Table Key (List Value)} {value : Value} :
    value ∈ table.contents ↔ ∃ key values, table.lookup key = some values ∧ value ∈ values := by
  rw [contents, List.mem_flatMap]
  constructor
  · rintro ⟨⟨key, values⟩, present, member⟩
    exact ⟨key, values, AList.mem_lookup_iff.mpr present, member⟩
  · rintro ⟨key, values, found, member⟩
    exact ⟨⟨key, values⟩, AList.mem_lookup_iff.mp found, member⟩

section Contents

variable {Item : Type} [BEq Item] (label : Value → List Item) (item : Item)

/-- The occurrences in the concatenation of all lists. -/
theorem count_kerase (key : Key) (entries : List (Sigma fun _ : Key => List Value)) :
    List.count item (((entries.kerase key).flatMap Sigma.snd).flatMap label) +
        List.count item (((entries.dlookup key).getD []).flatMap label) =
      List.count item ((entries.flatMap Sigma.snd).flatMap label) := by
  induction entries with
  | nil => rfl
  | cons entry rest inductionHypothesis =>
    obtain ⟨entryKey, values⟩ := entry
    by_cases same : key = entryKey
    · subst same
      have erased : List.kerase key (⟨key, values⟩ :: rest) = rest := List.kerase_cons_eq rfl
      rw [erased, List.dlookup_cons_eq, Option.getD_some, List.flatMap_cons,
        List.flatMap_append, List.count_append, Nat.add_comm]
    · rw [List.kerase_cons_ne same, List.dlookup_cons_ne _ _ same, List.flatMap_cons,
        List.flatMap_cons, List.flatMap_append, List.flatMap_append, List.count_append,
        List.count_append]
      omega

/-- Erasing a key takes away its list. -/
theorem count_contents_erase (table : Table Key (List Value)) (key : Key) :
    List.count item ((contents (table.erase key)).flatMap label) +
        List.count item (((table.lookup key).getD []).flatMap label) =
      List.count item (table.contents.flatMap label) :=
  count_kerase label item key table.entries

/-- Writing a key exchanges its list. -/
theorem count_contents_insert (table : Table Key (List Value)) (key : Key)
    (values : List Value) :
    List.count item ((contents (table.insert key values)).flatMap label) +
        List.count item (((table.lookup key).getD []).flatMap label) =
      List.count item (table.contents.flatMap label) + List.count item (values.flatMap label) := by
  have erased := count_contents_erase label item table key
  have inserted : contents (table.insert key values) =
      values ++ contents (table.erase key) := by
    rw [contents, AList.entries_insert, List.flatMap_cons]
    rfl
  rw [inserted, List.flatMap_append, List.count_append]
  omega

omit [DecidableEq Key] in
/-- Two sweeps that share the entries out by a test share the contents out. -/
theorem count_contents_sweep (table : Table Key (List Value)) (test : Key → Prop)
    [DecidablePred test] :
    List.count item ((contents (table.sweep fun key values =>
        if test key then some values else none)).flatMap label) +
      List.count item ((contents (table.sweep fun key values =>
        if test key then none else some values)).flatMap label) =
      List.count item (table.contents.flatMap label) := by
  unfold contents sweep
  dsimp only
  induction table.entries with
  | nil => rfl
  | cons entry rest inductionHypothesis =>
    by_cases chosen : test entry.1
    · simp only [List.filterMap_cons, visitEntry, chosen, if_true, Option.map_some,
        Option.map_none, List.flatMap_cons, List.flatMap_append, List.count_append]
      omega
    · simp only [List.filterMap_cons, visitEntry, chosen, if_false, Option.map_some,
        Option.map_none, List.flatMap_cons, List.flatMap_append, List.count_append]
      omega

end Contents

end Table

end Kurlyk
