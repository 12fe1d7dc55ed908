/-
This file is about the lifetime of limits. A limit is marked removed, or erased,
only by the destructor of its last handle, so every identifier of which some copy
of the handle is alive keeps its entry.

`Supports limiter held` says so for a limiter and the identifiers held outside
it. The predicate is preserved by every call, given what the call does to the
held identifiers; both the limiter on its own and the request manager that
embeds it rely on these lemmas.
-/

import Kurlyk.RateLimiter.Spec

namespace Kurlyk.RateLimiter

/-- Every identifier that is owned by the limiter or held outside has its entry. -/
structure Supports (limiter : HttpRateLimiter) (held : LimitId → Prop) : Prop where
  positive : 0 < limiter.nextId
  bounded : ∀ id header, headerAt limiter id = some header → id < limiter.nextId
  owned : ∀ id ∈ limiter.ownedHandles, ∃ params, Registered limiter id params
  live : ∀ id, held id → ∃ params, Registered limiter id params

/-- The limits a call names are among the given identifiers. -/
def RequestCall.handles (call : RequestCall) : List LimitId :=
  call.generalLimit.toList ++ call.specificLimit.toList

theorem RequestCall.Names.mem_handles {call : RequestCall} {id : LimitId} {key : String}
    (named : call.Names id key) : id ∈ call.handles := by
  rcases named with ⟨given, _⟩ | ⟨given, _⟩
  · simp [RequestCall.handles, given]
  · simp [RequestCall.handles, given]

/-! ### The last handle -/

theorem headerAt_removeLimitInternal_ne (limiter : HttpRateLimiter) {id other : LimitId}
    (different : other ≠ id) :
    headerAt (removeLimitInternal limiter id) other = headerAt limiter other := by
  unfold removeLimitInternal
  split
  · rfl
  · split
    · simp only [headerAt, Table.lookup_erase_eq, if_neg different]
    · simp only [headerAt, Table.lookup_insert_eq, if_neg different]

/-- The destructor of the last handle touches no key: it erases a limit only without keys. -/
theorem keyAt_removeLimitInternal (limiter : HttpRateLimiter) (id other : LimitId)
    (key : String) : keyAt (removeLimitInternal limiter id) other key = keyAt limiter other key := by
  unfold removeLimitInternal
  split
  · rfl
  · rename_i limit found
    by_cases same : other = id
    · subst same
      split
      · rename_i empty
        rw [keyAt_of_lookup found, (Table.isEmpty_iff _).mp empty key]
        simp only [keyAt, AList.lookup_erase, Option.bind_none]
      · rw [keyAt_insert, if_pos rfl, keyAt_of_lookup found]
    · split
      · simp only [keyAt, Table.lookup_erase_eq, if_neg same]
      · rw [keyAt_insert, if_neg same]

/-- The destructor of the last handle only loses headers or marks them removed. -/
theorem headerAt_removeLimitInternal (limiter : HttpRateLimiter) (id other : LimitId)
    (params : LimitParams) (mark : Bool)
    (kept : headerAt (removeLimitInternal limiter id) other = some (params, mark)) :
    ∃ old, headerAt limiter other = some (params, old) ∧ (mark = false → old = false) := by
  by_cases same : other = id
  · subst same
    unfold removeLimitInternal at kept
    split at kept
    · exact ⟨mark, kept, fun unmarked => unmarked⟩
    · rename_i limit found
      split at kept
      · simp [headerAt] at kept
      · simp only [headerAt, AList.lookup_insert, Option.map_some, Option.some.injEq,
          Prod.mk.injEq] at kept
        refine ⟨limit.removed, ?_, fun unmarked => absurd (kept.2.trans unmarked) (by simp)⟩
        simp only [headerAt, found, Option.map_some, ← kept.1]
  · rw [headerAt_removeLimitInternal_ne limiter same] at kept
    exact ⟨mark, kept, fun unmarked => unmarked⟩

theorem removeLimitInternal_nextId (limiter : HttpRateLimiter) (id : LimitId) :
    (removeLimitInternal limiter id).nextId = limiter.nextId := by
  unfold removeLimitInternal
  split
  · rfl
  · split <;> rfl

theorem removeLimitInternal_owned (limiter : HttpRateLimiter) (id : LimitId) :
    (removeLimitInternal limiter id).ownedHandles = limiter.ownedHandles := by
  unfold removeLimitInternal
  split
  · rfl
  · split <;> rfl

section DropHandle

variable (limiter : HttpRateLimiter) (remaining : List LimitId) (id : LimitId)

theorem dropHandle_nextId : (dropHandle limiter remaining id).nextId = limiter.nextId := by
  unfold dropHandle
  split
  · rfl
  · exact removeLimitInternal_nextId _ _

theorem keyAt_dropHandle (other : LimitId) (key : String) :
    keyAt (dropHandle limiter remaining id) other key = keyAt limiter other key := by
  unfold dropHandle
  split
  · rfl
  · exact keyAt_removeLimitInternal _ _ _ _

theorem headerAt_dropHandle (other : LimitId) (params : LimitParams) (mark : Bool)
    (kept : headerAt (dropHandle limiter remaining id) other = some (params, mark)) :
    ∃ old, headerAt limiter other = some (params, old) ∧ (mark = false → old = false) := by
  unfold dropHandle at kept
  split at kept
  · exact ⟨mark, kept, fun unmarked => unmarked⟩
  · exact headerAt_removeLimitInternal _ _ _ _ _ kept

theorem removeLimit_limits : (removeLimit limiter id).2.limits = limiter.limits := by
  unfold removeLimit
  split <;> rfl

theorem removeLimit_nextId : (removeLimit limiter id).2.nextId = limiter.nextId := by
  unfold removeLimit
  split <;> rfl

end DropHandle

/-! ### A new limit -/

theorem headerAt_createLimitHandle (limiter : HttpRateLimiter) (requestsPerPeriod periodMs : ℤ)
    (sequential : Bool) (other : LimitId) :
    headerAt (createLimitHandle limiter requestsPerPeriod periodMs sequential).2 other =
      if other = limiter.nextId then some (⟨requestsPerPeriod, periodMs, sequential⟩, false)
      else headerAt limiter other := by
  simp only [createLimitHandle, headerAt, Table.lookup_insert_eq]
  by_cases same : other = limiter.nextId
  · rw [if_pos same, if_pos same, Option.map_some]
  · rw [if_neg same, if_neg same]

/-! ### The calls of a request keep the bookkeeping of identifiers -/

/-- Two limiters that number and own the same handles. -/
def SameBookkeeping (limiter other : HttpRateLimiter) : Prop :=
  other.nextId = limiter.nextId ∧ other.ownedHandles = limiter.ownedHandles

theorem SameBookkeeping.trans {first second third : HttpRateLimiter}
    (left : SameBookkeeping first second) (right : SameBookkeeping second third) :
    SameBookkeeping first third :=
  ⟨right.1.trans left.1, right.2.trans left.2⟩

theorem commitCoordinate_bookkeeping (limiter : HttpRateLimiter) (id : LimitId) (key : String)
    (token : Token) (now : TimePoint) :
    SameBookkeeping limiter (commitCoordinate limiter id key token now) := by
  unfold commitCoordinate
  split
  · exact ⟨rfl, rfl⟩
  · split <;> exact ⟨rfl, rfl⟩

theorem releaseCoordinate_bookkeeping (limiter : HttpRateLimiter) (id : LimitId) (key : String)
    (token : Token) : SameBookkeeping limiter (releaseCoordinate limiter id key token) := by
  unfold releaseCoordinate
  split
  · exact ⟨rfl, rfl⟩
  · split <;> exact ⟨rfl, rfl⟩

theorem countAllowed_bookkeeping (limiter : HttpRateLimiter) (now : TimePoint) :
    SameBookkeeping limiter (countAllowed limiter now) := by
  unfold countAllowed
  dsimp only
  split <;> exact ⟨rfl, rfl⟩

theorem allow_bookkeeping (call : RequestCall) (limiter : HttpRateLimiter) (now : TimePoint) :
    SameBookkeeping limiter (call.allow limiter now).2 := by
  unfold RequestCall.allow allowRequest commitRequest
  dsimp only
  split
  · exact ⟨rfl, rfl⟩
  · split
    · refine SameBookkeeping.trans ?_ (countAllowed_bookkeeping _ now)
      split
      · exact commitCoordinate_bookkeeping _ _ _ _ _
      · exact (commitCoordinate_bookkeeping _ _ _ _ _).trans
          (commitCoordinate_bookkeeping _ _ _ _ _)
    · exact ⟨rfl, rfl⟩

theorem release_bookkeeping (call : RequestCall) (limiter : HttpRateLimiter) :
    SameBookkeeping limiter (call.release limiter) := by
  unfold RequestCall.release releaseRequest
  dsimp only
  split
  · exact ⟨rfl, rfl⟩
  · split
    · exact releaseCoordinate_bookkeeping _ _ _ _
    · exact (releaseCoordinate_bookkeeping _ _ _ _).trans (releaseCoordinate_bookkeeping _ _ _ _)

namespace Supports

variable {limiter : HttpRateLimiter} {held : LimitId → Prop}

/-- The identifier of the next limit is unused. -/
theorem headerAt_nextId (supports : Supports limiter held) :
    headerAt limiter limiter.nextId = none := by
  cases header : headerAt limiter limiter.nextId with
  | none => rfl
  | some found => exact absurd (supports.bounded _ found header) (Nat.lt_irrefl _)

theorem keyAt_of_headerAt_none {id : LimitId} (absent : headerAt limiter id = none)
    (key : String) : keyAt limiter id key = none := by
  rw [headerAt, Option.map_eq_none_iff] at absent
  rw [keyAt, absent, Option.bind_none]

/-- A new limit starts without keys, and no other coordinate changes. -/
theorem keyAt_createLimitHandle (supports : Supports limiter held)
    (requestsPerPeriod periodMs : ℤ) (sequential : Bool) (other : LimitId) (key : String) :
    keyAt (createLimitHandle limiter requestsPerPeriod periodMs sequential).2 other key =
      keyAt limiter other key := by
  simp only [createLimitHandle]
  by_cases same : other = limiter.nextId
  · rw [same, keyAt_of_headerAt_none supports.headerAt_nextId]
    simp only [keyAt, AList.lookup_insert, Option.bind_some, AList.lookup_empty]
  · simp only [keyAt, Table.lookup_insert_eq, if_neg same]

theorem create (supports : Supports limiter held) (requestsPerPeriod periodMs : ℤ)
    (sequential : Bool) :
    Supports (createLimitHandle limiter requestsPerPeriod periodMs sequential).2
      (fun id => id = limiter.nextId ∨ held id) := by
  have fresh : Registered (createLimitHandle limiter requestsPerPeriod periodMs sequential).2
      limiter.nextId ⟨requestsPerPeriod, periodMs, sequential⟩ :=
    ⟨supports.positive.ne', by rw [headerAt_createLimitHandle, if_pos rfl]⟩
  have kept : ∀ id params, Registered limiter id params →
      Registered (createLimitHandle limiter requestsPerPeriod periodMs sequential).2 id params := by
    intro id params registered
    refine ⟨registered.1, ?_⟩
    rw [headerAt_createLimitHandle, if_neg, registered.2]
    exact (supports.bounded id _ registered.2).ne
  refine ⟨Nat.succ_pos _, ?_, ?_, ?_⟩
  · intro id header found
    rw [headerAt_createLimitHandle] at found
    split at found
    · rename_i same
      exact same ▸ Nat.lt_succ_self _
    · exact Nat.lt_succ_of_lt (supports.bounded id header found)
  · intro id member
    rcases List.mem_cons.mp member with rfl | member
    · exact ⟨_, fresh⟩
    · obtain ⟨params, registered⟩ := supports.owned id member
      exact ⟨params, kept id params registered⟩
  · rintro id (rfl | member)
    · exact ⟨_, fresh⟩
    · obtain ⟨params, registered⟩ := supports.live id member
      exact ⟨params, kept id params registered⟩

/-- What is held later may be copied from what is held or owned now. -/
theorem mono {later : LimitId → Prop} (supports : Supports limiter held)
    (from_ : ∀ id, later id → held id ∨ id ∈ limiter.ownedHandles) : Supports limiter later := by
  refine ⟨supports.positive, supports.bounded, supports.owned, fun id member => ?_⟩
  rcases from_ id member with old | owned
  · exact supports.live id old
  · exact supports.owned id owned

theorem removeLimit (supports : Supports limiter held) (id : LimitId) :
    Supports (removeLimit limiter id).2
      (fun other => held other ∨ ((removeLimit limiter id).1 = true ∧ other = id)) := by
  unfold RateLimiter.removeLimit
  split
  · rename_i found
    refine ⟨supports.positive, supports.bounded, ?_, ?_⟩
    · intro other member
      exact supports.owned other (List.mem_of_mem_erase member)
    · rintro other (old | ⟨_, rfl⟩)
      · exact supports.live other old
      · exact supports.owned other found
  · exact supports.mono fun other member => Or.inl (member.resolve_right (by simp))

/-- Destroying a copy of a handle keeps every limit of which a copy remains. -/
theorem drop (supports : Supports limiter held) {remaining : List LimitId} (id : LimitId)
    (still : ∀ other ∈ remaining, held other) :
    Supports (dropHandle limiter remaining id) (· ∈ remaining) := by
  unfold dropHandle
  split
  · exact supports.mono fun other member => Or.inl (still other member)
  · rename_i last
    rw [not_or] at last
    have kept : ∀ other params, other ≠ id → Registered limiter other params →
        Registered (removeLimitInternal limiter id) other params := by
      intro other params different registered
      exact ⟨registered.1, by rw [headerAt_removeLimitInternal_ne _ different]; exact registered.2⟩
    refine ⟨by rw [removeLimitInternal_nextId]; exact supports.positive, ?_, ?_, ?_⟩
    · intro other header found
      obtain ⟨old, before, _⟩ := headerAt_removeLimitInternal _ _ _ header.1 header.2 found
      rw [removeLimitInternal_nextId]
      exact supports.bounded other _ before
    · intro other member
      rw [removeLimitInternal_owned] at member
      obtain ⟨params, registered⟩ := supports.owned other member
      exact ⟨params, kept other params (fun same => last.1 (same ▸ member)) registered⟩
    · intro other member
      obtain ⟨params, registered⟩ := supports.live other (still other member)
      exact ⟨params, kept other params (fun same => last.2 (same ▸ member)) registered⟩

/-- The handles of a call that are held support the call. -/
theorem call_held (supports : Supports limiter held) {call : RequestCall}
    (holds : ∀ id ∈ call.handles, held id) : call.Held limiter :=
  fun id _ named => supports.live id (holds id named.mem_handles)

theorem allow (supports : Supports limiter held) {call : RequestCall}
    (callHeld : call.Held limiter) (now : TimePoint) :
    Supports (call.allow limiter now).2 held := by
  obtain ⟨sameNext, sameOwned⟩ := allow_bookkeeping call limiter now
  refine ⟨by rw [sameNext]; exact supports.positive, ?_, ?_, ?_⟩
  · intro id header found
    rw [sameNext]
    exact supports.bounded id header (headerAt_allow callHeld id header found)
  · intro id member
    rw [sameOwned] at member
    obtain ⟨params, registered⟩ := supports.owned id member
    exact ⟨params, registered.allow callHeld now⟩
  · intro id member
    obtain ⟨params, registered⟩ := supports.live id member
    exact ⟨params, registered.allow callHeld now⟩

theorem release (supports : Supports limiter held) (call : RequestCall) :
    Supports (call.release limiter) held := by
  obtain ⟨sameNext, sameOwned⟩ := release_bookkeeping call limiter
  have kept : ∀ id params, Registered limiter id params →
      Registered (call.release limiter) id params :=
    fun id params registered => ⟨registered.1, by rw [headerAt_release]; exact registered.2⟩
  refine ⟨by rw [sameNext]; exact supports.positive, ?_, ?_, ?_⟩
  · intro id header found
    rw [headerAt_release] at found
    rw [sameNext]
    exact supports.bounded id header found
  · intro id member
    rw [sameOwned] at member
    obtain ⟨params, registered⟩ := supports.owned id member
    exact ⟨params, kept id params registered⟩
  · intro id member
    obtain ⟨params, registered⟩ := supports.live id member
    exact ⟨params, kept id params registered⟩

end Supports

end Kurlyk.RateLimiter
