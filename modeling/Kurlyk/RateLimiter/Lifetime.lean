/-
This file follows a limit to its end. `Kurlyk.RateLimiter.Handles` shows that an
entry stays while a copy of its handle is alive; here the converse is added. An
entry without the `removed` mark has a handle somewhere, so the entry of a limit
whose last handle is gone carries the mark, and a collection that finds none of
its keys in use erases it.
-/

import Kurlyk.RateLimiter.Throttle

namespace Kurlyk.RateLimiter

/-- Somebody holds a handle of the limit: the registry of the limiter, or one of its users. -/
def LimiterWorld.Live (world : LimiterWorld) (id : LimitId) : Prop :=
  id ∈ world.limiter.ownedHandles ∨ id ∈ world.copies

instance (world : LimiterWorld) (id : LimitId) : Decidable (world.Live id) :=
  inferInstanceAs (Decidable (_ ∨ _))

/-- Every entry that is not marked removed has a live handle. -/
def Attended (world : LimiterWorld) : Prop :=
  ∀ id params, headerAt world.limiter id = some (params, false) → world.Live id

/-! ### The last handle -/

/-- The destructor of the last handle leaves no unmarked entry. -/
theorem headerAt_removeLimitInternal_self (limiter : HttpRateLimiter) (id : LimitId)
    (params : LimitParams) :
    headerAt (removeLimitInternal limiter id) id ≠ some (params, false) := by
  intro kept
  unfold removeLimitInternal at kept
  split at kept
  · rename_i absent
    simp [headerAt, absent] at kept
  · split at kept
    · simp [headerAt] at kept
    · simp [headerAt] at kept

theorem Attended.drop {world : LimiterWorld} (attended : Attended world) (id : LimitId) :
    Attended (world.dropHandle id) := by
  intro other params found
  change headerAt (dropHandle world.limiter (world.copies.erase id) id) other = _ at found
  have owned : (world.dropHandle id).limiter.ownedHandles = world.limiter.ownedHandles := by
    change (dropHandle world.limiter (world.copies.erase id) id).ownedHandles = _
    unfold dropHandle
    split
    · rfl
    · exact removeLimitInternal_owned _ _
  rw [LimiterWorld.Live, owned]
  by_cases same : other = id
  · subst same
    unfold dropHandle at found
    split at found
    · assumption
    · exact absurd found (headerAt_removeLimitInternal_self _ _ _)
  · obtain ⟨old, before, unmarked⟩ := headerAt_dropHandle _ _ _ _ _ _ found
    obtain rfl := unmarked rfl
    rcases attended other params before with registry | user
    · exact Or.inl registry
    · exact Or.inr ((List.mem_erase_of_ne same).mpr user)

/-- `remove_limit` hands the copy of the registry over to the calling thread. -/
theorem live_removeLimit (world : LimiterWorld) (id other : LimitId) (live : world.Live other) :
    (world.removeLimit id).Live other := by
  unfold LimiterWorld.Live LimiterWorld.removeLimit removeLimit
  by_cases found : id ∈ world.limiter.ownedHandles
  · simp only [if_pos found, if_true]
    rcases live with registry | user
    · by_cases same : other = id
      · exact Or.inr (List.mem_cons.mpr (Or.inl same))
      · exact Or.inl ((List.mem_erase_of_ne same).mpr registry)
    · exact Or.inr (List.mem_cons_of_mem _ user)
  · simp only [if_neg found]
    exact live

/-- In every reachable world the unmarked entries are those of live handles. -/
theorem limiter_attended {world : LimiterWorld} (reachable : limiterSystem.Reachable world) :
    Attended world := by
  refine reachable.induction Attended ?_ ?_
  · intro id params found
    simp [headerAt, limiterSystem] at found
  · intro before action after reached attended stepped
    have supports := limiter_supports reached
    cases limiterStep_of_step stepped with
    | create params =>
      intro id other found
      change headerAt (createLimitHandle before.limiter params.requestsPerPeriod params.periodMs
        params.sequential).2 id = _ at found
      rw [headerAt_createLimitHandle] at found
      split at found
      · rename_i fresh
        exact Or.inr (List.mem_cons.mpr (Or.inl fresh))
      · rcases attended id other found with registry | user
        · exact Or.inl (List.mem_cons_of_mem _ registry)
        · exact Or.inr (List.mem_cons_of_mem _ user)
    | copy id available =>
      intro other params found
      exact (attended other params found).imp (fun registry => registry) (List.mem_cons_of_mem _)
    | drop id held => exact attended.drop id
    | remove id =>
      intro other params found
      refine live_removeLimit before id other (attended other params ?_)
      simpa only [LimiterWorld.removeLimit, headerAt, removeLimit_limits] using found
    | allow call now holds later =>
      intro id params found
      have before := attended id params (headerAt_allow (supports.call_held holds) id _ found)
      rw [LimiterWorld.Live] at before ⊢
      exact before.imp (fun registry => (allow_bookkeeping call _ now).2.symm ▸ registry)
        fun user => user
    | release call holds =>
      intro id params found
      change headerAt (call.release _) id = _ at found
      rw [headerAt_release] at found
      exact (attended id params found).imp
        (fun registry => (release_bookkeeping call _).2.symm ▸ registry) fun user => user
    | idle => exact attended

/-! ### The collection that ends a limit -/

/-- A period that has passed in nanoseconds has passed in milliseconds. -/
theorem le_elapsedMs_of_passed {now startTime : TimePoint} {periodMs : ℤ}
    (passed : (startTime : ℤ) + periodMs * nanosPerMilli ≤ now) :
    periodMs ≤ elapsedMs now startTime := by
  have whole : (periodMs * nanosPerMilli).tdiv nanosPerMilli = periodMs :=
    Int.mul_tdiv_cancel _ (by decide)
  rw [elapsedMs]
  conv_lhs => rw [← whole]
  exact Int.tdiv_le_tdiv (by decide) (by omega)

/-- A marked entry none of whose keys is in use does not survive a collection. -/
theorem lookup_gcStaleKeys_of_idle {limiter : HttpRateLimiter} {id : LimitId} {limit : LimitData}
    {now : TimePoint} (found : limiter.limits.lookup id = some limit)
    (marked : limit.removed = true)
    (idle : ∀ key state, limit.keys.lookup key = some state → state.inFlightTokens = ∅)
    (passed : ∀ key state, limit.keys.lookup key = some state →
      limit.periodMs ≤ elapsedMs now state.startTime) :
    (gcStaleKeys limiter now).limits.lookup id = none := by
  have swept : (gcLimit limit now).keys.isEmpty = true := by
    rw [Table.isEmpty_iff]
    intro key
    rw [gcLimit, Table.lookup_sweep]
    cases present : limit.keys.lookup key with
    | none => rfl
    | some state =>
      have stale : isStale limit.toLimitParams state now = true := by
        simp [isStale, idle key state present, passed key state present]
      simp [collectKey, stale]
  have mark : (gcLimit limit now).removed = true := marked
  rw [lookup_gcStaleKeys, found, Option.bind_some, mark, swept]
  rfl

/-- Over every run of a limiter: the entry of a limit with a live handle is present, unmarked,
with the parameters it was created with, and every request that holds the handle passes its
check when it is allowed; and when no handle is left and no key holds a token, a collection at
least one period after every key's window began erases the entry. -/
theorem limit_lives_with_handle {world : LimiterWorld}
    (reachable : limiterSystem.Reachable world) (id : LimitId) :
    (world.Live id → ∃ limit, world.limiter.limits.lookup id = some limit ∧
      limit.removed = false ∧ .created id limit.toLimitParams ∈ world.history ∧
      (∀ params, .created id params ∈ world.history → params = limit.toLimitParams) ∧
      ∀ call key now, world.Holds call → call.Names id key →
        (call.allow world.limiter now).1 = true → canPass limit key call.token now = true) ∧
    (¬ world.Live id → ∀ limit, world.limiter.limits.lookup id = some limit →
      (∀ key state, limit.keys.lookup key = some state → state.inFlightTokens = ∅) →
      ∀ now : TimePoint, (∀ key state, limit.keys.lookup key = some state →
        (state.startTime : ℤ) + limit.periodMs * nanosPerMilli ≤ now) →
        (gcStaleKeys world.limiter now).limits.lookup id = none) := by
  have supports := limiter_supports reachable
  have accounts := limiter_accounts reachable
  refine ⟨fun live => ?_, fun dead limit found idle now passed => ?_⟩
  · obtain ⟨params, registered⟩ : ∃ params, Registered world.limiter id params :=
      live.elim (supports.owned id) (supports.live id)
    have created := accounts.present id params false registered.2
    obtain ⟨limit, _, found, rfl, unmarked⟩ := registered.exists_limit
    refine ⟨limit, found, unmarked, created, fun other again =>
      accounts.createdOnce id other _ again created, ?_⟩
    intro call key now holds named allowed
    have passes := (allow_fst_iff (supports.call_held holds) now).mp allowed id key _ named
      registered
    rwa [keyAt_of_lookup found] at passes
  · have marked : limit.removed = true := by
      cases mark : limit.removed with
      | true => rfl
      | false =>
        refine absurd (limiter_attended reachable id limit.toLimitParams ?_) dead
        rw [headerAt, found, Option.map_some, mark]
    exact lookup_gcStaleKeys_of_idle found marked idle fun key state present =>
      le_elapsedMs_of_passed (passed key state present)

/-- A sequential limit of one request in ten milliseconds is removed while a request is in
flight on it: the user's copy keeps the entry until the request has been released. -/
def removedInFlight : List LimiterAction :=
  [.createLimitHandle 1 10 true,
    .allowRequest ⟨some 1, none, 1, "key", ""⟩ 50000000,
    .removeLimit 1, .dropHandle 1]

/-- The request is released and the last copy is destroyed. -/
def lastHandleGone : List LimiterAction :=
  removedInFlight ++ [.releaseRequest ⟨some 1, none, 1, "key", ""⟩, .dropHandle 1]

/-- The limit is present, and none of its keys is in use at the instant. -/
def idleAt (now : TimePoint) (limiter : HttpRateLimiter) (id : LimitId) : Bool :=
  match limiter.limits.lookup id with
  | none => false
  | some limit => limit.keys.entries.all fun entry =>
      decide (entry.2.inFlightTokens = ∅) &&
        decide ((entry.2.startTime : ℤ) + limit.periodMs * nanosPerMilli ≤ now)

theorem exists_of_idleAt {now : TimePoint} {limiter : HttpRateLimiter} {id : LimitId}
    (idle : idleAt now limiter id = true) :
    ∃ limit, limiter.limits.lookup id = some limit ∧
      ∀ key state, limit.keys.lookup key = some state → state.inFlightTokens = ∅ ∧
        (state.startTime : ℤ) + limit.periodMs * nanosPerMilli ≤ now := by
  unfold idleAt at idle
  split at idle
  · exact absurd idle (by simp)
  · rename_i limit found
    refine ⟨limit, found, fun key state present => ?_⟩
    have entry := List.all_eq_true.mp idle ⟨key, state⟩ (AList.mem_lookup_iff.mp present)
    simpa using entry

theorem limit_lives_with_handle_removed :
    (∃ world, limiterSystem.Runs limiterSystem.init removedInFlight world ∧
      1 ∉ world.limiter.ownedHandles ∧ ∃ limit, world.limiter.limits.lookup 1 = some limit ∧
      limit.removed = false ∧ .created 1 limit.toLimitParams ∈ world.history) ∧
    ∃ world limit, limiterSystem.Runs limiterSystem.init lastHandleGone world ∧
      ¬ world.Live 1 ∧ world.limiter.limits.lookup 1 = some limit ∧
      (gcStaleKeys world.limiter 60000000).limits.lookup 1 = none := by
  constructor
  · have evaluated : (limiterSystem.run limiterSystem.init removedInFlight).any (fun world =>
        decide (1 ∉ world.limiter.ownedHandles ∧ world.Live 1)) = true := by decide
    obtain ⟨world, runs, checked⟩ := System.exists_runs evaluated
    rw [decide_eq_true_eq] at checked
    obtain ⟨limit, found, unmarked, created, _⟩ :=
      (limit_lives_with_handle ⟨_, runs⟩ 1).1 checked.2
    exact ⟨world, runs, checked.1, limit, found, unmarked, created⟩
  · have evaluated : (limiterSystem.run limiterSystem.init lastHandleGone).any (fun world =>
        decide (¬ world.Live 1) && idleAt 60000000 world.limiter 1) = true := by decide
    obtain ⟨world, runs, checked⟩ := System.exists_runs evaluated
    rw [Bool.and_eq_true, decide_eq_true_eq] at checked
    obtain ⟨limit, found, idle⟩ := exists_of_idleAt checked.2
    exact ⟨world, limit, runs, checked.1, found,
      (limit_lives_with_handle ⟨_, runs⟩ 1).2 checked.1 limit found
        (fun key state present => (idle key state present).1) 60000000
        fun key state present => (idle key state present).2⟩

end Kurlyk.RateLimiter
