/-
This file says what stands in the way of a call of `allow_request`, whatever its
token: a token in flight on a sequential coordinate of the call, or a window that
is used up. A refused call has something in its way, and whatever is in its way
refuses every call with the same limits and keys that has no token there.

An obstruction goes away when the period of the window ends or the token is
released. Other calls leave it where it is: a call that is allowed passes all its
coordinates, and a collection takes neither a token nor a window that has not
ended.
-/

import Kurlyk.RateLimiter.Tokens

namespace Kurlyk.RateLimiter

variable {limiter next : HttpRateLimiter} {call other : RequestCall} {now : TimePoint}
  {id : LimitId} {key : String} {params : LimitParams}

/-- The coordinate has a token in flight, if its limit is sequential, or its window is used
up. -/
def obstructs (limiter : HttpRateLimiter) (now : TimePoint) (id : LimitId) (key : String) : Bool :=
  (headerAt limiter id).any fun header => !header.2 && (keyAt limiter id key).any fun state =>
    (header.1.sequential && decide (state.inFlightTokens ≠ ∅)) || !checkKey header.1 state now

/-- One of the coordinates of the call is obstructed. -/
def RequestCall.obstructed (call : RequestCall) (limiter : HttpRateLimiter) (now : TimePoint) :
    Bool :=
  call.generalLimit.any (obstructs limiter now · call.generalKey) ||
    call.specificLimit.any (obstructs limiter now · call.specificKey)

theorem obstructs_iff : obstructs limiter now id key = true ↔
    ∃ params state, headerAt limiter id = some (params, false) ∧
      keyAt limiter id key = some state ∧
      ((params.sequential = true ∧ state.inFlightTokens ≠ ∅) ∨
        checkKey params state now = false) := by
  rw [obstructs, Option.any_eq_true]
  constructor
  · rintro ⟨⟨params, mark⟩, header, both⟩
    obtain ⟨unmarked, inside⟩ := Bool.and_eq_true_iff.mp both
    obtain ⟨state, found, either⟩ := (Option.any_eq_true _ _).mp inside
    obtain rfl : mark = false := by simpa using unmarked
    exact ⟨params, state, header, found, by simpa using either⟩
  · rintro ⟨params, state, header, found, either⟩
    refine ⟨(params, false), header, Bool.and_eq_true_iff.mpr ⟨rfl, ?_⟩⟩
    exact (Option.any_eq_true _ _).mpr ⟨state, found, by simpa using either⟩

theorem obstructed_iff : call.obstructed limiter now = true ↔
    ∃ id key, call.Names id key ∧ obstructs limiter now id key = true := by
  rw [RequestCall.obstructed, Bool.or_eq_true, Option.any_eq_true, Option.any_eq_true]
  constructor
  · rintro (⟨id, given, blocked⟩ | ⟨id, given, blocked⟩)
    · exact ⟨id, _, Or.inl ⟨given, rfl⟩, blocked⟩
    · exact ⟨id, _, Or.inr ⟨given, rfl⟩, blocked⟩
  · rintro ⟨id, key, ⟨given, rfl⟩ | ⟨given, rfl⟩, blocked⟩
    · exact Or.inl ⟨id, given, blocked⟩
    · exact Or.inr ⟨id, given, blocked⟩

/-! ### Obstruction and refusal -/

theorem obstructed_of_refused (held : call.Held limiter)
    (refused : (call.allow limiter now).1 = false) : call.obstructed limiter now = true := by
  obtain ⟨id, key, params, state, named, registered, found, either⟩ := exists_refusing held refused
  refine obstructed_iff.mpr ⟨id, key, named, obstructs_iff.mpr ⟨params, state, registered.2, found,
    either.imp_left fun taken => ?_⟩⟩
  simp only [heldByOther, Bool.and_eq_true, decide_eq_true_eq] at taken
  exact ⟨taken.1.1.1, taken.1.2⟩

/-- The call has a token, which is on none of its coordinates. -/
theorem refused_of_obstructed (held : call.Held limiter)
    (obstructed : call.obstructed limiter now = true) (nonzero : call.token ≠ 0)
    (absent : ∀ id key, call.token ∉ tokensAt limiter id key) :
    (call.allow limiter now).1 = false := by
  obtain ⟨id, key, named, blocked⟩ := obstructed_iff.mp obstructed
  obtain ⟨params, state, header, found, either⟩ := obstructs_iff.mp blocked
  obtain ⟨again, registered⟩ := held id key named
  obtain rfl : again = params := by
    have equal := registered.2.symm.trans header
    simpa using equal
  rw [Bool.eq_false_iff]
  intro allowed
  have passes := (allow_fst_iff held now).mp allowed id key again named registered
  rw [found, canPassKey] at passes
  have foreign := absent id key
  rw [tokensAt_of_keyAt found] at foreign
  rcases either with ⟨sequential, taken⟩ | full
  · have other : heldByOther again state call.token = true := by
      simp [heldByOther, sequential, nonzero, taken, foreign]
    rw [if_pos other] at passes
    exact absurd passes (by simp)
  · rw [full, ite_self] at passes
    exact absurd passes (by simp)

/-! ### Windows that have counted -/

/-- The state of a limit that counts has counted a request. -/
def Counted (limiter : HttpRateLimiter) : Prop :=
  ∀ id key params mark state, headerAt limiter id = some (params, mark) →
    keyAt limiter id key = some state → params.requestsPerPeriod ≠ 0 → state.count ≠ 0

theorem commitKey_count (counts : params.requestsPerPeriod ≠ 0) (found : Option KeyState)
    (token : Token) (now : TimePoint) : (commitKey params found token now).count ≠ 0 := by
  unfold commitKey updateKey
  rw [if_neg counts]
  split
  · exact Nat.one_ne_zero
  · exact Nat.succ_ne_zero _

theorem Counted.allow (counted : Counted limiter) (held : call.Held limiter) (now : TimePoint) :
    Counted (call.allow limiter now).2 := by
  intro id key params mark state header found counts
  have before := headerAt_allow held id _ header
  cases answer : (call.allow limiter now).1 with
  | false =>
    rw [allow_snd_of_refused answer] at found
    exact counted id key params mark state before found counts
  | true =>
    obtain ⟨collects, spec⟩ := keyAt_allow held answer
    rw [spec id key params mark before, settled] at found
    obtain ⟨settling, committed, kept⟩ := Option.bind_eq_some_iff.mp found
    obtain rfl : settling = state := by
      cases collects with
      | false => exact Option.some.inj kept
      | true =>
        rw [if_pos rfl, collectKey] at kept
        split at kept
        · exact absurd kept (by simp)
        · exact Option.some.inj kept
    split at committed
    · obtain rfl := Option.some.inj committed
      exact commitKey_count counts _ _ _
    · exact counted id key params mark settling before committed counts

theorem Counted.release (counted : Counted limiter) (held : call.Held limiter) :
    Counted (call.release limiter) := by
  intro id key params mark state header found counts
  rw [headerAt_release] at header
  rw [keyAt_release held header] at found
  split at found
  · obtain ⟨old, before, dropped⟩ := Option.bind_eq_some_iff.mp found
    have uncounted := counted id key params mark old header before counts
    unfold dropToken at dropped
    dsimp only at dropped
    split at dropped
    · exact absurd dropped (by simp)
    · rw [← Option.some.inj dropped]
      exact uncounted
  · exact counted id key params mark state header found counts

theorem Counted.retires {live : LimitId → Prop} (counted : Counted limiter)
    (supports : Supports limiter live) (retires : Retires limiter next) : Counted next := by
  intro id key params mark state header found counts
  rw [retires.keys] at found
  rcases retires.headers id params mark header with ⟨old, before, _⟩ | fresh
  · exact counted id key params old state before found counts
  · cases before : headerAt limiter id with
    | none =>
      rw [Supports.keyAt_of_headerAt_none before] at found
      exact absurd found (by simp)
    | some known => exact absurd (supports.bounded id known before) (Nat.not_lt_of_le fresh)

/-! ### What keeps an obstruction -/

/-- A collection spares a window that is used up. -/
theorem collectKey_of_full {state : KeyState} (full : checkKey params state now = false)
    (counted : params.requestsPerPeriod ≠ 0 → state.count ≠ 0) :
    collectKey params now state = some state := by
  unfold checkKey at full
  rw [collectKey, if_neg]
  split at full
  · exact absurd full (by simp)
  · rename_i counts
    split at full
    · exact absurd full (by simp)
    · rename_i unexpired
      simp [isStale, counted counts, unexpired]

/-- A call, allowed or not, leaves every obstruction where it is. -/
theorem obstructs_allow (counted : Counted limiter) (held : call.Held limiter)
    (blocked : obstructs limiter now id key = true) (nonzero : id ≠ 0) :
    obstructs (call.allow limiter now).2 now id key = true := by
  cases answer : (call.allow limiter now).1 with
  | false =>
    rw [allow_snd_of_refused answer]
    exact blocked
  | true =>
    obtain ⟨params, state, header, found, either⟩ := obstructs_iff.mp blocked
    have registered : Registered limiter id params := ⟨nonzero, header⟩
    have after := (registered.allow held now).2
    rcases either with ⟨sequential, taken⟩ | full
    · -- The token keeps the state from being collected.
      have kept := tokensAt_subset_allow held now id key
      rw [tokensAt_of_keyAt found] at kept
      have still : tokensAt (call.allow limiter now).2 id key ≠ ∅ := fun empty =>
        taken (Finset.subset_empty.mp (empty ▸ kept))
      cases foundAfter : keyAt (call.allow limiter now).2 id key with
      | none =>
        rw [tokensAt, foundAfter] at still
        exact absurd rfl still
      | some stateAfter =>
        rw [tokensAt_of_keyAt foundAfter] at still
        exact obstructs_iff.mpr ⟨params, stateAfter, after, foundAfter,
          Or.inl ⟨sequential, still⟩⟩
    · -- An allowed call does not name the coordinate.
      have unnamed : ¬ call.Names id key := by
        intro named
        have passes := (allow_fst_iff held now).mp answer id key params named registered
        rw [found, canPassKey] at passes
        rw [full, ite_self] at passes
        exact absurd passes (by simp)
      obtain ⟨collects, spec⟩ := keyAt_allow held answer
      have same : keyAt (call.allow limiter now).2 id key = some state := by
        rw [spec id key params false header, settled, if_neg unnamed, found, Option.bind_some]
        cases collects with
        | false => rfl
        | true => exact collectKey_of_full full (counted id key params false state header found)
      exact obstructs_iff.mpr ⟨params, state, after, same, Or.inr full⟩

theorem obstructed_allow (counted : Counted limiter) (held : call.Held limiter)
    (otherHeld : other.Held limiter) (obstructed : call.obstructed limiter now = true) :
    call.obstructed (other.allow limiter now).2 now = true := by
  obtain ⟨id, key, named, blocked⟩ := obstructed_iff.mp obstructed
  obtain ⟨params, registered⟩ := held id key named
  exact obstructed_iff.mpr
    ⟨id, key, named, obstructs_allow counted otherHeld blocked registered.1⟩

/-- What happens to other limits leaves the obstructions of a call whose handles are held. -/
theorem obstructed_retires {live : LimitId → Prop} (supports : Supports limiter live)
    (retires : Retires limiter next) (held : call.Held next)
    (obstructed : call.obstructed limiter now = true) : call.obstructed next now = true := by
  obtain ⟨id, key, named, blocked⟩ := obstructed_iff.mp obstructed
  obtain ⟨params, state, header, found, either⟩ := obstructs_iff.mp blocked
  obtain ⟨again, registered⟩ := held id key named
  have same : again = params := by
    rcases retires.headers id again false registered.2 with ⟨old, before, _⟩ | fresh
    · have equal := before.symm.trans header
      rw [Option.some.injEq, Prod.mk.injEq] at equal
      exact equal.1
    · exact absurd (supports.bounded id _ header) (Nat.not_lt_of_le fresh)
  refine obstructed_iff.mpr ⟨id, key, named, obstructs_iff.mpr ⟨params, state, ?_, ?_, either⟩⟩
  · rw [← same]
    exact registered.2
  · rw [retires.keys]
    exact found

end Kurlyk.RateLimiter
