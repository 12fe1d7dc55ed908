/-
This file models `time_until_next_allowed`, which tells a caller how long to wait
before `allow_request` would let it pass, and compares the two.

The query converts the elapsed time and the period to the caller's duration type
and subtracts; the decision counts milliseconds. The conversion truncates both. A
truncated elapsed time only makes the answer later, but a truncated period makes
the query ready before the decision is. A duration type that cannot hold every time
the clock can show stores a long elapsed time modulo, and the query waits again.

The two agree when every time short of the period counts fewer ticks than the period
does, and every longer time the clock can show counts no fewer. For a tick of whole
nanoseconds this means that the period is a whole number of ticks and that all times
of the clock fit.
-/

import Kurlyk.Lib.Duration
import Kurlyk.RateLimiter.FirstWindow
import Kurlyk.RateLimiter.Tokens

namespace Kurlyk.RateLimiter

/-! ### The query -/

/-- The tick of `std::chrono::milliseconds`, in seconds. -/
def milli : ℚ := 1 / 1000

/-- The tick of `steady_clock`, in seconds. -/
def nano : ℚ := 1 / 1000000000

/-- `RateLimitDelay`, its duration in ticks. -/
structure RateLimitDelay where
  duration : ℤ
  sequentialBlocked : Bool
deriving DecidableEq

/-- `time_until_key_allows`. -/
def timeUntilKeyAllows (duration : DurationType) (limit : LimitParams) (state : KeyState)
    (now : TimePoint) : ℤ :=
  if limit.sequential && decide (state.inFlightTokens ≠ ∅) then duration.rep.max
  else if limit.requestsPerPeriod = 0 then 0
  else
    let elapsed := duration.durationCast nano ((now : ℤ) - (state.startTime : ℤ))
    let periodDuration := duration.durationCast milli limit.periodMs
    if elapsed ≥ periodDuration ∨ (state.count : ℤ) < limit.requestsPerPeriod then 0
    else duration.rep.wrap (periodDuration - elapsed)

/-- `time_until_limit_allows` on the state found for the key. Without a state every branch
returns zero. -/
def timeUntilFoundAllows (duration : DurationType) (limit : LimitParams)
    (found : Option KeyState) (now : TimePoint) : ℤ :=
  match found with
  | none => 0
  | some state => timeUntilKeyAllows duration limit state now

/-- `time_until_limit_allows`. -/
def timeUntilLimitAllows (duration : DurationType) (limit : LimitData) (key : String)
    (now : TimePoint) : ℤ :=
  timeUntilFoundAllows duration limit.toLimitParams (limit.keys.lookup key) now

/-- What one coordinate of `time_until_next_allowed` adds to the result. -/
def addDelay (duration : DurationType) (result : RateLimitDelay) (limit : Option LimitData)
    (key : String) (now : TimePoint) : RateLimitDelay :=
  match limit with
  | none => result
  | some data =>
    let delay := timeUntilLimitAllows duration data key now
    { duration := max result.duration delay
      sequentialBlocked := result.sequentialBlocked || decide (delay = duration.rep.max) }

/-- `time_until_next_allowed`. -/
def timeUntilNextAllowed (duration : DurationType) (limiter : HttpRateLimiter)
    (generalLimit specificLimit : HttpRateLimitHandlePtr) (generalKey specificKey : String)
    (now : TimePoint) : RateLimitDelay :=
  let general := addDelay duration ⟨0, false⟩ (findLimit limiter (handleId generalLimit))
    generalKey now
  addDelay duration general (findLimit limiter (handleId specificLimit)) specificKey now

/-- The query with the handles and keys of a call. -/
def RequestCall.delay (call : RequestCall) (duration : DurationType) (limiter : HttpRateLimiter)
    (now : TimePoint) : RateLimitDelay :=
  timeUntilNextAllowed duration limiter call.generalLimit call.specificLimit call.generalKey
    call.specificKey now

/-! ### When the query agrees with the decision -/

/-- The instant is the given number of ticks after the other, or later. -/
def Passed (duration : DurationType) (wait : ℤ) (now later : TimePoint) : Prop :=
  now ≤ later ∧ (wait : ℚ) * duration.tick ≤ ((later - now : ℕ) : ℚ) * nano

/-- The latest instant that the count of `steady_clock` can show. -/
def clockMax : ℕ := 9223372036854775807

/-- What the query computes from a key has a defined result: no signed arithmetic overflows, neither
on the way of the elapsed time to its ticks nor in the subtraction. -/
def KeyDefined (duration : DurationType) (params : LimitParams) (state : KeyState)
    (now : TimePoint) : Prop :=
  ¬ (params.sequential = true ∧ state.inFlightTokens ≠ ∅) → params.requestsPerPeriod ≠ 0 →
    duration.Defined nano ((now : ℤ) - (state.startTime : ℤ)) ∧
      (duration.durationCast nano ((now : ℤ) - (state.startTime : ℤ)) <
          duration.durationCast milli params.periodMs →
        params.requestsPerPeriod ≤ (state.count : ℤ) →
        duration.rep.Contains (duration.durationCast milli params.periodMs -
          duration.durationCast nano ((now : ℤ) - (state.startTime : ℤ))))

/-- The query agrees with the decision: it is zero exactly when the call would be allowed, a
positive finite wait is long enough, and the flag says whether a token is in the way. -/
structure Agrees (duration : DurationType) (limiter : HttpRateLimiter) (call : RequestCall)
    (now : TimePoint) : Prop where
  defined : ∀ id key params state, call.Names id key → Registered limiter id params →
    keyAt limiter id key = some state → KeyDefined duration params state now
  ready : (call.delay duration limiter now).duration = 0 ↔ (call.allow limiter now).1 = true
  waiting : 0 < (call.delay duration limiter now).duration →
    (call.delay duration limiter now).duration < duration.rep.max →
    ∀ later ≤ clockMax, Passed duration (call.delay duration limiter now).duration now later →
      (call.allow limiter later).1 = true
  blocked : (call.delay duration limiter now).sequentialBlocked = true ↔
    ∃ id key params, call.Names id key ∧ Registered limiter id params ∧
      params.sequential = true ∧ tokensAt limiter id key ≠ ∅

/-- The duration type tells the times past the period from those short of it, and the period is not
mistaken for the mark of a blocked key. Where the period is over at once, a limit of several
requests never asks. -/
def Distinguishes (duration : DurationType) (params : LimitParams) : Prop :=
  params.requestsPerPeriod = 0 ∨
    ((∀ elapsed : ℕ, elapsed ≤ clockMax → duration.Defined nano elapsed) ∧
      ((params.periodMs ≤ 0 ∧ 1 < params.requestsPerPeriod) ∨
        (duration.durationCast milli params.periodMs < duration.rep.max ∧
          ∀ elapsed : ℕ, elapsed ≤ clockMax →
            (elapsed < params.period → duration.ticks (elapsed * nano) <
              duration.durationCast milli params.periodMs) ∧
            (params.period ≤ elapsed → duration.durationCast milli params.periodMs ≤
              duration.durationCast nano elapsed))))

theorem nano_pos : 0 < nano := by norm_num [nano]

theorem milli_pos : 0 < milli := by norm_num [milli]

/-! ### Ticks of whole nanoseconds -/

theorem ticks_whole {duration : DurationType} {tickNanos : ℕ}
    (whole : duration.tick = tickNanos * nano) (nanos : ℕ) :
    duration.ticks (nanos * nano) = (nanos / tickNanos : ℕ) := by
  rw [DurationType.ticks, whole, mul_div_mul_right _ _ nano_pos.ne', Rat.floor_natCast_div_natCast]
  exact Int.natCast_ediv _ _

theorem factor_whole {duration : DurationType} {tickNanos : ℕ}
    (whole : duration.tick = tickNanos * nano) :
    duration.factor nano = (tickNanos : ℚ)⁻¹ := by
  rw [DurationType.factor, whole, div_mul_cancel_right₀ nano_pos.ne']

theorem tickNanos_pos {duration : DurationType} {tickNanos : ℕ}
    (whole : duration.tick = tickNanos * nano) : 0 < tickNanos := by
  refine Nat.pos_of_ne_zero fun zero => duration.tick_pos.ne' ?_
  rw [whole, zero, Nat.cast_zero, zero_mul]

/-- Whole nanoseconds are divided, not multiplied, so that every time of the clock is converted
exactly. -/
theorem converted_whole {duration : DurationType} {tickNanos elapsed : ℕ}
    (whole : duration.tick = tickNanos * nano) (shown : elapsed ≤ clockMax) :
    duration.common.Contains ((elapsed : ℤ) * (duration.factor nano).num) ∧
      duration.converted nano elapsed = duration.ticks (elapsed * nano) := by
  have fits : duration.common.Contains ((elapsed : ℤ) * (duration.factor nano).num) := by
    rw [factor_whole whole, Rat.inv_natCast_num_of_pos (tickNanos_pos whole), mul_one]
    refine IntegerRep.contains_of_nonneg (Int.natCast_nonneg _)
      (le_trans (Int.ofNat_le.mpr shown) ?_)
    unfold DurationType.common
    split
    · rename_i word
      rw [IntegerRep.max, word.1, word.2]
      decide
    · decide
  exact ⟨fits, DurationType.converted_eq_ticks fits nano_pos (Int.natCast_nonneg _)⟩

theorem period_seconds {params : LimitParams} (lasting : 0 < params.periodMs) :
    (params.periodMs : ℚ) * milli = params.period * nano := by
  have same : (params.periodMs : ℚ) = (params.periodMs.toNat : ℚ) := by
    exact_mod_cast (Int.toNat_of_nonneg lasting.le).symm
  rw [same, LimitParams.period, nanosPerMilli, milli, nano]
  push_cast
  ring

theorem durationCast_period {duration : DurationType} {params : LimitParams}
    (converts : duration.Converts milli params.periodMs) (lasting : 0 < params.periodMs) :
    duration.durationCast milli params.periodMs = duration.ticks (params.period * nano) := by
  rw [DurationType.durationCast_eq_ticks converts milli_pos lasting.le, period_seconds lasting]

/-- A duration type whose tick is a whole number of nanoseconds distinguishes the periods that are
a whole number of ticks, less than its largest value, if it can hold every time of the clock. -/
theorem distinguishes_whole_iff {duration : DurationType} {params : LimitParams} {tickNanos : ℕ}
    (whole : duration.tick = tickNanos * nano) (counts : params.requestsPerPeriod ≠ 0)
    (lasting : 0 < params.periodMs) (converts : duration.Converts milli params.periodMs)
    (within : params.period ≤ clockMax) :
    Distinguishes duration params ↔
      duration.ticks (params.period * nano) < duration.rep.max ∧ tickNanos ∣ params.period ∧
        duration.ticks (clockMax * nano) ≤ duration.rep.max := by
  have period : 0 < params.period := Nat.mul_pos (by omega) (by decide)
  have positive := tickNanos_pos whole
  have defined : ∀ elapsed : ℕ, elapsed ≤ clockMax → duration.Defined nano elapsed :=
    fun elapsed shown _ => (converted_whole whole shown).1
  rw [Distinguishes, or_iff_right counts, and_iff_right defined,
    or_iff_right fun instant => absurd instant.1 lasting.not_ge,
    durationCast_period converts lasting]
  refine and_congr_right fun finite => ?_
  constructor
  · intro apart
    refine ⟨?_, le_of_not_gt fun beyond => ?_⟩
    · obtain ⟨last, same⟩ : ∃ last, params.period = last + 1 := ⟨params.period - 1, by omega⟩
      have fewer := (apart last (by omega)).1 (by omega)
      rw [ticks_whole whole, ticks_whole whole, same, Nat.succ_div] at fewer
      by_contra partly
      rw [same] at partly
      rw [if_neg partly] at fewer
      exact absurd fewer (by omega)
    · -- The first time that does not fit is stored as the least value.
      obtain ⟨largest, same⟩ : ∃ largest : ℕ, duration.rep.max = largest :=
        ⟨duration.rep.max.toNat, (Int.toNat_of_nonneg duration.rep.max_pos.le).symm⟩
      have first :
          duration.ticks (((largest + 1) * tickNanos : ℕ) * nano) = duration.rep.max + 1 := by
        rw [ticks_whole whole, Nat.mul_div_cancel _ positive, same]
        rfl
      have shown : (largest + 1) * tickNanos ≤ clockMax := by
        rw [ticks_whole whole, same] at beyond
        exact (Nat.le_div_iff_mul_le positive).mp (Int.ofNat_lt.mp beyond)
      have past : params.period ≤ (largest + 1) * tickNanos := by
        refine Nat.le_of_not_lt fun short => ?_
        have less := (apart _ shown).1 short
        omega
      have fewer := (apart _ shown).2 past
      rw [DurationType.durationCast, (converted_whole whole shown).2, first,
        IntegerRep.wrap_max_add_one] at fewer
      have started := (apart 0 (Nat.zero_le _)).1 period
      rw [Nat.cast_zero, zero_mul, DurationType.ticks_zero] at started
      exact absurd (le_trans fewer duration.rep.min_nonpos) (not_le.mpr started)
  · rintro ⟨⟨ticks, same⟩, fits⟩ elapsed shown
    constructor
    · intro short
      rw [ticks_whole whole, ticks_whole whole, same, Nat.mul_div_cancel_left _ positive]
      exact Int.ofNat_lt.mpr (Nat.div_lt_of_lt_mul (same ▸ short))
    · intro past
      have ordered : ∀ {less more : ℕ}, less ≤ more →
          duration.ticks (less * nano) ≤ duration.ticks (more * nano) := fun le =>
        duration.ticks_mono (mul_le_mul_of_nonneg_right (Nat.cast_le.mpr le) nano_pos.le)
      have nonneg : 0 ≤ duration.ticks (elapsed * nano) :=
        duration.ticks_nonneg (mul_nonneg (Nat.cast_nonneg _) nano_pos.le)
      rw [DurationType.durationCast, (converted_whole whole shown).2, IntegerRep.wrap_of_contains
        (IntegerRep.contains_of_nonneg nonneg (le_trans (ordered shown) fits))]
      exact ordered past

/-! ### One key -/

section Keys

variable {duration : DurationType} {params : LimitParams} {state : KeyState} {now : ℕ}

/-- The query on a key that no token blocks. -/
theorem timeUntilKeyAllows_free
    (free : ¬ (params.sequential = true ∧ state.inFlightTokens ≠ ∅)) :
    timeUntilKeyAllows duration params state now =
      if params.requestsPerPeriod = 0 then 0
      else if duration.durationCast nano ((now : ℤ) - (state.startTime : ℤ)) ≥
            duration.durationCast milli params.periodMs ∨
          (state.count : ℤ) < params.requestsPerPeriod then 0
      else duration.rep.wrap (duration.durationCast milli params.periodMs -
        duration.durationCast nano ((now : ℤ) - (state.startTime : ℤ))) := by
  have unblocked : (params.sequential && decide (state.inFlightTokens ≠ ∅)) = false := by
    simpa [← Bool.not_eq_true] using free
  rw [timeUntilKeyAllows, unblocked, if_neg Bool.false_ne_true]

/-- The query on a key that no token blocks, by the time that has elapsed. -/
theorem timeUntilKeyAllows_eq (free : ¬ (params.sequential = true ∧ state.inFlightTokens ≠ ∅))
    (counts : params.requestsPerPeriod ≠ 0) (begun : state.startTime ≤ now) :
    timeUntilKeyAllows duration params state now =
      if duration.durationCast milli params.periodMs ≤
            duration.durationCast nano ((now - state.startTime : ℕ) : ℤ) ∨
          (state.count : ℤ) < params.requestsPerPeriod then 0
      else duration.rep.wrap (duration.durationCast milli params.periodMs -
        duration.durationCast nano ((now - state.startTime : ℕ) : ℤ)) := by
  rw [timeUntilKeyAllows_free free, if_neg counts, Nat.cast_sub begun]

/-- The query on one key agrees with the decision on it. -/
structure KeyAgrees (duration : DurationType) (params : LimitParams) (found : Option KeyState)
    (token : Token) (now : TimePoint) : Prop where
  defined : ∀ state, found = some state → KeyDefined duration params state now
  nonneg : 0 ≤ timeUntilFoundAllows duration params found now
  ready : timeUntilFoundAllows duration params found now = 0 ↔
    canPassKey params found token now = true
  blocked : timeUntilFoundAllows duration params found now = duration.rep.max ↔
    params.sequential = true ∧ (found.getD {}).inFlightTokens ≠ ∅
  waiting : timeUntilFoundAllows duration params found now < duration.rep.max →
    ∀ wait, ∀ later ≤ clockMax, timeUntilFoundAllows duration params found now ≤ wait →
    Passed duration wait now later → canPassKey params found token later = true

theorem canPassKey_free {token : Token}
    (free : ¬ (params.sequential = true ∧ state.inFlightTokens ≠ ∅)) (now : TimePoint) :
    canPassKey params (some state) token now = checkKey params state now := by
  have unheld : heldByOther params state token = false := by
    rw [← Bool.not_eq_true]
    simp only [heldByOther, Bool.and_eq_true, decide_eq_true_eq]
    exact fun held => free ⟨held.1.1.1, held.1.2⟩
  rw [canPassKey, unheld, if_neg Bool.false_ne_true]

/-- The decision on a counted key that no token blocks. -/
theorem canPassKey_counted {token : Token} {later : ℕ}
    (free : ¬ (params.sequential = true ∧ state.inFlightTokens ≠ ∅))
    (counts : params.requestsPerPeriod ≠ 0) (begun : state.startTime ≤ later) :
    canPassKey params (some state) token later = true ↔
      params.period ≤ later - state.startTime ∨
        (state.count : ℤ) < params.requestsPerPeriod := by
  rw [canPassKey_free free, checkKey_iff begun, or_iff_right counts, Nat.le_sub_iff_add_le begun,
    Nat.add_comm]

/-- A key that another token holds is marked as blocked and refuses. -/
theorem KeyAgrees.of_held {token : Token} (nonzero : token ≠ 0)
    (fresh : token ∉ state.inFlightTokens) (sequential : params.sequential = true)
    (held : state.inFlightTokens ≠ ∅) : KeyAgrees duration params (some state) token now := by
  have marked : timeUntilFoundAllows duration params (some state) now = duration.rep.max := by
    simp [timeUntilFoundAllows, timeUntilKeyAllows, sequential, held]
  have refused : canPassKey params (some state) token now = false := by
    simp [canPassKey, heldByOther, sequential, nonzero, held, fresh]
  have positive := duration.rep.max_pos
  refine ⟨?_, ?_, ?_, ?_, ?_⟩
  · intro same found
    obtain rfl := Option.some.inj found
    exact fun free => absurd ⟨sequential, held⟩ free
  · rw [marked]
    exact positive.le
  · rw [marked, refused]
    exact ⟨fun zero => absurd zero positive.ne', fun allowed => by simp at allowed⟩
  · exact ⟨fun _ => ⟨sequential, held⟩, fun _ => marked⟩
  · intro finite
    exact absurd finite (by rw [marked]; exact lt_irrefl _)

/-- A key at which the query and the decision agree that nothing is in the way. -/
theorem KeyAgrees.of_ready {found : Option KeyState} {token : Token}
    (free : ¬ (params.sequential = true ∧ (found.getD {}).inFlightTokens ≠ ∅))
    (defined : ∀ state, found = some state → KeyDefined duration params state now)
    (zero : timeUntilFoundAllows duration params found now = 0)
    (passes : ∀ later, now ≤ later → canPassKey params found token later = true) :
    KeyAgrees duration params found token now := by
  have positive := duration.rep.max_pos
  refine ⟨defined, zero.ge, ⟨fun _ => passes now le_rfl, fun _ => zero⟩, ?_, ?_⟩
  · rw [zero]
    exact ⟨fun max => absurd max positive.ne, fun held => absurd held free⟩
  · intro _ wait later _ _ passed
    exact passes later passed.1

/-- A key whose window the duration type tells from shorter and longer times, and that no token
blocks. -/
theorem KeyAgrees.of_window {token : Token}
    (free : ¬ (params.sequential = true ∧ state.inFlightTokens ≠ ∅))
    (counts : params.requestsPerPeriod ≠ 0) (begun : state.startTime ≤ now)
    (shown : now ≤ clockMax)
    (defined : ∀ elapsed : ℕ, elapsed ≤ clockMax → duration.Defined nano elapsed)
    (finite : duration.durationCast milli params.periodMs < duration.rep.max)
    (tells : ∀ elapsed : ℕ, elapsed ≤ clockMax →
      (elapsed < params.period → duration.ticks (elapsed * nano) <
        duration.durationCast milli params.periodMs) ∧
      (params.period ≤ elapsed → duration.durationCast milli params.periodMs ≤
        duration.durationCast nano elapsed)) :
    KeyAgrees duration params (some state) token now := by
  obtain ⟨elapsed, elapsed_eq⟩ : ∃ elapsed, now - state.startTime = elapsed := ⟨_, rfl⟩
  have within : elapsed ≤ clockMax := by omega
  have delay : timeUntilKeyAllows duration params state now = _ :=
    timeUntilKeyAllows_eq free counts begun
  have check : canPassKey params (some state) token now = true ↔ _ :=
    canPassKey_counted free counts begun
  rw [elapsed_eq] at delay check
  have elapsedDefined : duration.Defined nano ((now : ℤ) - (state.startTime : ℤ)) := by
    rw [← Nat.cast_sub begun, elapsed_eq]
    exact defined elapsed within
  by_cases ready : params.period ≤ elapsed ∨ (state.count : ℤ) < params.requestsPerPeriod
  · refine KeyAgrees.of_ready free ?_ ?_ fun later order => ?_
    · rintro same found _ _
      obtain rfl := Option.some.inj found
      refine ⟨elapsedDefined, fun fewer full => ?_⟩
      rw [← Nat.cast_sub begun, elapsed_eq] at fewer
      rcases ready with past | below
      · exact absurd ((tells elapsed within).2 past) (not_le.mpr fewer)
      · exact absurd full (not_le.mpr below)
    · rw [timeUntilFoundAllows, delay, if_pos (ready.imp_left (tells elapsed within).2)]
    · exact (canPassKey_counted free counts (le_trans begun order)).mpr
        (ready.imp_left fun past => by omega)
  · -- The elapsed ticks are at most the exact ones, so that the wait is long enough.
    obtain ⟨inside, full⟩ := not_or.mp ready
    have fewer := (tells elapsed within).1 (not_le.mp inside)
    obtain ⟨below, above⟩ := DurationType.durationCast_le_ticks (defined elapsed within) nano_pos
      (Int.natCast_nonneg elapsed) (by
        rw [Int.cast_natCast]
        exact le_trans fewer.le finite.le)
    rw [Int.cast_natCast] at above
    have contains : duration.rep.Contains (duration.durationCast milli params.periodMs -
        duration.durationCast nano elapsed) :=
      IntegerRep.contains_of_nonneg (by omega) (by omega)
    have refuses : ¬ (duration.durationCast milli params.periodMs ≤
        duration.durationCast nano elapsed ∨ (state.count : ℤ) < params.requestsPerPeriod) :=
      not_or.mpr ⟨by omega, full⟩
    rw [if_neg refuses, IntegerRep.wrap_of_contains contains] at delay
    have found : timeUntilFoundAllows duration params (some state) now =
        duration.durationCast milli params.periodMs - duration.durationCast nano elapsed := delay
    refine ⟨?_, ?_, ?_, ?_, ?_⟩
    · rintro same is _ _
      obtain rfl := Option.some.inj is
      rw [← Nat.cast_sub begun, elapsed_eq]
      exact ⟨defined elapsed within, fun _ _ => contains⟩
    · omega
    · rw [check]
      exact ⟨fun zero => absurd zero (by omega), fun passes => absurd passes ready⟩
    · exact ⟨fun max => absurd max (by omega), fun held => absurd held free⟩
    · intro _ wait later laterShown enough passed
      refine (canPassKey_counted free counts (le_trans begun passed.1)).mpr (Or.inl ?_)
      have waited : duration.ticks (elapsed * nano) + wait ≤
          duration.ticks (elapsed * nano + (later - now : ℕ) * nano) :=
        duration.ticks_add_le passed.2
      have split : ((later - state.startTime : ℕ) : ℚ) * nano =
          elapsed * nano + (later - now : ℕ) * nano := by
        rw [← add_mul, ← Nat.cast_add, ← elapsed_eq, Nat.add_comm,
          Nat.sub_add_sub_cancel passed.1 begun]
      rw [← split] at waited
      by_contra short
      have still := (tells (later - state.startTime) (by omega)).1 (not_le.mp short)
      omega

/-- A key of a limit without a count. -/
theorem KeyAgrees.of_uncounted {token : Token}
    (free : ¬ (params.sequential = true ∧ state.inFlightTokens ≠ ∅))
    (uncounted : params.requestsPerPeriod = 0) (begun : state.startTime ≤ now) :
    KeyAgrees duration params (some state) token now := by
  refine .of_ready free (fun _ _ _ counts => absurd uncounted counts) ?_ fun later after => ?_
  · rw [timeUntilFoundAllows, timeUntilKeyAllows_free free, if_pos uncounted]
  · rw [canPassKey_free free]
    exact (checkKey_iff (le_trans begun after)).mpr (Or.inl uncounted)

/-- A key that has room for another request whatever the time. -/
theorem KeyAgrees.of_room {token : Token}
    (free : ¬ (params.sequential = true ∧ state.inFlightTokens ≠ ∅))
    (counts : params.requestsPerPeriod ≠ 0) (begun : state.startTime ≤ now)
    (shown : now ≤ clockMax)
    (defined : ∀ elapsed : ℕ, elapsed ≤ clockMax → duration.Defined nano elapsed)
    (room : (state.count : ℤ) < params.requestsPerPeriod) :
    KeyAgrees duration params (some state) token now := by
  refine .of_ready free ?_ ?_ fun later after => ?_
  · rintro same found _ _
    obtain rfl := Option.some.inj found
    refine ⟨?_, fun _ full => absurd full (not_le.mpr room)⟩
    rw [← Nat.cast_sub begun]
    exact defined _ (le_trans (Nat.sub_le _ _) shown)
  · rw [timeUntilFoundAllows, timeUntilKeyAllows_eq free counts begun, if_pos (Or.inr room)]
  · exact (canPassKey_counted free counts (le_trans begun after)).mpr (Or.inr room)

theorem keyAgrees {found : Option KeyState} {token : Token} (nonzero : token ≠ 0)
    (fresh : token ∉ (found.getD {}).inFlightTokens)
    (begun : ∀ state, found = some state → state.startTime ≤ now) (shown : now ≤ clockMax)
    (single : params.requestsPerPeriod ≠ 0 → params.periodMs ≤ 0 → ∀ state, found = some state →
      state.count ≤ 1)
    (distinguishes : Distinguishes duration params) :
    KeyAgrees duration params found token now := by
  cases found with
  | none => exact .of_ready (by simp) (by simp) rfl fun _ _ => rfl
  | some state =>
    have order := begun state rfl
    by_cases held : params.sequential = true ∧ state.inFlightTokens ≠ ∅
    · exact .of_held nonzero fresh held.1 held.2
    · by_cases uncounted : params.requestsPerPeriod = 0
      · exact .of_uncounted held uncounted order
      · obtain ⟨defined, ⟨instant, several⟩ | ⟨finite, tells⟩⟩ :=
          distinguishes.resolve_left uncounted
        · have one := single uncounted instant state rfl
          exact .of_room held uncounted order shown defined (by omega)
        · exact .of_window held uncounted order shown defined finite tells

end Keys

/-! ### Both coordinates -/

/-- The result of the query after some of its coordinates: the longest of their delays, and
whether one of them is marked as blocked. -/
structure Delays (duration : DurationType) (limiter : HttpRateLimiter) (now : TimePoint)
    (named : LimitId → String → Prop) (result : RateLimitDelay) : Prop where
  nonneg : 0 ≤ result.duration
  upper : ∀ id key params, named id key → Registered limiter id params →
    timeUntilFoundAllows duration params (keyAt limiter id key) now ≤ result.duration
  attained : result.duration = 0 ∨ ∃ id key params, named id key ∧
    Registered limiter id params ∧
    timeUntilFoundAllows duration params (keyAt limiter id key) now = result.duration
  blocked : result.sequentialBlocked = true ↔ ∃ id key params, named id key ∧
    Registered limiter id params ∧
    timeUntilFoundAllows duration params (keyAt limiter id key) now = duration.rep.max

section Coordinates

variable {duration : DurationType} {limiter : HttpRateLimiter} {now : TimePoint}
  {named : LimitId → String → Prop} {result : RateLimitDelay} {call : RequestCall}

theorem Delays.zero : Delays duration limiter now (fun _ _ => False) ⟨0, false⟩ where
  nonneg := le_rfl
  upper _ _ _ impossible := impossible.elim
  attained := Or.inl rfl
  blocked := ⟨fun impossible => absurd impossible Bool.false_ne_true,
    fun ⟨_, _, _, impossible, _⟩ => impossible.elim⟩

theorem addDelay_registered {id : LimitId} {params : LimitParams}
    (registered : Registered limiter id params) (key : String) :
    addDelay duration result (findLimit limiter id) key now =
      ⟨max result.duration (timeUntilFoundAllows duration params (keyAt limiter id key) now),
        result.sequentialBlocked || decide (timeUntilFoundAllows duration params
          (keyAt limiter id key) now = duration.rep.max)⟩ := by
  obtain ⟨limit, found, lookup, rfl, _⟩ := registered.exists_limit
  rw [found, keyAt_of_lookup lookup]
  rfl

/-- One more coordinate. -/
theorem Delays.add (delays : Delays duration limiter now named result)
    {handle : HttpRateLimitHandlePtr}
    (held : ∀ id, handle = some id → ∃ params, Registered limiter id params) (key : String) :
    Delays duration limiter now
      (fun id other => named id other ∨ (handle = some id ∧ key = other))
      (addDelay duration result (findLimit limiter (handleId handle)) key now) := by
  cases handle with
  | none =>
    have same : (fun id other => named id other ∨ ((none : HttpRateLimitHandlePtr) = some id ∧
        key = other)) = named := by
      funext id other
      simp
    rw [same, handleId_none, findLimit_zero]
    exact delays
  | some given =>
    obtain ⟨params, registered⟩ := held given rfl
    rw [handleId_some, addDelay_registered registered]
    refine ⟨le_max_of_le_left delays.nonneg, ?_, ?_, ?_⟩
    · rintro id other found (old | ⟨same, rfl⟩) again
      · exact le_max_of_le_left (delays.upper id other found old again)
      · obtain rfl := Option.some.inj same
        obtain rfl := registered.unique again
        exact le_max_right _ _
    · rcases max_choice result.duration
        (timeUntilFoundAllows duration params (keyAt limiter given key) now) with kept | taken
      · dsimp only
        rw [kept]
        refine delays.attained.imp_right ?_
        rintro ⟨id, other, found, old, again, reached⟩
        exact ⟨id, other, found, Or.inl old, again, reached⟩
      · exact Or.inr ⟨given, key, params, Or.inr ⟨rfl, rfl⟩, registered, taken.symm⟩
    · dsimp only
      rw [Bool.or_eq_true, decide_eq_true_eq, delays.blocked]
      constructor
      · rintro (⟨id, other, found, old, again, marked⟩ | marked)
        · exact ⟨id, other, found, Or.inl old, again, marked⟩
        · exact ⟨given, key, params, Or.inr ⟨rfl, rfl⟩, registered, marked⟩
      · rintro ⟨id, other, found, old | ⟨same, rfl⟩, again, marked⟩
        · exact Or.inl ⟨id, other, found, old, again, marked⟩
        · obtain rfl := Option.some.inj same
          obtain rfl := registered.unique again
          exact Or.inr marked

theorem delays_call (held : call.Held limiter) (now : TimePoint) :
    Delays duration limiter now call.Names (call.delay duration limiter now) := by
  have none_yet : Delays duration limiter now (fun _ _ => False) ⟨0, false⟩ := .zero
  have general := none_yet.add (fun _ given => held.general given) call.generalKey
  have both := general.add (fun _ given => held.specific given) call.specificKey
  have same : (fun id key => (False ∨ (call.generalLimit = some id ∧ call.generalKey = key)) ∨
      (call.specificLimit = some id ∧ call.specificKey = key)) = call.Names := by
    funext id key
    rw [false_or]
    rfl
  rw [same] at both
  exact both

/-- The query agrees with the decision when it does on every key of the call. -/
theorem agrees_of_keys (held : call.Held limiter)
    (keys : ∀ id key params, call.Names id key → Registered limiter id params →
      KeyAgrees duration params (keyAt limiter id key) call.token now) :
    Agrees duration limiter call now := by
  have delays : Delays duration limiter now call.Names (call.delay duration limiter now) :=
    delays_call held now
  refine ⟨?_, ?_, ?_, ?_⟩
  · intro id key params state named registered found
    exact (keys id key params named registered).defined state found
  · rw [allow_fst_iff held now]
    constructor
    · intro zero id key params named registered
      have agrees := keys id key params named registered
      have upper := delays.upper id key params named registered
      exact agrees.ready.mp (le_antisymm (zero ▸ upper) agrees.nonneg)
    · intro passes
      rcases delays.attained with zero | ⟨id, key, params, named, registered, reached⟩
      · exact zero
      · rw [← reached]
        exact (keys id key params named registered).ready.mpr
          (passes id key params named registered)
  · intro _ finite later shown passed
    refine (allow_fst_iff held later).mpr fun id key params named registered => ?_
    have upper := delays.upper id key params named registered
    exact (keys id key params named registered).waiting (lt_of_le_of_lt upper finite) _ later shown
      upper passed
  · rw [delays.blocked]
    constructor
    · rintro ⟨id, key, params, named, registered, marked⟩
      have taken := (keys id key params named registered).blocked.mp marked
      exact ⟨id, key, params, named, registered, taken⟩
    · rintro ⟨id, key, params, named, registered, taken⟩
      exact ⟨id, key, params, named, registered,
        (keys id key params named registered).blocked.mpr taken⟩

end Coordinates

/-! ### The queries about given limits -/

/-- The parameters of the limit a handle names. -/
def paramsAt (limiter : HttpRateLimiter) (handle : HttpRateLimitHandlePtr) : Option LimitParams :=
  handle.bind fun id => (headerAt limiter id).map Prod.fst

theorem paramsAt_registered {limiter : HttpRateLimiter} {id : LimitId} {params : LimitParams}
    (registered : Registered limiter id params) : paramsAt limiter (some id) = some params := by
  rw [paramsAt, Option.bind_some, registered.2]
  rfl

/-- A reachable limiter, an instant that the clock can show and a call with a token that is not in
flight, whose handles name limits with the given parameters. -/
structure Query (general specific : Option LimitParams) (world : LimiterWorld)
    (call : RequestCall) (now : TimePoint) : Prop where
  reachable : limiterSystem.Reachable world
  holds : world.Holds call
  later : world.clock ≤ now
  shown : now ≤ clockMax
  generalParams : paramsAt world.limiter call.generalLimit = general
  specificParams : paramsAt world.limiter call.specificLimit = specific
  nonzero : call.token ≠ 0
  fresh : ∀ id key, call.Names id key → call.token ∉ tokensAt world.limiter id key

theorem Query.agrees {duration : DurationType} {general specific : Option LimitParams}
    {world : LimiterWorld} {call : RequestCall} {now : TimePoint}
    (query : Query general specific world call now)
    (distinguishes : ∀ params, general = some params ∨ specific = some params →
      Distinguishes duration params) : Agrees duration world.limiter call now := by
  have accounts := limiter_accounts query.reachable
  refine agrees_of_keys ((limiter_supports query.reachable).call_held query.holds) ?_
  intro id key params named registered
  have given : general = some params ∨ specific = some params := by
    have found := paramsAt_registered registered
    rcases named with ⟨handle, _⟩ | ⟨handle, _⟩
    · exact Or.inl (by rw [← query.generalParams, handle, found])
    · exact Or.inr (by rw [← query.specificParams, handle, found])
  have sound := accounts.sound id params key registered
  refine keyAgrees query.nonzero (query.fresh id key named) ?_ query.shown sound.single
    (distinguishes params given)
  intro state found
  exact le_trans (sound.started state found) query.later

/-! ### A key that is used up at the epoch -/

/-- A limiter in which only one key was used: so many requests were allowed on it at the epoch. -/
structure Used (base : LimiterWorld) (used : LimitId) (count : ℕ) (world : LimiterWorld) :
    Prop where
  reachable : limiterSystem.Reachable world
  clock : world.clock = 0
  copies : world.copies = base.copies
  registered : ∀ id params, Registered base.limiter id params → Registered world.limiter id params
  state : keyAt world.limiter used "key" = if count = 0 then none else some { count := count }
  unused : ∀ id params, id ≠ used → Registered base.limiter id params →
    keyAt world.limiter id "key" = none
  counter : count = 0 → world.limiter.gcCounter = 0

section UsedUp

variable {base world : LimiterWorld} {used : LimitId} {params : LimitParams} {count : ℕ}

/-- A request at the epoch is counted in a window that opened there. -/
theorem commitKey_atEpoch (counts : params.requestsPerPeriod ≠ 0)
    (window : count = 0 ∨ 0 < params.periodMs) :
    commitKey params (if count = 0 then none else some { count := count }) 0 0 =
      { count := count + 1 } := by
  have zero : elapsedMs 0 0 = 0 := by decide
  have entered : enterKey params (if count = 0 then none else some { count := count }) 0 =
      { count := count } := by
    split
    · rename_i first
      simp [enterKey, first]
    · simp [enterKey]
  rw [commitKey, entered, updateKey, if_neg counts]
  split
  · rename_i past
    have instant : params.periodMs ≤ 0 := zero ▸ past
    obtain rfl := window.resolve_right instant.not_gt
    rfl
  · rfl

theorem Used.step (usage : Used base used count world) (copied : used ∈ base.copies)
    (registered : Registered base.limiter used params) (counts : params.requestsPerPeriod ≠ 0)
    (room : count = 0 ∨ (0 < params.periodMs ∧ (count : ℤ) < params.requestsPerPeriod)) :
    ∃ next, Used base used (count + 1) next := by
  have supports := limiter_supports usage.reachable
  have holds : world.Holds (requestOn used "key") := by
    intro other member
    have same : other = used := by simpa [RequestCall.handles, requestOn] using member
    rw [same, usage.copies]
    exact copied
  have callHeld := supports.call_held holds
  have present := usage.registered used params registered
  have allowed : ((requestOn used "key").allow world.limiter 0).1 = true := by
    refine (allow_fst_iff callHeld 0).mpr fun id key found named again => ?_
    obtain ⟨rfl, rfl⟩ := requestOn_names.mp named
    obtain rfl := present.unique again
    rw [usage.state]
    split
    · rfl
    · rename_i later
      rw [canPassKey_free (by simp)]
      exact (checkKey_iff le_rfl).mpr (Or.inr (Or.inr (room.resolve_left later).2))
  have stepped : limiterSystem.step world (.allowRequest (requestOn used "key") 0) =
      some (world.allowRequest (requestOn used "key") 0) := if_pos ⟨holds, usage.clock.le⟩
  obtain ⟨collects, due, settles⟩ := keyAt_allow_counted callHeld allowed
  refine ⟨world.allowRequest (requestOn used "key") 0, usage.reachable.step stepped, rfl,
    usage.copies, ?_, ?_, ?_, fun impossible => absurd impossible (Nat.succ_ne_zero _)⟩
  · intro id other earlier
    exact (usage.registered id other earlier).allow callHeld 0
  · refine (settles used "key" params false present.2).trans ?_
    rw [settled, if_pos (requestOn_names.mpr ⟨rfl, rfl⟩), usage.state]
    rw [show (requestOn used "key").token = 0 from rfl,
      commitKey_atEpoch counts (room.imp_right And.left)]
    cases collects with
    | false => simp
    | true =>
      -- The first request is not the sixty-fourth, and a later window has not run out.
      have lasting : 0 < params.periodMs := by
        rcases room with first | ⟨lasting, _⟩
        · have counted := due rfl
          rw [usage.counter first] at counted
          exact absurd counted (by decide)
        · exact lasting
      have zero : elapsedMs 0 0 = 0 := by decide
      have kept : collectKey params 0 { count := count + 1 } = some { count := count + 1 } := by
        simp [collectKey, isStale, zero, lasting]
      simpa using kept
  · intro id other different earlier
    refine (settles id "key" other false (usage.registered id other earlier).2).trans ?_
    rw [settled, if_neg fun named => different (requestOn_names.mp named).1,
      usage.unused id other different earlier, Option.bind_none]

/-- A key can be used up at the epoch, and once in any case. -/
theorem Used.exists_of_le (usage : Used base used 0 world) (copied : used ∈ base.copies)
    (registered : Registered base.limiter used params) (counts : params.requestsPerPeriod ≠ 0)
    (count : ℕ) :
    count ≤ 1 ∨ (0 < params.periodMs ∧ (count : ℤ) ≤ params.requestsPerPeriod) →
      ∃ next, Used base used count next := by
  induction count with
  | zero => exact fun _ => ⟨world, usage⟩
  | succ count inductionHypothesis =>
    intro room
    obtain ⟨next, before⟩ := inductionHypothesis (by omega)
    exact before.step copied registered counts (by omega)

end UsedUp

/-! ### A limiter with the given limits -/

/-- The call that asks about both limits on one key. -/
def askBoth (generalLimit specificLimit : HttpRateLimitHandlePtr) : RequestCall :=
  ⟨generalLimit, specificLimit, 1, "key", "key"⟩

/-- A limiter with limits of the given parameters that were never used. -/
structure Unused (general specific : Option LimitParams)
    (generalLimit specificLimit : HttpRateLimitHandlePtr) (world : LimiterWorld) : Prop where
  reachable : limiterSystem.Reachable world
  clock : world.clock = 0
  keyless : ∀ id key, keyAt world.limiter id key = none
  holds : world.Holds (askBoth generalLimit specificLimit)
  generalParams : paramsAt world.limiter generalLimit = general
  specificParams : paramsAt world.limiter specificLimit = specific
  counter : world.limiter.gcCounter = 0

theorem keyless_create {world : LimiterWorld} (reachable : limiterSystem.Reachable world)
    (keyless : ∀ id key, keyAt world.limiter id key = none) (params : LimitParams) (id : LimitId)
    (key : String) : keyAt (world.createLimitHandle params).limiter id key = none := by
  refine ((limiter_supports reachable).keyAt_createLimitHandle _ _ _ id key).trans ?_
  exact keyless id key

theorem reachable_create {world : LimiterWorld} (reachable : limiterSystem.Reachable world)
    (params : LimitParams) : limiterSystem.Reachable (world.createLimitHandle params) :=
  reachable.step (show limiterSystem.step world (.createLimitHandle params.requestsPerPeriod
    params.periodMs params.sequential) = _ from rfl)

theorem exists_unused (general specific : Option LimitParams) :
    ∃ generalLimit specificLimit world,
      Unused general specific generalLimit specificLimit world := by
  have start : limiterSystem.Reachable limiterSystem.init := System.reachable_init
  have keyless : ∀ id key, keyAt limiterSystem.init.limiter id key = none := fun _ _ => rfl
  cases general with
  | none =>
    cases specific with
    | none => exact ⟨none, none, _, start, rfl, keyless, fun _ member => member, rfl, rfl, rfl⟩
    | some second =>
      exact ⟨none, some 1, _, reachable_create start second, rfl,
        keyless_create start keyless second, fun _ member => member, rfl, rfl, rfl⟩
  | some first =>
    have created := reachable_create start first
    have stillKeyless := keyless_create start keyless first
    cases specific with
    | none =>
      exact ⟨some 1, none, _, created, rfl, stillKeyless, fun _ member => member, rfl, rfl, rfl⟩
    | some second =>
      refine ⟨some 1, some 2, _, reachable_create created second, rfl,
        keyless_create created stillKeyless second, fun id member => ?_, rfl, rfl, rfl⟩
      exact List.mem_reverse.mp member

theorem Unused.used {general specific : Option LimitParams}
    {generalLimit specificLimit : HttpRateLimitHandlePtr} {world : LimiterWorld}
    (unused : Unused general specific generalLimit specificLimit world) (id : LimitId) :
    Used world id 0 world :=
  ⟨unused.reachable, unused.clock, rfl, fun _ _ registered => registered, unused.keyless _ _,
    fun _ _ _ _ => unused.keyless _ _, fun _ => unused.counter⟩

/-! ### Limits the query gets wrong -/

section Wrong

variable {duration : DurationType} {general specific : Option LimitParams}
  {generalLimit specificLimit : HttpRateLimitHandlePtr} {base world : LimiterWorld}
  {used : LimitId} {params : LimitParams} {count : ℕ} {now : ℕ}

theorem askBoth_names {id : LimitId} {key : String} :
    (askBoth generalLimit specificLimit).Names id key ↔
      (generalLimit = some id ∨ specificLimit = some id) ∧ key = "key" := by
  simp only [askBoth, RequestCall.Names, ← or_and_right, eq_comm]

/-- The state of the keys that the call asks about. -/
theorem Used.keyAt_named (usage : Used base used (count + 1) world)
    (held : (askBoth generalLimit specificLimit).Held base.limiter) {id : LimitId} {key : String}
    (named : (askBoth generalLimit specificLimit).Names id key) :
    keyAt world.limiter id key = if id = used then some { count := count + 1 } else none := by
  obtain ⟨found, registered⟩ := held id key named
  obtain ⟨_, rfl⟩ := askBoth_names.mp named
  split
  · rename_i same
    rw [same, usage.state, if_neg (Nat.succ_ne_zero count)]
  · rename_i different
    exact usage.unused id found different registered

/-- Asking when one key is used up. -/
theorem Used.query (usage : Used base used (count + 1) world)
    (unused : Unused general specific generalLimit specificLimit base) (shown : now ≤ clockMax) :
    Query general specific world (askBoth generalLimit specificLimit) now := by
  have held := (limiter_supports unused.reachable).call_held unused.holds
  have sameParams : ∀ handle, (∃ key, ∀ id, handle = some id →
      (askBoth generalLimit specificLimit).Names id key) →
      paramsAt world.limiter handle = paramsAt base.limiter handle := by
    rintro (_ | id) ⟨key, named⟩
    · rfl
    · obtain ⟨found, registered⟩ := held id key (named id rfl)
      rw [paramsAt_registered registered,
        paramsAt_registered (usage.registered id found registered)]
  refine ⟨usage.reachable, ?_, ?_, shown, ?_, ?_, Nat.one_ne_zero, ?_⟩
  · intro id member
    rw [usage.copies]
    exact unused.holds id member
  · rw [usage.clock]
    exact Nat.zero_le _
  · rw [← unused.generalParams]
    exact sameParams _ ⟨"key", fun id given => Or.inl ⟨given, rfl⟩⟩
  · rw [← unused.specificParams]
    exact sameParams _ ⟨"key", fun id given => Or.inr ⟨given, rfl⟩⟩
  · intro id key named
    rw [tokensAt, usage.keyAt_named held named]
    split
    · exact Finset.notMem_empty _
    · exact Finset.notMem_empty _

theorem Unused.exists_registered (unused : Unused general specific generalLimit specificLimit base)
    (given : general = some params ∨ specific = some params) :
    ∃ id, (askBoth generalLimit specificLimit).Names id "key" ∧
      Registered base.limiter id params := by
  have held := (limiter_supports unused.reachable).call_held unused.holds
  have found : ∀ handle, paramsAt base.limiter handle = some params →
      ∃ id, handle = some id ∧ ∀ other, Registered base.limiter id other → other = params := by
    rintro (_ | id) is
    · exact absurd is (by simp [paramsAt])
    · refine ⟨id, rfl, fun other registered => ?_⟩
      rw [paramsAt_registered registered] at is
      exact Option.some.inj is
  rcases given with is | is
  · obtain ⟨id, handle, only⟩ := found _ (unused.generalParams.trans is)
    have named : (askBoth generalLimit specificLimit).Names id "key" := Or.inl ⟨handle, rfl⟩
    obtain ⟨other, registered⟩ := held id "key" named
    exact ⟨id, named, only other registered ▸ registered⟩
  · obtain ⟨id, handle, only⟩ := found _ (unused.specificParams.trans is)
    have named : (askBoth generalLimit specificLimit).Names id "key" := Or.inr ⟨handle, rfl⟩
    obtain ⟨other, registered⟩ := held id "key" named
    exact ⟨id, named, only other registered ▸ registered⟩

/-- The delay of a key that was used up at the epoch. -/
theorem delay_usedUp (counts : params.requestsPerPeriod ≠ 0)
    (full : params.requestsPerPeriod ≤ (count + 1 : ℕ)) :
    timeUntilFoundAllows duration params (some { count := count + 1 }) now =
      if duration.durationCast milli params.periodMs ≤ duration.durationCast nano now then 0
      else duration.rep.wrap (duration.durationCast milli params.periodMs -
        duration.durationCast nano now) := by
  refine (timeUntilKeyAllows_eq (by simp) counts (Nat.zero_le _)).trans ?_
  rw [Nat.sub_zero]
  by_cases enough : duration.durationCast milli params.periodMs ≤ duration.durationCast nano now
  · rw [if_pos enough, if_pos (Or.inl enough)]
  · rw [if_neg enough, if_neg (not_or.mpr ⟨enough, not_lt.mpr full⟩)]

theorem delay_atEpoch (counts : params.requestsPerPeriod ≠ 0)
    (full : params.requestsPerPeriod ≤ (count + 1 : ℕ))
    (converts : duration.Converts milli params.periodMs) :
    timeUntilFoundAllows duration params (some { count := count + 1 }) 0 =
      max (duration.durationCast milli params.periodMs) 0 := by
  rw [delay_usedUp counts full, Nat.cast_zero, DurationType.durationCast_zero, sub_zero]
  split
  · rename_i none_left
    exact (max_eq_right none_left).symm
  · rename_i some_left
    have positive := (not_le.mp some_left).le
    rw [max_eq_left positive]
    exact IntegerRep.wrap_of_contains
      (IntegerRep.contains_of_nonneg positive (DurationType.durationCast_le_max converts))

/-- One of the limits that were given counts, and so many requests and one more were allowed on its
key at the epoch. -/
structure AtEpoch (general specific : Option LimitParams)
    (generalLimit specificLimit : HttpRateLimitHandlePtr) (base : LimiterWorld) (used : LimitId)
    (params : LimitParams) (count : ℕ) (world : LimiterWorld) : Prop where
  unused : Unused general specific generalLimit specificLimit base
  usage : Used base used (count + 1) world
  named : (askBoth generalLimit specificLimit).Names used "key"
  registered : Registered base.limiter used params
  counts : params.requestsPerPeriod ≠ 0

/-- What a call about a key that was used up at the epoch meets. -/
structure Asked (duration : DurationType) (params : LimitParams) (delay : ℤ) (call : RequestCall)
    (world : LimiterWorld) (now : TimePoint) : Prop where
  upper : delay ≤ (call.delay duration world.limiter now).duration
  attained : (call.delay duration world.limiter now).duration = 0 ∨
    (call.delay duration world.limiter now).duration = delay
  marked : delay = duration.rep.max → (call.delay duration world.limiter now).sequentialBlocked
  tokenless : ∀ id key, call.Names id key → tokensAt world.limiter id key = ∅
  allowed : (call.allow world.limiter now).1 = true ↔ params.period ≤ now

theorem Asked.delay_eq {delay : ℤ} {call : RequestCall}
    (asked : Asked duration params delay call world now) (nonneg : 0 ≤ delay) :
    (call.delay duration world.limiter now).duration = delay := by
  have upper := asked.upper
  rcases asked.attained with zero | same
  · omega
  · exact same

section Answers

variable
  (atEpoch : AtEpoch general specific generalLimit specificLimit base used params count world)

include atEpoch

theorem AtEpoch.query (shown : now ≤ clockMax) :
    Query general specific world (askBoth generalLimit specificLimit) now :=
  atEpoch.usage.query atEpoch.unused shown

/-- The state of the keys that the call asks about. -/
theorem AtEpoch.keyAt_named {id : LimitId} {key : String}
    (named : (askBoth generalLimit specificLimit).Names id key) :
    keyAt world.limiter id key = if id = used then some { count := count + 1 } else none := by
  have held := (limiter_supports atEpoch.unused.reachable).call_held atEpoch.unused.holds
  exact atEpoch.usage.keyAt_named held named

theorem AtEpoch.present : Registered world.limiter used params :=
  atEpoch.usage.registered used params atEpoch.registered

theorem AtEpoch.asked (full : params.requestsPerPeriod ≤ (count + 1 : ℕ))
    (shown : now ≤ clockMax) :
    Asked duration params
      (timeUntilFoundAllows duration params (some { count := count + 1 }) now)
      (askBoth generalLimit specificLimit) world now := by
  have held := (limiter_supports atEpoch.usage.reachable).call_held (atEpoch.query shown).holds
  have present := atEpoch.present
  have state : keyAt world.limiter used "key" = some { count := count + 1 } := by
    rw [atEpoch.keyAt_named atEpoch.named, if_pos rfl]
  have delays : Delays duration world.limiter now _ _ := delays_call held now
  refine ⟨?_, ?_, ?_, ?_, ?_⟩
  · rw [← state]
    exact delays.upper used "key" params atEpoch.named present
  · rcases delays.attained with zero | ⟨id, key, other, asked, found, reached⟩
    · exact Or.inl zero
    · rw [← reached, atEpoch.keyAt_named asked]
      split
      · rename_i same
        obtain rfl : params = other := present.unique (same ▸ found)
        exact Or.inr rfl
      · exact Or.inl rfl
  · intro marked
    exact delays.blocked.mpr ⟨used, "key", params, atEpoch.named, present, by rw [state, marked]⟩
  · intro id key asked
    rw [tokensAt, atEpoch.keyAt_named asked]
    split <;> rfl
  · have check : canPassKey params (some { count := count + 1 }) 1 now = true ↔ _ :=
      canPassKey_counted (by simp) atEpoch.counts (Nat.zero_le _)
    rw [Nat.sub_zero, or_iff_left (not_lt.mpr full)] at check
    rw [allow_fst_iff held now, ← check]
    constructor
    · intro passes
      rw [← state]
      exact passes used "key" params atEpoch.named present
    · intro passes id key other asked found
      rw [atEpoch.keyAt_named asked]
      split
      · rename_i same
        obtain rfl : params = other := present.unique (same ▸ found)
        exact passes
      · rfl

theorem AtEpoch.defined
    (agrees : Agrees duration world.limiter (askBoth generalLimit specificLimit) now) :
    KeyDefined duration params { count := count + 1 } now := by
  refine agrees.defined used "key" params _ atEpoch.named atEpoch.present ?_
  rw [atEpoch.keyAt_named atEpoch.named, if_pos rfl]

theorem AtEpoch.defined_elapsed
    (agrees : Agrees duration world.limiter (askBoth generalLimit specificLimit) now) :
    duration.Defined nano now := by
  have elapsed := (atEpoch.defined agrees (by simp) atEpoch.counts).1
  rwa [Nat.cast_zero, sub_zero] at elapsed

/-- Where a time short of the period counts no fewer ticks, the query asked at the epoch promises
that it is enough. -/
theorem AtEpoch.ready_too_soon (full : params.requestsPerPeriod ≤ (count + 1 : ℕ))
    (converts : duration.Converts milli params.periodMs)
    (finite : duration.durationCast milli params.periodMs < duration.rep.max)
    (shown : now ≤ clockMax) (short : now < params.period)
    (enough : duration.durationCast milli params.periodMs ≤ duration.ticks (now * nano)) :
    ¬ Agrees duration world.limiter (askBoth generalLimit specificLimit) 0 := by
  intro agrees
  have start : Asked duration params _ _ world 0 := atEpoch.asked full (Nat.zero_le _)
  have later : Asked duration params _ _ world now := atEpoch.asked full shown
  rw [delay_atEpoch atEpoch.counts full converts] at start
  have delay := start.delay_eq (le_max_right _ _)
  rcases le_or_gt (duration.durationCast milli params.periodMs) 0 with none_left | some_left
  · rw [max_eq_right none_left] at delay
    have past := start.allowed.mp (agrees.ready.mp delay)
    omega
  · rw [max_eq_left some_left.le] at delay
    have passed : Passed duration (duration.durationCast milli params.periodMs) 0 now := by
      refine ⟨Nat.zero_le _, ?_⟩
      rw [Nat.sub_zero]
      exact (le_div_iff₀ duration.tick_pos).mp (Int.le_floor.mp enough)
    have past := later.allowed.mp (agrees.waiting (delay ▸ some_left) (delay ▸ finite) now shown
      (delay ▸ passed))
    omega

/-- Where a time past the period counts fewer ticks, the query asks to wait for nothing. -/
theorem AtEpoch.waits_again (full : params.requestsPerPeriod ≤ (count + 1 : ℕ))
    (shown : now ≤ clockMax) (past : params.period ≤ now)
    (fewer : duration.durationCast nano now < duration.durationCast milli params.periodMs) :
    ¬ Agrees duration world.limiter (askBoth generalLimit specificLimit) now := by
  intro agrees
  have asked : Asked duration params _ _ world now := atEpoch.asked full shown
  have contains : duration.rep.Contains (duration.durationCast milli params.periodMs -
      duration.durationCast nano now) := by
    have computed := (atEpoch.defined agrees (by simp) atEpoch.counts).2
    rw [Nat.cast_zero, sub_zero] at computed
    exact computed fewer full
  have upper := asked.upper
  rw [delay_usedUp atEpoch.counts full, if_neg (not_le.mpr fewer),
    IntegerRep.wrap_of_contains contains, agrees.ready.mpr (asked.allowed.mpr past)] at upper
  omega

/-- When the period counts as many ticks as the largest duration, a used up key looks blocked. -/
theorem AtEpoch.looks_blocked (full : params.requestsPerPeriod ≤ (count + 1 : ℕ))
    (converts : duration.Converts milli params.periodMs)
    (largest : duration.rep.max ≤ duration.durationCast milli params.periodMs) :
    ¬ Agrees duration world.limiter (askBoth generalLimit specificLimit) 0 := by
  intro agrees
  have asked : Asked duration params _ _ world 0 := atEpoch.asked full (Nat.zero_le _)
  have same := le_antisymm (DurationType.durationCast_le_max converts) largest
  rw [delay_atEpoch atEpoch.counts full converts, same,
    max_eq_left duration.rep.max_pos.le] at asked
  obtain ⟨id, key, other, names, _, _, taken⟩ := agrees.blocked.mp (asked.marked rfl)
  exact taken (asked.tokenless id key names)

end Answers

/-- A limit that the duration type does not distinguish can be caught in a wrong answer. -/
theorem exists_disagreement (given : general = some params ∨ specific = some params)
    (converts : duration.Converts milli params.periodMs) (wrong : ¬ Distinguishes duration params) :
    ∃ world call now, Query general specific world call now ∧
      ¬ Agrees duration world.limiter call now := by
  obtain ⟨counts, confuses⟩ := not_or.mp wrong
  obtain ⟨generalLimit, specificLimit, base, unused⟩ := exists_unused general specific
  obtain ⟨used, named, registered⟩ := unused.exists_registered given
  have copied : used ∈ base.copies := unused.holds used named.mem_handles
  have usable := (unused.used used).exists_of_le copied registered counts
  rcases not_and_or.mp confuses with overflows | untold
  · simp only [not_forall] at overflows
    obtain ⟨now, shown, overflows⟩ := overflows
    obtain ⟨world, usage⟩ := usable 1 (Or.inl le_rfl)
    have atEpoch : AtEpoch general specific generalLimit specificLimit base used params 0 world :=
      ⟨unused, usage, named, registered, counts⟩
    exact ⟨world, _, now, atEpoch.query shown, fun agrees =>
      overflows (atEpoch.defined_elapsed agrees)⟩
  · obtain ⟨several, untold⟩ := not_or.mp untold
    obtain ⟨count, full, room⟩ : ∃ count : ℕ, params.requestsPerPeriod ≤ (count + 1 : ℕ) ∧
        (count + 1 ≤ 1 ∨
          (0 < params.periodMs ∧ ((count + 1 : ℕ) : ℤ) ≤ params.requestsPerPeriod)) := by
      rcases le_or_gt params.periodMs 0 with instant | lasting
      · exact ⟨0, not_lt.mp fun more => several ⟨instant, by omega⟩, Or.inl le_rfl⟩
      · exact ⟨params.requestsPerPeriod.toNat - 1, by omega, by omega⟩
    obtain ⟨world, usage⟩ := usable (count + 1) room
    have atEpoch :
        AtEpoch general specific generalLimit specificLimit base used params count world :=
      ⟨unused, usage, named, registered, counts⟩
    rcases le_or_gt duration.rep.max (duration.durationCast milli params.periodMs) with
      largest | finite
    · exact ⟨world, _, 0, atEpoch.query (Nat.zero_le _),
        atEpoch.looks_blocked full converts largest⟩
    · simp only [not_and, not_forall] at untold
      obtain ⟨now, shown, untold⟩ := untold finite
      by_cases short : now < params.period ∧ duration.durationCast milli params.periodMs ≤
          duration.ticks (now * nano)
      · exact ⟨world, _, 0, atEpoch.query (Nat.zero_le _),
          atEpoch.ready_too_soon full converts finite shown short.1 short.2⟩
      · obtain ⟨past, fewer⟩ := untold fun early => not_le.mp fun enough => short ⟨early, enough⟩
        exact ⟨world, _, now, atEpoch.query shown,
          atEpoch.waits_again full shown past (not_le.mp fewer)⟩

end Wrong

/-- `std::chrono::milliseconds`. -/
def milliseconds : DurationType :=
  ⟨.intMax, milli, milli_pos⟩

/-- `std::chrono::seconds`. -/
def seconds : DurationType :=
  ⟨.intMax, 1, one_pos⟩

/-- `std::chrono::duration<int32_t, std::micro>`, which counts up to 2147 seconds. -/
def shortMicroseconds : DurationType :=
  ⟨⟨32, true, by decide, by decide⟩, 1000 * nano, mul_pos (by norm_num) nano_pos⟩

/-- What holds of the parameters of the only limit given. -/
theorem forall_given {property : LimitParams → Prop} {params : LimitParams}
    (holds : property params) :
    ∀ other, some params = some other ∨ none = some other → property other := by
  rintro other (same | impossible)
  · exact Option.some.inj same ▸ holds
  · exact absurd impossible (by simp)

/-- One request in a second and a half, made ten seconds after the epoch. -/
def oneInFifteenHundred : LimiterWorld :=
  (limiterSystem.init.createLimitHandle ⟨1, 1500, false⟩).allowRequest
    ⟨some 1, none, 1, "key", ""⟩ 10000000000

/-- The next request. -/
def nextCall : RequestCall :=
  ⟨some 1, none, 2, "key", ""⟩

theorem nextCall_query :
    Query (some ⟨1, 1500, false⟩) none oneInFifteenHundred nextCall 11000000000 := by
  have names : ∀ {id key}, nextCall.Names id key → id = 1 ∧ key = "key" := by
    simp [nextCall, RequestCall.Names, eq_comm]
  have first : limiterSystem.Reachable (limiterSystem.init.createLimitHandle ⟨1, 1500, false⟩) :=
    reachable_create System.reachable_init _
  refine ⟨?_, by decide, by decide, by decide, rfl, rfl, by decide, ?_⟩
  · exact first.step (show limiterSystem.step _ (.allowRequest ⟨some 1, none, 1, "key", ""⟩
      10000000000) = some oneInFifteenHundred from rfl)
  · intro id key named
    obtain ⟨rfl, rfl⟩ := names named
    decide

end Kurlyk.RateLimiter
