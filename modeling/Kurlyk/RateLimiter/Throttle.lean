/-
This file proves that the limiter neither lets too many requests pass nor holds
one back without cause, over every run.

Each coordinate of a limit with a positive count and period is a fixed-window
counter, and the ledger of `Kurlyk.Lib.Window` accounts for the requests it
allowed. Whatever else happens, the state kept for the coordinate describes the
current window of that ledger: other calls leave it alone, and a collection
erases it only after the window has run out. The one irregular opening is that of
a key created less than a period after the clock's epoch, which is charged to a
window that opened at the epoch.
-/

import Mathlib.Data.Int.Order.Basic
import Kurlyk.Lib.Window
import Kurlyk.RateLimiter.Run

namespace Kurlyk.RateLimiter

/-! ### Reading the history -/

/-- The instants at which requests that used the coordinate were allowed. -/
def admissions (history : List LimiterEvent) (id : LimitId) (key : String) : List TimePoint :=
  history.filterMap fun event =>
    match event with
    | .decided call now true => if call.Names id key then some now else none
    | _ => none

/-- A request with this token was allowed on the coordinate and has not been released there
since. Token zero marks a call that belongs to no request. -/
def InFlight (history : List LimiterEvent) (id : LimitId) (key : String) (token : Token) : Prop :=
  token ≠ 0 ∧ ∃ before call now after, history = before ++ .decided call now true :: after ∧
    call.Names id key ∧ call.token = token ∧
    ∀ later, .released later ∈ after → ¬ (later.Names id key ∧ later.token = token)

/-- The period of a limit in nanoseconds. -/
def LimitParams.period (params : LimitParams) : ℕ :=
  params.periodMs.toNat * nanosPerMilli

/-- One of the coordinates of the call gives cause to refuse it: another token is in flight on
its sequential key, or the count was used up within its last period. -/
def Justified (history : List LimiterEvent) (call : RequestCall) (now : TimePoint) : Prop :=
  ∃ id key params, call.Names id key ∧ .created id params ∈ history ∧
    ((params.sequential = true ∧ ∃ other, other ≠ call.token ∧ InFlight history id key other) ∨
      (params.requestsPerPeriod ≠ 0 ∧ params.requestsPerPeriod ≤
        (Window.countRecent params.period now (admissions history id key) : ℤ)))

theorem admissions_append (history later : List LimiterEvent) (id : LimitId) (key : String) :
    admissions (history ++ later) id key = admissions history id key ++ admissions later id key :=
  List.filterMap_append

theorem InFlight.append {history : List LimiterEvent} {id : LimitId} {key : String}
    {token : Token} (inFlight : InFlight history id key token) (event : LimiterEvent)
    (keeps : ∀ later, event = .released later → ¬ (later.Names id key ∧ later.token = token)) :
    InFlight (history ++ [event]) id key token := by
  obtain ⟨nonzero, before, call, now, after, rfl, named, same, unreleased⟩ := inFlight
  refine ⟨nonzero, before, call, now, after ++ [event], by simp, named, same,
    fun later member => ?_⟩
  rcases List.mem_append.mp member with old | fresh
  · exact unreleased later old
  · exact keeps later (List.mem_singleton.mp fresh).symm

theorem InFlight.of_allowed {history : List LimiterEvent} {call : RequestCall} {id : LimitId}
    {key : String} (named : call.Names id key) (nonzero : call.token ≠ 0) (now : TimePoint) :
    InFlight (history ++ [.decided call now true]) id key call.token :=
  ⟨nonzero, history, call, now, [], rfl, named, rfl,
    fun _ member => absurd member List.not_mem_nil⟩

/-! ### Elapsed time -/

/-- Truncation to milliseconds does not move the end of a period. -/
theorem le_elapsedMs_iff {now startTime : ℕ} (order : startTime ≤ now) (periodMs : ℤ) :
    periodMs ≤ elapsedMs now startTime ↔ startTime + periodMs.toNat * nanosPerMilli ≤ now := by
  have nonneg : (0 : ℤ) ≤ (now : ℤ) - startTime := by omega
  have positive : (0 : ℤ) < (nanosPerMilli : ℤ) := by decide
  rw [elapsedMs, Int.tdiv_eq_ediv_of_nonneg nonneg, Int.le_ediv_iff_mul_le positive]
  simp only [nanosPerMilli]
  omega

/-- A key with a state passes the count and period constraint of a limit that has none, when its
window has run out, or while the window is not full. -/
theorem checkKey_iff {params : LimitParams} {state : KeyState} {now : ℕ}
    (order : state.startTime ≤ now) :
    checkKey params state now = true ↔ params.requestsPerPeriod = 0 ∨
      state.startTime + params.period ≤ now ∨ (state.count : ℤ) < params.requestsPerPeriod := by
  have ends : params.periodMs ≤ elapsedMs now state.startTime ↔
    state.startTime + params.period ≤ now := le_elapsedMs_iff order params.periodMs
  unfold checkKey
  split
  · rename_i uncounted
    exact ⟨fun _ => Or.inl uncounted, fun _ => rfl⟩
  · rename_i counts
    rw [or_iff_right counts]
    split
    · rename_i past
      exact ⟨fun _ => Or.inl (ends.mp past), fun _ => rfl⟩
    · rename_i inside
      rw [decide_eq_true_eq, or_iff_right fun past => inside (ends.mpr past)]

/-! ### One coordinate -/

/-- What a limiter remembers of the current window of a coordinate. -/
def remembered (state : Option KeyState) : Option Current :=
  state.map fun found => ⟨found.startTime, found.count⟩

/-- The state kept for a coordinate accounts for its part of the history. -/
structure KeySound (params : LimitParams) (history : List LimiterEvent) (id : LimitId)
    (key : String) (clock : TimePoint) (state : Option KeyState) : Prop where
  started : ∀ found, state = some found → found.startTime ≤ clock
  counted : params.requestsPerPeriod ≠ 0 → ∀ found, state = some found → 0 < found.count
  single : params.requestsPerPeriod ≠ 0 → params.periodMs ≤ 0 → ∀ found, state = some found →
    found.count ≤ 1
  ledger : 0 < params.requestsPerPeriod → 0 < params.periodMs →
    Ledger params.period params.requestsPerPeriod.toNat (admissions history id key)
      (remembered state) clock
  tokens : ∀ found token, state = some found → token ∈ found.inFlightTokens →
    params.sequential = true ∧ InFlight history id key token

namespace KeySound

variable {params : LimitParams} {history : List LimiterEvent} {id : LimitId} {key : String}
  {clock now : ℕ} {state : Option KeyState}

/-- An event that neither allows nor releases a request on the coordinate. -/
theorem unrelated (sound : KeySound params history id key clock state) (later : clock ≤ now)
    (event : LimiterEvent) (allowsNone : admissions [event] id key = [])
    (releasesNone : ∀ call, event = .released call → ¬ call.Names id key) :
    KeySound params (history ++ [event]) id key now state where
  started found is := le_trans (sound.started found is) later
  counted := sound.counted
  single := sound.single
  ledger positive lasting := by
    rw [admissions_append, allowsNone, List.append_nil]
    exact (sound.ledger positive lasting).advance later
  tokens found token is member := by
    obtain ⟨flag, inFlight⟩ := sound.tokens found token is member
    exact ⟨flag, inFlight.append event fun call same both => releasesNone call same both.1⟩

/-- What the window of a coordinate takes when a request is allowed on it. -/
theorem takes_commit (sound : KeySound params history id key clock state) (later : clock ≤ now)
    {token : Token} (passes : canPassKey params state token now = true)
    (positive : 0 < params.requestsPerPeriod) :
    Current.Takes params.period params.requestsPerPeriod.toNat now (remembered state)
      ⟨(commitKey params state token now).startTime, (commitKey params state token now).count⟩ := by
  have order : (state.getD {}).startTime ≤ now := by
    cases state with
    | none => exact Nat.zero_le _
    | some found => exact le_trans (sound.started found rfl) later
  have ends := le_elapsedMs_iff order params.periodMs
  by_cases expired : elapsedMs now (state.getD {}).startTime ≥ params.periodMs
  · obtain ⟨opened, one⟩ := commitKey_window_expired positive.ne' expired token
    rw [opened, one]
    cases state with
    | none => exact .fresh (by simpa [LimitParams.period] using ends.mp expired)
    | some found => exact .reopened (ends.mp expired)
  · obtain ⟨opened, more⟩ := commitKey_window_open positive.ne' expired token
    have inside : now < (state.getD {}).startTime + params.period :=
      Nat.lt_of_not_le fun past => expired (ends.mpr past)
    rw [opened, more]
    cases state with
    | none => exact .early (by simpa using inside)
    | some found =>
      refine .charged inside ?_
      have below : (found.count : ℤ) < params.requestsPerPeriod := by
        rw [Option.getD_some] at expired
        simp only [canPassKey, checkKey, if_neg positive.ne', if_neg expired] at passes
        split at passes
        · simp at passes
        · exact of_decide_eq_true passes
      show found.count < params.requestsPerPeriod.toNat
      omega

/-- The ledger of a coordinate after a request was allowed on it. -/
theorem ledger_commit (sound : KeySound params history id key clock state) (later : clock ≤ now)
    {token : Token} (passes : canPassKey params state token now = true)
    (positive : 0 < params.requestsPerPeriod) (lasting : 0 < params.periodMs) :
    Ledger params.period params.requestsPerPeriod.toNat (admissions history id key ++ [now])
      (remembered (some (commitKey params state token now))) now :=
  (sound.ledger positive lasting).take later (sound.takes_commit later passes positive) (by omega)
    (Nat.mul_pos (by omega) (by decide))

/-- A request that passes the coordinate is allowed on it. -/
theorem commit (sound : KeySound params history id key clock state) (later : clock ≤ now)
    {call : RequestCall} (named : call.Names id key)
    (passes : canPassKey params state call.token now = true) :
    KeySound params (history ++ [.decided call now true]) id key now
      (some (commitKey params state call.token now)) where
  started found is := by
    obtain rfl := Option.some.inj is
    by_cases uncounted : params.requestsPerPeriod = 0
    · rw [(commitKey_window_uncounted uncounted state call.token now).1]
      cases state with
      | none => exact Nat.zero_le _
      | some old => exact le_trans (sound.started old rfl) later
    · by_cases expired : elapsedMs now (state.getD {}).startTime ≥ params.periodMs
      · rw [(commitKey_window_expired uncounted expired call.token).1]
      · rw [(commitKey_window_open uncounted expired call.token).1]
        cases state with
        | none => exact Nat.zero_le _
        | some old => exact le_trans (sound.started old rfl) later
  counted positive found is := by
    obtain rfl := Option.some.inj is
    by_cases expired : elapsedMs now (state.getD {}).startTime ≥ params.periodMs
    · rw [(commitKey_window_expired positive expired call.token).2]
      exact Nat.one_pos
    · rw [(commitKey_window_open positive expired call.token).2]
      exact Nat.succ_pos _
  single counts instant found is := by
    obtain rfl := Option.some.inj is
    have order : (state.getD {}).startTime ≤ now := by
      cases state with
      | none => exact Nat.zero_le _
      | some old => exact le_trans (sound.started old rfl) later
    have expired : elapsedMs now (state.getD {}).startTime ≥ params.periodMs := by
      refine (le_elapsedMs_iff order _).mpr ?_
      rw [Int.toNat_of_nonpos instant, Nat.zero_mul, Nat.add_zero]
      exact order
    exact (commitKey_window_expired counts expired call.token).2.le
  ledger positive lasting := by
    have new : admissions [.decided call now true] id key = [now] := by
      simp [admissions, named]
    rw [admissions_append, new]
    exact sound.ledger_commit later passes positive lasting
  tokens found token is member := by
    obtain rfl := Option.some.inj is
    rw [commitKey_tokens] at member
    have old : token ∈ (state.getD {}).inFlightTokens →
        params.sequential = true ∧
          InFlight (history ++ [.decided call now true]) id key token := by
      intro inside
      cases state with
      | none => simp at inside
      | some before =>
        obtain ⟨flag, inFlight⟩ := sound.tokens before token rfl inside
        exact ⟨flag, inFlight.append _ fun later equal => by simp at equal⟩
    split at member
    · rename_i entered
      rcases Finset.mem_insert.mp member with rfl | inside
      · exact ⟨entered.1, InFlight.of_allowed named entered.2 now⟩
      · exact old inside
    · exact old member

theorem collectKey_eq_some {found kept : KeyState}
    (swept : collectKey params now found = some kept) : found = kept := by
  unfold collectKey at swept
  split at swept
  · simp at swept
  · exact Option.some.inj swept

/-- What a collection erases of a counted coordinate has run out. -/
theorem collected (sound : KeySound params history id key clock state)
    (counts : params.requestsPerPeriod ≠ 0) :
    state.bind (collectKey params clock) = state ∨
      state.bind (collectKey params clock) = none ∧
        ∃ found, state = some found ∧ found.startTime + params.period ≤ clock := by
  cases state with
  | none => exact Or.inl rfl
  | some found =>
    rw [Option.bind_some, collectKey]
    split
    · rename_i stale
      have counted := sound.counted counts found rfl
      simp only [isStale, Bool.and_eq_true, Bool.or_eq_true, decide_eq_true_eq] at stale
      have expired := stale.2.resolve_left counted.ne'
      exact Or.inr ⟨rfl, found, rfl, (le_elapsedMs_iff (sound.started found rfl) _).mp expired⟩
    · exact Or.inl rfl

/-- A collection erases the state only when nothing of it matters any more. -/
theorem collect (sound : KeySound params history id key clock state) :
    KeySound params history id key clock (state.bind (collectKey params clock)) where
  started kept is := by
    obtain ⟨found, same, swept⟩ := Option.bind_eq_some_iff.mp is
    rw [← collectKey_eq_some swept]
    exact sound.started found same
  counted counts kept is := by
    obtain ⟨found, same, swept⟩ := Option.bind_eq_some_iff.mp is
    rw [← collectKey_eq_some swept]
    exact sound.counted counts found same
  single counts instant kept is := by
    obtain ⟨found, same, swept⟩ := Option.bind_eq_some_iff.mp is
    rw [← collectKey_eq_some swept]
    exact sound.single counts instant found same
  ledger positive lasting := by
    have ledger := sound.ledger positive lasting
    rcases sound.collected positive.ne' with kept | ⟨gone, found, rfl, expired⟩
    · rw [kept]
      exact ledger
    · rw [gone]
      exact ledger.forget expired
  tokens kept token is member := by
    obtain ⟨found, same, swept⟩ := Option.bind_eq_some_iff.mp is
    rw [← collectKey_eq_some swept] at member
    exact sound.tokens found token same member

theorem dropToken_eq_some {found kept : KeyState} {token : Token}
    (is : dropToken found token = some kept) :
    kept = { found with inFlightTokens := found.inFlightTokens.erase token } := by
  unfold dropToken at is
  dsimp only at is
  split at is
  · simp at is
  · exact (Option.some.inj is).symm

/-- Releasing a token leaves the window of a counted coordinate. -/
theorem remembered_drop (sound : KeySound params history id key clock state)
    (counts : params.requestsPerPeriod ≠ 0) (token : Token) :
    remembered (state.bind (dropToken · token)) = remembered state := by
  cases state with
  | none => rfl
  | some found =>
    have counted := sound.counted counts found rfl
    rw [Option.bind_some, dropToken]
    dsimp only
    rw [if_neg (fun both => counted.ne' both.2)]
    rfl

/-- Releasing a token on the coordinate. -/
theorem drop (sound : KeySound params history id key clock state) (call : RequestCall) :
    KeySound params (history ++ [.released call]) id key clock
      (state.bind (dropToken · call.token)) where
  started kept is := by
    obtain ⟨found, same, dropped⟩ := Option.bind_eq_some_iff.mp is
    rw [dropToken_eq_some dropped]
    exact sound.started found same
  counted positive kept is := by
    obtain ⟨found, same, dropped⟩ := Option.bind_eq_some_iff.mp is
    rw [dropToken_eq_some dropped]
    exact sound.counted positive found same
  single counts instant kept is := by
    obtain ⟨found, same, dropped⟩ := Option.bind_eq_some_iff.mp is
    rw [dropToken_eq_some dropped]
    exact sound.single counts instant found same
  ledger positive lasting := by
    rw [admissions_append, show admissions [.released call] id key = [] from rfl, List.append_nil]
    rw [sound.remembered_drop positive.ne' call.token]
    exact sound.ledger positive lasting
  tokens kept token is member := by
    obtain ⟨found, same, dropped⟩ := Option.bind_eq_some_iff.mp is
    rw [dropToken_eq_some dropped] at member
    obtain ⟨different, inside⟩ := Finset.mem_erase.mp member
    obtain ⟨flag, inFlight⟩ := sound.tokens found token same inside
    refine ⟨flag, inFlight.append _ fun later equal both => different ?_⟩
    rw [← both.2, ← LimiterEvent.released.inj equal]

/-- Releasing a token that the coordinate's limit does not track. -/
theorem drop_untracked (sound : KeySound params history id key clock state) (call : RequestCall)
    (untracked : ¬ (call.Names id key ∧ params.sequential = true ∧ call.token ≠ 0)) :
    KeySound params (history ++ [.released call]) id key clock state where
  started := sound.started
  counted := sound.counted
  single := sound.single
  ledger positive lasting := by
    rw [admissions_append, show admissions [.released call] id key = [] from rfl, List.append_nil]
    exact sound.ledger positive lasting
  tokens found token is member := by
    obtain ⟨flag, inFlight⟩ := sound.tokens found token is member
    refine ⟨flag, inFlight.append _ fun later equal both => untracked ?_⟩
    obtain rfl := LimiterEvent.released.inj equal
    exact ⟨both.1, flag, by rw [both.2]; exact inFlight.1⟩

/-- A coordinate refuses a request only with cause. -/
theorem refuse (sound : KeySound params history id key clock state) (later : clock ≤ now)
    {token : Token} (refused : canPassKey params state token now = false) :
    (params.sequential = true ∧ ∃ other, other ≠ token ∧ InFlight history id key other) ∨
      (params.requestsPerPeriod ≠ 0 ∧ params.requestsPerPeriod ≤
        (Window.countRecent params.period now (admissions history id key) : ℤ)) := by
  cases state with
  | none => simp [canPassKey] at refused
  | some found =>
    rw [canPassKey] at refused
    split at refused
    · rename_i held
      simp only [heldByOther, Bool.and_eq_true, decide_eq_true_eq] at held
      obtain ⟨⟨⟨flag, _⟩, occupied⟩, absent⟩ := held
      obtain ⟨other, member⟩ := Finset.nonempty_iff_ne_empty.mpr occupied
      obtain ⟨_, inFlight⟩ := sound.tokens found other rfl member
      exact Or.inl ⟨flag, other, fun same => absent (same ▸ member), inFlight⟩
    · right
      have order : found.startTime ≤ now := le_trans (sound.started found rfl) later
      simp only [checkKey] at refused
      split at refused
      · simp at refused
      · rename_i counts
        split at refused
        · simp at refused
        · rename_i inside
          refine ⟨counts, ?_⟩
          have exhausted := of_decide_eq_false refused
          rcases le_or_gt params.requestsPerPeriod 0 with negative | positive
          · exact le_trans negative (Int.natCast_nonneg _)
          · have unexpired : now < found.startTime + params.period :=
              Nat.lt_of_not_le fun past => inside ((le_elapsedMs_iff order _).mpr past)
            have lasting : 0 < params.periodMs := by
              have period : 0 < params.periodMs.toNat * nanosPerMilli :=
                Nat.pos_of_lt_add_right (lt_of_le_of_lt order unexpired)
              have nonzero : params.periodMs.toNat ≠ 0 := by
                intro zero
                simp [zero] at period
              omega
            have recent := (sound.ledger positive lasting).count_le_recent unexpired
            have counted : found.count ≤
                Window.countRecent params.period now (admissions history id key) := recent
            omega

end KeySound

/-! ### Whole runs -/

/-- The limiter accounts for its history. -/
structure Accounts (world : LimiterWorld) : Prop where
  createdOnce : ∀ id params other, .created id params ∈ world.history →
    .created id other ∈ world.history → params = other
  createdBelow : ∀ id params, .created id params ∈ world.history → id < world.limiter.nextId
  unusedAbove : ∀ id key, world.limiter.nextId ≤ id → admissions world.history id key = []
  present : ∀ id params mark, headerAt world.limiter id = some (params, mark) →
    .created id params ∈ world.history
  sound : ∀ id params key, Registered world.limiter id params →
    KeySound params world.history id key world.clock (keyAt world.limiter id key)
  bounded : ∀ id params key opening, .created id params ∈ world.history →
    0 < params.requestsPerPeriod → 0 < params.periodMs →
    Window.countIn params.period opening (admissions world.history id key) ≤
      2 * params.requestsPerPeriod.toNat
  justified : ∀ before event after, world.history = before ++ event :: after →
    ∀ call now, event = .decided call now false → Justified before call now

namespace Accounts

variable {world : LimiterWorld}

theorem init : Accounts limiterSystem.init where
  createdOnce _ _ _ member := absurd member List.not_mem_nil
  createdBelow _ _ member := absurd member List.not_mem_nil
  unusedAbove _ _ _ := rfl
  present id params mark found := by simp [headerAt, limiterSystem] at found
  sound id params key registered := by
    have found := registered.2
    simp [headerAt, limiterSystem] at found
  bounded _ _ _ _ member := absurd member List.not_mem_nil
  justified before event after split := by
    have nonempty : (before ++ event :: after).length ≠ 0 := by simp
    exact absurd (congrArg List.length split.symm) nonempty

/-- The limiter may lose headers without touching a key, and handles may move. -/
theorem weaken (accounts : Accounts world) {next : LimiterWorld}
    (sameHistory : next.history = world.history) (sameClock : next.clock = world.clock)
    (sameNext : next.limiter.nextId = world.limiter.nextId)
    (sameKeys : ∀ id key, keyAt next.limiter id key = keyAt world.limiter id key)
    (fewer : ∀ id params mark, headerAt next.limiter id = some (params, mark) →
      ∃ old, headerAt world.limiter id = some (params, old) ∧ (mark = false → old = false)) :
    Accounts next where
  createdOnce := by rw [sameHistory]; exact accounts.createdOnce
  createdBelow := by rw [sameHistory, sameNext]; exact accounts.createdBelow
  unusedAbove := by rw [sameHistory, sameNext]; exact accounts.unusedAbove
  present id params mark found := by
    obtain ⟨old, before, _⟩ := fewer id params mark found
    rw [sameHistory]
    exact accounts.present id params old before
  sound id params key registered := by
    obtain ⟨old, before, kept⟩ := fewer id params false registered.2
    obtain rfl := kept rfl
    rw [sameHistory, sameClock, sameKeys]
    exact accounts.sound id params key ⟨registered.1, before⟩
  bounded := by rw [sameHistory]; exact accounts.bounded
  justified := by rw [sameHistory]; exact accounts.justified

theorem create (accounts : Accounts world) (supports : Supports world.limiter (· ∈ world.copies))
    (params : LimitParams) : Accounts (world.createLimitHandle params) := by
  have unnamed : ∀ id key, admissions [.created world.limiter.nextId params] id key = [] :=
    fun _ _ => rfl
  have fresh : ∀ other, .created world.limiter.nextId other ∉ world.history :=
    fun other member => absurd (accounts.createdBelow _ _ member) (Nat.lt_irrefl _)
  refine ⟨?_, ?_, ?_, ?_, ?_, ?_, ?_⟩
  · intro id first second firstMember secondMember
    simp only [LimiterWorld.createLimitHandle, createLimitHandle, List.mem_append,
      List.mem_singleton, LimiterEvent.created.injEq] at firstMember secondMember
    rcases firstMember with old | ⟨rfl, rfl⟩ <;> rcases secondMember with old' | ⟨same, rfl⟩
    · exact accounts.createdOnce id first second old old'
    · exact absurd (same ▸ old) (fresh first)
    · exact absurd old' (fresh second)
    · rfl
  · intro id other member
    simp only [LimiterWorld.createLimitHandle, createLimitHandle, List.mem_append,
      List.mem_singleton, LimiterEvent.created.injEq] at member
    rcases member with old | ⟨rfl, _⟩
    · exact Nat.lt_succ_of_lt (accounts.createdBelow id other old)
    · exact Nat.lt_succ_self _
  · intro id key above
    have unused := accounts.unusedAbove id key (Nat.le_of_succ_le above)
    exact (admissions_append _ _ _ _).trans (by rw [unused]; rfl)
  · intro id other mark found
    refine List.mem_append.mpr ?_
    change headerAt (createLimitHandle world.limiter params.requestsPerPeriod params.periodMs
      params.sequential).2 id = _ at found
    rw [headerAt_createLimitHandle] at found
    split at found
    · rename_i same
      simp only [Option.some.injEq, Prod.mk.injEq] at found
      exact Or.inr (by rw [same, ← found.1]; exact List.mem_singleton.mpr rfl)
    · exact Or.inl (accounts.present id other mark found)
  · intro id other key registered
    have found := registered.2
    change headerAt (createLimitHandle world.limiter params.requestsPerPeriod params.periodMs
      params.sequential).2 id = _ at found
    rw [headerAt_createLimitHandle] at found
    change KeySound other (world.history ++ [.created world.limiter.nextId params]) id key
      world.clock (keyAt (createLimitHandle world.limiter params.requestsPerPeriod
        params.periodMs params.sequential).2 id key)
    rw [supports.keyAt_createLimitHandle]
    split at found
    · rename_i same
      have unused := accounts.unusedAbove id key same.ge
      have nothing : keyAt world.limiter id key = none := by
        rw [same]
        exact Supports.keyAt_of_headerAt_none supports.headerAt_nextId key
      rw [nothing]
      refine ⟨by simp, by simp, by simp, fun _ _ => ?_, by simp⟩
      rw [admissions_append, unused, unnamed]
      exact Ledger.empty _ _ _
    · exact (accounts.sound id other key ⟨registered.1, found⟩).unrelated le_rfl _ (unnamed _ _)
        (by simp)
  · intro id other key opening member positive lasting
    change Window.countIn other.period opening
      (admissions (world.history ++ [.created world.limiter.nextId params]) id key) ≤ _
    rw [admissions_append, unnamed, List.append_nil]
    rcases List.mem_append.mp member with old | new
    · exact accounts.bounded id other key opening old positive lasting
    · have same := List.mem_singleton.mp new
      rw [LimiterEvent.created.injEq] at same
      rw [accounts.unusedAbove id key (by rw [same.1]; exact le_rfl)]
      exact Nat.zero_le _
  · exact Log.forall_concat accounts.justified (by simp)

theorem release (accounts : Accounts world) (supports : Supports world.limiter (· ∈ world.copies))
    {call : RequestCall} (holds : world.Holds call) : Accounts (world.releaseRequest call) := by
  have unnamed : ∀ id key, admissions [.released call] id key = [] := fun _ _ => rfl
  have sameNext := (release_bookkeeping call world.limiter).1
  have sameMembers : ∀ id params, .created id params ∈ world.history ++ [.released call] ↔
      .created id params ∈ world.history := by simp
  refine ⟨?_, ?_, ?_, ?_, ?_, ?_, ?_⟩
  · intro id first second firstMember secondMember
    exact accounts.createdOnce id first second ((sameMembers _ _).mp firstMember)
      ((sameMembers _ _).mp secondMember)
  · intro id other member
    exact sameNext ▸ accounts.createdBelow id other ((sameMembers _ _).mp member)
  · intro id key above
    have unused := accounts.unusedAbove id key (sameNext ▸ above)
    exact (admissions_append _ _ _ _).trans (by rw [unused]; rfl)
  · intro id other mark found
    exact (sameMembers _ _).mpr (accounts.present id other mark
      (by rw [← headerAt_release world.limiter call]; exact found))
  · intro id params key registered
    have found : headerAt world.limiter id = some (params, false) := by
      rw [← headerAt_release world.limiter call]
      exact registered.2
    have sound := accounts.sound id params key ⟨registered.1, found⟩
    change KeySound params (world.history ++ [.released call]) id key world.clock
      (keyAt (call.release world.limiter) id key)
    rw [keyAt_release (supports.call_held holds) found]
    split
    · exact sound.drop call
    · rename_i untracked
      exact sound.drop_untracked call untracked
  · intro id params key opening member positive lasting
    change Window.countIn params.period opening
      (admissions (world.history ++ [.released call]) id key) ≤ _
    rw [admissions_append, unnamed, List.append_nil]
    exact accounts.bounded id params key opening ((sameMembers _ _).mp member) positive lasting
  · exact Log.forall_concat accounts.justified (by simp)

/-- Deciding a call changes neither which limits exist nor the instants of other
coordinates. -/
theorem decide_bookkeeping (accounts : Accounts world) {call : RequestCall}
    (callHeld : call.Held world.limiter) (now : TimePoint) :
    (∀ id params, .created id params ∈ (world.allowRequest call now).history ↔
      .created id params ∈ world.history) ∧
    (world.allowRequest call now).limiter.nextId = world.limiter.nextId ∧
    (∀ id params mark, headerAt (world.allowRequest call now).limiter id = some (params, mark) →
      .created id params ∈ (world.allowRequest call now).history) ∧
    ∀ id key, ¬ call.Names id key →
      admissions (world.allowRequest call now).history id key =
        admissions world.history id key := by
  refine ⟨by simp [LimiterWorld.allowRequest], (allow_bookkeeping call world.limiter now).1,
    fun id params mark found => ?_, fun id key unnamed => ?_⟩
  · exact List.mem_append_left _ (accounts.present id params mark
      (headerAt_allow callHeld id (params, mark) found))
  · refine (admissions_append _ _ _ _).trans ?_
    have nothing : admissions [.decided call now (call.allow world.limiter now).1] id key = [] := by
      cases (call.allow world.limiter now).1 <;> simp [admissions, unnamed]
    rw [nothing, List.append_nil]

theorem sound_allow (accounts : Accounts world) {call : RequestCall} {now : TimePoint}
    (callHeld : call.Held world.limiter) (later : world.clock ≤ now) (id : LimitId)
    (params : LimitParams) (key : String)
    (registered : Registered (world.allowRequest call now).limiter id params) :
    KeySound params (world.allowRequest call now).history id key now
      (keyAt (world.allowRequest call now).limiter id key) := by
  have before : Registered world.limiter id params :=
    ⟨registered.1, headerAt_allow callHeld id _ registered.2⟩
  have sound := accounts.sound id params key before
  change KeySound params (world.history ++ [.decided call now (call.allow world.limiter now).1])
    id key now (keyAt (call.allow world.limiter now).2 id key)
  cases answer : (call.allow world.limiter now).1 with
  | false =>
    rw [allow_snd_of_refused answer]
    exact sound.unrelated later _ rfl (by simp)
  | true =>
    obtain ⟨collects, settles⟩ := keyAt_allow callHeld answer
    rw [settles id key params false before.2, settled]
    have committed : KeySound params (world.history ++ [.decided call now true]) id key now
        (if call.Names id key then
          some (commitKey params (keyAt world.limiter id key) call.token now)
        else keyAt world.limiter id key) := by
      split
      · rename_i named
        exact sound.commit later named ((allow_fst_iff callHeld now).mp answer id key params named
          before)
      · rename_i unnamed
        exact sound.unrelated later _ (by simp [admissions, unnamed]) (by simp)
    cases collects with
    | false => simpa using committed
    | true => exact committed.collect

theorem allow (accounts : Accounts world) (supports : Supports world.limiter (· ∈ world.copies))
    {call : RequestCall} (holds : world.Holds call) {now : TimePoint}
    (later : world.clock ≤ now) : Accounts (world.allowRequest call now) := by
  have callHeld := supports.call_held holds
  obtain ⟨sameMembers, sameNext, present, others⟩ := accounts.decide_bookkeeping callHeld now
  have sound := accounts.sound_allow callHeld later
  refine ⟨?_, ?_, ?_, present, sound, ?_, ?_⟩
  · intro id first second firstMember secondMember
    exact accounts.createdOnce id first second ((sameMembers _ _).mp firstMember)
      ((sameMembers _ _).mp secondMember)
  · intro id params member
    exact sameNext ▸ accounts.createdBelow id params ((sameMembers _ _).mp member)
  · intro id key above
    rw [others id key, accounts.unusedAbove id key (sameNext ▸ above)]
    intro named
    obtain ⟨params, registered⟩ := callHeld id key named
    exact absurd (supports.bounded id _ registered.2) (Nat.not_lt.mpr (sameNext ▸ above))
  · intro id params key opening member positive lasting
    by_cases named : call.Names id key
    · obtain ⟨found, registered⟩ := callHeld id key named
      have same : found = params := accounts.createdOnce id found params
        (accounts.present id found false registered.2) ((sameMembers _ _).mp member)
      subst same
      exact ((sound id found key (registered.allow callHeld now)).ledger positive lasting).countIn_le
        opening
    · rw [others id key named]
      exact accounts.bounded id params key opening ((sameMembers _ _).mp member) positive lasting
  · refine Log.forall_concat accounts.justified ?_
    intro refusedCall instant equal
    simp only [LimiterEvent.decided.injEq] at equal
    obtain ⟨rfl, rfl, refused⟩ := equal
    have somewhere := mt (allow_fst_iff callHeld now).mpr (by rw [refused]; simp)
    push Not at somewhere
    obtain ⟨id, key, params, named, registered, fails⟩ := somewhere
    refine ⟨id, key, params, named, accounts.present id params false registered.2, ?_⟩
    exact (accounts.sound id params key registered).refuse later (by simpa using fails)

end Accounts

theorem limiter_accounts {world : LimiterWorld} (reachable : limiterSystem.Reachable world) :
    Accounts world := by
  refine reachable.induction Accounts Accounts.init ?_
  intro before action after reached accounts stepped
  have supports := limiter_supports reached
  cases limiterStep_of_step stepped with
  | create params => exact accounts.create supports params
  | copy id available =>
    exact accounts.weaken rfl rfl rfl (fun _ _ => rfl)
      fun _ _ mark found => ⟨mark, found, fun unmarked => unmarked⟩
  | drop id held =>
    exact accounts.weaken rfl rfl (dropHandle_nextId _ _ _) (keyAt_dropHandle _ _ _)
      (headerAt_dropHandle _ _ _)
  | remove id =>
    have sameLimits := removeLimit_limits before.limiter id
    refine accounts.weaken rfl rfl (removeLimit_nextId _ _) (fun other key => ?_)
      fun other params mark found => ⟨mark, ?_, fun unmarked => unmarked⟩
    · simp only [LimiterWorld.removeLimit, keyAt, sameLimits]
    · simpa only [LimiterWorld.removeLimit, headerAt, sameLimits] using found
  | allow call now holds later => exact accounts.allow supports holds later
  | release call holds => exact accounts.release supports holds
  | idle => exact accounts

/-- Over every run of a limiter, with whatever tokens, keys, limits, handles and collections:
half-open intervals of one period hold at most twice the count of a limit on each of its keys,
and a request is refused only with cause. -/
theorem limiter_throttles {world : LimiterWorld} (reachable : limiterSystem.Reachable world) :
    (∀ id params, .created id params ∈ world.history → 0 < params.requestsPerPeriod →
      0 < params.periodMs → ∀ key opening,
        (Window.countIn params.period opening (admissions world.history id key) : ℤ) ≤
          2 * params.requestsPerPeriod) ∧
    (∀ before call now after, world.history = before ++ .decided call now false :: after →
      Justified before call now) := by
  have accounts := limiter_accounts reachable
  refine ⟨fun id params created positive lasting key opening => ?_, ?_⟩
  · have bound := accounts.bounded id params key opening created positive lasting
    omega
  · intro before call now after split
    exact accounts.justified before _ after split call now rfl

/-- A limit of one request in ten milliseconds, used by two requests in succession: the second
is refused at once and a third is allowed when the period is over. -/
def onePerPeriod : List LimiterAction :=
  [.createLimitHandle 1 10 false,
    .allowRequest ⟨some 1, none, 1, "key", ""⟩ 50000000,
    .allowRequest ⟨some 1, none, 2, "key", ""⟩ 59999999,
    .allowRequest ⟨some 1, none, 3, "key", ""⟩ 60000000]

theorem limiter_throttles_onePerPeriod :
    ∃ world, limiterSystem.Runs limiterSystem.init onePerPeriod world ∧
      world.history = [.created 1 ⟨1, 10, false⟩,
        .decided ⟨some 1, none, 1, "key", ""⟩ 50000000 true,
        .decided ⟨some 1, none, 2, "key", ""⟩ 59999999 false,
        .decided ⟨some 1, none, 3, "key", ""⟩ 60000000 true] ∧
      (Window.countIn 10000000 50000000 (admissions world.history 1 "key") : ℤ) ≤ 2 ∧
      Justified [.created 1 ⟨1, 10, false⟩,
          .decided ⟨some 1, none, 1, "key", ""⟩ 50000000 true]
        ⟨some 1, none, 2, "key", ""⟩ 59999999 := by
  have some_world : (limiterSystem.run limiterSystem.init onePerPeriod).isSome = true := by decide
  obtain ⟨world, runs⟩ := Option.isSome_iff_exists.mp some_world
  have history : world.history = [.created 1 ⟨1, 10, false⟩,
        .decided ⟨some 1, none, 1, "key", ""⟩ 50000000 true,
        .decided ⟨some 1, none, 2, "key", ""⟩ 59999999 false,
        .decided ⟨some 1, none, 3, "key", ""⟩ 60000000 true] := by
    have recorded : (limiterSystem.run limiterSystem.init onePerPeriod).map
        LimiterWorld.history = some world.history := by rw [runs]; rfl
    rw [← Option.some.injEq, ← recorded]
    decide
  obtain ⟨bounded, justified⟩ := limiter_throttles ⟨onePerPeriod, runs⟩
  refine ⟨world, runs, history, ?_, ?_⟩
  · exact bounded 1 ⟨1, 10, false⟩ (by rw [history]; decide) (by decide) (by decide) "key" 50000000
  · exact justified _ _ _ _ (by rw [history]; rfl)

end Kurlyk.RateLimiter
