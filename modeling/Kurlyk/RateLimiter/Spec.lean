/-
This file says what each call of the rate limiter does to one coordinate, a limit
identifier with a partition key.

Everything later proofs need of a limiter is its header at an identifier (the
parameters of the limit and whether it is marked removed) and its state at a
coordinate. `commit_limit` and `release_key` touch the coordinates they name and
no header; a collection acts on each coordinate separately and only ever loses
the header of a removed limit. The two calls of a request are then summarised by
one theorem each, and no later proof unfolds them.
-/

import Kurlyk.RateLimiter.Basic

namespace Kurlyk.RateLimiter

/-! ### What a commit makes of one key -/

theorem updateKey_tokens (params : LimitParams) (state : KeyState) (now : TimePoint) :
    (updateKey params state now).inFlightTokens = state.inFlightTokens := by
  unfold updateKey
  split
  · rfl
  · split <;> rfl

/-- A commit enters the token of a sequential limit, and no other. -/
theorem commitKey_tokens (params : LimitParams) (found : Option KeyState) (token : Token)
    (now : TimePoint) :
    (commitKey params found token now).inFlightTokens =
      if params.sequential = true ∧ token ≠ 0 then
        insert token (found.getD {}).inFlightTokens
      else (found.getD {}).inFlightTokens := by
  rw [commitKey, updateKey_tokens, enterKey]
  simp only [Bool.and_eq_true, decide_eq_true_eq]
  split <;> rfl

theorem enterKey_window (params : LimitParams) (found : Option KeyState) (token : Token) :
    (enterKey params found token).startTime = (found.getD {}).startTime ∧
      (enterKey params found token).count = (found.getD {}).count := by
  unfold enterKey
  dsimp only
  split <;> exact ⟨rfl, rfl⟩

/-- A commit of an uncounted limit leaves the window of the key as it is. -/
theorem commitKey_window_uncounted {params : LimitParams} (uncounted : params.requestsPerPeriod = 0)
    (found : Option KeyState) (token : Token) (now : TimePoint) :
    (commitKey params found token now).startTime = (found.getD {}).startTime ∧
      (commitKey params found token now).count = (found.getD {}).count := by
  rw [commitKey, updateKey, if_pos uncounted]
  exact enterKey_window params found token

/-- After the period a commit opens a window that has admitted one request. -/
theorem commitKey_window_expired {params : LimitParams} {found : Option KeyState}
    {now : TimePoint} (counted : params.requestsPerPeriod ≠ 0)
    (expired : elapsedMs now (found.getD {}).startTime ≥ params.periodMs) (token : Token) :
    (commitKey params found token now).startTime = now ∧
      (commitKey params found token now).count = 1 := by
  have sameStart := (enterKey_window params found token).1
  rw [commitKey, updateKey, if_neg counted, if_pos (by rw [sameStart]; exact expired)]
  exact ⟨rfl, rfl⟩

/-- Within the period a commit counts one more request in the window. -/
theorem commitKey_window_open {params : LimitParams} {found : Option KeyState}
    {now : TimePoint} (counted : params.requestsPerPeriod ≠ 0)
    (inside : ¬ elapsedMs now (found.getD {}).startTime ≥ params.periodMs) (token : Token) :
    (commitKey params found token now).startTime = (found.getD {}).startTime ∧
      (commitKey params found token now).count = (found.getD {}).count + 1 := by
  obtain ⟨sameStart, sameCount⟩ := enterKey_window params found token
  rw [commitKey, updateKey, if_neg counted, if_neg (by rw [sameStart]; exact inside)]
  exact ⟨sameStart, congrArg (· + 1) sameCount⟩

/-! ### Headers and coordinates -/

/-- The parameters of a limit and its `removed` mark. -/
def headerAt (limiter : HttpRateLimiter) (id : LimitId) : Option (LimitParams × Bool) :=
  (limiter.limits.lookup id).map fun limit => (limit.toLimitParams, limit.removed)

/-- The state of one key of one limit. -/
def keyAt (limiter : HttpRateLimiter) (id : LimitId) (key : String) : Option KeyState :=
  (limiter.limits.lookup id).bind fun limit => limit.keys.lookup key

/-- The limit is present with these parameters and not marked removed. -/
def Registered (limiter : HttpRateLimiter) (id : LimitId) (params : LimitParams) : Prop :=
  id ≠ 0 ∧ headerAt limiter id = some (params, false)

theorem Registered.unique {limiter : HttpRateLimiter} {id : LimitId}
    {params other : LimitParams} (registered : Registered limiter id params)
    (again : Registered limiter id other) : params = other := by
  have equal := registered.2.symm.trans again.2
  simpa using equal

theorem Registered.exists_limit {limiter : HttpRateLimiter} {id : LimitId}
    {params : LimitParams} (registered : Registered limiter id params) :
    ∃ limit, findLimit limiter id = some limit ∧ limiter.limits.lookup id = some limit ∧
      limit.toLimitParams = params ∧ limit.removed = false := by
  obtain ⟨nonzero, header⟩ := registered
  obtain ⟨limit, found, equal⟩ := Option.map_eq_some_iff.mp header
  rw [Prod.mk.injEq] at equal
  exact ⟨limit, by rw [findLimit, if_pos nonzero, found], found, equal.1, equal.2⟩

theorem keyAt_of_lookup {limiter : HttpRateLimiter} {id : LimitId} {limit : LimitData}
    (found : limiter.limits.lookup id = some limit) (key : String) :
    keyAt limiter id key = limit.keys.lookup key := by
  rw [keyAt, found, Option.bind_some]

/-! ### Replacing one limit -/

/-- Overwriting one limit by one with the same parameters and mark keeps every header. -/
theorem headerAt_insert {limiter : HttpRateLimiter} {id : LimitId} {limit replaced : LimitData}
    (found : limiter.limits.lookup id = some limit)
    (sameParams : replaced.toLimitParams = limit.toLimitParams)
    (sameMark : replaced.removed = limit.removed) (other : LimitId) :
    headerAt { limiter with limits := limiter.limits.insert id replaced } other =
      headerAt limiter other := by
  simp only [headerAt, Table.lookup_insert_eq]
  by_cases same : other = id
  · rw [if_pos same, same, found]
    simp only [Option.map_some, sameParams, sameMark]
  · rw [if_neg same]

theorem keyAt_insert (limiter : HttpRateLimiter) (id other : LimitId) (replaced : LimitData)
    (key : String) :
    keyAt { limiter with limits := limiter.limits.insert id replaced } other key =
      if other = id then replaced.keys.lookup key else keyAt limiter other key := by
  simp only [keyAt, Table.lookup_insert_eq]
  by_cases same : other = id
  · rw [if_pos same, if_pos same, Option.bind_some]
  · rw [if_neg same, if_neg same]

/-! ### Committing a coordinate -/

theorem headerAt_commitCoordinate (limiter : HttpRateLimiter) (id : LimitId) (key : String)
    (token : Token) (now : TimePoint) (other : LimitId) :
    headerAt (commitCoordinate limiter id key token now) other = headerAt limiter other := by
  unfold commitCoordinate findLimit
  by_cases zero : id = 0
  · simp [zero]
  · rw [if_pos zero]
    cases found : limiter.limits.lookup id with
    | none => rfl
    | some limit =>
      dsimp only
      split
      · rfl
      · refine headerAt_insert found ?_ ?_ other <;> rfl

theorem keyAt_commitCoordinate {limiter : HttpRateLimiter} {id : LimitId} {params : LimitParams}
    (registered : Registered limiter id params) (key : String) (token : Token) (now : TimePoint)
    (other : LimitId) (otherKey : String) :
    keyAt (commitCoordinate limiter id key token now) other otherKey =
      if other = id ∧ otherKey = key then
        some (commitKey params (keyAt limiter id key) token now)
      else keyAt limiter other otherKey := by
  obtain ⟨limit, found, lookup, sameParams, live⟩ := registered.exists_limit
  simp only [commitCoordinate, found, live, Bool.false_eq_true, if_false, keyAt_insert,
    commitLimit, Table.lookup_insert_eq, sameParams, keyAt_of_lookup lookup]
  by_cases same : other = id
  · subst same
    rw [if_pos rfl, keyAt_of_lookup lookup]
    simp only [true_and]
  · rw [if_neg same, if_neg (fun both => same both.1)]

/-! ### Releasing a coordinate -/

theorem releaseKey_header (limit : LimitData) (key : String) (token : Token) :
    (releaseKey limit key token).toLimitParams = limit.toLimitParams ∧
      (releaseKey limit key token).removed = limit.removed := by
  unfold releaseKey
  split
  · exact ⟨rfl, rfl⟩
  · split <;> exact ⟨rfl, rfl⟩

theorem releaseKey_lookup (limit : LimitData) (key : String) (token : Token) (other : String) :
    (releaseKey limit key token).keys.lookup other =
      if other = key then (limit.keys.lookup key).bind (dropToken · token)
      else limit.keys.lookup other := by
  unfold releaseKey
  cases found : limit.keys.lookup key with
  | none =>
    by_cases same : other = key
    · rw [if_pos same, same, found, Option.bind_none]
    · rw [if_neg same]
  | some state =>
    dsimp only [Option.bind_some]
    cases dropped : dropToken state token with
    | none => exact Table.lookup_erase_eq _ _ _
    | some released => exact Table.lookup_insert_eq _ _ _ _

theorem headerAt_releaseCoordinate (limiter : HttpRateLimiter) (id : LimitId) (key : String)
    (token : Token) (other : LimitId) :
    headerAt (releaseCoordinate limiter id key token) other = headerAt limiter other := by
  unfold releaseCoordinate findLimit
  by_cases zero : id = 0
  · simp [zero]
  · rw [if_pos zero]
    cases found : limiter.limits.lookup id with
    | none => rfl
    | some limit =>
      dsimp only
      split
      · exact headerAt_insert found (releaseKey_header limit key token).1
          (releaseKey_header limit key token).2 other
      · rfl

/-- Releasing a coordinate drops the token at that coordinate when the limit is sequential,
and changes nothing else. -/
theorem keyAt_releaseCoordinate {limiter : HttpRateLimiter} {id : LimitId}
    {params : LimitParams} (registered : Registered limiter id params) (key : String)
    (token : Token) (other : LimitId) (otherKey : String) :
    keyAt (releaseCoordinate limiter id key token) other otherKey =
      if (other = id ∧ otherKey = key) ∧ params.sequential = true then
        (keyAt limiter id key).bind (dropToken · token)
      else keyAt limiter other otherKey := by
  obtain ⟨limit, found, lookup, sameParams, _⟩ := registered.exists_limit
  have sameFlag : limit.sequential = params.sequential := by rw [← sameParams]
  simp only [releaseCoordinate, found, sameFlag]
  by_cases flag : params.sequential = true
  · rw [if_pos flag, keyAt_insert, releaseKey_lookup, keyAt_of_lookup lookup]
    by_cases same : other = id
    · subst same
      rw [if_pos rfl, keyAt_of_lookup lookup]
      simp only [true_and, flag, and_true]
    · rw [if_neg same, if_neg (fun both => same both.1.1)]
  · rw [if_neg flag, if_neg (fun both => flag both.2)]

/-! ### Collecting -/

theorem lookup_gcStaleKeys (limiter : HttpRateLimiter) (now : TimePoint) (id : LimitId) :
    (gcStaleKeys limiter now).limits.lookup id =
      (limiter.limits.lookup id).bind fun limit =>
        if (gcLimit limit now).removed && (gcLimit limit now).keys.isEmpty then none
        else some (gcLimit limit now) := by
  simp only [gcStaleKeys, Table.lookup_sweep]

/-- A collection keeps the header of every limit that is not marked removed. -/
theorem Registered.gcStaleKeys {limiter : HttpRateLimiter} {id : LimitId}
    {params : LimitParams} (registered : Registered limiter id params) (now : TimePoint) :
    Registered (gcStaleKeys limiter now) id params := by
  obtain ⟨limit, _, lookup, sameParams, live⟩ := registered.exists_limit
  refine ⟨registered.1, ?_⟩
  simp only [headerAt, lookup_gcStaleKeys, lookup, Option.bind_some, gcLimit, live,
    Bool.false_and, Bool.false_eq_true, if_false, Option.map_some, sameParams]

/-- A collection never adds or changes a header, it can only lose one. -/
theorem headerAt_gcStaleKeys (limiter : HttpRateLimiter) (now : TimePoint) (id : LimitId)
    (header : LimitParams × Bool) (kept : headerAt (gcStaleKeys limiter now) id = some header) :
    headerAt limiter id = some header := by
  rw [headerAt, lookup_gcStaleKeys] at kept
  cases found : limiter.limits.lookup id with
  | none => simp [found] at kept
  | some limit =>
    rw [found, Option.bind_some] at kept
    split at kept
    · simp at kept
    · rw [headerAt, found]
      exact kept

/-- A collection acts on each coordinate separately. -/
theorem keyAt_gcStaleKeys {limiter : HttpRateLimiter} {id : LimitId} {params : LimitParams}
    {mark : Bool} (header : headerAt limiter id = some (params, mark)) (now : TimePoint)
    (key : String) :
    keyAt (gcStaleKeys limiter now) id key = (keyAt limiter id key).bind (collectKey params now) := by
  obtain ⟨limit, lookup, equal⟩ := Option.map_eq_some_iff.mp header
  rw [Prod.mk.injEq] at equal
  have swept : (gcLimit limit now).keys.lookup key =
      (limit.keys.lookup key).bind (collectKey params now) := by
    rw [gcLimit, Table.lookup_sweep, equal.1]
  rw [keyAt, lookup_gcStaleKeys, lookup, Option.bind_some, keyAt_of_lookup lookup, ← swept]
  split
  · rename_i erased
    rw [Bool.and_eq_true] at erased
    exact ((Table.isEmpty_iff _).mp erased.2 key).symm
  · rfl

/-! ### A call that names two coordinates -/

/-- The arguments that `allow_request` and `release_request` share. -/
structure RequestCall where
  generalLimit : HttpRateLimitHandlePtr
  specificLimit : HttpRateLimitHandlePtr
  token : Token
  generalKey : String
  specificKey : String
deriving DecidableEq

/-- The call carries the coordinate, as its general or its specific one. -/
def RequestCall.Names (call : RequestCall) (id : LimitId) (key : String) : Prop :=
  (call.generalLimit = some id ∧ call.generalKey = key) ∨
    (call.specificLimit = some id ∧ call.specificKey = key)

instance (call : RequestCall) (id : LimitId) (key : String) : Decidable (call.Names id key) :=
  inferInstanceAs (Decidable (_ ∨ _))

/-- `allow_request` with these arguments. -/
def RequestCall.allow (call : RequestCall) (limiter : HttpRateLimiter) (now : TimePoint) :
    Bool × HttpRateLimiter :=
  allowRequest limiter call.generalLimit call.specificLimit call.token call.generalKey
    call.specificKey now

/-- `release_request` with these arguments. -/
def RequestCall.release (call : RequestCall) (limiter : HttpRateLimiter) : HttpRateLimiter :=
  releaseRequest limiter call.generalLimit call.specificLimit call.token call.generalKey
    call.specificKey

/-- Every limit the call names is registered: the caller holds its handle. -/
def RequestCall.Held (call : RequestCall) (limiter : HttpRateLimiter) : Prop :=
  ∀ id key, call.Names id key → ∃ params, Registered limiter id params

section Coordinates

variable {call : RequestCall} {limiter : HttpRateLimiter} {now : TimePoint}

theorem RequestCall.Held.general (held : call.Held limiter) {id : LimitId}
    (given : call.generalLimit = some id) : ∃ params, Registered limiter id params :=
  held id call.generalKey (Or.inl ⟨given, rfl⟩)

theorem RequestCall.Held.specific (held : call.Held limiter) {id : LimitId}
    (given : call.specificLimit = some id) : ∃ params, Registered limiter id params :=
  held id call.specificKey (Or.inr ⟨given, rfl⟩)

@[simp]
theorem handleId_none : handleId none = 0 := rfl

@[simp]
theorem handleId_some (id : LimitId) : handleId (some id) = id := rfl

/-- An absent handle names no limit, so its coordinate is neither checked nor written. -/
theorem findLimit_zero (limiter : HttpRateLimiter) : findLimit limiter 0 = none := by
  simp [findLimit]

theorem commitCoordinate_zero (limiter : HttpRateLimiter) (key : String) (token : Token)
    (now : TimePoint) : commitCoordinate limiter 0 key token now = limiter := by
  rw [commitCoordinate, findLimit_zero]

theorem releaseCoordinate_zero (limiter : HttpRateLimiter) (key : String) (token : Token) :
    releaseCoordinate limiter 0 key token = limiter := by
  rw [releaseCoordinate, findLimit_zero]

theorem coordinateAllows_registered {id : LimitId} {params : LimitParams}
    (registered : Registered limiter id params) (key : String) (token : Token)
    (now : TimePoint) :
    coordinateAllows (findLimit limiter id) key token now =
      canPassKey params (keyAt limiter id key) token now := by
  obtain ⟨limit, found, lookup, sameParams, live⟩ := registered.exists_limit
  simp only [coordinateAllows, found, live, Bool.false_eq_true, if_false, canPass, sameParams,
    keyAt_of_lookup lookup]

theorem Registered.commitCoordinate {id : LimitId} {params : LimitParams}
    (registered : Registered limiter id params) (other : LimitId) (key : String) (token : Token)
    (now : TimePoint) : Registered (commitCoordinate limiter other key token now) id params :=
  ⟨registered.1, by rw [headerAt_commitCoordinate]; exact registered.2⟩

theorem Registered.releaseCoordinate {id : LimitId} {params : LimitParams}
    (registered : Registered limiter id params) (other : LimitId) (key : String)
    (token : Token) : Registered (releaseCoordinate limiter other key token) id params :=
  ⟨registered.1, by rw [headerAt_releaseCoordinate]; exact registered.2⟩

theorem sameLimit_iff (generalId specificId : LimitId) (generalKey specificKey : String) :
    sameLimit generalId specificId generalKey specificKey = true ↔
      generalId ≠ 0 ∧ generalId = specificId ∧ generalKey = specificKey := by
  simp only [sameLimit, Bool.and_eq_true, decide_eq_true_eq, and_assoc]

/-- `same_limit` holds exactly when both handles name one limit and the keys agree. -/
theorem handles_eq_of_sameLimit (same : sameLimit (handleId call.generalLimit)
    (handleId call.specificLimit) call.generalKey call.specificKey = true) (id : LimitId)
    (key : String) :
    call.Names id key ↔ call.generalLimit = some id ∧ call.generalKey = key := by
  obtain ⟨nonzero, sameId, sameKey⟩ := (sameLimit_iff _ _ _ _).mp same
  have sameHandle : call.specificLimit = call.generalLimit := by
    cases first : call.generalLimit with
    | none => simp [first] at nonzero
    | some target =>
      cases second : call.specificLimit with
      | none => exact absurd sameId (by simpa [first, second] using nonzero)
      | some other =>
        rw [first, second, handleId_some, handleId_some] at sameId
        rw [sameId]
  rw [RequestCall.Names, sameHandle, ← sameKey, or_self]

/-- Without `same_limit` the two coordinates of a call are different. -/
theorem not_specific_of_general (held : call.Held limiter) (different : ¬ sameLimit
    (handleId call.generalLimit) (handleId call.specificLimit) call.generalKey
    call.specificKey = true) {id : LimitId} {key : String}
    (first : call.generalLimit = some id ∧ call.generalKey = key) :
    ¬ (call.specificLimit = some id ∧ call.specificKey = key) := by
  rintro ⟨sameId, sameKey⟩
  obtain ⟨_, registered⟩ := held.general first.1
  refine different ((sameLimit_iff _ _ _ _).mpr ⟨?_, ?_, first.2.trans sameKey.symm⟩)
  · rw [first.1]; exact registered.1
  · rw [first.1, sameId]

/-- Committing the coordinate of a handle, present or not. -/
theorem keyAt_commitHandle {handle : HttpRateLimitHandlePtr}
    (held : ∀ id, handle = some id → ∃ params, Registered limiter id params) (key : String)
    (token : Token) (now : TimePoint) {id : LimitId} {params : LimitParams} {mark : Bool}
    (header : headerAt limiter id = some (params, mark)) (other : String) :
    keyAt (commitCoordinate limiter (handleId handle) key token now) id other =
      if handle = some id ∧ key = other then
        some (commitKey params (keyAt limiter id other) token now)
      else keyAt limiter id other := by
  cases handle with
  | none =>
    rw [handleId_none, commitCoordinate_zero, if_neg (by simp)]
  | some target =>
    obtain ⟨targetParams, registered⟩ := held target rfl
    rw [handleId_some, keyAt_commitCoordinate registered]
    by_cases same : id = target ∧ other = key
    · obtain ⟨rfl, rfl⟩ := same
      have equal : targetParams = params := by
        have both := registered.2.symm.trans header
        rw [Option.some.injEq, Prod.mk.injEq] at both
        exact both.1
      rw [if_pos ⟨rfl, rfl⟩, if_pos ⟨rfl, rfl⟩, equal]
    · rw [if_neg same, if_neg]
      rintro ⟨sameTarget, sameKey⟩
      exact same ⟨(Option.some.inj sameTarget).symm, sameKey.symm⟩

/-- Both coordinates are committed, and a coordinate named twice is committed once. -/
theorem keyAt_commitRequest (held : call.Held limiter) (now : TimePoint) {id : LimitId}
    {params : LimitParams} {mark : Bool} (header : headerAt limiter id = some (params, mark))
    (key : String) :
    keyAt (commitRequest limiter (handleId call.generalLimit) (handleId call.specificLimit)
        call.token call.generalKey call.specificKey now) id key =
      if call.Names id key then some (commitKey params (keyAt limiter id key) call.token now)
      else keyAt limiter id key := by
  have general := fun other (given : call.generalLimit = some other) => held.general given
  have specific : ∀ other, call.specificLimit = some other → ∃ params, Registered
      (commitCoordinate limiter (handleId call.generalLimit) call.generalKey call.token now)
      other params := by
    intro other given
    obtain ⟨otherParams, registered⟩ := held.specific given
    exact ⟨otherParams, registered.commitCoordinate _ _ _ _⟩
  have headerAfter : headerAt (commitCoordinate limiter (handleId call.generalLimit)
      call.generalKey call.token now) id = some (params, mark) := by
    rw [headerAt_commitCoordinate, header]
  unfold commitRequest
  by_cases same : sameLimit (handleId call.generalLimit) (handleId call.specificLimit)
      call.generalKey call.specificKey = true
  · rw [if_pos same, keyAt_commitHandle general _ _ _ header]
    simp only [handles_eq_of_sameLimit same]
  · rw [if_neg same, keyAt_commitHandle specific _ _ _ headerAfter,
      keyAt_commitHandle general _ _ _ header]
    by_cases first : call.generalLimit = some id ∧ call.generalKey = key
    · rw [if_neg (not_specific_of_general held same first), if_pos first,
        if_pos (show call.Names id key from Or.inl first)]
    · have names : call.Names id key ↔ call.specificLimit = some id ∧ call.specificKey = key := by
        rw [RequestCall.Names, or_iff_right first]
      simp only [first, if_false, names]

theorem headerAt_commitRequest (limiter : HttpRateLimiter) (generalId specificId : LimitId)
    (token : Token) (generalKey specificKey : String) (now : TimePoint) (id : LimitId) :
    headerAt (commitRequest limiter generalId specificId token generalKey specificKey now) id =
      headerAt limiter id := by
  unfold commitRequest
  split
  · exact headerAt_commitCoordinate _ _ _ _ _ _
  · rw [headerAt_commitCoordinate, headerAt_commitCoordinate]

/-! ### `allow_request` -/

/-- A coordinate that the call leaves unnamed never refuses it. -/
theorem coordinateAllows_handle {handle : HttpRateLimitHandlePtr}
    (held : ∀ id, handle = some id → ∃ params, Registered limiter id params) (key : String)
    (token : Token) (now : TimePoint) :
    coordinateAllows (findLimit limiter (handleId handle)) key token now = true ↔
      ∀ id params, handle = some id → Registered limiter id params →
        canPassKey params (keyAt limiter id key) token now = true := by
  cases handle with
  | none => simp [handleId, findLimit_zero, coordinateAllows]
  | some target =>
    obtain ⟨targetParams, registered⟩ := held target rfl
    rw [handleId_some, coordinateAllows_registered registered]
    constructor
    · intro passes id params given again
      obtain rfl := Option.some.inj given
      rw [← registered.unique again]
      exact passes
    · intro passes
      exact passes target targetParams rfl registered

/-- The call is refused exactly when one of its coordinates refuses it. -/
theorem allow_fst_iff (held : call.Held limiter) (now : TimePoint) :
    (call.allow limiter now).1 = true ↔
      ∀ id key params, call.Names id key → Registered limiter id params →
        canPassKey params (keyAt limiter id key) call.token now = true := by
  have both : (coordinateAllows (findLimit limiter (handleId call.generalLimit)) call.generalKey
        call.token now && coordinateAllows (findLimit limiter (handleId call.specificLimit))
        call.specificKey call.token now) = true ↔
      ∀ id key params, call.Names id key → Registered limiter id params →
        canPassKey params (keyAt limiter id key) call.token now = true := by
    rw [Bool.and_eq_true, coordinateAllows_handle fun _ given => held.general given,
      coordinateAllows_handle fun _ given => held.specific given]
    constructor
    · rintro ⟨general, specific⟩ id key params (⟨given, rfl⟩ | ⟨given, rfl⟩) registered
      · exact general id params given registered
      · exact specific id params given registered
    · intro every
      exact ⟨fun id params given => every id _ params (Or.inl ⟨given, rfl⟩),
        fun id params given => every id _ params (Or.inr ⟨given, rfl⟩)⟩
  rw [← both, RequestCall.allow, allowRequest]
  split
  · rename_i absent
    rw [Bool.and_eq_true, Option.isNone_iff_eq_none, Option.isNone_iff_eq_none] at absent
    simp only [absent.1, absent.2, coordinateAllows, Bool.and_self]
  · split
    · rename_i passes
      simp only [passes]
    · rename_i fails
      simp only [fails]

/-- A refused call leaves the limiter as it was. -/
theorem allow_snd_of_refused (refused : (call.allow limiter now).1 = false) :
    (call.allow limiter now).2 = limiter := by
  unfold RequestCall.allow allowRequest at refused ⊢
  dsimp only at refused ⊢
  split at refused
  · simp at refused
  · split at refused
    · simp at refused
    · rename_i absent fails
      rw [if_neg absent, if_neg fails]

/-- An allowed call commits its coordinates and may then collect. -/
theorem allow_snd_of_allowed (held : call.Held limiter)
    (allowed : (call.allow limiter now).1 = true) :
    (call.allow limiter now).2 = limiter ∧ (∀ id key, ¬ call.Names id key) ∨
      (call.allow limiter now).2 = countAllowed (commitRequest limiter
        (handleId call.generalLimit) (handleId call.specificLimit) call.token call.generalKey
        call.specificKey now) now := by
  unfold RequestCall.allow allowRequest at allowed ⊢
  dsimp only at allowed ⊢
  split at allowed
  · rename_i absent
    left
    rw [if_pos absent]
    refine ⟨rfl, ?_⟩
    rw [Bool.and_eq_true, Option.isNone_iff_eq_none, Option.isNone_iff_eq_none] at absent
    rintro id key (⟨given, _⟩ | ⟨given, _⟩)
    · obtain ⟨_, registered⟩ := held.general given
      obtain ⟨limit, found, _⟩ := registered.exists_limit
      rw [given, handleId_some, found] at absent
      exact absurd absent.1 (by simp)
    · obtain ⟨_, registered⟩ := held.specific given
      obtain ⟨limit, found, _⟩ := registered.exists_limit
      rw [given, handleId_some, found] at absent
      exact absurd absent.2 (by simp)
  · split at allowed
    · rename_i absent passes
      right
      rw [if_neg absent, if_pos passes]
    · simp at allowed

/-- The state of a coordinate after an allowed call: committed if the call names it, and then
perhaps collected. One flag for all coordinates says whether the call collected. -/
def settled (call : RequestCall) (limiter : HttpRateLimiter) (now : TimePoint) (collects : Bool)
    (params : LimitParams) (id : LimitId) (key : String) : Option KeyState :=
  (if call.Names id key then some (commitKey params (keyAt limiter id key) call.token now)
    else keyAt limiter id key).bind (if collects then collectKey params now else some)

theorem gcCounter_commitCoordinate (limiter : HttpRateLimiter) (id : LimitId) (key : String)
    (token : Token) (now : TimePoint) :
    (commitCoordinate limiter id key token now).gcCounter = limiter.gcCounter := by
  unfold commitCoordinate
  split
  · rfl
  · split <;> rfl

theorem gcCounter_commitRequest (limiter : HttpRateLimiter) (generalId specificId : LimitId)
    (token : Token) (generalKey specificKey : String) (now : TimePoint) :
    (commitRequest limiter generalId specificId token generalKey specificKey now).gcCounter =
      limiter.gcCounter := by
  unfold commitRequest
  dsimp only
  split
  · exact gcCounter_commitCoordinate _ _ _ _ _
  · rw [gcCounter_commitCoordinate, gcCounter_commitCoordinate]

/-- What an allowed call leaves at every coordinate. It collects only when the counter says so. -/
theorem keyAt_allow_counted (held : call.Held limiter)
    (allowed : (call.allow limiter now).1 = true) :
    ∃ collects, (collects = true → (limiter.gcCounter + 1) % 64 = 0) ∧
      ∀ id key params mark, headerAt limiter id = some (params, mark) →
        keyAt (call.allow limiter now).2 id key =
          settled call limiter now collects params id key := by
  rcases allow_snd_of_allowed held allowed with ⟨unchanged, nameless⟩ | committed
  · refine ⟨false, fun impossible => absurd impossible Bool.false_ne_true,
      fun id key params mark _ => ?_⟩
    rw [unchanged, settled, if_neg (nameless id key)]
    simp
  · rw [committed]
    unfold countAllowed
    dsimp only
    rw [gcCounter_commitRequest]
    split
    · rename_i due
      refine ⟨true, fun _ => due, fun id key params mark header => ?_⟩
      rw [keyAt_gcStaleKeys (by rw [← header]; exact headerAt_commitRequest _ _ _ _ _ _ _ _)]
      exact congrArg (Option.bind · _) (keyAt_commitRequest held now header key)
    · refine ⟨false, fun impossible => absurd impossible Bool.false_ne_true,
        fun id key params mark header => ?_⟩
      rw [settled, ← keyAt_commitRequest held now header key]
      simp only [Bool.false_eq_true, if_false, Option.bind_fun_some]
      rfl

theorem keyAt_allow (held : call.Held limiter) (allowed : (call.allow limiter now).1 = true) :
    ∃ collects, ∀ id key params mark, headerAt limiter id = some (params, mark) →
      keyAt (call.allow limiter now).2 id key = settled call limiter now collects params id key := by
  obtain ⟨collects, _, settles⟩ := keyAt_allow_counted held allowed
  exact ⟨collects, settles⟩

theorem Registered.allow {id : LimitId} {params : LimitParams}
    (registered : Registered limiter id params) (held : call.Held limiter) (now : TimePoint) :
    Registered (call.allow limiter now).2 id params := by
  cases answer : (call.allow limiter now).1 with
  | false => rw [allow_snd_of_refused answer]; exact registered
  | true =>
    rcases allow_snd_of_allowed held answer with ⟨unchanged, _⟩ | committed
    · rw [unchanged]; exact registered
    · have after : Registered (commitRequest limiter (handleId call.generalLimit)
          (handleId call.specificLimit) call.token call.generalKey call.specificKey now) id
          params :=
        ⟨registered.1, by rw [headerAt_commitRequest]; exact registered.2⟩
      rw [committed]
      unfold countAllowed
      dsimp only
      split
      · exact Registered.gcStaleKeys after now
      · exact after

/-- The calls of a request change no identifier bookkeeping and add no header. -/
theorem headerAt_allow (held : call.Held limiter) (id : LimitId) (header : LimitParams × Bool)
    (kept : headerAt (call.allow limiter now).2 id = some header) :
    headerAt limiter id = some header := by
  cases answer : (call.allow limiter now).1 with
  | false => rwa [allow_snd_of_refused answer] at kept
  | true =>
    rcases allow_snd_of_allowed held answer with ⟨unchanged, _⟩ | committed
    · rwa [unchanged] at kept
    · rw [committed] at kept
      rw [← headerAt_commitRequest limiter (handleId call.generalLimit)
        (handleId call.specificLimit) call.token call.generalKey call.specificKey now]
      unfold countAllowed at kept
      dsimp only at kept
      split at kept
      · exact headerAt_gcStaleKeys _ _ _ _ kept
      · exact kept

/-! ### `release_request` -/

/-- Releasing the coordinate of a handle, present or not. -/
theorem keyAt_releaseHandle {handle : HttpRateLimitHandlePtr}
    (held : ∀ id, handle = some id → ∃ params, Registered limiter id params) (key : String)
    (token : Token) {id : LimitId} {params : LimitParams} {mark : Bool}
    (header : headerAt limiter id = some (params, mark)) (other : String) :
    keyAt (releaseCoordinate limiter (handleId handle) key token) id other =
      if (handle = some id ∧ key = other) ∧ params.sequential = true then
        (keyAt limiter id other).bind (dropToken · token)
      else keyAt limiter id other := by
  cases handle with
  | none => rw [handleId_none, releaseCoordinate_zero, if_neg (by simp)]
  | some target =>
    obtain ⟨targetParams, registered⟩ := held target rfl
    rw [handleId_some, keyAt_releaseCoordinate registered]
    by_cases same : id = target ∧ other = key
    · obtain ⟨rfl, rfl⟩ := same
      have equal : targetParams = params := by
        have both := registered.2.symm.trans header
        rw [Option.some.injEq, Prod.mk.injEq] at both
        exact both.1
      simp only [true_and, equal]
    · rw [if_neg (fun both => same both.1), if_neg]
      rintro ⟨⟨sameTarget, sameKey⟩, _⟩
      exact same ⟨(Option.some.inj sameTarget).symm, sameKey.symm⟩

/-- A released call drops its token at every sequential coordinate it names. -/
theorem keyAt_release (held : call.Held limiter) {id : LimitId} {params : LimitParams}
    {mark : Bool} (header : headerAt limiter id = some (params, mark)) (key : String) :
    keyAt (call.release limiter) id key =
      if call.Names id key ∧ params.sequential = true ∧ call.token ≠ 0 then
        (keyAt limiter id key).bind (dropToken · call.token)
      else keyAt limiter id key := by
  unfold RequestCall.release releaseRequest
  by_cases zero : call.token = 0
  · rw [if_pos zero, if_neg (fun all => all.2.2 zero)]
  · have general := fun other (given : call.generalLimit = some other) => held.general given
    have specific : ∀ other, call.specificLimit = some other → ∃ params, Registered
        (releaseCoordinate limiter (handleId call.generalLimit) call.generalKey call.token)
        other params := by
      intro other given
      obtain ⟨otherParams, registered⟩ := held.specific given
      exact ⟨otherParams, registered.releaseCoordinate _ _ _⟩
    have headerAfter : headerAt (releaseCoordinate limiter (handleId call.generalLimit)
        call.generalKey call.token) id = some (params, mark) := by
      rw [headerAt_releaseCoordinate, header]
    rw [if_neg zero]
    by_cases same : sameLimit (handleId call.generalLimit) (handleId call.specificLimit)
        call.generalKey call.specificKey = true
    · rw [if_pos same, keyAt_releaseHandle general _ _ header]
      simp only [handles_eq_of_sameLimit same, ne_eq, zero, not_false_eq_true, and_true]
    · rw [if_neg same, keyAt_releaseHandle specific _ _ headerAfter,
        keyAt_releaseHandle general _ _ header]
      by_cases first : call.generalLimit = some id ∧ call.generalKey = key
      · rw [if_neg (fun both => not_specific_of_general held same first both.1)]
        have named : call.Names id key := Or.inl first
        simp only [first, named, and_self, true_and, ne_eq, zero, not_false_eq_true, and_true]
      · have names : call.Names id key ↔
            call.specificLimit = some id ∧ call.specificKey = key := by
          rw [RequestCall.Names, or_iff_right first]
        simp only [first, false_and, if_false, names, ne_eq, zero, not_false_eq_true, and_true]

theorem headerAt_release (limiter : HttpRateLimiter) (call : RequestCall) (id : LimitId) :
    headerAt (call.release limiter) id = headerAt limiter id := by
  unfold RequestCall.release releaseRequest
  dsimp only
  split
  · rfl
  · split
    · exact headerAt_releaseCoordinate _ _ _ _ _
    · rw [headerAt_releaseCoordinate, headerAt_releaseCoordinate]

end Coordinates

end Kurlyk.RateLimiter
