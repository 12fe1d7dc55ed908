/-
This file models `HttpRateLimiter`, the rate-limit engine embedded in
`HttpRequestManager`, and the RAII handles that keep its entries alive.

Every public function of the class takes `m_mutex` for its whole body, so one
call is one atomic transformation of the limiter. A limit is partitioned by
string keys; the runtime state of a key (`KeyState`) is created lazily by
`commit_limit` and erased by `release_key` or by the garbage collection that
every sixty-fourth allowed request triggers. The instants are readings of
`steady_clock`, counted in nanoseconds from its epoch, and a default-constructed
`time_point` is that epoch.
-/

import Mathlib.Data.Finset.Basic
import Kurlyk.Lib.Table

namespace Kurlyk

/-- A reading of `steady_clock`: nanoseconds since its epoch. -/
abbrev TimePoint := ℕ

/-- The identifier of a rate limit. The limiter numbers limits from one; zero stands for no
limit. -/
abbrev LimitId := ℕ

/-- The in-flight token of a request. Zero marks a call that belongs to no request. -/
abbrev Token := ℕ

/-- `HttpRateLimitHandlePtr`: a shared pointer that is empty or names a registered limit. -/
abbrev HttpRateLimitHandlePtr := Option LimitId

namespace RateLimiter

/-- Nanoseconds in one millisecond. -/
def nanosPerMilli : ℕ := 1000000

/-- `duration_cast<milliseconds>(now - start_time).count()`, which truncates toward zero. -/
def elapsedMs (now startTime : TimePoint) : ℤ :=
  ((now : ℤ) - (startTime : ℤ)).tdiv (nanosPerMilli : ℤ)

/-- `KeyState`: the mutable state of one partition key. -/
structure KeyState where
  count : ℕ := 0
  startTime : TimePoint := 0
  inFlightTokens : Finset Token := ∅
deriving DecidableEq

/-- The immutable parameters of one limit. -/
structure LimitParams where
  requestsPerPeriod : ℤ
  periodMs : ℤ
  sequential : Bool
deriving DecidableEq

/-- `LimitData`: the parameters of one limit and the state of its keys. -/
structure LimitData extends LimitParams where
  removed : Bool
  keys : Table String KeyState

/-- The members of `HttpRateLimiter`. `m_owned_handles` maps an identifier to the handle of
that same identifier, so its key list says everything. -/
structure HttpRateLimiter where
  nextId : LimitId := 1
  limits : Table LimitId LimitData := ∅
  ownedHandles : List LimitId := []
  gcCounter : ℕ := 0

/-! ### One key of one limit -/

/-- `check_key`: the count and period constraint of a key that has a state. -/
def checkKey (limit : LimitParams) (state : KeyState) (now : TimePoint) : Bool :=
  if limit.requestsPerPeriod = 0 then true
  else if elapsedMs now state.startTime ≥ limit.periodMs then true
  else decide ((state.count : ℤ) < limit.requestsPerPeriod)

/-- The sequential constraint of `can_pass`: some other request holds the key. -/
def heldByOther (limit : LimitParams) (state : KeyState) (token : Token) : Bool :=
  limit.sequential && decide (token ≠ 0) && decide (state.inFlightTokens ≠ ∅) &&
    decide (token ∉ state.inFlightTokens)

/-- `can_pass` on the state found for the key. A key without state always passes. -/
def canPassKey (limit : LimitParams) (found : Option KeyState) (token : Token)
    (now : TimePoint) : Bool :=
  match found with
  | none => true
  | some state => if heldByOther limit state token then false else checkKey limit state now

/-- `update_key`: opens a new window when the period has passed, then counts the request. -/
def updateKey (limit : LimitParams) (state : KeyState) (now : TimePoint) : KeyState :=
  if limit.requestsPerPeriod = 0 then state
  else if elapsedMs now state.startTime ≥ limit.periodMs then
    { state with startTime := now, count := 1 }
  else { state with count := state.count + 1 }

/-- The first half of `commit_limit`: the state `get_key_state` finds or creates, with the
token of a sequential limit entered. -/
def enterKey (limit : LimitParams) (found : Option KeyState) (token : Token) : KeyState :=
  let state := found.getD {}
  if limit.sequential && decide (token ≠ 0) then
    { state with inFlightTokens := insert token state.inFlightTokens }
  else state

/-- `commit_limit` on the state found for the key. -/
def commitKey (limit : LimitParams) (found : Option KeyState) (token : Token)
    (now : TimePoint) : KeyState :=
  updateKey limit (enterKey limit found token) now

/-- `release_key` on the state found for the key: the token is dropped, and the state with it
when nothing else remains. -/
def dropToken (state : KeyState) (token : Token) : Option KeyState :=
  let released := { state with inFlightTokens := state.inFlightTokens.erase token }
  if released.inFlightTokens = ∅ ∧ released.count = 0 then none else some released

/-- The states `gc_stale_keys` erases: no token, and either never counted or past its
period. -/
def isStale (limit : LimitParams) (state : KeyState) (now : TimePoint) : Bool :=
  decide (state.inFlightTokens = ∅) &&
    (decide (state.count = 0) || decide (elapsedMs now state.startTime ≥ limit.periodMs))

/-- What a collection leaves of one state. -/
def collectKey (limit : LimitParams) (now : TimePoint) (state : KeyState) : Option KeyState :=
  if isStale limit state now then none else some state

/-! ### One limit -/

/-- `can_pass`. -/
def canPass (limit : LimitData) (key : String) (token : Token) (now : TimePoint) : Bool :=
  canPassKey limit.toLimitParams (limit.keys.lookup key) token now

/-- `commit_limit`. -/
def commitLimit (limit : LimitData) (key : String) (token : Token) (now : TimePoint) :
    LimitData :=
  { limit with
    keys := limit.keys.insert key
      (commitKey limit.toLimitParams (limit.keys.lookup key) token now) }

/-- `release_key`. -/
def releaseKey (limit : LimitData) (key : String) (token : Token) : LimitData :=
  match limit.keys.lookup key with
  | none => limit
  | some state =>
    match dropToken state token with
    | none => { limit with keys := limit.keys.erase key }
    | some released => { limit with keys := limit.keys.insert key released }

/-- The inner loop of `gc_stale_keys`. -/
def gcLimit (limit : LimitData) (now : TimePoint) : LimitData :=
  { limit with keys := limit.keys.sweep fun _ state => collectKey limit.toLimitParams now state }

/-- `gc_stale_keys`: sweeps the keys of every limit and erases removed limits left empty. -/
def gcStaleKeys (limiter : HttpRateLimiter) (now : TimePoint) : HttpRateLimiter :=
  { limiter with limits := limiter.limits.sweep fun _ limit =>
      let swept := gcLimit limit now
      if swept.removed && swept.keys.isEmpty then none else some swept }

/-! ### The two calls of a request -/

/-- `limit ? limit->id() : 0`. -/
def handleId (handle : HttpRateLimitHandlePtr) : LimitId :=
  handle.getD 0

/-- `id != 0 ? m_limits.find(id) : m_limits.end()`. -/
def findLimit (limiter : HttpRateLimiter) (id : LimitId) : Option LimitData :=
  if id ≠ 0 then limiter.limits.lookup id else none

/-- What one coordinate of `allow_request` answers: a limit that is absent or removed never
refuses. -/
def coordinateAllows (limit : Option LimitData) (key : String) (token : Token)
    (now : TimePoint) : Bool :=
  match limit with
  | none => true
  | some data => if data.removed then true else canPass data key token now

/-- `general_id != 0 && general_id == specific_id && general_key == specific_key`. -/
def sameLimit (generalId specificId : LimitId) (generalKey specificKey : String) : Bool :=
  decide (generalId ≠ 0) && decide (generalId = specificId) && decide (generalKey = specificKey)

/-- Commits one coordinate in place, unless its limit is absent or removed. -/
def commitCoordinate (limiter : HttpRateLimiter) (id : LimitId) (key : String) (token : Token)
    (now : TimePoint) : HttpRateLimiter :=
  match findLimit limiter id with
  | none => limiter
  | some limit =>
    if limit.removed then limiter
    else { limiter with limits := limiter.limits.insert id (commitLimit limit key token now) }

/-- `++m_gc_counter`, and a collection when the counter's low six bits are zero. -/
def countAllowed (limiter : HttpRateLimiter) (now : TimePoint) : HttpRateLimiter :=
  let counted := { limiter with gcCounter := limiter.gcCounter + 1 }
  if counted.gcCounter % 64 = 0 then gcStaleKeys counted now else counted

/-- Both coordinates of an allowed request are committed, a coordinate given twice once. -/
def commitRequest (limiter : HttpRateLimiter) (generalId specificId : LimitId) (token : Token)
    (generalKey specificKey : String) (now : TimePoint) : HttpRateLimiter :=
  let committed := commitCoordinate limiter generalId generalKey token now
  if sameLimit generalId specificId generalKey specificKey then committed
  else commitCoordinate committed specificId specificKey token now

/-- `allow_request`: the answer and the limiter after the call. -/
def allowRequest (limiter : HttpRateLimiter) (generalLimit specificLimit : HttpRateLimitHandlePtr)
    (token : Token) (generalKey specificKey : String) (now : TimePoint) :
    Bool × HttpRateLimiter :=
  let generalId := handleId generalLimit
  let specificId := handleId specificLimit
  let general := findLimit limiter generalId
  let specific := findLimit limiter specificId
  if general.isNone && specific.isNone then (true, limiter)
  else if coordinateAllows general generalKey token now &&
      coordinateAllows specific specificKey token now then
    (true, countAllowed
      (commitRequest limiter generalId specificId token generalKey specificKey now) now)
  else (false, limiter)

/-- Releases one coordinate in place when its limit is sequential. -/
def releaseCoordinate (limiter : HttpRateLimiter) (id : LimitId) (key : String) (token : Token) :
    HttpRateLimiter :=
  match findLimit limiter id with
  | none => limiter
  | some limit =>
    if limit.sequential then
      { limiter with limits := limiter.limits.insert id (releaseKey limit key token) }
    else limiter

/-- `release_request`. -/
def releaseRequest (limiter : HttpRateLimiter)
    (generalLimit specificLimit : HttpRateLimitHandlePtr) (token : Token)
    (generalKey specificKey : String) : HttpRateLimiter :=
  if token = 0 then limiter
  else
    let generalId := handleId generalLimit
    let specificId := handleId specificLimit
    let released := releaseCoordinate limiter generalId generalKey token
    if sameLimit generalId specificId generalKey specificKey then released
    else releaseCoordinate released specificId specificKey token

/-! ### Handles -/

/-- `create_limit_handle`: the identifier of the new handle and the limiter that owns a copy
of it. -/
def createLimitHandle (limiter : HttpRateLimiter) (requestsPerPeriod periodMs : ℤ)
    (sequential : Bool) : LimitId × HttpRateLimiter :=
  let id := limiter.nextId
  (id, { limiter with
    nextId := id + 1
    limits := limiter.limits.insert id
      { requestsPerPeriod, periodMs, sequential, removed := false, keys := ∅ }
    ownedHandles := id :: limiter.ownedHandles })

/-- `remove_limit(id)` up to the unlock: whether the manager-owned handle was found, and the
limiter without it. The retired handle is destroyed by the caller. -/
def removeLimit (limiter : HttpRateLimiter) (id : LimitId) : Bool × HttpRateLimiter :=
  if id ∈ limiter.ownedHandles then
    (true, { limiter with ownedHandles := limiter.ownedHandles.erase id })
  else (false, limiter)

/-- `get_limit`: a copy of the manager-owned handle. -/
def getLimit (limiter : HttpRateLimiter) (id : LimitId) : HttpRateLimitHandlePtr :=
  if id ∈ limiter.ownedHandles then some id else none

/-- `remove_limit_internal`, run by the destructor of the last handle. -/
def removeLimitInternal (limiter : HttpRateLimiter) (id : LimitId) : HttpRateLimiter :=
  match limiter.limits.lookup id with
  | none => limiter
  | some limit =>
    if limit.keys.isEmpty then { limiter with limits := limiter.limits.erase id }
    else { limiter with limits := limiter.limits.insert id { limit with removed := true } }

/-- Destroying one copy of a handle: `remaining` lists the copies that are left outside the
limiter, and the destructor of the handle runs when this was the last copy. -/
def dropHandle (limiter : HttpRateLimiter) (remaining : List LimitId) (id : LimitId) :
    HttpRateLimiter :=
  if id ∈ limiter.ownedHandles ∨ id ∈ remaining then limiter
  else removeLimitInternal limiter id

/-- Destroying copies of several handles. -/
def dropAll (remaining ids : List LimitId) (limiter : HttpRateLimiter) : HttpRateLimiter :=
  ids.foldl (fun limiter id => dropHandle limiter remaining id) limiter

end RateLimiter

end Kurlyk
