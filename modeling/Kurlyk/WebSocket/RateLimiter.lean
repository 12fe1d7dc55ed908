/-
This file models `WebSocketRateLimiter`, the limiter that every WebSocket client
embeds for its outgoing messages. The first configured limit applies to every
message, and a message may name one more.

Each function locks the limiter's mutex for its whole body, but `check_limit`
and `update_limit` read the clock themselves, so one call of `allow_request`
sees up to four readings.
-/

import Kurlyk.RateLimiter.Basic

namespace Kurlyk.WebSocket

open RateLimiter (elapsedMs)

/-- `WebSocketConfig::RateLimitData`. -/
structure RateLimitData where
  requestsPerPeriod : ℤ := 0
  periodMs : ℤ := 0
deriving DecidableEq

/-- `WebSocketRateLimiter::LimitData`. -/
structure LimitData where
  requestsPerPeriod : ℤ := 0
  periodMs : ℤ := 0
  count : ℕ := 0
  startTime : TimePoint := 0
deriving DecidableEq

/-- `m_limit_data`. -/
abbrev WebSocketRateLimiter := List LimitData

namespace WebSocketRateLimiter

/-- `set_limit`: the counts of the limits that stay are kept. `clock` gives the reading made
for each position. -/
def setLimit (limiter : WebSocketRateLimiter) (rateLimits : List RateLimitData)
    (clock : ℕ → TimePoint) : WebSocketRateLimiter :=
  rateLimits.mapIdx fun position limit =>
    { (limiter.getD position {}) with
      requestsPerPeriod := limit.requestsPerPeriod
      periodMs := limit.periodMs
      startTime := clock position }

/-- `check_limit` on one limit. -/
def checkLimit (limit : LimitData) (now : TimePoint) : Bool :=
  if elapsedMs now limit.startTime ≥ limit.periodMs then true
  else decide ((limit.count : ℤ) < limit.requestsPerPeriod ∨ limit.requestsPerPeriod = 0)

/-- `update_limit` on one limit. -/
def updateLimit (limit : LimitData) (now : TimePoint) : LimitData :=
  if elapsedMs now limit.startTime ≥ limit.periodMs then
    { limit with startTime := now, count := 1 }
  else { limit with count := limit.count + 1 }

/-- The clock readings of one call, in the order they are made. -/
structure Readings where
  checkGeneral : TimePoint := 0
  checkSpecific : TimePoint := 0
  updateGeneral : TimePoint := 0
  updateSpecific : TimePoint := 0

/-- `allow_request`: the answer and the limiter after the call. -/
def allowRequest (limiter : WebSocketRateLimiter) (rateLimitId : ℤ) (readings : Readings) :
    Bool × WebSocketRateLimiter :=
  if rateLimitId < 0 then (true, limiter)
  else if rateLimitId ≥ limiter.length then (true, limiter)
  else
    let id := rateLimitId.toNat
    let generalLimitAllowed := checkLimit (limiter.getD 0 {}) readings.checkGeneral
    let specificLimitAllowed :=
      id == 0 || checkLimit (limiter.getD id {}) readings.checkSpecific
    if generalLimitAllowed && specificLimitAllowed then
      let general := limiter.modify 0 (updateLimit · readings.updateGeneral)
      (true, if id ≠ 0 then general.modify id (updateLimit · readings.updateSpecific)
        else general)
    else (false, limiter)

end WebSocketRateLimiter

end Kurlyk.WebSocket
