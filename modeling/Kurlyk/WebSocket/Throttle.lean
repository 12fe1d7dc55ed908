/-
This file is about runs of a `WebSocketRateLimiter`. Its calls read a clock that
never goes back and may advance between any two readings, also between the check
and the update of one limit in one call.

A limit that was configured once lets through at most twice its capacity in any
interval of one period. A refusal is justified by the requests charged during the
last period as long as `set_limit` does not move the window of a limit that has
counted requests: it keeps the count and restarts the window, so that requests
older than a period go on being counted.
-/

import Kurlyk.Lib.Tally
import Kurlyk.RateLimiter.Throttle
import Kurlyk.WebSocket.RateLimiter

namespace Kurlyk.WebSocket

open WebSocketRateLimiter
open RateLimiter (le_elapsedMs_iff nanosPerMilli)

/-! ### The system -/

/-- The calls of a limiter, with the clock readings they make. -/
inductive LimiterCall where
  | setLimit (rateLimits : List RateLimitData) (clock : ℕ → TimePoint)
  | allowRequest (rateLimitId : ℤ) (readings : Readings)

/-- The readings of a call, in the order they are made. -/
def LimiterCall.readings : LimiterCall → List TimePoint
  | .setLimit rateLimits clock => (List.range rateLimits.length).map clock
  | .allowRequest _ readings =>
    [readings.checkGeneral, readings.checkSpecific, readings.updateGeneral,
      readings.updateSpecific]

/-- A request in range that was allowed: its limit besides the general one, and its readings. -/
structure AllowedRequest where
  position : ℕ
  readings : Readings

/-- A limiter, the last reading of the clock and the requests in range it has allowed. -/
structure LimiterState where
  limiter : WebSocketRateLimiter := []
  clock : TimePoint := 0
  allowed : List AllowedRequest := []

/-- The identifier names a limit. -/
def InRange (limiter : WebSocketRateLimiter) (rateLimitId : ℤ) : Prop :=
  0 ≤ rateLimitId ∧ rateLimitId < limiter.length

instance (limiter : WebSocketRateLimiter) (rateLimitId : ℤ) :
    Decidable (InRange limiter rateLimitId) :=
  inferInstanceAs (Decidable (_ ∧ _))

/-- The clock does not go back during the call. -/
def LimiterState.InTime (state : LimiterState) (call : LimiterCall) : Prop :=
  (state.clock :: call.readings).Pairwise (· ≤ ·)

instance (state : LimiterState) (call : LimiterCall) : Decidable (state.InTime call) :=
  inferInstanceAs (Decidable (List.Pairwise _ _))

/-- One call. -/
def LimiterState.step (state : LimiterState) (call : LimiterCall) : Option LimiterState :=
  if state.InTime call then
    match call with
    | .setLimit rateLimits clock =>
      some { state with
        limiter := state.limiter.setLimit rateLimits clock
        clock := call.readings.getLastD state.clock }
    | .allowRequest rateLimitId readings =>
      let answer := state.limiter.allowRequest rateLimitId readings
      some {
        limiter := answer.2
        clock := readings.updateSpecific
        allowed :=
          if answer.1 = true ∧ InRange state.limiter rateLimitId then
            state.allowed ++ [⟨rateLimitId.toNat, readings⟩]
          else state.allowed }
  else none

/-- A limiter from its construction on. -/
def webSocketLimiterSystem : System LimiterState LimiterCall where
  init := {}
  step := LimiterState.step

/-! ### The limits that a request is charged to -/

/-- Every request is charged to the general limit, and to the limit it names. -/
def AllowedRequest.ChargedTo (position : ℕ) (request : AllowedRequest) : Prop :=
  position = 0 ∨ request.position = position

instance (position : ℕ) : DecidablePred (AllowedRequest.ChargedTo position) :=
  fun _ => inferInstanceAs (Decidable (_ ∨ _))

/-- The reading at which a limit is checked. -/
def WebSocketRateLimiter.Readings.checked (readings : Readings) (position : ℕ) : TimePoint :=
  if position = 0 then readings.checkGeneral else readings.checkSpecific

/-- The reading at which a limit is charged. -/
def WebSocketRateLimiter.Readings.charged (readings : Readings) (position : ℕ) : TimePoint :=
  if position = 0 then readings.updateGeneral else readings.updateSpecific

/-- The allowed requests that were charged to a limit, in order. -/
def chargedTo (position : ℕ) (allowed : List AllowedRequest) : List AllowedRequest :=
  allowed.filter fun request => decide (request.ChargedTo position)

/-- The period of a limit on the clock. -/
def LimitData.period (limit : LimitData) : ℕ :=
  limit.periodMs.toNat * nanosPerMilli

/-- The window of a limit. -/
def LimitData.current (limit : LimitData) : Current :=
  ⟨limit.startTime, limit.count⟩

/-! ### One limit -/

section Limits

variable {limit : LimitData} {now : TimePoint}

theorem updateLimit_params (limit : LimitData) (now : TimePoint) :
    (updateLimit limit now).requestsPerPeriod = limit.requestsPerPeriod ∧
      (updateLimit limit now).periodMs = limit.periodMs := by
  unfold updateLimit
  split <;> exact ⟨rfl, rfl⟩

theorem updateLimit_startTime (begun : limit.startTime ≤ now) :
    (updateLimit limit now).startTime ≤ now := by
  unfold updateLimit
  split
  · exact le_rfl
  · exact begun

/-- An update charges the window. -/
theorem updateLimit_current (begun : limit.startTime ≤ now) :
    (updateLimit limit now).current = limit.current.charge limit.period now := by
  have ends := le_elapsedMs_iff begun limit.periodMs
  unfold updateLimit Current.charge
  by_cases expired : limit.current.start + limit.period ≤ now
  · rw [if_pos (ends.mpr expired), if_pos expired]
    rfl
  · rw [if_neg (expired ∘ ends.mp), if_neg expired]
    rfl

/-- A limit with a capacity passes the check exactly when its window admits the request. -/
theorem checkLimit_iff (begun : limit.startTime ≤ now) (positive : 0 < limit.requestsPerPeriod) :
    checkLimit limit now = true ↔
      limit.current.Admits limit.period limit.requestsPerPeriod.toNat now := by
  have ends := le_elapsedMs_iff begun limit.periodMs
  unfold checkLimit Current.Admits
  by_cases expired : limit.current.start + limit.period ≤ now
  · rw [if_pos (ends.mpr expired)]
    exact iff_of_true rfl (Or.inl expired)
  · rw [if_neg (expired ∘ ends.mp), decide_eq_true_eq, or_iff_left (by omega),
      or_iff_right expired]
    show (limit.count : ℤ) < _ ↔ limit.count < _
    omega

end Limits

/-! ### One call -/

theorem allowRequest_outOfRange {limiter : WebSocketRateLimiter} {rateLimitId : ℤ}
    (outside : ¬ InRange limiter rateLimitId) (readings : Readings) :
    limiter.allowRequest rateLimitId readings = (true, limiter) := by
  unfold allowRequest
  split
  · rfl
  · rename_i notNegative
    rw [if_pos]
    unfold InRange at outside
    omega

/-- An allowed call updates the general limit, and the specific one if it is another. -/
theorem getElem?_updated (limiter : WebSocketRateLimiter) (id : ℕ) (readings : Readings)
    (position : ℕ) :
    (if id ≠ 0 then
        (limiter.modify 0 (updateLimit · readings.updateGeneral)).modify id
          (updateLimit · readings.updateSpecific)
      else limiter.modify 0 (updateLimit · readings.updateGeneral))[position]? =
      limiter[position]?.map fun limit =>
        if position = 0 ∨ id = position then updateLimit limit (readings.charged position)
        else limit := by
  by_cases zero : id = 0
  · rw [if_neg (not_not.mpr zero), List.getElem?_modify]
    cases limiter[position]? with
    | none => rfl
    | some limit =>
      by_cases first : position = 0
      · simp [first, Readings.charged]
      · simp [first, Ne.symm first, zero]
  · rw [if_pos zero, List.getElem?_modify, List.getElem?_modify]
    cases limiter[position]? with
    | none => rfl
    | some limit =>
      by_cases first : position = 0
      · simp [first, Readings.charged, zero]
      · simp [first, Ne.symm first, Readings.charged]

/-- A call of `allow_request` is out of range and allowed, is refused by a limit and changes
nothing, or is allowed by its limits and charges them. -/
theorem allowRequest_cases (limiter : WebSocketRateLimiter) (rateLimitId : ℤ)
    (readings : Readings) :
    (¬ InRange limiter rateLimitId ∧ limiter.allowRequest rateLimitId readings = (true, limiter)) ∨
    (InRange limiter rateLimitId ∧ limiter.allowRequest rateLimitId readings = (false, limiter) ∧
      ∃ position limit, (position = 0 ∨ rateLimitId.toNat = position) ∧
        limiter[position]? = some limit ∧
        checkLimit limit (readings.checked position) = false) ∨
    (InRange limiter rateLimitId ∧ (limiter.allowRequest rateLimitId readings).1 = true ∧
      ∀ position, (limiter.allowRequest rateLimitId readings).2[position]? =
          limiter[position]?.map (fun limit =>
            if position = 0 ∨ rateLimitId.toNat = position then
              updateLimit limit (readings.charged position)
            else limit) ∧
        ∀ limit, limiter[position]? = some limit → (position = 0 ∨ rateLimitId.toNat = position) →
          checkLimit limit (readings.checked position) = true) := by
  by_cases inRange : InRange limiter rateLimitId
  · right
    obtain ⟨notNegative, below⟩ := inRange
    have general : 0 < limiter.length := by omega
    have specific : rateLimitId.toNat < limiter.length := by omega
    have generalIs : limiter[0]? = some (limiter.getD 0 {}) := by
      simp [general]
    have specificIs : limiter[rateLimitId.toNat]? = some (limiter.getD rateLimitId.toNat {}) := by
      simp [specific]
    simp only [allowRequest, if_neg (Int.not_lt.mpr notNegative), if_neg (Int.not_le.mpr below)]
    split
    · rename_i passed
      rw [Bool.and_eq_true, Bool.or_eq_true, beq_iff_eq] at passed
      refine Or.inr ⟨⟨notNegative, below⟩, rfl, fun position =>
        ⟨getElem?_updated limiter rateLimitId.toNat readings position, ?_⟩⟩
      rintro limit found (rfl | rfl)
      · rw [generalIs, Option.some.injEq] at found
        exact found ▸ passed.1
      · rw [specificIs, Option.some.injEq] at found
        rw [← found]
        by_cases zero : rateLimitId.toNat = 0
        · rw [zero]
          exact passed.1
        · rw [Readings.checked, if_neg zero]
          exact passed.2.resolve_left zero
    · rename_i refused
      rw [Bool.not_eq_true, Bool.and_eq_false_iff] at refused
      refine Or.inl ⟨⟨notNegative, below⟩, rfl, ?_⟩
      rcases refused with generalRefuses | specificRefuses
      · exact ⟨0, _, Or.inl rfl, generalIs, generalRefuses⟩
      · rw [Bool.or_eq_false_iff, beq_eq_false_iff_ne] at specificRefuses
        refine ⟨_, _, Or.inr rfl, specificIs, ?_⟩
        rw [Readings.checked, if_neg specificRefuses.1]
        exact specificRefuses.2
  · exact Or.inl ⟨inRange, allowRequest_outOfRange inRange readings⟩

theorem setLimit_getElem? (limiter : WebSocketRateLimiter) (rateLimits : List RateLimitData)
    (clock : ℕ → TimePoint) (position : ℕ) :
    (limiter.setLimit rateLimits clock)[position]? = rateLimits[position]?.map fun limit =>
      { (limiter.getD position {}) with
        requestsPerPeriod := limit.requestsPerPeriod
        periodMs := limit.periodMs
        startTime := clock position } := by
  rw [setLimit, List.getElem?_mapIdx]

theorem chargedTo_append (position : ℕ) (first second : List AllowedRequest) :
    chargedTo position (first ++ second) = chargedTo position first ++ chargedTo position second :=
  List.filter_append first second

section Steps

variable {state next : LimiterState} {position : ℕ}

/-- What a call of `allow_request` does to one limit: it leaves it alone, or the limit has passed
its check and is charged for one request. -/
inductive Touched (position : ℕ) (state next : LimiterState) (limit : LimitData) :
    LimitData → Prop where
  | kept (charges : chargedTo position next.allowed = chargedTo position state.allowed) :
      Touched position state next limit limit
  | charged (request : AllowedRequest)
      (passed : checkLimit limit (request.readings.checked position) = true)
      (charges : chargedTo position next.allowed =
        chargedTo position state.allowed ++ [request])
      (later : state.clock ≤ request.readings.checked position)
      (ordered : request.readings.checked position ≤ request.readings.charged position)
      (done : request.readings.charged position ≤ next.clock) :
      Touched position state next limit
        (updateLimit limit (request.readings.charged position))

theorem readings_ordered {rateLimitId : ℤ} {readings : Readings}
    (inTime : state.InTime (.allowRequest rateLimitId readings)) (position : ℕ) :
    state.clock ≤ readings.checked position ∧
      readings.checked position ≤ readings.charged position ∧
      readings.charged position ≤ readings.updateSpecific := by
  simp only [LimiterState.InTime, LimiterCall.readings, List.pairwise_cons, List.mem_cons,
    List.not_mem_nil, or_false, forall_eq_or_imp, forall_eq] at inTime
  obtain ⟨⟨toGeneral, toSpecific, _⟩, ⟨_, general, _⟩, ⟨_, specific⟩, last, _⟩ := inTime
  unfold Readings.checked Readings.charged
  split
  · exact ⟨toGeneral, general, last⟩
  · exact ⟨toSpecific, specific, le_rfl⟩

/-- A call of `allow_request` touches each limit once. -/
theorem touched_of_step {rateLimitId : ℤ} {readings : Readings}
    (stepped : state.step (.allowRequest rateLimitId readings) = some next) (position : ℕ) :
    state.clock ≤ next.clock ∧
      ∃ update : LimitData → LimitData,
        next.limiter[position]? = state.limiter[position]?.map update ∧
        ∀ limit, state.limiter[position]? = some limit →
          Touched position state next limit (update limit) := by
  unfold LimiterState.step at stepped
  rw [Option.ite_none_right_eq_some] at stepped
  obtain ⟨inTime, same⟩ := stepped
  obtain rfl := Option.some.inj same
  obtain ⟨later, ordered, done⟩ := readings_ordered inTime position
  refine ⟨le_trans later (le_trans ordered done), ?_⟩
  have identity : ∀ found : Option LimitData, found = found.map fun limit => limit := by
    intro found
    cases found <;> rfl
  rcases allowRequest_cases state.limiter rateLimitId readings with
    ⟨outside, answer⟩ | ⟨inRange, answer, _⟩ | ⟨inRange, allowed, every⟩
  · refine ⟨fun limit => limit, ?_, fun limit _ => .kept ?_⟩
    · rw [answer]
      exact identity _
    · rw [if_neg (fun both => outside both.2)]
  · refine ⟨fun limit => limit, ?_, fun limit _ => .kept ?_⟩
    · rw [answer]
      exact identity _
    · rw [if_neg (fun both => by simp [answer] at both)]
  · obtain ⟨updated, passed⟩ := every position
    by_cases named : position = 0 ∨ rateLimitId.toNat = position
    · refine ⟨fun limit => updateLimit limit (readings.charged position), ?_, fun limit found =>
        .charged ⟨rateLimitId.toNat, readings⟩ (passed limit found named) ?_ later ordered done⟩
      · rw [updated]
        simp only [if_pos named]
      · rw [if_pos ⟨allowed, inRange⟩, chargedTo_append]
        simp [chargedTo, AllowedRequest.ChargedTo, named]
    · refine ⟨fun limit => limit, ?_, fun limit _ => .kept ?_⟩
      · rw [updated]
        simp only [if_neg named]
      · rw [if_pos ⟨allowed, inRange⟩, chargedTo_append]
        simp [chargedTo, AllowedRequest.ChargedTo, named]

theorem le_getLastD {first : ℕ} {rest : List ℕ} (ordered : (first :: rest).Pairwise (· ≤ ·)) :
    ∀ reading ∈ first :: rest, reading ≤ rest.getLastD first := by
  induction rest generalizing first with
  | nil => simp
  | cons second others inductionHypothesis =>
    obtain ⟨least, tail⟩ := List.pairwise_cons.mp ordered
    rw [List.getLastD_cons]
    intro reading member
    rcases List.mem_cons.mp member with rfl | later
    · exact le_trans (least second List.mem_cons_self)
        (inductionHypothesis tail second List.mem_cons_self)
    · exact inductionHypothesis tail reading later

/-- The readings of `set_limit` are not after the clock it leaves. -/
theorem le_clock_of_setLimit {rateLimits : List RateLimitData} {clock : ℕ → TimePoint}
    (stepped : state.step (.setLimit rateLimits clock) = some next)
    (inside : position < rateLimits.length) : clock position ≤ next.clock := by
  unfold LimiterState.step at stepped
  rw [Option.ite_none_right_eq_some] at stepped
  obtain ⟨inTime, same⟩ := stepped
  obtain rfl := Option.some.inj same
  exact le_getLastD inTime _
    (List.mem_cons_of_mem _ (List.mem_map_of_mem (List.mem_range.mpr inside)))

theorem allowed_of_setLimit {rateLimits : List RateLimitData} {clock : ℕ → TimePoint}
    (stepped : state.step (.setLimit rateLimits clock) = some next) :
    next.allowed = state.allowed ∧ next.limiter = state.limiter.setLimit rateLimits clock := by
  unfold LimiterState.step at stepped
  rw [Option.ite_none_right_eq_some] at stepped
  obtain ⟨_, same⟩ := stepped
  obtain rfl := Option.some.inj same
  exact ⟨rfl, rfl⟩

theorem allowed_prefix_of_allow {rateLimitId : ℤ} {readings : Readings}
    (stepped : state.step (.allowRequest rateLimitId readings) = some next) :
    state.allowed <+: next.allowed := by
  unfold LimiterState.step at stepped
  rw [Option.ite_none_right_eq_some] at stepped
  obtain ⟨_, same⟩ := stepped
  obtain rfl := Option.some.inj same
  dsimp only
  split
  · exact List.prefix_append _ _
  · exact List.prefix_rfl

end Steps

/-! ### At most twice the capacity in a period -/

/-- The requests that were charged to a limit are taken at instants between check and charge. -/
def Placed (position : ℕ) (instant : AllowedRequest → TimePoint) (allowed : List AllowedRequest) :
    Prop :=
  ∀ request ∈ chargedTo position allowed, request.readings.checked position ≤ instant request ∧
    instant request ≤ request.readings.charged position

instance (position : ℕ) (instant : AllowedRequest → TimePoint) (allowed : List AllowedRequest) :
    Decidable (Placed position instant allowed) :=
  inferInstanceAs (Decidable (∀ request ∈ chargedTo position allowed, _))

/-- The tally of the requests that were charged to a limit is in order. -/
def Tallied (position : ℕ) (limit : RateLimitData) (opening : ℕ)
    (instant : AllowedRequest → TimePoint) (state : LimiterState) : Prop :=
  ∃ data, state.limiter[position]? = some data ∧
    data.requestsPerPeriod = limit.requestsPerPeriod ∧ data.periodMs = limit.periodMs ∧
    Tally data.period limit.requestsPerPeriod.toNat opening
      (Window.countIn data.period opening ((chargedTo position state.allowed).map instant))
      data.current state.clock

section Tallies

variable {position : ℕ} {limit : RateLimitData} {opening : ℕ}
  {instant : AllowedRequest → TimePoint} {state next : LimiterState}

theorem lasting_period {data : LimitData} (lasting : 0 < data.periodMs) : 0 < data.period :=
  Nat.mul_pos (by omega) (by decide)

theorem Tallied.allow {rateLimitId : ℤ} {readings : Readings}
    (tallied : Tallied position limit opening instant state)
    (positive : 0 < limit.requestsPerPeriod) (lasting : 0 < limit.periodMs)
    (placed : Placed position instant next.allowed)
    (stepped : state.step (.allowRequest rateLimitId readings) = some next) :
    Tallied position limit opening instant next := by
  obtain ⟨data, found, sameRequests, samePeriod, tally⟩ := tallied
  obtain ⟨later, update, updated, touches⟩ := touched_of_step stepped position
  have touched := touches data found
  rw [found, Option.map_some] at updated
  generalize update data = after at updated touched
  cases touched with
  | kept charges =>
    refine ⟨data, updated, sameRequests, samePeriod, ?_⟩
    rw [charges]
    exact tally.advance later
  | charged request passed charges toCheck ordered done =>
    have capacity : 0 < data.requestsPerPeriod := by omega
    have begun : data.startTime ≤ request.readings.checked position :=
      le_trans tally.begun toCheck
    have admits := (checkLimit_iff begun capacity).mp passed
    rw [sameRequests] at admits
    obtain ⟨notBefore, notAfter⟩ := placed request (by rw [charges]; simp)
    obtain ⟨requests, period⟩ := updateLimit_params data (request.readings.charged position)
    have samePeriods : (updateLimit data (request.readings.charged position)).period =
        data.period := by rw [LimitData.period, period, LimitData.period]
    refine ⟨_, updated, requests.trans sameRequests, period.trans samePeriod, ?_⟩
    rw [samePeriods, updateLimit_current (le_trans begun ordered), charges, List.map_append,
      Window.countIn_append]
    have charge := tally.charge (by omega) (lasting_period (by omega)) toCheck admits notBefore
      notAfter
    have one : Window.countIn data.period opening ([request].map instant) =
        if opening ≤ instant request ∧ instant request < opening + data.period then 1 else 0 := by
      simp [Window.countIn, List.countP_singleton]
    rw [one]
    exact charge.advance done

theorem Placed.of_prefix {earlier later : List AllowedRequest} (extended : earlier <+: later)
    (placed : Placed position instant later) : Placed position instant earlier :=
  fun request member => placed request ((extended.filter _).subset member)

/-- A limit that was just configured has admitted nothing. -/
theorem Tallied.configure {rateLimits : List RateLimitData} {clock : ℕ → TimePoint}
    (configured : rateLimits[position]? = some limit)
    (stepped : webSocketLimiterSystem.step {} (.setLimit rateLimits clock) = some next) :
    Tallied position limit opening instant next := by
  obtain ⟨allowed, limiter⟩ := allowed_of_setLimit stepped
  have inside : position < rateLimits.length := (List.getElem?_eq_some_iff.mp configured).1
  have found : next.limiter[position]? = some {
      requestsPerPeriod := limit.requestsPerPeriod
      periodMs := limit.periodMs
      startTime := clock position } := by
    rw [limiter, setLimit_getElem?, configured]
    rfl
  refine ⟨_, found, rfl, rfl, ?_⟩
  rw [allowed]
  exact Tally.begin (le_clock_of_setLimit stepped inside)

end Tallies

/-- A limiter is configured once, and its other calls are requests. -/
def ConfiguredOnce (calls : List LimiterCall) : Prop :=
  ∀ call ∈ calls, ∃ rateLimitId readings, call = .allowRequest rateLimitId readings

/-- A limit that was configured once, with a capacity and a period, lets through at most twice its
capacity in any half-open interval of one period, whichever instant between its check and its
charge a request is taken at. A refused request changes nothing. -/
theorem limit_admits_at_most_twice {rateLimits : List RateLimitData} {clock : ℕ → TimePoint}
    {calls : List LimiterCall} {finish : LimiterState}
    (runs : webSocketLimiterSystem.Runs webSocketLimiterSystem.init
      (.setLimit rateLimits clock :: calls) finish)
    (once : ConfiguredOnce calls) {position : ℕ} {limit : RateLimitData}
    (configured : rateLimits[position]? = some limit) (positive : 0 < limit.requestsPerPeriod)
    (lasting : 0 < limit.periodMs) {instant : AllowedRequest → TimePoint}
    (placed : Placed position instant finish.allowed) (opening : ℕ) :
    Window.countIn (limit.periodMs.toNat * nanosPerMilli) opening
        ((chargedTo position finish.allowed).map instant) ≤ 2 * limit.requestsPerPeriod.toNat ∧
      ∀ (limiter : WebSocketRateLimiter) rateLimitId readings,
        (limiter.allowRequest rateLimitId readings).1 = false →
        (limiter.allowRequest rateLimitId readings).2 = limiter := by
  constructor
  · obtain ⟨first, stepped, remaining⟩ := System.runs_cons.mp runs
    have tallied : Placed position instant finish.allowed →
        Tallied position limit opening instant finish := by
      refine remaining.induction (fun state => Placed position instant state.allowed →
        Tallied position limit opening instant state) (System.reachable_init.step stepped)
        (fun _ => Tallied.configure configured stepped) ?_
      intro state call next _ member tallied once'
      obtain ⟨rateLimitId, readings, rfl⟩ := once call member
      intro placed
      exact (tallied (placed.of_prefix (allowed_prefix_of_allow once'))).allow positive lasting
        placed once'
    obtain ⟨data, _, _, samePeriod, tally⟩ := tallied placed
    have bound := tally.le_two_mul
    rwa [LimitData.period, samePeriod] at bound
  · intro limiter rateLimitId readings refused
    rcases allowRequest_cases limiter rateLimitId readings with
      ⟨_, answer⟩ | ⟨_, answer, _⟩ | ⟨_, allowed, _⟩
    · rw [answer]
    · rw [answer]
    · rw [allowed] at refused
      cases refused

/-- A request whose four readings are the same. -/
def requestAt (rateLimitId : ℤ) (now : TimePoint) : LimiterCall :=
  .allowRequest rateLimitId ⟨now, now, now, now⟩

/-- Two requests late in one window and early in the next, where one is allowed per second. -/
def aroundTheEdge : List LimiterCall :=
  [requestAt 0 900000000, .allowRequest 0 ⟨999999999, 999999999, 1000000000, 1000000000⟩,
    requestAt 0 1000000000]

theorem limit_admits_at_most_twice_aroundTheEdge :
    ∃ finish, webSocketLimiterSystem.Runs webSocketLimiterSystem.init
        (.setLimit [⟨2, 1000⟩] (fun _ => 0) :: aroundTheEdge) finish ∧
      Window.countIn ((1000 : ℤ).toNat * nanosPerMilli) 900000000
        ((chargedTo 0 finish.allowed).map fun request => request.readings.charged 0) ≤
          2 * (2 : ℤ).toNat := by
  have evaluated : (webSocketLimiterSystem.run webSocketLimiterSystem.init
      (.setLimit [⟨2, 1000⟩] (fun _ => 0) :: aroundTheEdge)).any (fun finish =>
        decide (Placed 0 (fun request => request.readings.charged 0) finish.allowed)) = true := by
    decide +kernel
  obtain ⟨finish, runs, placed⟩ := System.exists_runs evaluated
  rw [decide_eq_true_eq] at placed
  have once : ConfiguredOnce aroundTheEdge := by
    simp [ConfiguredOnce, aroundTheEdge, requestAt]
  have configured : ([⟨2, 1000⟩] : List RateLimitData)[0]? = some ⟨2, 1000⟩ := rfl
  exact ⟨finish, runs, (limit_admits_at_most_twice runs once configured (by decide) (by decide)
    placed 900000000).1⟩

/-! ### Refusals -/

/-- The limits have counted only requests of their current windows. -/
def Honest (state : LimiterState) : Prop :=
  ∀ position (data : LimitData), state.limiter[position]? = some data →
    0 ≤ data.requestsPerPeriod ∧ data.startTime ≤ state.clock ∧
      (0 < data.requestsPerPeriod → data.current.Covered
        ((chargedTo position state.allowed).map fun request => request.readings.charged position))

/-- A call of `set_limit` gives no negative capacity, and a limit that it gives a capacity has
counted nothing or keeps its capacity and the start of its window. -/
def SetsHonestly (state : LimiterState) : LimiterCall → Prop
  | .setLimit rateLimits clock => ∀ position, (inside : position < rateLimits.length) →
      0 ≤ rateLimits[position].requestsPerPeriod ∧
        (0 < rateLimits[position].requestsPerPeriod →
          (state.limiter.getD position {}).count = 0 ∨
            0 < (state.limiter.getD position {}).requestsPerPeriod ∧
              (state.limiter.getD position {}).startTime = clock position)
  | .allowRequest _ _ => True

instance (state : LimiterState) (call : LimiterCall) : Decidable (SetsHonestly state call) :=
  match call with
  | .setLimit rateLimits _ =>
    inferInstanceAs (Decidable (∀ position, (inside : position < rateLimits.length) → _))
  | .allowRequest _ _ => isTrue trivial

theorem Honest.setLimit {state next : LimiterState} {rateLimits : List RateLimitData}
    {clock : ℕ → TimePoint} (honest : Honest state)
    (sets : SetsHonestly state (.setLimit rateLimits clock))
    (stepped : state.step (.setLimit rateLimits clock) = some next) : Honest next := by
  obtain ⟨allowed, limiter⟩ := allowed_of_setLimit stepped
  intro position data found
  rw [limiter, setLimit_getElem?, Option.map_eq_some_iff] at found
  obtain ⟨limit, given, rfl⟩ := found
  obtain ⟨inside, rfl⟩ := List.getElem?_eq_some_iff.mp given
  obtain ⟨natural, untouched⟩ := sets position inside
  refine ⟨natural, le_clock_of_setLimit stepped inside, fun capacity => ?_⟩
  rw [allowed]
  rcases untouched capacity with nothing | ⟨before, same⟩
  · show (state.limiter.getD position {}).count ≤ _
    rw [nothing]
    exact Nat.zero_le _
  · have present : state.limiter[position]? = some (state.limiter.getD position {}) := by
      cases found : state.limiter[position]? with
      | none => simp [found] at before
      | some data => simp [found]
    have covered := (honest position _ present).2.2 before
    unfold LimitData.current at covered ⊢
    rw [same] at covered
    exact covered

theorem Honest.allow {state next : LimiterState} {rateLimitId : ℤ} {readings : Readings}
    (honest : Honest state)
    (stepped : state.step (.allowRequest rateLimitId readings) = some next) : Honest next := by
  intro position after found
  obtain ⟨later, update, updated, touches⟩ := touched_of_step stepped position
  rw [updated, Option.map_eq_some_iff] at found
  obtain ⟨data, present, rfl⟩ := found
  obtain ⟨natural, begun, covered⟩ := honest position data present
  have touched := touches data present
  generalize update data = after at touched
  cases touched with
  | kept charges =>
    rw [charges]
    exact ⟨natural, le_trans begun later, covered⟩
  | charged request passed charges toCheck ordered done =>
    obtain ⟨requests, _⟩ := updateLimit_params data (request.readings.charged position)
    have since : data.startTime ≤ request.readings.charged position :=
      le_trans begun (le_trans toCheck ordered)
    rw [charges, requests, List.map_append, updateLimit_current since]
    exact ⟨natural, le_trans (updateLimit_startTime since) done, fun capacity =>
      (covered capacity).charge since⟩

/-- The general limit, or the limit that the request names, has a capacity and was charged with
that many allowed requests during the period before its check. -/
def Justified (state : LimiterState) (rateLimitId : ℤ) (readings : Readings) : Prop :=
  ∃ position ∈ [0, rateLimitId.toNat], ∃ data ∈ state.limiter[position]?,
    0 < data.requestsPerPeriod ∧
      data.requestsPerPeriod ≤ Window.countRecent data.period (readings.checked position)
        ((chargedTo position state.allowed).map fun request => request.readings.charged position)

instance (state : LimiterState) (rateLimitId : ℤ) (readings : Readings) :
    Decidable (Justified state rateLimitId readings) :=
  inferInstanceAs (Decidable (∃ position ∈ [0, rateLimitId.toNat],
    ∃ data ∈ state.limiter[position]?, _))

/-- In every run in which no call of `set_limit` gives a negative capacity or moves the window of
a limit that has counted requests, every refusal is justified. -/
theorem refusal_justified {calls : List LimiterCall} {state : LimiterState}
    (runs : webSocketLimiterSystem.Runs webSocketLimiterSystem.init calls state)
    (honestly : webSocketLimiterSystem.Throughout SetsHonestly webSocketLimiterSystem.init calls)
    {rateLimitId : ℤ} {readings : Readings}
    (inTime : state.InTime (.allowRequest rateLimitId readings))
    (refused : (state.limiter.allowRequest rateLimitId readings).1 = false) :
    Justified state rateLimitId readings := by
  have honest : Honest state := by
    refine runs.induction_throughout honestly Honest System.reachable_init ?_ ?_
    · intro position data found
      simp [webSocketLimiterSystem] at found
    · intro before call after _ sets holds stepped
      cases call with
      | setLimit rateLimits clock => exact holds.setLimit sets stepped
      | allowRequest other times => exact holds.allow stepped
  rcases allowRequest_cases state.limiter rateLimitId readings with
    ⟨_, answer⟩ | ⟨_, _, position, data, named, found, failed⟩ | ⟨_, allowed, _⟩
  · rw [answer] at refused
    cases refused
  · obtain ⟨natural, begun, covered⟩ := honest position data found
    have later : data.startTime ≤ readings.checked position :=
      le_trans begun (readings_ordered inTime position).1
    have unlimited : data.requestsPerPeriod ≠ 0 := by
      intro zero
      simp [checkLimit, zero] at failed
    have capacity : 0 < data.requestsPerPeriod := by omega
    have full := (checkLimit_iff later capacity).not.mp (by simp [failed])
    rw [Current.Admits, not_or, not_le, not_lt] at full
    have recent := (covered capacity).count_le_recent full.1
    refine ⟨position, ?_, data, found, capacity, ?_⟩
    · rcases named with rfl | rfl <;> simp
    · have counted := le_trans full.2 recent
      omega
  · rw [allowed] at refused
    cases refused

/-- One request per second is allowed. The second request comes after half a second. -/
def askedTwice : List LimiterCall :=
  [.setLimit [⟨1, 1000⟩] fun _ => 0, requestAt 0 0]

theorem refusal_justified_askedTwice :
    ∃ state, webSocketLimiterSystem.Runs webSocketLimiterSystem.init askedTwice state ∧
      (state.limiter.allowRequest 0 ⟨500000000, 500000000, 500000000, 500000000⟩).1 = false ∧
      Justified state 0 ⟨500000000, 500000000, 500000000, 500000000⟩ := by
  have evaluated : (webSocketLimiterSystem.run webSocketLimiterSystem.init askedTwice).any
      (fun state => decide (state.InTime (requestAt 0 500000000) ∧ (state.limiter.allowRequest 0
        ⟨500000000, 500000000, 500000000, 500000000⟩).1 = false)) = true := by
    decide +kernel
  have honestly : webSocketLimiterSystem.Throughout SetsHonestly webSocketLimiterSystem.init
      askedTwice := by
    decide +kernel
  obtain ⟨state, runs, checked⟩ := System.exists_runs evaluated
  rw [decide_eq_true_eq] at checked
  exact ⟨state, runs, checked.2, refusal_justified runs honestly checked.1 checked.2⟩

/-- The limits are set again 900 milliseconds after the request was charged, and a request is
refused 600 milliseconds later, a second and a half after the only charge. -/
theorem refusal_after_reconfiguration :
    ¬ ∀ calls state rateLimitId readings,
      webSocketLimiterSystem.Runs webSocketLimiterSystem.init calls state →
      state.InTime (.allowRequest rateLimitId readings) →
      (state.limiter.allowRequest rateLimitId readings).1 = false →
      Justified state rateLimitId readings := by
  have evaluated : (webSocketLimiterSystem.run webSocketLimiterSystem.init
      (askedTwice ++ [.setLimit [⟨1, 1000⟩] fun _ => 900000000])).any (fun state =>
        decide (state.InTime (requestAt 0 1500000000) ∧ (state.limiter.allowRequest 0
          ⟨1500000000, 1500000000, 1500000000, 1500000000⟩).1 = false ∧
          ¬ Justified state 0 ⟨1500000000, 1500000000, 1500000000, 1500000000⟩)) = true := by
    decide +kernel
  obtain ⟨state, runs, checked⟩ := System.exists_runs evaluated
  rw [decide_eq_true_eq] at checked
  intro always
  exact checked.2.2 (always _ state 0 _ runs checked.1 checked.2.1)

end Kurlyk.WebSocket
