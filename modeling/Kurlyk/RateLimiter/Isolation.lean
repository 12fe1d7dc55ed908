/-
This file proves that the coordinates of a limiter do not interfere. All limits
and keys share one map and one collection counter, so the traffic of other
coordinates decides when the state of a coordinate is erased. It does not decide
anything else: the answers given on a coordinate are those of a machine that sees
the calls on that coordinate alone and never collects.

The comparison is up to spent states. A state is spent when nothing holds it and
its window, if it has one, has run out; a spent state and an absent one answer
every later call alike and are the same again after the next commit.
-/

import Kurlyk.RateLimiter.Throttle

namespace Kurlyk.RateLimiter

/-! ### Runs of calls -/

/-- A call of a request, at an instant. -/
structure TimedCall where
  time : TimePoint
  isAllow : Bool
  call : RequestCall
deriving DecidableEq

/-- The limiter after the call. -/
def TimedCall.perform (timed : TimedCall) (limiter : HttpRateLimiter) : HttpRateLimiter :=
  if timed.isAllow then (timed.call.allow limiter timed.time).2 else timed.call.release limiter

/-- The answers of `allow_request` on one coordinate, in the order of the calls. -/
def answersOn (id : LimitId) (key : String) : HttpRateLimiter → List TimedCall → List Bool
  | _, [] => []
  | limiter, timed :: rest =>
    (if timed.call.Names id key ∧ timed.isAllow = true then
      [(timed.call.allow limiter timed.time).1] else []) ++
      answersOn id key (timed.perform limiter) rest

/-- A limiter with these limits, all of their handles alive. -/
def limiterWith (limits : List LimitParams) : HttpRateLimiter :=
  limits.foldl (fun limiter params => (createLimitHandle limiter params.requestsPerPeriod
    params.periodMs params.sequential).2) {}

/-- The call names one coordinate: its other handle is absent or names the same one. -/
def RequestCall.Lone (call : RequestCall) : Prop :=
  ∃ id key, ∀ other otherKey, call.Names other otherKey ↔ other = id ∧ otherKey = key

/-- A run of calls: the limits they name are registered, each names one coordinate, and the
clock does not go back. -/
structure WellFormed (limiter : HttpRateLimiter) (calls : List TimedCall) : Prop where
  held : ∀ timed ∈ calls, timed.call.Held limiter
  lone : ∀ timed ∈ calls, timed.call.Lone
  ordered : calls.Pairwise fun earlier later => earlier.time ≤ later.time

/-! ### One coordinate on its own -/

/-- The state of a coordinate after a call on it, without collections. -/
def soloStep (params : LimitParams) (state : Option KeyState) (timed : TimedCall) :
    Option KeyState :=
  if timed.isAllow then
    if canPassKey params state timed.call.token timed.time then
      some (commitKey params state timed.call.token timed.time)
    else state
  else if params.sequential = true ∧ timed.call.token ≠ 0 then
    state.bind (dropToken · timed.call.token)
  else state

/-- The answers of a coordinate that sees its own calls only. -/
def soloAnswers (params : LimitParams) : Option KeyState → List TimedCall → List Bool
  | _, [] => []
  | state, timed :: rest =>
    (if timed.isAllow = true then
      [canPassKey params state timed.call.token timed.time] else []) ++
      soloAnswers params (soloStep params state timed) rest

/-! ### Spent states -/

/-- The counter of an uncounted limit never moves, that of a counted one is never zero. -/
structure KeyWell (params : LimitParams) (clock : ℕ) (state : KeyState) : Prop where
  started : state.startTime ≤ clock
  counted : params.requestsPerPeriod ≠ 0 → 0 < state.count
  uncounted : params.requestsPerPeriod = 0 → state.startTime = 0 ∧ state.count = 0

/-- Nothing holds the state and its window has run out. -/
def Spent (params : LimitParams) (clock : ℕ) (state : KeyState) : Prop :=
  state.inFlightTokens = ∅ ∧
    (params.requestsPerPeriod ≠ 0 → state.startTime + params.period ≤ clock)

/-- The two states of a coordinate answer alike from `clock` on: they are equal, or each of
them is absent or spent. -/
def Alike (params : LimitParams) (clock : ℕ) (first second : Option KeyState) : Prop :=
  first = second ∨ ((∀ state, first = some state → Spent params clock state) ∧
    ∀ state, second = some state → Spent params clock state)

/-- A coordinate whose state, if any, is well. -/
def Well (params : LimitParams) (clock : ℕ) (state : Option KeyState) : Prop :=
  ∀ found, state = some found → KeyWell params clock found

section OneCoordinate

variable {params : LimitParams} {clock now : ℕ} {first second : Option KeyState}

theorem Well.advance {state : Option KeyState} (well : Well params clock state)
    (later : clock ≤ now) : Well params now state := by
  intro found is
  obtain ⟨started, counted, uncounted⟩ := well found is
  exact ⟨le_trans started later, counted, uncounted⟩

theorem Alike.advance (alike : Alike params clock first second) (later : clock ≤ now) :
    Alike params now first second := by
  rcases alike with equal | ⟨left, right⟩
  · exact Or.inl equal
  · refine Or.inr ⟨fun state is => ?_, fun state is => ?_⟩
    · exact ⟨(left state is).1, fun counts => le_trans ((left state is).2 counts) later⟩
    · exact ⟨(right state is).1, fun counts => le_trans ((right state is).2 counts) later⟩

/-- An absent or spent state lets every request pass. -/
theorem canPassKey_of_spent {state : Option KeyState} (well : Well params now state)
    (spent : ∀ found, state = some found → Spent params now found) (token : Token) :
    canPassKey params state token now = true := by
  cases state with
  | none => rfl
  | some found =>
    obtain ⟨free, expired⟩ := spent found rfl
    have unheld : heldByOther params found token = false := by simp [heldByOther, free]
    rw [canPassKey, unheld, if_neg (by simp), checkKey]
    by_cases counts : params.requestsPerPeriod = 0
    · rw [if_pos counts]
    · rw [if_neg counts, if_pos]
      exact (le_elapsedMs_iff (well found rfl).started _).mpr (expired counts)

/-- A commit forgets everything about a spent state. -/
theorem commitKey_of_spent {found : KeyState} (well : KeyWell params now found)
    (spent : Spent params now found) (token : Token) :
    commitKey params (some found) token now = commitKey params none token now := by
  obtain ⟨free, expired⟩ := spent
  have sameTokens : (commitKey params (some found) token now).inFlightTokens =
      (commitKey params none token now).inFlightTokens := by
    simp only [commitKey_tokens, Option.getD_some, Option.getD_none, free]
  have sameWindow : (commitKey params (some found) token now).startTime =
        (commitKey params none token now).startTime ∧
      (commitKey params (some found) token now).count =
        (commitKey params none token now).count := by
    by_cases counts : params.requestsPerPeriod = 0
    · obtain ⟨leftStart, leftCount⟩ :=
        commitKey_window_uncounted counts (some found) token now
      obtain ⟨rightStart, rightCount⟩ := commitKey_window_uncounted counts none token now
      obtain ⟨zeroStart, zeroCount⟩ := well.uncounted counts
      exact ⟨by rw [leftStart, rightStart]; exact zeroStart,
        by rw [leftCount, rightCount]; exact zeroCount⟩
    · have past := expired counts
      have leftExpired : elapsedMs now ((some found).getD {}).startTime ≥ params.periodMs :=
        (le_elapsedMs_iff well.started _).mpr past
      have rightExpired : elapsedMs now ((none : Option KeyState).getD {}).startTime ≥
          params.periodMs :=
        (le_elapsedMs_iff (Nat.zero_le _) _).mpr (le_trans (Nat.add_le_add_right
          (Nat.zero_le _) _) past)
      obtain ⟨leftStart, leftCount⟩ := commitKey_window_expired counts leftExpired token
      obtain ⟨rightStart, rightCount⟩ := commitKey_window_expired counts rightExpired token
      exact ⟨leftStart.trans rightStart.symm, leftCount.trans rightCount.symm⟩
  cases left : commitKey params (some found) token now
  cases right : commitKey params none token now
  simp only [left, right] at sameTokens sameWindow
  rw [sameTokens, sameWindow.1, sameWindow.2]

theorem Well.commit {state : Option KeyState} (well : Well params now state) (token : Token) :
    Well params now (some (commitKey params state token now)) := by
  rintro found rfl'
  obtain rfl := Option.some.inj rfl'
  have order : (state.getD {}).startTime ≤ now := by
    cases state with
    | none => exact Nat.zero_le _
    | some old => exact (well old rfl).started
  by_cases counts : params.requestsPerPeriod = 0
  · obtain ⟨start, count⟩ := commitKey_window_uncounted counts state token now
    refine ⟨by rw [start]; exact order, fun counted => absurd counts counted, fun _ => ?_⟩
    rw [start, count]
    cases state with
    | none => exact ⟨rfl, rfl⟩
    | some old => exact (well old rfl).uncounted counts
  · by_cases expired : elapsedMs now (state.getD {}).startTime ≥ params.periodMs
    · obtain ⟨start, count⟩ := commitKey_window_expired counts expired token
      exact ⟨start.le, fun _ => by rw [count]; exact Nat.one_pos, fun zero => absurd zero counts⟩
    · obtain ⟨start, count⟩ := commitKey_window_open counts expired token
      exact ⟨by rw [start]; exact order, fun _ => by rw [count]; exact Nat.succ_pos _,
        fun zero => absurd zero counts⟩

theorem Well.drop {state : Option KeyState} (well : Well params clock state) (token : Token) :
    Well params clock (state.bind (dropToken · token)) := by
  intro kept is
  obtain ⟨found, same, dropped⟩ := Option.bind_eq_some_iff.mp is
  rw [KeySound.dropToken_eq_some dropped]
  obtain ⟨started, counted, uncounted⟩ := well found same
  exact ⟨started, counted, uncounted⟩

theorem Well.collect {state : Option KeyState} (well : Well params clock state) :
    Well params clock (state.bind (collectKey params clock)) := by
  intro kept is
  obtain ⟨found, same, collected⟩ := Option.bind_eq_some_iff.mp is
  unfold collectKey at collected
  split at collected
  · simp at collected
  · obtain rfl := Option.some.inj collected
    exact well found same

/-- A collection only erases spent states. -/
theorem Alike.collect (alike : Alike params clock first second) (well : Well params clock first) :
    Alike params clock (first.bind (collectKey params clock)) second := by
  cases first with
  | none => exact alike
  | some found =>
    rw [Option.bind_some, collectKey]
    split
    · rename_i stale
      have spent : Spent params clock found := by
        obtain ⟨started, counted, _⟩ := well found rfl
        simp only [isStale, Bool.and_eq_true, Bool.or_eq_true, decide_eq_true_eq] at stale
        refine ⟨stale.1, fun counts => ?_⟩
        exact (le_elapsedMs_iff started _).mp (stale.2.resolve_left (counted counts).ne')
      refine Or.inr ⟨by simp, fun state is => ?_⟩
      rcases alike with equal | ⟨_, right⟩
      · rw [← equal] at is
        exact Option.some.inj is ▸ spent
      · exact right state is
    · exact alike

/-- Alike coordinates give the same answer. -/
theorem Alike.canPassKey_eq (alike : Alike params now first second)
    (wellFirst : Well params now first) (wellSecond : Well params now second) (token : Token) :
    canPassKey params first token now = canPassKey params second token now := by
  rcases alike with equal | ⟨left, right⟩
  · rw [equal]
  · rw [canPassKey_of_spent wellFirst left, canPassKey_of_spent wellSecond right]

/-- Alike coordinates are the same after a commit. -/
theorem Alike.commitKey_eq (alike : Alike params now first second)
    (wellFirst : Well params now first) (wellSecond : Well params now second) (token : Token) :
    commitKey params first token now = commitKey params second token now := by
  have forgets : ∀ state, Well params now state →
      (∀ found, state = some found → Spent params now found) →
      commitKey params state token now = commitKey params none token now := by
    intro state well spent
    cases state with
    | none => rfl
    | some found => exact commitKey_of_spent (well found rfl) (spent found rfl) token
  rcases alike with equal | ⟨left, right⟩
  · rw [equal]
  · rw [forgets first wellFirst left, forgets second wellSecond right]

theorem Spent.drop {found kept : KeyState} {token : Token} (spent : Spent params clock found)
    (dropped : dropToken found token = some kept) : Spent params clock kept := by
  rw [KeySound.dropToken_eq_some dropped]
  exact ⟨by simp [spent.1], spent.2⟩

theorem Alike.drop (alike : Alike params clock first second) (token : Token) :
    Alike params clock (first.bind (dropToken · token)) (second.bind (dropToken · token)) := by
  rcases alike with equal | ⟨left, right⟩
  · exact Or.inl (by rw [equal])
  · refine Or.inr ⟨fun kept is => ?_, fun kept is => ?_⟩
    · obtain ⟨found, same, dropped⟩ := Option.bind_eq_some_iff.mp is
      exact (left found same).drop dropped
    · obtain ⟨found, same, dropped⟩ := Option.bind_eq_some_iff.mp is
      exact (right found same).drop dropped

end OneCoordinate

/-! ### One call of the limiter, seen from one coordinate -/

section OneCall

variable {limiter : HttpRateLimiter} {timed : TimedCall} {id : LimitId} {params : LimitParams}
  {key : String} {clock : ℕ} {solo : Option KeyState}

/-- The comparison of a limiter with the solo machine of one coordinate. -/
structure Follows (limiter : HttpRateLimiter) (id : LimitId) (key : String)
    (params : LimitParams) (clock : ℕ) (solo : Option KeyState) : Prop where
  registered : Registered limiter id params
  wellKey : Well params clock (keyAt limiter id key)
  wellSolo : Well params clock solo
  alike : Alike params clock (keyAt limiter id key) solo

theorem Follows.advance (follows : Follows limiter id key params clock solo) {now : ℕ}
    (later : clock ≤ now) : Follows limiter id key params now solo :=
  ⟨follows.registered, follows.wellKey.advance later, follows.wellSolo.advance later,
    follows.alike.advance later⟩

theorem Registered.perform (registered : Registered limiter id params)
    (held : timed.call.Held limiter) : Registered (timed.perform limiter) id params := by
  unfold TimedCall.perform
  split
  · exact registered.allow held _
  · exact ⟨registered.1, by rw [headerAt_release]; exact registered.2⟩

/-- Maybe collecting afterwards changes nothing that matters. -/
theorem Follows.collect {limiter' : HttpRateLimiter} {state : Option KeyState} {collects : Bool}
    (registered : Registered limiter' id params) (well : Well params clock state)
    (wellSolo : Well params clock solo) (alike : Alike params clock state solo)
    (is : keyAt limiter' id key = state.bind (if collects then collectKey params clock else some)) :
    Follows limiter' id key params clock solo := by
  cases collects with
  | false =>
    rw [if_neg (by simp), Option.bind_fun_some] at is
    exact ⟨registered, by rw [is]; exact well, wellSolo, by rw [is]; exact alike⟩
  | true =>
    rw [if_pos rfl] at is
    exact ⟨registered, by rw [is]; exact well.collect, wellSolo,
      by rw [is]; exact alike.collect well⟩

/-- A call on another coordinate leaves the coordinate alike, whether or not it collects. -/
theorem Follows.other (follows : Follows limiter id key params timed.time solo)
    (held : timed.call.Held limiter) (unnamed : ¬ timed.call.Names id key) :
    Follows (timed.perform limiter) id key params timed.time solo := by
  have registered := follows.registered.perform held
  unfold TimedCall.perform at registered ⊢
  split
  · rename_i allows
    rw [if_pos allows] at registered
    cases answer : (timed.call.allow limiter timed.time).1 with
    | false =>
      rw [allow_snd_of_refused answer]
      exact follows
    | true =>
      obtain ⟨collects, settles⟩ := keyAt_allow held answer
      have is := settles id key params false follows.registered.2
      rw [settled, if_neg unnamed] at is
      exact Follows.collect registered follows.wellKey follows.wellSolo follows.alike is
  · rename_i releases
    rw [if_neg releases] at registered
    have same : keyAt (timed.call.release limiter) id key = keyAt limiter id key := by
      rw [keyAt_release held follows.registered.2, if_neg (fun all => unnamed all.1)]
    exact ⟨registered, by rw [same]; exact follows.wellKey, follows.wellSolo,
      by rw [same]; exact follows.alike⟩

/-- A call on the coordinate alone is answered as the solo machine answers it. -/
theorem Follows.answer (follows : Follows limiter id key params timed.time solo)
    (held : timed.call.Held limiter)
    (lone : ∀ other otherKey, timed.call.Names other otherKey ↔ other = id ∧ otherKey = key) :
    (timed.call.allow limiter timed.time).1 =
      canPassKey params solo timed.call.token timed.time := by
  rw [← follows.alike.canPassKey_eq follows.wellKey follows.wellSolo, Bool.eq_iff_iff,
    allow_fst_iff held]
  constructor
  · intro every
    exact every id key params ((lone id key).mpr ⟨rfl, rfl⟩) follows.registered
  · intro passes other otherKey otherParams named registered
    obtain ⟨rfl, rfl⟩ := (lone other otherKey).mp named
    rw [registered.unique follows.registered]
    exact passes

/-- A call on the coordinate alone moves the limiter as it moves the solo machine. -/
theorem Follows.own (follows : Follows limiter id key params timed.time solo)
    (held : timed.call.Held limiter)
    (lone : ∀ other otherKey, timed.call.Names other otherKey ↔ other = id ∧ otherKey = key) :
    Follows (timed.perform limiter) id key params timed.time (soloStep params solo timed) := by
  have registered := follows.registered.perform held
  have named : timed.call.Names id key := (lone id key).mpr ⟨rfl, rfl⟩
  have answered := follows.answer held lone
  unfold TimedCall.perform soloStep at *
  split
  · rename_i allows
    rw [if_pos allows] at registered
    rw [← answered]
    cases answer : (timed.call.allow limiter timed.time).1 with
    | false =>
      rw [allow_snd_of_refused answer, if_neg (by simp)]
      exact follows
    | true =>
      rw [if_pos rfl]
      obtain ⟨collects, settles⟩ := keyAt_allow held answer
      have is := settles id key params false follows.registered.2
      rw [settled, if_pos named] at is
      have same := follows.alike.commitKey_eq follows.wellKey follows.wellSolo timed.call.token
      refine Follows.collect registered (follows.wellKey.commit timed.call.token)
        (follows.wellSolo.commit timed.call.token) (Or.inl ?_) is
      rw [same]
  · rename_i releases
    rw [if_neg releases] at registered
    have is := keyAt_release held follows.registered.2 key
    by_cases tracked : params.sequential = true ∧ timed.call.token ≠ 0
    · rw [if_pos ⟨named, tracked⟩] at is
      rw [if_pos tracked]
      exact ⟨registered, by rw [is]; exact follows.wellKey.drop _, follows.wellSolo.drop _,
        by rw [is]; exact follows.alike.drop _⟩
    · rw [if_neg (fun all => tracked all.2)] at is
      rw [if_neg tracked]
      exact ⟨registered, by rw [is]; exact follows.wellKey, follows.wellSolo,
        by rw [is]; exact follows.alike⟩

end OneCall

/-! ### Whole runs -/

/-- The calls on one coordinate. -/
def callsOn (id : LimitId) (key : String) (calls : List TimedCall) : List TimedCall :=
  calls.filter fun timed => decide (timed.call.Names id key)

theorem Held.perform {limiter : HttpRateLimiter} {timed : TimedCall} {call : RequestCall}
    (held : call.Held limiter) (callHeld : timed.call.Held limiter) :
    call.Held (timed.perform limiter) := by
  intro id key named
  obtain ⟨params, registered⟩ := held id key named
  exact ⟨params, registered.perform callHeld⟩

/-- The limiter answers on a coordinate as the solo machine does, whatever the other calls. -/
theorem answersOn_eq_solo {limiter : HttpRateLimiter} {id : LimitId} {key : String}
    {params : LimitParams} {clock : ℕ} {solo : Option KeyState} {calls : List TimedCall}
    (follows : Follows limiter id key params clock solo) (wellFormed : WellFormed limiter calls)
    (later : ∀ timed ∈ calls, clock ≤ timed.time) :
    answersOn id key limiter calls = soloAnswers params solo (callsOn id key calls) := by
  induction calls generalizing limiter clock solo with
  | nil => rfl
  | cons timed rest inductionHypothesis =>
    obtain ⟨held, lone, ordered⟩ := wellFormed
    obtain ⟨inOrder, restOrdered⟩ := List.pairwise_cons.mp ordered
    have callHeld := held timed List.mem_cons_self
    have now := follows.advance (later timed List.mem_cons_self)
    have restWellFormed : WellFormed (timed.perform limiter) rest :=
      ⟨fun other member => Held.perform (held other (List.mem_cons_of_mem _ member)) callHeld,
        fun other member => lone other (List.mem_cons_of_mem _ member), restOrdered⟩
    rw [answersOn, callsOn, List.filter_cons]
    by_cases named : timed.call.Names id key
    · obtain ⟨loneId, loneKey, alone⟩ := lone timed List.mem_cons_self
      obtain ⟨rfl, rfl⟩ := (alone id key).mp named
      rw [if_pos (decide_eq_true named), soloAnswers, now.answer callHeld alone,
        inductionHypothesis (now.own callHeld alone) restWellFormed inOrder, callsOn]
      simp only [named, true_and]
    · rw [if_neg (fun both => named both.1), if_neg (by simpa using named), List.nil_append,
        inductionHypothesis (now.other callHeld named) restWellFormed inOrder, callsOn]

/-- A new limiter has no keys. -/
theorem keyAt_limiterWith (limits : List LimitParams) (id : LimitId) (key : String) :
    keyAt (limiterWith limits) id key = none := by
  have preserved : ∀ limiter : HttpRateLimiter, (∀ id key, keyAt limiter id key = none) →
      ∀ id key, keyAt (limits.foldl (fun limiter params => (createLimitHandle limiter
        params.requestsPerPeriod params.periodMs params.sequential).2) limiter) id key = none := by
    induction limits with
    | nil => exact fun limiter empty => empty
    | cons params rest inductionHypothesis =>
      intro limiter empty
      refine inductionHypothesis _ fun id key => ?_
      simp only [createLimitHandle]
      by_cases same : id = limiter.nextId
      · simp only [keyAt, Table.lookup_insert_eq, if_pos same, Option.bind_some,
          AList.lookup_empty]
      · have old := empty id key
        simpa only [keyAt, Table.lookup_insert_eq, if_neg same] using old
  exact preserved {} (fun id key => by simp [keyAt]) id key

theorem answersOn_eq_nil (id : LimitId) (key : String) (limiter : HttpRateLimiter)
    (calls : List TimedCall) (unnamed : ∀ timed ∈ calls, ¬ timed.call.Names id key) :
    answersOn id key limiter calls = [] := by
  induction calls generalizing limiter with
  | nil => rfl
  | cons timed rest inductionHypothesis =>
    rw [answersOn, if_neg (fun both => unnamed timed List.mem_cons_self both.1), List.nil_append]
    exact inductionHypothesis _ fun other member => unnamed other (List.mem_cons_of_mem _ member)

/-- Two runs over the same limits with the same timed calls on one coordinate get the same
answers there, whatever calls they make on other coordinates. -/
theorem answersOn_isolated (limits : List LimitParams) (id : LimitId) (key : String)
    (first second : List TimedCall) (wellFirst : WellFormed (limiterWith limits) first)
    (wellSecond : WellFormed (limiterWith limits) second)
    (same : callsOn id key first = callsOn id key second) :
    answersOn id key (limiterWith limits) first =
      answersOn id key (limiterWith limits) second := by
  by_cases used : ∃ params, Registered (limiterWith limits) id params
  · obtain ⟨params, registered⟩ := used
    have empty := keyAt_limiterWith limits id key
    have follows : Follows (limiterWith limits) id key params 0 none :=
      ⟨registered, by rw [empty]; simp [Well], by simp [Well], Or.inl empty⟩
    rw [answersOn_eq_solo follows wellFirst (fun _ _ => Nat.zero_le _),
      answersOn_eq_solo follows wellSecond (fun _ _ => Nat.zero_le _), same]
  · have silent : ∀ calls, WellFormed (limiterWith limits) calls →
        answersOn id key (limiterWith limits) calls = [] := fun calls wellFormed =>
      answersOn_eq_nil id key _ calls fun timed member named =>
        used (wellFormed.held timed member id key named)
    rw [silent first wellFirst, silent second wellSecond]

/-- A call on one key of the first limit. -/
def callOnKey (token : Token) (key : String) : RequestCall :=
  ⟨some 1, none, token, key, ""⟩

theorem callOnKey_lone (token : Token) (key : String) : (callOnKey token key).Lone := by
  refine ⟨1, key, fun other otherKey => ?_⟩
  simp only [RequestCall.Names, callOnKey, Option.some.injEq, reduceCtorEq, false_and, or_false,
    eq_comm]

/-- A sequential limit of two requests in ten milliseconds. -/
def pairwiseLimit : List LimitParams := [⟨2, 10, true⟩]

theorem wellFormed_pairwiseLimit (calls : List TimedCall)
    (onFirst : ∀ timed ∈ calls, ∃ token key, timed.call = callOnKey token key)
    (ordered : calls.Pairwise fun earlier later => earlier.time ≤ later.time) :
    WellFormed (limiterWith pairwiseLimit) calls := by
  refine ⟨fun timed member id key named => ?_, fun timed member => ?_, ordered⟩
  · obtain ⟨token, callKey, is⟩ := onFirst timed member
    rw [is] at named
    rcases named with ⟨given, _⟩ | ⟨given, _⟩
    · obtain rfl := Option.some.inj given
      exact ⟨⟨2, 10, true⟩, by decide, by decide⟩
    · simp [callOnKey] at given
  · obtain ⟨token, callKey, is⟩ := onFirst timed member
    rw [is]
    exact callOnKey_lone token callKey

/-- While one request holds a key, another one on that key is refused, however busy a second
key is. -/
theorem answersOn_isolated_pairwiseLimit :
    answersOn 1 "held" (limiterWith pairwiseLimit)
        [⟨5, true, callOnKey 1 "held"⟩, ⟨6, true, callOnKey 2 "other"⟩,
          ⟨7, true, callOnKey 3 "held"⟩, ⟨8, false, callOnKey 2 "other"⟩] =
      answersOn 1 "held" (limiterWith pairwiseLimit)
        [⟨5, true, callOnKey 1 "held"⟩, ⟨7, true, callOnKey 3 "held"⟩] ∧
    answersOn 1 "held" (limiterWith pairwiseLimit)
        [⟨5, true, callOnKey 1 "held"⟩, ⟨7, true, callOnKey 3 "held"⟩] = [true, false] := by
  refine ⟨answersOn_isolated pairwiseLimit 1 "held" _ _ ?_ ?_ (by decide), by decide⟩
  · exact wellFormed_pairwiseLimit _ (by simp [callOnKey]) (by decide)
  · exact wellFormed_pairwiseLimit _ (by simp [callOnKey]) (by decide)

end Kurlyk.RateLimiter
