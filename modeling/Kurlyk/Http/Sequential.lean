/-
This file proves that a sequential limit admits one request at a time. From the
dispatch of a request until `complete` has claimed it, its token is on every
sequential coordinate of the request, so that no other request with one of them
is dispatched, and a retry is refused by a full window only. Conversely a token
is on a coordinate only if its request was dispatched with it and is not yet
completed: however often retries are dispatched or refused, `complete` finds the
release armed.

Users who call `allow_request` or `release_request` directly choose the token
themselves. The first result needs that they do not release the token of the
request, the second that they do not ask with it.
-/

import Kurlyk.Http.Limits

namespace Kurlyk.Http

open RateLimiter

variable {world next : World} {action : Action} {token : Token} {id : LimitId} {key : String}

/-- Tokens are counted from one. -/
theorem token_ne_zero (reachable : managerSystem.Reachable world)
    (accepted : .accepted token ∈ world.log) : token ≠ 0 := by
  have counted : 0 < world.nextInFlightToken ∧
      ∀ token, .accepted token ∈ world.log → token ≠ 0 := by
    refine reachable.induction
      (fun world => 0 < world.nextInFlightToken ∧ ∀ token, .accepted token ∈ world.log → token ≠ 0)
      ⟨Nat.one_pos, fun _ member => absurd member List.not_mem_nil⟩ ?_
    intro state action after reached counted stepped
    rcases (step_transition stepped).effect with
      neutral | ⟨request, callback, admits⟩ | ⟨_, completes⟩
    · rw [neutral.counter]
      exact ⟨counted.1, fun token member => counted.2 token ((neutral.accepted_iff token).mp member)⟩
    · rw [admits.counter, admits.logged]
      refine ⟨Nat.succ_pos _, fun token member => ?_⟩
      rcases List.mem_append.mp member with old | new
      · exact counted.2 token old
      · obtain rfl : token = state.nextInFlightToken := by simpa using new
        exact counted.1.ne'
    · rw [completes.counter, completes.logged]
      refine ⟨counted.1, fun token member => counted.2 token ?_⟩
      simpa using member
  exact counted.2 token accepted

/-- A context keeps its request. -/
theorem Asks.request_eq (asks : Asks world next action) (accepted : .accepted token ∈ world.log) :
    (next.contexts token).request = (world.contexts token).request := by
  cases asks with
  | calm calm => exact (calm.contexts token accepted).1
  | dispatch dispatches => exact dispatches.holders.requests token
  | complete claims => exact claims.holders.requests token
  | allow held direct | release held direct => rw [direct]

/-- The log grows, and only `complete` releases a request. -/
theorem Asks.logged (asks : Asks world next action) :
    ∃ events, next.log = world.log ++ events ∧
      ∀ token, .completing token ∈ events → Claims world next token := by
  cases asks with
  | calm calm =>
    obtain ⟨events, logged, spec⟩ := calm.logged
    exact ⟨events, logged, fun token member => absurd member (spec token).2.1⟩
  | dispatch dispatches => exact ⟨_, dispatches.logged, by simp⟩
  | @complete _ claimed claims =>
    refine ⟨_, claims.logged, fun token member => ?_⟩
    obtain rfl : token = claimed := by simpa using member
    exact claims
  | allow held direct | release held direct =>
    exact ⟨[], by rw [direct, List.append_nil], by simp⟩

/-! ### Tokens belong to dispatched requests -/

/-- The request was admitted, and `complete` has not claimed its context. -/
def World.Uncompleted (world : World) (token : Token) : Prop :=
  .accepted token ∈ world.log ∧ .completing token ∉ world.log

/-- The request was dispatched, and the coordinate is its general or its specific one. -/
def World.DispatchedUnder (world : World) (token : Token) (id : LimitId) (key : String) : Prop :=
  .dispatched token ∈ world.log ∧
    ∃ request, (world.contexts token).request = some request ∧ (request.call token).Names id key

/-- The token is only on coordinates of its request, while the request is uncompleted. -/
def Seated (token : Token) (world : World) : Prop :=
  ∀ id key, token ∈ tokensAt world.rateLimiter id key →
    world.Uncompleted token ∧ world.DispatchedUnder token id key

/-- `complete` takes the token away wherever it is. -/
theorem Claims.not_mem_tokensAt (claims : Claims world next token) (guarded : Guarded world)
    (orderly : Orderly world) (seated : Seated token world) (nonzero : token ≠ 0) (id : LimitId)
    (key : String) : token ∉ tokensAt next.rateLimiter id key := by
  intro member
  rcases claims.effect guarded orderly with ⟨same, unarmed⟩ | ⟨request, carried, held, released⟩
  · rw [same] at member
    obtain ⟨_, dispatched, request, carried, _⟩ := seated id key member
    rw [unarmed dispatched] at carried
    exact absurd carried (by simp)
  · rw [released] at member
    have before := tokensAt_release_subset held id key member
    obtain ⟨_, _, request', carried', named⟩ := seated id key before
    obtain rfl : request' = request := Option.some.inj (carried'.symm.trans carried)
    cases header : headerAt world.rateLimiter id with
    | none =>
      rw [tokensAt_of_headerless header] at before
      exact absurd before (Finset.notMem_empty _)
    | some found =>
      have sequential := guarded.locked.sequential id key token found.1 found.2 before header
      rw [tokensAt_release held header, if_pos ⟨named, sequential, nonzero⟩] at member
      exact absurd rfl (Finset.mem_erase.mp member).1

theorem Seated.step (seated : Seated token world) (reachable : managerSystem.Reachable world)
    (asks : Asks world next action)
    (foreign : ∀ call now, action = .allowRequest call now → call.token ≠ token) :
    Seated token next := by
  have guarded := guarded_of_reachable reachable
  have orderly := orderly_of_reachable reachable
  obtain ⟨events, logged, released⟩ := asks.logged
  intro id key member
  have stays : token ∈ tokensAt world.rateLimiter id key →
      next.Uncompleted token ∧ next.DispatchedUnder token id key := by
    intro before
    obtain ⟨⟨accepted, uncompleted⟩, dispatched, request, carried, named⟩ := seated id key before
    rw [World.Uncompleted, World.DispatchedUnder, logged, asks.request_eq accepted]
    refine ⟨⟨List.mem_append_left _ accepted, fun completing => ?_⟩,
      List.mem_append_left _ dispatched, request, carried, named⟩
    rcases List.mem_append.mp completing with old | new
    · exact uncompleted old
    · exact (released token new).not_mem_tokensAt guarded orderly seated
        (token_ne_zero reachable accepted) id key member
  cases asks with
  | calm calm =>
    rw [calm.retires.tokensAt_eq] at member
    exact stays member
  | @dispatch _ begun request now dispatches =>
    rw [dispatches.limiter] at member
    rcases mem_tokensAt_allow (dispatches.held guarded orderly) member with
      before | ⟨same, _, named, _⟩
    · exact stays before
    · obtain rfl : token = begun := same
      have held := mem_holdings_of_pending dispatches.pending
      obtain ⟨sound, retries, stage, _⟩ := orderly.custody.fits _ _ held
      have queued : stageOf world.log token = .queued retries := stage
      have uncompleted : .completing token ∉ world.log := by
        rw [completing_mem_iff sound.1, queued]
        simp [Stage.isReleased]
      refine ⟨⟨?_, ?_⟩, ?_, request, ?_, named⟩
      · rw [dispatches.logged]
        exact List.mem_append_left _ (orderly.unfinished held).1
      · rw [dispatches.logged, List.mem_append, not_or]
        exact ⟨uncompleted, by simp⟩
      · rw [dispatches.logged]
        exact List.mem_append_right _ List.mem_cons_self
      · exact (dispatches.holders.requests token).trans dispatches.carried
  | complete claims =>
    rcases claims.effect guarded orderly with ⟨same, _⟩ | ⟨request, _, held, dropped⟩
    · exact stays (same ▸ member)
    · rw [dropped] at member
      exact stays (tokensAt_release_subset held id key member)
  | @allow call now held direct =>
    rw [direct] at member
    rcases mem_tokensAt_allow (guarded.supported.user_held held) member with before | ⟨same, _⟩
    · exact stays before
    · exact absurd same.symm (foreign call now rfl)
  | release held direct =>
    rw [direct] at member
    exact stays (tokensAt_release_subset (guarded.supported.user_held held) id key member)

/-- Unless users ask with its token, a request's token is on a coordinate only if the request was
dispatched with that coordinate and `complete` has not claimed it. -/
theorem tokens_outstanding {actions : List Action}
    (runs : managerSystem.Runs managerSystem.init actions world)
    (foreign : ∀ call now, .allowRequest call now ∈ actions → call.token ≠ token) :
    (∀ id key, token ∈ tokensAt world.rateLimiter id key →
        world.Uncompleted token ∧ world.DispatchedUnder token id key) ∧
      (.completing token ∈ world.log → ∀ id key, token ∉ tokensAt world.rateLimiter id key) := by
  have seated : Seated token world := by
    refine runs.induction (Seated token) System.reachable_init
      (fun _ _ member => absurd member (Finset.notMem_empty _)) ?_
    intro state action after reached member seated stepped
    refine seated.step reached (asks_of_step reached stepped) fun call now same => ?_
    exact foreign call now (same ▸ member)
  refine ⟨seated, fun completing id key member => ?_⟩
  exact (seated id key member).1.2 completing

/-- A request of the key "k" of the first limit. -/
def serialRequest : HttpRequest :=
  { generalRateLimit := some 1, generalRateLimitKey := "k" }

/-- Two such requests are submitted, and the worker begins to scan the pending list. -/
def twoSerial : List Action :=
  [.createRateLimit 100 1000 true, .submitRequest (some serialRequest) true,
    .submitRequest (some serialRequest) true, .callProcess, .work .proceed]

/-- The token of the request that is dispatched first. -/
theorem tokens_outstanding_twoSerial :
    ∃ world, managerSystem.Runs managerSystem.init (twoSerial ++ [.work (.time 1)]) world ∧
      1 ∈ tokensAt world.rateLimiter 1 "k" ∧ world.Uncompleted 1 ∧
      world.DispatchedUnder 1 1 "k" := by
  have evaluated : (managerSystem.run managerSystem.init (twoSerial ++ [.work (.time 1)])).any
      (fun world => decide (1 ∈ tokensAt world.rateLimiter 1 "k")) = true := by
    decide +kernel
  obtain ⟨world, runs, checked⟩ := System.exists_runs evaluated
  have member := of_decide_eq_true checked
  refine ⟨world, runs, member, (tokens_outstanding runs ?_).1 1 "k" member⟩
  intro call now asked
  exact absurd asked (by simp [twoSerial])

/-- The arguments of a request of that key. -/
def serialCall (token : Token) : RequestCall :=
  serialRequest.call token

/-- A user who calls `allow_request` with a token leaves it on the coordinate although no request
has it. -/
theorem token_without_request :
    ¬ ∀ (actions : List Action) (world : World) (token : Token) (id : LimitId) (key : String),
      managerSystem.Runs managerSystem.init actions world → world.shutdown = false →
      token ∈ tokensAt world.rateLimiter id key →
        world.Uncompleted token ∧ world.DispatchedUnder token id key := by
  intro promised
  have evaluated : (managerSystem.run managerSystem.init
      [.createRateLimit 100 1000 true, .allowRequest (serialCall 1) 1]).any
      (fun world => decide (world.shutdown = false ∧ 1 ∈ tokensAt world.rateLimiter 1 "k" ∧
        .dispatched 1 ∉ world.log)) = true := by
    decide +kernel
  obtain ⟨world, runs, checked⟩ := System.exists_runs evaluated
  obtain ⟨running, member, never⟩ := of_decide_eq_true checked
  exact never (promised _ world 1 1 "k" runs running member).2.1

/-! ### One request at a time -/

theorem dispatches_of_logged (asks : Asks world next action)
    (logged : next.log = world.log ++ [.dispatched token]) :
    ∃ request now, Dispatches world next token request now := by
  cases asks with
  | calm calm =>
    obtain ⟨events, extended, spec⟩ := calm.logged
    have same := List.append_cancel_left (extended.symm.trans logged)
    exact absurd (by rw [same]; exact List.mem_cons_self) (spec token).1
  | @dispatch _ begun request now dispatches =>
    have same := List.append_cancel_left (dispatches.logged.symm.trans logged)
    obtain rfl : begun = token := by simpa using same
    exact ⟨request, now, dispatches⟩
  | complete claims =>
    exact absurd (List.append_cancel_left (claims.logged.symm.trans logged)) (by simp)
  | allow held direct | release held direct =>
    rw [direct] at logged
    exact absurd logged (by simp)

/-- The parameters of a limit never change. -/
theorem Asks.headers (asks : Asks world next action) (guarded : Guarded world)
    (orderly : Orderly world) :
    world.rateLimiter.nextId ≤ next.rateLimiter.nextId ∧
      ∀ id params mark, id < world.rateLimiter.nextId →
        headerAt next.rateLimiter id = some (params, mark) →
        ∃ old, headerAt world.rateLimiter id = some (params, old) := by
  cases asks with
  | calm calm =>
    refine ⟨calm.retires.counter, fun id params mark below found => ?_⟩
    rcases calm.retires.headers id params mark found with ⟨old, before, _⟩ | fresh
    · exact ⟨old, before⟩
    · exact absurd fresh (Nat.not_le_of_lt below)
  | dispatch dispatches =>
    rw [dispatches.limiter]
    refine ⟨Nat.le_of_eq (allow_bookkeeping _ _ _).1.symm, fun id params mark _ found => ?_⟩
    exact ⟨mark, headerAt_allow (dispatches.held guarded orderly) id _ found⟩
  | complete claims =>
    rcases claims.effect guarded orderly with ⟨same, _⟩ | ⟨request, _, _, released⟩
    · rw [same]
      exact ⟨Nat.le_refl _, fun _ _ mark _ found => ⟨mark, found⟩⟩
    · rw [released]
      refine ⟨Nat.le_of_eq (release_bookkeeping _ _).1.symm, fun id params mark _ found => ?_⟩
      rw [headerAt_release] at found
      exact ⟨mark, found⟩
  | allow held direct =>
    rw [direct]
    refine ⟨Nat.le_of_eq (allow_bookkeeping _ _ _).1.symm, fun id params mark _ found => ?_⟩
    exact ⟨mark, headerAt_allow (guarded.supported.user_held held) id _ found⟩
  | release held direct =>
    rw [direct]
    refine ⟨Nat.le_of_eq (release_bookkeeping _ _).1.symm, fun id params mark _ found => ?_⟩
    dsimp only at found
    rw [headerAt_release] at found
    exact ⟨mark, found⟩

/-- A token stays on a coordinate until its request is completed, or a user releases it. -/
theorem Asks.mem_tokensAt (asks : Asks world next action) (guarded : Guarded world)
    (orderly : Orderly world) (member : token ∈ tokensAt world.rateLimiter id key)
    (uncompleted : .completing token ∉ next.log)
    (foreign : ∀ call, action = .releaseRequest call → call.token ≠ token) :
    token ∈ tokensAt next.rateLimiter id key := by
  cases asks with
  | calm calm =>
    rw [calm.retires.tokensAt_eq]
    exact member
  | dispatch dispatches =>
    rw [dispatches.limiter]
    exact tokensAt_subset_allow (dispatches.held guarded orderly) _ _ _ member
  | @complete _ claimed claims =>
    have other : token ≠ claimed := by
      rintro rfl
      refine uncompleted ?_
      rw [claims.logged]
      exact List.mem_append_right _ List.mem_cons_self
    rcases claims.effect guarded orderly with ⟨same, _⟩ | ⟨request, _, held, released⟩
    · rw [same]
      exact member
    · rw [released]
      exact mem_tokensAt_release_of_ne held other member
  | allow held direct =>
    rw [direct]
    exact tokensAt_subset_allow (guarded.supported.user_held held) _ _ _ member
  | @release call held direct =>
    rw [direct]
    exact mem_tokensAt_release_of_ne (guarded.supported.user_held held) (foreign call rfl).symm
      member

/-- The token of a request that was dispatched when the limiter was `origin` is on all its
sequential coordinates. -/
structure Occupied (origin : HttpRateLimiter) (token : Token) (request : HttpRequest)
    (world : World) : Prop where
  accepted : .accepted token ∈ world.log
  carried : (world.contexts token).request = some request
  counter : origin.nextId ≤ world.rateLimiter.nextId
  headers : ∀ id params mark, id < origin.nextId →
    headerAt world.rateLimiter id = some (params, mark) →
    ∃ old, headerAt origin id = some (params, old)
  tokens : .completing token ∉ world.log → ∀ id key params mark,
    (request.call token).Names id key → headerAt origin id = some (params, mark) →
    params.sequential = true → token ∈ tokensAt world.rateLimiter id key

section Occupied

variable {request : HttpRequest} {origin : HttpRateLimiter}

theorem Dispatches.occupied {now : TimePoint} (dispatches : Dispatches world next token request now)
    (reachable : managerSystem.Reachable world)
    (stepped : managerSystem.step world action = some next) :
    Occupied world.rateLimiter token request next := by
  have guarded := guarded_of_reachable reachable
  have orderly := orderly_of_reachable reachable
  have held := dispatches.held guarded orderly
  have accepted := (orderly.unfinished (mem_holdings_of_pending dispatches.pending)).1
  obtain ⟨counter, headers⟩ := (asks_of_step reachable stepped).headers guarded orderly
  refine ⟨?_, (dispatches.holders.requests token).trans dispatches.carried, counter, headers, ?_⟩
  · rw [dispatches.logged]
    exact List.mem_append_left _ accepted
  · intro _ id key params mark named header sequential
    rw [dispatches.limiter, tokensAt_allow held dispatches.allowed header,
      if_pos ⟨named, sequential, token_ne_zero reachable accepted⟩]
    exact Finset.mem_insert_self _ _

theorem Occupied.step (occupied : Occupied origin token request world)
    (reachable : managerSystem.Reachable world) (asks : Asks world next action)
    (foreign : ∀ call, action = .releaseRequest call → call.token ≠ token) :
    Occupied origin token request next := by
  have guarded := guarded_of_reachable reachable
  have orderly := orderly_of_reachable reachable
  obtain ⟨counter, headers⟩ := asks.headers guarded orderly
  obtain ⟨events, logged, _⟩ := asks.logged
  refine ⟨?_, (asks.request_eq occupied.accepted).trans occupied.carried,
    occupied.counter.trans counter, ?_, ?_⟩
  · rw [logged]
    exact List.mem_append_left _ occupied.accepted
  · intro id params mark below found
    obtain ⟨old, before⟩ := headers id params mark (Nat.lt_of_lt_of_le below occupied.counter) found
    exact occupied.headers id params old below before
  · intro uncompleted id key params mark named header sequential
    have earlier : .completing token ∉ world.log := by
      rw [logged, List.mem_append, not_or] at uncompleted
      exact uncompleted.1
    exact asks.mem_tokensAt guarded orderly
      (occupied.tokens earlier id key params mark named header sequential) uncompleted foreign

/-- The context of an uncompleted request is alive before a shutdown. -/
theorem Occupied.alive (occupied : Occupied origin token request world)
    (reachable : managerSystem.Reachable world) (running : world.shutdown = false)
    (uncompleted : .completing token ∉ world.log) : token ∈ world.live := by
  have intact : stageOf world.log token ≠ .broken :=
    ((orderly_of_reachable reachable).custody.sound token).1
  refine (guarded_of_reachable reachable).alive token occupied.accepted (fun completed => ?_)
    fun lost => not_dropped_of_running reachable running token (Or.inr lost)
  rw [completed_mem_iff intact] at completed
  rw [completing_mem_iff intact] at uncompleted
  exact uncompleted (isReleased_of_isDone completed)

/-- No other request with a sequential coordinate of the request is dispatched. -/
theorem Occupied.excludes (occupied : Occupied origin token request world)
    (reachable : managerSystem.Reachable world) (uncompleted : .completing token ∉ world.log)
    (named : (request.call token).Names id key) {params : LimitParams} {mark : Bool}
    (header : headerAt origin id = some (params, mark)) (sequential : params.sequential = true)
    {other : Token} {otherRequest : HttpRequest} {now : TimePoint}
    (dispatches : Dispatches world next other otherRequest now) (different : other ≠ token) :
    ¬ (otherRequest.call other).Names id key := by
  have guarded := guarded_of_reachable reachable
  have orderly := orderly_of_reachable reachable
  have accepted := (orderly.unfinished (mem_holdings_of_pending dispatches.pending)).1
  have holds := occupied.tokens uncompleted id key params mark named header sequential
  intro sharing
  have refused := guarded.locked.refuses (dispatches.held guarded orderly) holds sharing different
    (token_ne_zero reachable accepted) now
  rw [dispatches.allowed] at refused
  exact absurd refused (by simp)

/-- A retry that is refused meets a full window. -/
theorem Occupied.retries (occupied : Occupied origin token request world)
    (reachable : managerSystem.Reachable world) (running : world.shutdown = false)
    (uncompleted : .completing token ∉ world.log)
    (below : ∀ id key, (request.call token).Names id key → id < origin.nextId) {now : TimePoint}
    (refused : ((request.call token).allow world.rateLimiter now).1 = false) :
    ∃ id key params state, (request.call token).Names id key ∧
      Registered world.rateLimiter id params ∧ keyAt world.rateLimiter id key = some state ∧
      checkKey params state now = false := by
  have alive := occupied.alive reachable running uncompleted
  have supported := (guarded_of_reachable reachable).supported
  refine window_of_refused (supported.request_held alive occupied.carried) ?_ refused
  intro id key params named registered sequential
  obtain ⟨mark, header⟩ := occupied.headers id params false (below id key named) registered.2
  exact occupied.tokens uncompleted id key params mark named header sequential

end Occupied

/-- From the dispatch of a request until `complete` has claimed it, and unless a user releases
its token, no other request with one of its sequential coordinates is dispatched, and its own
retries are refused by a full window only. -/
theorem sequential_exclusion {before start : World} {first : Action} {actions : List Action}
    {request : HttpRequest} {params : LimitParams} (reachable : managerSystem.Reachable before)
    (stepped : managerSystem.step before first = some start)
    (dispatched : start.log = before.log ++ [.dispatched token])
    (carried : (before.contexts token).request = some request)
    (named : (request.call token).Names id key)
    (registered : Registered before.rateLimiter id params) (sequential : params.sequential = true)
    (runs : managerSystem.Runs start actions world)
    (foreign : ∀ call, .releaseRequest call ∈ actions → call.token ≠ token)
    (running : world.shutdown = false) (uncompleted : .completing token ∉ world.log) :
    (∀ action next other otherRequest, managerSystem.step world action = some next →
        next.log = world.log ++ [.dispatched other] → other ≠ token →
        (world.contexts other).request = some otherRequest →
        ¬ (otherRequest.call other).Names id key) ∧
      ∀ now, ((request.call token).allow world.rateLimiter now).1 = false →
        ∃ id key params state, (request.call token).Names id key ∧
          Registered world.rateLimiter id params ∧ keyAt world.rateLimiter id key = some state ∧
          checkKey params state now = false := by
  have guarded := guarded_of_reachable reachable
  obtain ⟨again, _, dispatches⟩ := dispatches_of_logged (asks_of_step reachable stepped) dispatched
  obtain rfl : again = request := Option.some.inj (dispatches.carried.symm.trans carried)
  have occupied : Occupied before.rateLimiter token again world := by
    refine runs.induction (Occupied before.rateLimiter token again) (reachable.step stepped)
      (dispatches.occupied reachable stepped) ?_
    intro state action after reached member occupied stepped
    refine occupied.step reached (asks_of_step reached stepped) fun call same => ?_
    exact foreign call (same ▸ member)
  have reached := (reachable.step stepped).runs runs
  refine ⟨fun action next other otherRequest later entered different otherCarried => ?_,
    fun now refused => ?_⟩
  · obtain ⟨found, _, otherDispatches⟩ :=
      dispatches_of_logged (asks_of_step reached later) entered
    obtain rfl : found = otherRequest :=
      Option.some.inj (otherDispatches.carried.symm.trans otherCarried)
    exact occupied.excludes reached uncompleted named registered.2 sequential otherDispatches
      different
  · refine occupied.retries reached running uncompleted (fun other otherKey otherNamed => ?_)
      refused
    obtain ⟨_, otherRegistered⟩ :=
      dispatches.held guarded (orderly_of_reachable reachable) other otherKey otherNamed
    exact guarded.supported.bounded other _ otherRegistered.2

/-- The second request is refused while the first one flies. -/
theorem sequential_exclusion_twoSerial :
    ∃ before start world,
      managerSystem.Runs managerSystem.init twoSerial before ∧
      managerSystem.step before (.work (.time 1)) = some start ∧
      managerSystem.Runs start [.work (.time 1), .work (.time 1)] world ∧
      (∀ action next other otherRequest, managerSystem.step world action = some next →
        next.log = world.log ++ [.dispatched other] → other ≠ 1 →
        (world.contexts other).request = some otherRequest →
        ¬ (otherRequest.call other).Names 1 "k") ∧
      ∀ now, ((serialRequest.call 1).allow world.rateLimiter now).1 = false →
        ∃ id key params state, (serialRequest.call 1).Names id key ∧
          Registered world.rateLimiter id params ∧ keyAt world.rateLimiter id key = some state ∧
          checkKey params state now = false := by
  have evaluated : (managerSystem.run managerSystem.init twoSerial).any
      (fun before => decide ((before.contexts 1).request = some serialRequest ∧
        headerAt before.rateLimiter 1 = some (⟨100, 1000, true⟩, false) ∧
        ((managerSystem.step before (.work (.time 1))).any fun start =>
          decide (start.log = before.log ++ [.dispatched 1]) &&
          (managerSystem.run start [.work (.time 1), .work (.time 1)]).any fun world =>
            decide (world.shutdown = false ∧ .completing 1 ∉ world.log)) = true)) = true := by
    decide +kernel
  obtain ⟨before, reaches, checked⟩ := System.exists_runs evaluated
  obtain ⟨carried, header, later⟩ := of_decide_eq_true checked
  obtain ⟨start, stepped, after⟩ := (Option.any_eq_true _ _).mp later
  obtain ⟨dispatched, remaining⟩ := Bool.and_eq_true_iff.mp after
  obtain ⟨world, runs, last⟩ := System.exists_runs remaining
  obtain ⟨running, uncompleted⟩ := of_decide_eq_true last
  refine ⟨before, start, world, reaches, stepped, runs, ?_⟩
  exact sequential_exclusion ⟨_, reaches⟩ stepped (of_decide_eq_true dispatched) carried
    (by decide) ⟨by decide, header⟩ rfl runs (by simp) running uncompleted

/-- A user who releases the token of the first request lets the second one pass. -/
theorem sequential_released_by_user :
    ¬ ∀ (before start world next : World) (first action : Action) (actions : List Action)
      (token other : Token) (request otherRequest : HttpRequest) (id : LimitId) (key : String)
      (params : LimitParams), managerSystem.Reachable before →
      managerSystem.step before first = some start →
      start.log = before.log ++ [.dispatched token] →
      (before.contexts token).request = some request → (request.call token).Names id key →
      Registered before.rateLimiter id params → params.sequential = true →
      managerSystem.Runs start actions world → world.shutdown = false →
      .completing token ∉ world.log → managerSystem.step world action = some next →
      next.log = world.log ++ [.dispatched other] → other ≠ token →
      (world.contexts other).request = some otherRequest →
      ¬ (otherRequest.call other).Names id key := by
  intro promised
  have evaluated : (managerSystem.run managerSystem.init twoSerial).any
      (fun before => decide ((before.contexts 1).request = some serialRequest ∧
        headerAt before.rateLimiter 1 = some (⟨100, 1000, true⟩, false) ∧
        ((managerSystem.step before (.work (.time 1))).any fun start =>
          decide (start.log = before.log ++ [.dispatched 1]) &&
          (managerSystem.run start [.releaseRequest (serialCall 1)]).any fun world =>
            decide (world.shutdown = false ∧ .completing 1 ∉ world.log ∧
              (world.contexts 2).request = some serialRequest ∧
              ((managerSystem.step world (.work (.time 1))).any fun next =>
                decide (next.log = world.log ++ [.dispatched 2])) = true)) = true)) = true := by
    decide +kernel
  obtain ⟨before, reaches, checked⟩ := System.exists_runs evaluated
  obtain ⟨carried, header, later⟩ := of_decide_eq_true checked
  obtain ⟨start, stepped, after⟩ := (Option.any_eq_true _ _).mp later
  obtain ⟨dispatched, remaining⟩ := Bool.and_eq_true_iff.mp after
  obtain ⟨world, runs, last⟩ := System.exists_runs remaining
  obtain ⟨running, uncompleted, otherCarried, end_⟩ := of_decide_eq_true last
  obtain ⟨next, entered, logged⟩ := (Option.any_eq_true _ _).mp end_
  exact promised before start world next _ _ _ 1 2 serialRequest serialRequest 1 "k" _
    ⟨_, reaches⟩ stepped (of_decide_eq_true dispatched) carried (by decide)
    ⟨by decide, header⟩ rfl runs running uncompleted entered (of_decide_eq_true logged)
    (by decide) otherCarried (by decide)

end Kurlyk.Http
