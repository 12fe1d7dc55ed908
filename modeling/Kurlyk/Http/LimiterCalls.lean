/-
This file shows that the manager refines its limiter. Whatever the threads of a
manager do, what its limiter sees is a run of a limiter on its own, with the same
limits, the same decisions and the same releases in the same order: the manager
asks it for no more and no less than its log of calls says, uses no handle that
nobody holds, and shows it a clock that never goes back.

So what holds of every limiter on its own holds of the requests a manager
dispatches, over whole runs, first attempts and retries alike.
-/

import Kurlyk.RateLimiter.Throttle
import Kurlyk.Lib.Simulation
import Kurlyk.Http.DispatchOrder

namespace Kurlyk.Http

open RateLimiter

variable {world next : World} {action : Action} {token : Token}

/-! ### The clock -/

theorem tick_le {now : TimePoint} {ticked : World} (passed : world.tick now = some ticked) :
    world.clock ≤ now := by
  unfold World.tick at passed
  split at passed
  · assumption
  · cases passed

theorem makeCall_clock (rest : List Call) (call : Call) :
    (world.makeCall rest call).clock = world.clock := by
  cases call with
  | invokeFinalCallback | notifyWaiter | invokeCancel | discard => rfl
  | complete | onGroupComplete | destroyHandler | cancelHandler =>
    unfold World.makeCall
    dsimp only
    split <;> rfl

theorem pendingStep_clock (index : ℕ) (ready failed : List Token) (now : TimePoint) :
    (world.pendingStep index ready failed now).clock = world.clock := by
  unfold World.pendingStep
  split
  · rfl
  · split
    · rfl
    · dsimp only
      split <;> rfl

theorem writeStep_clock {index position : ℕ} {data : List UInt8} {status : ℤ}
    (stepped : world.writeStep index position data status = some next) :
    next.clock = world.clock := by
  unfold World.writeStep at stepped
  split at stepped
  · cases stepped
  · split at stepped
    · cases stepped
    · split at stepped
      · dsimp only at stepped
        split at stepped <;> rw [← Option.some.inj stepped]
      · cases stepped

theorem readMessageStep_clock {index position : ℕ} {message : CurlMessage} {now : TimePoint}
    (stepped : world.readMessageStep index position message now = some next) :
    next.clock = world.clock := by
  unfold World.readMessageStep at stepped
  split at stepped
  · cases stepped
  · split at stepped
    · cases stepped
    · split at stepped
      · split at stepped
        · rw [← Option.some.inj stepped]
        · obtain ⟨about, _, rest⟩ := Option.bind_eq_some_iff.mp stepped
          obtain ⟨request, _, rfl⟩ := Option.map_eq_some_iff.mp rest
          unfold World.messageStep
          dsimp only
          split <;> rfl
      · cases stepped

theorem retryStep_clock (index : ℕ) (now : TimePoint) :
    (world.retryStep index now).clock = world.clock := by
  unfold World.retryStep
  split
  · rfl
  · split
    · rfl
    · split <;> rfl

/-- A statement that reads the clock reads it no earlier than before. -/
theorem statement_clock {phase : Phase} {input : World.Input}
    (stepped : world.statement phase input = some next) : world.clock ≤ next.clock := by
  unfold World.statement at stepped
  split at stepped
  case h_2 =>
    obtain ⟨ticked, passed, rfl⟩ := Option.map_eq_some_iff.mp stepped
    rw [pendingStep_clock, tick_eq_some passed]
    exact tick_le passed
  case h_7 => exact (writeStep_clock stepped).ge
  case h_9 =>
    obtain ⟨ticked, passed, read⟩ := Option.bind_eq_some_iff.mp stepped
    rw [readMessageStep_clock read, tick_eq_some passed]
    exact tick_le passed
  case h_12 =>
    obtain ⟨ticked, passed, rfl⟩ := Option.map_eq_some_iff.mp stepped
    rw [retryStep_clock, tick_eq_some passed]
    exact tick_le passed
  -- No other statement reads it.
  all_goals cases stepped
  case h_3 => unfold World.createBatchStep; split <;> exact Nat.le_refl _
  case h_4 => unfold World.buildBatchStep; split <;> exact Nat.le_refl _
  case h_6 => unfold World.activeStep; split <;> [skip; split] <;> exact Nat.le_refl _
  case h_10 => unfold World.noMessageStep; split <;> [skip; split] <;> exact Nat.le_refl _
  case h_11 => unfold World.extractFailedStep; split <;> exact Nat.le_refl _
  case h_13 => unfold World.processCancelStep; dsimp only; split <;> exact Nat.le_refl _
  case h_14 => unfold World.cancelFailedStep; split <;> [skip; split] <;> exact Nat.le_refl _
  case h_15 => unfold World.cancelBatchesStep; split <;> exact Nat.le_refl _
  all_goals exact Nat.le_refl _

theorem submit_clock (request : Option HttpRequest) (callback : Bool) :
    (world.submit request callback).clock = world.clock := by
  rcases submit_cases world request callback with rejected | ⟨_, admitted⟩
  · rw [rejected]
    rfl
  · rw [admitted]

/-- The steps of the other threads leave the clock alone. -/
theorem CallerStep.clock_eq (step : CallerStep world action next) : next.clock = world.clock := by
  cases step with
  | submit | clientSubmits => exact submit_clock _ _
  | waitRegister unlocked registered => rfl
  | cancelById | cancelByGroup =>
    unfold World.callCancel
    dsimp only
    split <;> rfl
  | _ => rfl

theorem HandleStep.clock_le (stepped : managerSystem.step world action = some next)
    (step : HandleStep world action next) : world.clock ≤ next.clock := by
  cases step with
  | @allow call now held =>
    have allowed : world.allowRequest call now = some _ := stepped
    rw [World.allowRequest, if_pos held] at allowed
    obtain ⟨ticked, passed, _⟩ := Option.map_eq_some_iff.mp allowed
    exact tick_le passed
  | remove =>
    unfold World.removeRateLimit
    dsimp only
    split <;> exact Nat.le_refl _
  | _ => exact Nat.le_refl _

theorem work_clock {input : World.Input} (stepped : world.work input = some next) :
    world.clock ≤ next.clock := by
  unfold World.work at stepped
  split at stepped
  · exact statement_clock stepped
  · split at stepped
    · rw [← Option.some.inj stepped, makeCall_clock]
    · cases stepped

/-- The clock of the system never goes back. -/
theorem clock_le_of_step (stepped : managerSystem.step world action = some next) :
    world.clock ≤ next.clock := by
  have transition := step_transition stepped
  cases action with
  | work input => exact work_clock stepped
  | callProcess =>
    have called : world.callProcess = some next := stepped
    unfold World.callProcess at called
    split at called <;> cases called
    exact Nat.le_refl _
  | callShutdown =>
    have called : world.callShutdown = some next := stepped
    unfold World.callShutdown at called
    split at called
    · split at called <;> cases called <;> exact Nat.le_refl _
    · cases called
  | _ =>
    cases transition with
    | jump _ jump => cases jump
    | caller step => exact step.clock_eq.ge
    | handles step => exact step.clock_le stepped

/-! ### What the limiter is asked -/

/-- The decision of the scan on the request it is at. -/
def World.scanned (world : World) (now : TimePoint) : List LimiterEvent :=
  match world.agenda, world.phase with
  | [], .pendingLoop index _ _ =>
    match world.pendingRequests[index]?.bind (fun token =>
        (world.contexts token).request.map (·.call token)) with
    | none => []
    | some call => [.decided call now (call.allow world.rateLimiter now).1]
  | _, _ => []

/-- What the next call on the agenda releases. -/
def World.releases (world : World) : List LimiterEvent :=
  match world.agenda with
  | .complete token :: _ =>
    if (world.contexts token).completeCalled then []
    else ((world.contexts token).onComplete.map LimiterEvent.released).toList
  | _ => []

/-- What a step asks of the limiter, and how it is answered: the calls of the manager and those
that users make directly. -/
def World.limiterCalls (world : World) : Action → List LimiterEvent
  | .work (.time now) => world.scanned now
  | .work .proceed => world.releases
  | .createRateLimit requestsPerPeriod periodMs sequential =>
    [.created world.rateLimiter.nextId ⟨requestsPerPeriod, periodMs, sequential⟩]
  | .allowRequest call now => [.decided call now (call.allow world.rateLimiter now).1]
  | .releaseRequest call => [.released call]
  | _ => []

/-- What an action adds to the history of a limiter on its own. -/
def recorded (before : LimiterWorld) (_ : LimiterAction) (after : LimiterWorld) :
    List LimiterEvent :=
  after.history.drop before.history.length

theorem limiter_history {shadow later : LimiterWorld} {move : LimiterAction}
    (stepped : limiterSystem.step shadow move = some later) :
    later.history = shadow.history ++ recorded shadow move later := by
  have grows : ∃ events, later.history = shadow.history ++ events := by
    cases limiterStep_of_step stepped with
    | create | allow | release => exact ⟨_, rfl⟩
    | _ => exact ⟨[], (List.append_nil _).symm⟩
  obtain ⟨events, same⟩ := grows
  rw [recorded, same, List.drop_left]

/-! ### What a limiter on its own does unseen -/

section Unseen

variable {shadow later last : LimiterWorld} {id : LimitId}

/-- The users of a limiter copy and destroy handles, and nothing is recorded. -/
structure Unseen (shadow later : LimiterWorld) : Prop where
  runs : ∃ moves, limiterSystem.Runs shadow moves later
  clock : later.clock = shadow.clock
  history : later.history = shadow.history

theorem Unseen.refl (shadow : LimiterWorld) : Unseen shadow shadow :=
  ⟨⟨[], System.runs_nil.mpr rfl⟩, rfl, rfl⟩

theorem Unseen.trans (first : Unseen shadow later) (second : Unseen later last) :
    Unseen shadow last := by
  obtain ⟨moves, opening⟩ := first.runs
  obtain ⟨rest, closing⟩ := second.runs
  exact ⟨⟨moves ++ rest, System.runs_append.mpr ⟨later, opening, closing⟩⟩,
    second.clock.trans first.clock, second.history.trans first.history⟩

theorem Unseen.of_step {move : LimiterAction}
    (stepped : limiterSystem.step shadow move = some later) (clock : later.clock = shadow.clock)
    (history : later.history = shadow.history) : Unseen shadow later :=
  ⟨⟨[move], System.runs_cons.mpr ⟨later, stepped, System.runs_nil.mpr rfl⟩⟩, clock, history⟩

/-- Copies of available handles can be made. -/
theorem exists_copies (shadow : LimiterWorld) (wanted : List LimitId)
    (available : ∀ id ∈ wanted, id ∈ shadow.copies ∨ id ∈ shadow.limiter.ownedHandles) :
    ∃ later, Unseen shadow later ∧ later.limiter = shadow.limiter ∧
      (∀ id ∈ shadow.copies, id ∈ later.copies) ∧ ∀ id ∈ wanted, id ∈ later.copies := by
  induction wanted with
  | nil => exact ⟨shadow, .refl _, rfl, fun _ kept => kept, fun _ none => absurd none (by simp)⟩
  | cons id rest inductionHypothesis =>
    obtain ⟨later, unseen, limiter, kept, copied⟩ :=
      inductionHypothesis fun other member => available other (List.mem_cons_of_mem _ member)
    have stepped : ∃ move, limiterSystem.step later move =
        some { later with copies := id :: later.copies } := by
      rcases available id List.mem_cons_self with held | owned
      · exact ⟨.copyHandle id, if_pos (kept id held)⟩
      · refine ⟨.getLimit id, ?_⟩
        change some _ = some _
        rw [limiter, getLimit, if_pos owned]
        rfl
    obtain ⟨move, copies⟩ := stepped
    refine ⟨_, unseen.trans (.of_step copies rfl rfl), limiter,
      fun other member => List.mem_cons_of_mem _ (kept other member), fun other member => ?_⟩
    rcases List.mem_cons.mp member with rfl | later_
    · exact List.mem_cons_self
    · exact List.mem_cons_of_mem _ (copied other later_)

/-- Whether a handle is the last one does not depend on how often the others are held. -/
theorem dropHandle_congr {limiter : HttpRateLimiter} {remaining others : List LimitId}
    (same : id ∈ remaining ↔ id ∈ others) :
    dropHandle limiter remaining id = dropHandle limiter others id := by
  simp only [dropHandle, same]

/-- All copies of a handle can be destroyed, and with the last one its limit. -/
theorem exists_dropped (shadow : LimiterWorld) (id : LimitId) (held : id ∈ shadow.copies) :
    ∃ later, Unseen shadow later ∧ later.limiter = dropHandle shadow.limiter [] id ∧
      ∀ other ∈ shadow.copies, other ≠ id → other ∈ later.copies := by
  obtain ⟨size, counted⟩ : ∃ size, shadow.copies.length = size := ⟨_, rfl⟩
  induction size generalizing shadow with
  | zero =>
    rw [List.length_eq_zero_iff.mp counted] at held
    exact absurd held List.not_mem_nil
  | succ size inductionHypothesis =>
    have stepped : limiterSystem.step shadow (.dropHandle id) = some (shadow.dropHandle id) :=
      if_pos held
    have unseen : Unseen shadow (shadow.dropHandle id) := .of_step stepped rfl rfl
    have others : ∀ other ∈ shadow.copies, other ≠ id → other ∈ (shadow.dropHandle id).copies :=
      fun other member different => (List.mem_erase_of_ne different).mpr member
    by_cases more : id ∈ (shadow.dropHandle id).copies
    · have size_ : (shadow.dropHandle id).copies.length = size := by
        have erased := List.length_erase_of_mem held
        rw [counted] at erased
        exact erased
      obtain ⟨later, rest, limiter, kept⟩ := inductionHypothesis _ more size_
      refine ⟨later, unseen.trans rest, ?_, fun other member different =>
        kept other (others other member different) different⟩
      have unchanged : (shadow.dropHandle id).limiter = shadow.limiter := if_pos (Or.inr more)
      rw [limiter, unchanged]
    · refine ⟨_, unseen, dropHandle_congr ?_, others⟩
      exact iff_of_false more List.not_mem_nil

/-- Handles that are not held any more can be destroyed as the manager destroys them. -/
theorem exists_drops (shadow : LimiterWorld) (remaining ids : List LimitId) (distinct : ids.Nodup)
    (held : ∀ id ∈ ids, id ∈ shadow.copies) (still : ∀ id ∈ remaining, id ∈ shadow.copies) :
    ∃ later, Unseen shadow later ∧ later.limiter = dropAll remaining ids shadow.limiter ∧
      ∀ id ∈ remaining, id ∈ later.copies := by
  induction ids generalizing shadow with
  | nil => exact ⟨shadow, .refl _, rfl, still⟩
  | cons id rest inductionHypothesis =>
    obtain ⟨new, distinct⟩ := List.nodup_cons.mp distinct
    have restHeld := fun other member => held other (List.mem_cons_of_mem id member)
    by_cases kept : id ∈ remaining
    · obtain ⟨later, unseen, limiter, copies⟩ := inductionHypothesis shadow distinct restHeld still
      refine ⟨later, unseen, ?_, copies⟩
      rw [limiter, dropAll, dropAll, List.foldl_cons, dropHandle, if_pos (Or.inr kept)]
    · obtain ⟨middle, first, dropped, others⟩ :=
        exists_dropped shadow id (held id List.mem_cons_self)
      obtain ⟨later, second, limiter, copies⟩ := inductionHypothesis middle distinct
        (fun other member => others other (restHeld other member) fun same => new (same ▸ member))
        (fun other member => others other (still other member) fun same => kept (same ▸ member))
      refine ⟨later, first.trans second, ?_, copies⟩
      rw [limiter, dropped, dropAll, dropAll, List.foldl_cons]
      rw [dropHandle_congr (iff_of_false List.not_mem_nil kept)]

end Unseen

/-! ### The simulation -/

/-- A limiter on its own stands for the manager's: it is in the same state, and its users hold at
least the handles that are held around the manager. -/
structure Shadows (world : World) (shadow : LimiterWorld) : Prop where
  limiter : shadow.limiter = world.rateLimiter
  copies : ∀ id ∈ world.heldHandles, id ∈ shadow.copies
  clock : shadow.clock ≤ world.clock

/-- The limiter on its own can follow to the next state, recording the events. -/
def Follows (shadow : LimiterWorld) (next : World) (events : List LimiterEvent) : Prop :=
  ∃ moves later, limiterSystem.Runs shadow moves later ∧ Shadows next later ∧
    later.history = shadow.history ++ events

section Follows

variable {shadow later : LimiterWorld} {events : List LimiterEvent}

theorem Follows.of_unseen (unseen : Unseen shadow later) (follows : Follows later next events) :
    Follows shadow next events := by
  obtain ⟨moves, opening⟩ := unseen.runs
  obtain ⟨rest, last, closing, shadows, history⟩ := follows
  refine ⟨moves ++ rest, last, System.runs_append.mpr ⟨later, opening, closing⟩, shadows, ?_⟩
  rw [history, unseen.history]

theorem Follows.of_step {move : LimiterAction}
    (stepped : limiterSystem.step shadow move = some later) (shadows : Shadows next later)
    (history : later.history = shadow.history ++ events) : Follows shadow next events :=
  ⟨[move], later, System.runs_cons.mpr ⟨later, stepped, System.runs_nil.mpr rfl⟩, shadows, history⟩

theorem Shadows.follows (shadows : Shadows next shadow) : Follows shadow next [] :=
  ⟨[], shadow, System.runs_nil.mpr rfl, shadows, (List.append_nil _).symm⟩

/-- A step that the limiter does not notice; handles it owns may be copied. -/
theorem Shadows.quiet (shadows : Shadows world shadow)
    (limiter : next.rateLimiter = world.rateLimiter)
    (held : ∀ id ∈ next.heldHandles, id ∈ world.heldHandles ∨ id ∈ world.rateLimiter.ownedHandles)
    (clock : world.clock ≤ next.clock) : Follows shadow next [] := by
  obtain ⟨later, unseen, same, _, copied⟩ := exists_copies shadow next.heldHandles
    fun id member => (held id member).imp (shadows.copies id) fun owned => shadows.limiter ▸ owned
  refine .of_unseen unseen (Shadows.follows ⟨?_, copied, ?_⟩)
  · rw [same, shadows.limiter, limiter]
  · rw [unseen.clock]
    exact le_trans shadows.clock clock

/-- A step that destroys handles. -/
theorem Shadows.drops (shadows : Shadows world shadow) (ids : List LimitId)
    (dropped : ∀ id ∈ ids, id ∈ shadow.copies)
    (limiter : next.rateLimiter = dropAll next.heldHandles ids.dedup world.rateLimiter)
    (held : ∀ id ∈ next.heldHandles, id ∈ world.heldHandles) (clock : world.clock ≤ next.clock) :
    Follows shadow next [] := by
  obtain ⟨later, unseen, same, copies⟩ := exists_drops shadow next.heldHandles ids.dedup
    (List.nodup_dedup ids) (fun id member => dropped id (List.mem_dedup.mp member))
    fun id member => shadows.copies id (held id member)
  refine .of_unseen unseen (Shadows.follows ⟨?_, copies, ?_⟩)
  · rw [same, shadows.limiter, limiter]
  · rw [unseen.clock]
    exact le_trans shadows.clock clock

/-- A step that asks the limiter about a call whose handles are held. -/
theorem Shadows.decides (shadows : Shadows world shadow) {call : RequestCall} {now : TimePoint}
    (callHeld : ∀ id ∈ call.handles, id ∈ world.heldHandles) (later : world.clock ≤ now)
    (clock : next.clock = now)
    (limiter : next.rateLimiter = (call.allow world.rateLimiter now).2)
    (held : ∀ id ∈ next.heldHandles, id ∈ world.heldHandles) :
    Follows shadow next [.decided call now (call.allow world.rateLimiter now).1] := by
  have holds : shadow.Holds call := fun id member => shadows.copies id (callHeld id member)
  have stepped : limiterSystem.step shadow (.allowRequest call now) =
      some (shadow.allowRequest call now) := if_pos ⟨holds, le_trans shadows.clock later⟩
  refine .of_step stepped ⟨?_, fun id member => shadows.copies id (held id member), clock.ge⟩ ?_
  · rw [limiter, ← shadows.limiter]
    rfl
  · rw [← shadows.limiter]
    rfl

/-- A step that releases the token of a call whose handles are held. -/
theorem Shadows.releases (shadows : Shadows world shadow) {call : RequestCall}
    (callHeld : ∀ id ∈ call.handles, id ∈ world.heldHandles)
    (limiter : next.rateLimiter = call.release world.rateLimiter)
    (held : ∀ id ∈ next.heldHandles, id ∈ world.heldHandles) (clock : world.clock ≤ next.clock) :
    Follows shadow next [.released call] := by
  have holds : shadow.Holds call := fun id member => shadows.copies id (callHeld id member)
  have stepped : limiterSystem.step shadow (.releaseRequest call) =
      some (shadow.releaseRequest call) := if_pos holds
  refine .of_step stepped ⟨?_, fun id member => shadows.copies id (held id member),
    le_trans shadows.clock clock⟩ rfl
  rw [limiter, ← shadows.limiter]
  rfl

end Follows

/-! ### The steps of the threads -/

section Steps

variable {shadow : LimiterWorld}

/-- Rewriting a context without its request leaves all requests alone. -/
theorem request_update {contexts : Token → HttpRequestContext} {context : HttpRequestContext}
    (same : context.request = (contexts token).request) (about : Token) :
    (Function.update contexts token context about).request = (contexts about).request := by
  by_cases here : about = token
  · rw [here, Function.update_self, same]
  · rw [Function.update_of_ne here]

theorem PendingStep.holders {input : World.Input} (step : PendingStep world input next) :
    SameHolders world next := by
  cases step with
  | dispatch => exact ⟨rfl, rfl, rfl, request_update rfl⟩
  | _ => exact ⟨rfl, rfl, rfl, fun _ => rfl⟩

theorem ActiveStep.holders {input : World.Input} (step : ActiveStep world input next) :
    SameHolders world next := by
  cases step with
  | retry | finish => exact ⟨rfl, rfl, rfl, request_update rfl⟩
  | _ => exact ⟨rfl, rfl, rfl, fun _ => rfl⟩

theorem AgendaStep.holders (step : AgendaStep world next) : SameHolders world next := by
  cases step with
  | complete => exact ⟨rfl, rfl, rfl, request_update rfl⟩
  | _ => exact ⟨rfl, rfl, rfl, fun _ => rfl⟩

/-- The holders stay, and so does the limiter. -/
theorem SameHolders.follows (holders : SameHolders world next) (shadows : Shadows world shadow)
    (limiter : next.rateLimiter = world.rateLimiter) (clock : world.clock ≤ next.clock) :
    Follows shadow next [] :=
  shadows.quiet limiter (fun _ member => Or.inl (holders.mem_iff.mp member)) clock

theorem heldHandles_of_live {request : HttpRequest} (alive : token ∈ world.live)
    (carried : (world.contexts token).request = some request) :
    ∀ id ∈ (request.call token).handles, id ∈ world.heldHandles := by
  intro id member
  refine mem_heldHandles_iff.mpr (Or.inr (Or.inl ⟨token, alive, ?_⟩))
  rw [HttpRequestContext.handles, carried]
  exact member

section Worker

variable (reachable : managerSystem.Reachable world) (shadows : Shadows world shadow)
include reachable shadows

theorem Jump.follows {phase : Phase} {clock : TimePoint} (agenda : world.agenda = [])
    (jump : Jump world action phase)
    (stepped : managerSystem.step world action = some { world with phase, clock }) :
    Follows shadow { world with phase, clock } (world.limiterCalls action) := by
  have later := clock_le_of_step stepped
  have quiet : Follows shadow { world with phase, clock } [] :=
    shadows.quiet rfl (fun _ member => Or.inl member) later
  cases jump with
  | @refused index ready failed token request now at_ found carried answer =>
    have alive := (guarded_of_reachable reachable).live_of_held (orderly_of_reachable reachable)
      (mem_holdings_of_pending (List.mem_of_getElem? found))
    have now_ : clock = now := scan_clock agenda at_ stepped
    have asked : world.limiterCalls (.work (.time now)) =
        [.decided (request.call token) now
          ((request.call token).allow world.rateLimiter now).1] := by
      simp [World.limiterCalls, World.scanned, agenda, at_, found, carried]
    rw [asked]
    exact shadows.decides (heldHandles_of_live alive carried) (now_ ▸ later) now_
      (allow_snd_of_refused answer).symm fun _ member => member
  | skipScan | enterScan | noBatch | perform | nothingToExtract | nothingToCancel | failedScanned
  | failedKept =>
    simpa only [World.limiterCalls, World.releases, agenda] using quiet
  | retryDone at_ | retryLater at_ =>
    simpa only [World.limiterCalls, World.scanned, agenda, at_] using quiet
  | _ => exact quiet

theorem PendingStep.follows {input : World.Input} (agenda : world.agenda = [])
    (step : PendingStep world input next)
    (stepped : managerSystem.step world (.work input) = some next) :
    Follows shadow next (world.limiterCalls (.work input)) := by
  have later := clock_le_of_step stepped
  have holders := step.holders
  have quiet : next.rateLimiter = world.rateLimiter → Follows shadow next [] :=
    fun limiter => holders.follows shadows limiter later
  cases step with
  | @dispatch index ready failed token request now at_ found carried allowed =>
    have alive := (guarded_of_reachable reachable).live_of_held (orderly_of_reachable reachable)
      (mem_holdings_of_pending (List.mem_of_getElem? found))
    have asked : world.limiterCalls (.work (.time now)) =
        [.decided (request.call token) now
          ((request.call token).allow world.rateLimiter now).1] := by
      simp [World.limiterCalls, World.scanned, agenda, at_, found, carried]
    rw [asked]
    exact shadows.decides (heldHandles_of_live alive carried) later rfl rfl
      fun _ member => holders.mem_iff.mp member
  | scanned at_ absent =>
    simpa only [World.limiterCalls, World.scanned, agenda, at_, absent, Option.bind_none] using
      quiet rfl
  | badRequest at_ found carried =>
    simpa only [World.limiterCalls, World.scanned, agenda, at_, found, Option.bind_some, carried,
      Option.map_none] using quiet rfl
  | batchBuilt =>
    simpa only [World.limiterCalls, World.releases, agenda] using quiet rfl
  | _ => exact quiet rfl

omit reachable in
theorem ActiveStep.follows {input : World.Input} (agenda : world.agenda = [])
    (step : ActiveStep world input next)
    (stepped : managerSystem.step world (.work input) = some next) :
    Follows shadow next (world.limiterCalls (.work input)) := by
  have silent : world.limiterCalls (.work input) = [] := by
    cases step with
    | processNoMulti | extract => simp only [World.limiterCalls, World.releases, agenda]
    | dropFailed at_ | requeue at_ => simp only [World.limiterCalls, World.scanned, agenda, at_]
    | _ => rfl
  have limiter : next.rateLimiter = world.rateLimiter := by
    cases step with
    | _ => rfl
  rw [silent]
  exact step.holders.follows shadows limiter (clock_le_of_step stepped)

/-- What `complete` releases is the call of the request, whose context is alive. -/
theorem AgendaStep.follows (step : AgendaStep world next)
    (stepped : managerSystem.step world (.work .proceed) = some next) :
    Follows shadow next (world.limiterCalls (.work .proceed)) := by
  have later := clock_le_of_step stepped
  have holders := step.holders
  have quiet : next.rateLimiter = world.rateLimiter → Follows shadow next [] :=
    fun limiter => holders.follows shadows limiter later
  have guarded := guarded_of_reachable reachable
  have orderly := orderly_of_reachable reachable
  cases step with
  | @complete token rest agenda unclaimed =>
    have inHand : (token, Place.completing) ∈ world.holdings :=
      mem_holdings_of_head agenda List.mem_cons_self
    have armed := guarded.armed token (orderly.unfinished inHand).1
    have released : world.limiterCalls (.work .proceed) =
        ((world.contexts token).onComplete.map LimiterEvent.released).toList := by
      simp only [World.limiterCalls, World.releases, agenda, unclaimed, Bool.false_eq_true,
        if_false]
    rcases Option.eq_none_or_eq_some (world.contexts token).onComplete with kept | ⟨call, kept⟩
    · have nothing : ((world.contexts token).onComplete.map LimiterEvent.released).toList = [] := by
        rw [kept, Option.map_none, Option.toList_none]
      rw [released, nothing]
      refine quiet ?_
      simp only [kept, Option.map_none, Option.getD_none]
    · have own : ∃ request, (world.contexts token).request = some request ∧
          call = request.call token := by
        rw [kept] at armed
        split at armed
        · obtain ⟨request, carried, same⟩ := Option.map_eq_some_iff.mp armed.symm
          exact ⟨request, carried, same.symm⟩
        · cases armed
      have one : ((world.contexts token).onComplete.map LimiterEvent.released).toList =
          [.released call] := by
        rw [kept, Option.map_some, Option.toList_some]
      obtain ⟨request, carried, rfl⟩ := own
      rw [released, one]
      refine shadows.releases
        (heldHandles_of_live (guarded.live_of_held orderly inHand) carried) ?_
        (fun _ member => holders.mem_iff.mp member) later
      simp only [kept, Option.map_some, Option.getD_some]
  | completeAgain agenda claimed =>
    simpa only [World.limiterCalls, World.releases, agenda, claimed, if_true] using quiet rfl
  | @settleGroup token group rest agenda captured =>
    obtain ⟨counts, waiters, same⟩ :=
      HttpRequestManager.completeGroupRequest_frame world.toHttpRequestManager group
    have limiter : (world.toHttpRequestManager.completeGroupRequest group).2.rateLimiter =
        world.rateLimiter := by rw [same]
    simpa only [World.limiterCalls, World.releases, agenda] using quiet limiter
  | handlerAnswered agenda handled =>
    rcases handled with rfl | rfl <;>
      simpa only [World.limiterCalls, World.releases, agenda] using quiet rfl
  | finalCallback agenda | settle agenda | notifyWaiter agenda | invokeCancel agenda
  | destroyHandler agenda | cancelHandler agenda | discard agenda =>
    simpa only [World.limiterCalls, World.releases, agenda] using quiet rfl

end Worker

/-! ### The steps of the other threads -/

section Callers

variable (shadows : Shadows world shadow)
include shadows

/-- A submission that is rejected destroys the handles of its request, and one that is admitted
keeps them in a context. `base` is the world after the caller has left. -/
theorem follows_submit {base : World} {request : Option HttpRequest} {callback : Bool}
    (limiter : base.rateLimiter = world.rateLimiter)
    (held : ∀ id ∈ base.heldHandles, id ∈ world.heldHandles)
    (brings : ∀ id ∈ (request.map HttpRequest.handles).getD [], id ∈ world.heldHandles)
    (clock : world.clock ≤ base.clock) : Follows shadow (base.submit request callback) [] := by
  rcases submit_cases base request callback with rejected | ⟨_, admitted⟩
  · rw [rejected]
    refine shadows.drops _ (fun id member => shadows.copies id (brings id member)) ?_ held clock
    rw [← limiter]
    rfl
  · rw [admitted]
    refine shadows.quiet limiter (fun id member => Or.inl ?_) clock
    rcases mem_heldHandles_iff.mp member with user | ⟨about, alive, kept⟩ | called
    · exact held id (mem_heldHandles_iff.mpr (Or.inl user))
    · dsimp only at alive kept
      by_cases new : about = base.nextInFlightToken
      · rw [new, Function.update_self] at kept
        exact brings id kept
      · rw [Function.update_of_ne new] at kept
        have old := (List.mem_cons.mp alive).resolve_left new
        exact held id (mem_heldHandles_iff.mpr (Or.inr (Or.inl ⟨about, old, kept⟩)))
    · exact held id (mem_heldHandles_iff.mpr (Or.inr (Or.inr called)))

/-- A step that changes the calls in progress only, and brings no new handles. -/
theorem follows_callers (limiter : next.rateLimiter = world.rateLimiter)
    (contexts : next.contexts = world.contexts) (live : next.live = world.live)
    (users : next.userHandles = world.userHandles)
    (callers : ∀ caller ∈ next.callers, caller ∈ world.callers ∨
      caller.handles ⊆ world.userHandles)
    (clock : world.clock ≤ next.clock) : Follows shadow next [] := by
  refine shadows.quiet limiter (fun id member => Or.inl ?_) clock
  rw [mem_heldHandles_iff] at member ⊢
  rw [users, live, contexts] at member
  rcases member with user | kept | ⟨caller, called, inside⟩
  · exact Or.inl user
  · exact Or.inr (Or.inl kept)
  · rcases callers caller called with old | given
    · exact Or.inr (Or.inr ⟨caller, old, inside⟩)
    · exact Or.inl (given inside)

theorem CallerStep.follows (step : CallerStep world action next)
    (clock : world.clock ≤ next.clock) : Follows shadow next [] := by
  have stays : ∀ caller ∈ world.callers, caller ∈ world.callers ∨
      caller.handles ⊆ world.userHandles := fun _ => Or.inl
  have leaves : ∀ position, ∀ caller ∈ world.callers.eraseIdx position, caller ∈ world.callers ∨
      caller.handles ⊆ world.userHandles := fun _ _ member => Or.inl (List.mem_of_mem_eraseIdx member)
  have joins : ∀ (callers added : List Caller),
      (∀ caller ∈ callers, caller ∈ world.callers ∨ caller.handles ⊆ world.userHandles) →
      (∀ caller ∈ added, caller.handles ⊆ world.userHandles) →
      ∀ caller ∈ callers ++ added, caller ∈ world.callers ∨ caller.handles ⊆ world.userHandles := by
    intro callers added old new caller member
    rcases List.mem_append.mp member with first | second
    · exact old caller first
    · exact Or.inr (new caller second)
  cases step with
  | submit unlocked held =>
    exact follows_submit shadows rfl (fun _ member => member)
      (fun id member => mem_heldHandles_iff.mpr (Or.inl (held member))) (Nat.le_refl _)
  | @clientSubmits position client request callback unlocked found =>
    have follows : Follows shadow
        ({ world with callers := world.callers.eraseIdx position }.submit (some request) callback)
        [] := by
      refine follows_submit shadows rfl (fun id member => ?_) (fun id member => ?_) (Nat.le_refl _)
      · rw [mem_heldHandles_iff] at member ⊢
        refine member.imp_right (Or.imp_right ?_)
        rintro ⟨caller, kept, held⟩
        exact ⟨caller, List.mem_of_mem_eraseIdx kept, held⟩
      · exact mem_heldHandles_iff.mpr
          (Or.inr (Or.inr ⟨_, List.mem_of_getElem? found, member⟩))
    obtain ⟨moves, later, runs, related, history⟩ := follows
    exact ⟨moves, later, runs, ⟨related.limiter, related.copies, related.clock⟩, history⟩
  | waitRegister unlocked registered =>
    obtain ⟨_, rfl⟩ := HttpRequestManager.registerWaiter_eq_some registered
    exact follows_callers shadows rfl rfl rfl rfl stays clock
  | cancelWait unlocked removed =>
    obtain ⟨_, _, _, rfl⟩ := HttpRequestManager.cancelWait_eq_some removed
    exact follows_callers shadows rfl rfl rfl rfl stays clock
  | insertByGroup unlocked found queued =>
    rw [HttpRequestManager.queueCancelByGroup_eq_some queued] at clock ⊢
    exact follows_callers shadows rfl rfl rfl rfl (leaves _) clock
  | cancelById | cancelByGroup =>
    unfold World.callCancel at clock ⊢
    dsimp only at clock ⊢
    split <;> exact follows_callers shadows rfl rfl rfl rfl
      (joins _ _ stays (by simp [Caller.handles])) (Nat.le_refl _)
  | waitNow =>
    exact follows_callers shadows rfl rfl rfl rfl (joins _ _ stays (by simp [Caller.handles])) clock
  | groupIdle =>
    exact follows_callers shadows rfl rfl rfl rfl
      (joins _ _ (leaves _) (by simp [Caller.handles])) clock
  | clientBegins found free held =>
    refine follows_callers shadows rfl rfl rfl rfl (joins _ _ stays fun caller new => ?_) clock
    rw [List.mem_singleton.mp new]
    exact held
  | callerWaits | callerCancels | insertById =>
    exact follows_callers shadows rfl rfl rfl rfl (leaves _) clock
  | setMaxPending | cancelWaitMissed | newClient | clientRejected =>
    exact follows_callers shadows rfl rfl rfl rfl stays clock

/-- The manager-owned copy of a handle is given to the caller, who destroys it. -/
theorem follows_remove (id : LimitId) : Follows shadow (world.removeRateLimit id) [] := by
  have stepped : limiterSystem.step shadow (.removeLimit id) = some (shadow.removeLimit id) := rfl
  have unseen : Unseen shadow (shadow.removeLimit id) := .of_step stepped rfl rfl
  have limiter : (shadow.removeLimit id).limiter = (removeLimit world.rateLimiter id).2 := by
    rw [← shadows.limiter]
    rfl
  have copies : ∀ other ∈ world.heldHandles, other ∈ (shadow.removeLimit id).copies := by
    intro other member
    dsimp only [LimiterWorld.removeLimit]
    split
    · exact List.mem_cons_of_mem _ (shadows.copies other member)
    · exact shadows.copies other member
  have between : Shadows { world with rateLimiter := (removeLimit world.rateLimiter id).2 }
      (shadow.removeLimit id) := ⟨limiter, copies, shadows.clock⟩
  refine .of_unseen unseen ?_
  unfold World.removeRateLimit
  dsimp only
  split
  · rename_i found
    refine between.drops [id] (fun other member => ?_) rfl (fun _ member => member) (Nat.le_refl _)
    rw [List.mem_singleton.mp member]
    dsimp only [LimiterWorld.removeLimit]
    rw [shadows.limiter, if_pos found]
    exact List.mem_cons_self
  · exact between.follows

theorem HandleStep.follows (step : HandleStep world action next)
    (clock : world.clock ≤ next.clock) : Follows shadow next (world.limiterCalls action) := by
  have users : ∀ id ∈ world.userHandles, id ∈ world.heldHandles :=
    fun id member => mem_heldHandles_iff.mpr (Or.inl member)
  cases step with
  | @create requestsPerPeriod periodMs sequential =>
    have stepped : limiterSystem.step shadow
        (.createLimitHandle requestsPerPeriod periodMs sequential) =
        some (shadow.createLimitHandle ⟨requestsPerPeriod, periodMs, sequential⟩) := rfl
    have created := shadows.limiter
    refine .of_step stepped ⟨?_, fun id member => ?_, shadows.clock⟩ ?_
    · rw [World.createRateLimit, ← created]
      rfl
    · refine List.mem_cons.mpr ?_
      rw [mem_heldHandles_iff] at member
      rcases member with user | other
      · refine (List.mem_cons.mp user).imp (fun same => ?_) fun old =>
          shadows.copies id (users id old)
        rw [same, ← created]
      · exact Or.inr (shadows.copies id (mem_heldHandles_iff.mpr (Or.inr other)))
    · rw [World.limiterCalls, ← created]
      rfl
  | @get id =>
    refine shadows.quiet rfl (fun other member => ?_) clock
    rw [mem_heldHandles_iff] at member
    rcases member with user | rest
    · rcases List.mem_append.mp user with new | old
      · unfold getLimit at new
        split at new
        · rename_i owned
          rw [Option.toList_some, List.mem_singleton] at new
          exact Or.inr (new ▸ owned)
        · exact absurd new List.not_mem_nil
      · exact Or.inl (users other old)
    · exact Or.inl (mem_heldHandles_iff.mpr (Or.inr rest))
  | remove => exact follows_remove shadows _
  | @copy id held =>
    refine shadows.quiet rfl (fun other member => Or.inl ?_) clock
    rw [mem_heldHandles_iff] at member ⊢
    refine member.imp_left fun user => ?_
    rcases List.mem_cons.mp user with rfl | old
    · exact held
    · exact old
  | @drop id held =>
    refine shadows.drops [id] (fun other member => ?_) rfl (fun other member => ?_) clock
    · rw [List.mem_singleton.mp member]
      exact shadows.copies id (users id held)
    · rw [mem_heldHandles_iff] at member ⊢
      exact member.imp_left List.mem_of_mem_erase
  | allow held =>
    exact shadows.decides (fun id member => users id (held member)) clock rfl rfl
      fun _ member => member
  | release held =>
    exact shadows.releases (fun id member => users id (held member)) rfl
      (fun _ member => member) clock
  | @destroy token alive unowned =>
    refine shadows.drops _ (fun id member => shadows.copies id ?_) rfl (fun id member => ?_) clock
    · exact mem_heldHandles_iff.mpr (Or.inr (Or.inl ⟨token, alive, member⟩))
    · rw [mem_heldHandles_iff] at member ⊢
      refine member.imp_right (Or.imp_left ?_)
      rintro ⟨about, kept, inside⟩
      exact ⟨about, List.mem_of_mem_erase kept, inside⟩

end Callers

/-- The limiter on its own follows every step of the manager's threads. -/
theorem follows_step (reachable : managerSystem.Reachable world) (shadows : Shadows world shadow)
    (stepped : managerSystem.step world action = some next) :
    Follows shadow next (world.limiterCalls action) := by
  have clock := clock_le_of_step stepped
  cases step_transition stepped with
  | jump agenda jump => exact jump.follows reachable shadows agenda stepped
  | pending agenda step => exact step.follows reachable shadows agenda stepped
  | active agenda step => exact step.follows shadows agenda stepped
  | cancel agenda step =>
    have holders : SameHolders world next := by
      cases step with
      | _ => exact ⟨rfl, rfl, rfl, fun _ => rfl⟩
    have limiter : next.rateLimiter = world.rateLimiter := by
      cases step with
      | _ => rfl
    simpa only [World.limiterCalls, World.releases, agenda] using
      holders.follows shadows limiter clock
  | closing agenda step =>
    have holders : SameHolders world next := by
      cases step with
      | _ => exact ⟨rfl, rfl, rfl, fun _ => rfl⟩
    have limiter : next.rateLimiter = world.rateLimiter := by
      cases step with
      | _ => rfl
    simpa only [World.limiterCalls, World.releases, agenda] using
      holders.follows shadows limiter clock
  | agenda step => exact step.follows reachable shadows stepped
  | shutdown => exact shadows.quiet rfl (fun _ member => Or.inl member) clock
  | caller step =>
    have silent : world.limiterCalls action = [] := by
      cases step with
      | _ => rfl
    rw [silent]
    exact step.follows shadows clock
  | handles step => exact step.follows shadows clock

end Steps

/-! ### The refinement -/

/-- A decision to let the request of a token pass. -/
def admits (token : Token) : LimiterEvent → Bool
  | .decided call _ true => call.token = token
  | _ => false

theorem Calm.count_dispatched (calm : Calm world next) (token : Token) :
    next.log.count (.dispatched token) = world.log.count (.dispatched token) := by
  obtain ⟨events, logged, spec⟩ := calm.logged
  rw [logged, List.count_append, List.count_eq_zero.mpr (spec token).1, Nat.add_zero]

/-- A step that adds a dispatch to the log has asked the limiter for it. -/
theorem count_dispatched_step (reachable : managerSystem.Reachable world)
    (stepped : managerSystem.step world action = some next) (token : Token) :
    next.log.count (.dispatched token) ≤
      world.log.count (.dispatched token) + (world.limiterCalls action).countP (admits token) := by
  have supported := (guarded_of_reachable reachable).supported
  have quiet (events : List Event) (logged : next.log = world.log ++ events)
      (silent : .dispatched token ∉ events) : next.log.count (.dispatched token) ≤
        world.log.count (.dispatched token) +
          (world.limiterCalls action).countP (admits token) := by
    rw [logged, List.count_append, List.count_eq_zero.mpr silent]
    exact Nat.le_add_right _ _
  have calmly (calm : Calm world next) : next.log.count (.dispatched token) ≤
      world.log.count (.dispatched token) +
        (world.limiterCalls action).countP (admits token) :=
    (calm.count_dispatched token).le.trans (Nat.le_add_right _ _)
  cases step_transition stepped with
  | jump => exact quiet [] (List.append_nil _).symm List.not_mem_nil
  | pending agenda step =>
    cases step with
    | @dispatch index ready failed begun request now at_ found carried allowed =>
      have asked : world.limiterCalls (.work (.time now)) =
          [.decided (request.call begun) now true] := by
        simp [World.limiterCalls, World.scanned, agenda, at_, found, carried, allowed]
      rw [asked, List.count_append]
      by_cases same : begun = token
      · simp [same, admits, HttpRequest.call]
      · simp [same]
    | start => exact quiet _ rfl (by simp)
    | _ => exact quiet [] (List.append_nil _).symm List.not_mem_nil
  | active agenda step => exact calmly (step.calm supported)
  | cancel agenda step => exact calmly (step.calm supported)
  | closing agenda step => exact calmly (step.calm supported)
  | agenda step =>
    cases step with
    | finalCallback | complete | settle | settleGroup | notifyWaiter | invokeCancel | discard =>
      exact quiet _ rfl (by simp)
    | _ => exact quiet [] (List.append_nil _).symm List.not_mem_nil
  | shutdown => exact quiet _ rfl (by simp)
  | caller step => exact calmly (step.calm supported (orderly_of_reachable reachable))
  | handles step =>
    cases step with
    | remove =>
      refine quiet [] ?_ List.not_mem_nil
      unfold World.removeRateLimit
      dsimp only
      split <;> exact (List.append_nil _).symm
    | _ => exact quiet [] (List.append_nil _).symm List.not_mem_nil

theorem manager_simulates : System.Simulates managerSystem limiterSystem Shadows
    (fun world action _ => world.limiterCalls action) recorded where
  init := ⟨rfl, fun id member => absurd member (by simp [World.heldHandles, managerSystem]),
    Nat.le_refl _⟩
  step {world shadow action next} reachable _ shadows stepped := by
    obtain ⟨moves, later, runs, related, history⟩ := follows_step reachable shadows stepped
    refine ⟨moves, later, runs, related, ?_⟩
    have whole := runs.eq_append_trace recorded LimiterWorld.history
      fun _ _ _ => limiter_history
    exact List.append_cancel_left (whole.symm.trans history)

/-- The calls of the limiter over a run, with their answers. -/
def limiterTrace (actions : List Action) : List LimiterEvent :=
  managerSystem.trace (fun world action _ => world.limiterCalls action) managerSystem.init actions

/-- Every run of the manager, with all its threads, drives its limiter as some run of a limiter on
its own does: with the same result, and the same limits, decisions and releases in the same
order. -/
theorem manager_refines_limiter {actions : List Action}
    (runs : managerSystem.Runs managerSystem.init actions world) :
    ∃ shadow, limiterSystem.Reachable shadow ∧ shadow.limiter = world.rateLimiter ∧
      (∀ id ∈ world.heldHandles, id ∈ shadow.copies) ∧ shadow.history = limiterTrace actions := by
  obtain ⟨moves, shadow, follows, shadows, shows⟩ := manager_simulates.run runs
  have whole := follows.eq_append_trace recorded LimiterWorld.history
    fun _ _ _ => limiter_history
  exact ⟨shadow, ⟨moves, follows⟩, shadows.limiter, shadows.copies, whole.trans shows⟩

/-- Every dispatch in the log of the manager is a call of the limiter that was allowed. -/
theorem count_dispatched {actions : List Action}
    (runs : managerSystem.Runs managerSystem.init actions world) (token : Token) :
    world.log.count (.dispatched token) ≤ (limiterTrace actions).countP (admits token) := by
  have counted := runs.le_trace (fun world action _ => world.limiterCalls action)
    System.reachable_init (fun world => world.log.count (.dispatched token)) (admits token)
    fun _ _ _ reached stepped => count_dispatched_step reached stepped token
  exact counted.trans (Nat.zero_add _).le

/-- Over every run of the manager: half-open intervals of one period see at most twice the count
of a limit dispatched on each of its keys, retries and direct calls included, and a request is
passed over only with cause. -/
theorem manager_throttles {actions : List Action}
    (runs : managerSystem.Runs managerSystem.init actions world) :
    (∀ id params, .created id params ∈ limiterTrace actions → 0 < params.requestsPerPeriod →
      0 < params.periodMs → ∀ key opening,
        (Window.countIn params.period opening (admissions (limiterTrace actions) id key) : ℤ) ≤
          2 * params.requestsPerPeriod) ∧
    (∀ before call now after, limiterTrace actions = before ++ .decided call now false :: after →
      Justified before call now) := by
  obtain ⟨shadow, reachable, _, _, history⟩ := manager_refines_limiter runs
  have accounts := limiter_accounts reachable
  rw [← history]
  refine ⟨fun id params created positive lasting key opening => ?_, ?_⟩
  · have bound := accounts.bounded id params key opening created positive lasting
    omega
  · intro before call now after split
    exact accounts.justified before _ after split call now rfl

/-! ### Two requests and a limit of one in ten milliseconds -/

/-- One scan asks for both requests, the second a millisecond after the first. -/
def twoAsked : List Action :=
  [.createRateLimit 1 10 false, .submitRequest (some serialRequest) true,
    .submitRequest (some serialRequest) true, .callProcess, .work .proceed,
    .work (.time 50000000), .work (.time 51000000)]

theorem limiterTrace_twoAsked : limiterTrace twoAsked =
    [.created 1 ⟨1, 10, false⟩, .decided (serialRequest.call 1) 50000000 true,
      .decided (serialRequest.call 2) 51000000 false] := by
  decide +kernel

theorem runs_twoAsked : ∃ world, managerSystem.Runs managerSystem.init twoAsked world ∧
    world.log.contains (.dispatched 1) = true := by
  have evaluated : (managerSystem.run managerSystem.init twoAsked).any
      (fun world => world.log.contains (.dispatched 1)) = true := by decide +kernel
  exact System.exists_runs evaluated

theorem manager_refines_limiter_twoAsked :
    ∃ world shadow, managerSystem.Runs managerSystem.init twoAsked world ∧
      limiterSystem.Reachable shadow ∧ shadow.limiter = world.rateLimiter ∧
      shadow.history = [.created 1 ⟨1, 10, false⟩, .decided (serialRequest.call 1) 50000000 true,
        .decided (serialRequest.call 2) 51000000 false] := by
  obtain ⟨world, runs, _⟩ := runs_twoAsked
  obtain ⟨shadow, reachable, limiter, _, history⟩ := manager_refines_limiter runs
  exact ⟨world, shadow, runs, reachable, limiter, history.trans limiterTrace_twoAsked⟩

theorem manager_throttles_twoAsked :
    (Window.countIn 10000000 50000000 (admissions (limiterTrace twoAsked) 1 "k") : ℤ) ≤ 2 ∧
      Justified [.created 1 ⟨1, 10, false⟩, .decided (serialRequest.call 1) 50000000 true]
        (serialRequest.call 2) 51000000 := by
  obtain ⟨world, runs, _⟩ := runs_twoAsked
  obtain ⟨bounded, justified⟩ := manager_throttles runs
  refine ⟨?_, justified _ _ _ [] limiterTrace_twoAsked⟩
  exact bounded 1 ⟨1, 10, false⟩ (by rw [limiterTrace_twoAsked]; decide) (by decide) (by decide) "k"
    50000000

end Kurlyk.Http
