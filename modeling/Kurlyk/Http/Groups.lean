/-
This file is about the counters that `HttpRequestManager` keeps for each group.
A counter is incremented when a request is admitted and decremented by a closure
that travels with the request's context through every queue. It always equals
the number of admitted requests of the group that are not completed.

An `HttpClient` that checks the counter before it submits therefore keeps its
group within its cap: it holds its own mutex from the check to the submission.
-/

import Mathlib.Data.Finset.Card
import Mathlib.Order.Interval.Finset.Nat
import Kurlyk.Http.Custody

namespace Kurlyk.Http

open RateLimiter

variable {world next : World} {action : Action}

/-! ### What a step does to the groups -/

/-- A step that admits no request and completes none. -/
structure Neutral (world next : World) : Prop where
  counts : next.groupRequestCounts = world.groupRequestCounts
  counter : next.nextInFlightToken = world.nextInFlightToken
  contexts : ∀ token, (next.contexts token).request = (world.contexts token).request ∧
    (next.contexts token).onGroupComplete = (world.contexts token).onGroupComplete
  logged : ∃ events, next.log = world.log ++ events ∧
    ∀ token, Event.accepted token ∉ events ∧ Event.completed token ∉ events

/-- A step that admits a request. -/
structure Admits (world next : World) (request : Option HttpRequest) (callback : Bool) : Prop where
  running : world.shutdown = false
  counts : next.groupRequestCounts = (world.toHttpRequestManager.countGroupRequest
    ((request.map HttpRequest.groupId).getD 0)).groupRequestCounts
  counter : next.nextInFlightToken = world.nextInFlightToken + 1
  contexts : next.contexts = Function.update world.contexts world.nextInFlightToken
    (HttpRequestContext.admitted request callback)
  logged : next.log = world.log ++ [.accepted world.nextInFlightToken]

/-- A step that completes a request. -/
structure Completes (world next : World) (token : Token) : Prop where
  agenda : ∃ rest, world.agenda = .onGroupComplete token :: rest
  counts : next.groupRequestCounts =
    ((world.contexts token).onGroupComplete.map fun group =>
      (world.toHttpRequestManager.completeGroupRequest group).2.groupRequestCounts).getD
        world.groupRequestCounts
  counter : next.nextInFlightToken = world.nextInFlightToken
  contexts : next.contexts = world.contexts
  logged : next.log = world.log ++ [.completed token]

theorem Neutral.quiet (counts : next.groupRequestCounts = world.groupRequestCounts)
    (counter : next.nextInFlightToken = world.nextInFlightToken)
    (contexts : next.contexts = world.contexts) (logged : next.log = world.log) :
    Neutral world next :=
  ⟨counts, counter, fun token => by rw [contexts]; exact ⟨rfl, rfl⟩,
    [], by rw [logged, List.append_nil], by simp⟩

/-- A step that logs other events. -/
theorem Neutral.events (counts : next.groupRequestCounts = world.groupRequestCounts)
    (counter : next.nextInFlightToken = world.nextInFlightToken)
    (contexts : next.contexts = world.contexts) {events : List Event}
    (logged : next.log = world.log ++ events)
    (other : ∀ token, Event.accepted token ∉ events ∧ Event.completed token ∉ events) :
    Neutral world next :=
  ⟨counts, counter, fun token => by rw [contexts]; exact ⟨rfl, rfl⟩, events, logged, other⟩

/-- A step that rewrites one context, but not its request or its group. -/
theorem Neutral.update (counts : next.groupRequestCounts = world.groupRequestCounts)
    (counter : next.nextInFlightToken = world.nextInFlightToken) {token : Token}
    {context : HttpRequestContext}
    (contexts : next.contexts = Function.update world.contexts token context)
    (request : context.request = (world.contexts token).request)
    (group : context.onGroupComplete = (world.contexts token).onGroupComplete)
    {events : List Event} (logged : next.log = world.log ++ events)
    (other : ∀ token, Event.accepted token ∉ events ∧ Event.completed token ∉ events) :
    Neutral world next := by
  refine ⟨counts, counter, fun about => ?_, events, logged, other⟩
  rw [contexts]
  by_cases same : about = token
  · rw [same, Function.update_self]
    exact ⟨request, group⟩
  · rw [Function.update_of_ne same]
    exact ⟨rfl, rfl⟩

theorem PendingStep.neutral {input : World.Input} (step : PendingStep world input next) :
    Neutral world next := by
  cases step with
  | dispatch => exact .update rfl rfl rfl rfl rfl rfl (by simp)
  | start => exact .events rfl rfl rfl rfl (by simp)
  | _ => exact .quiet rfl rfl rfl rfl

theorem ActiveStep.neutral {input : World.Input} (step : ActiveStep world input next) :
    Neutral world next := by
  cases step with
  | stream => exact .events rfl rfl rfl rfl (by simp)
  | retry => exact .update rfl rfl rfl rfl rfl rfl (by simp)
  | finish => exact .update rfl rfl rfl rfl rfl (List.append_nil _).symm (by simp)
  | requeue => exact .events rfl rfl rfl rfl (by simp)
  | _ => exact .quiet rfl rfl rfl rfl

theorem CancelStep.neutral (step : CancelStep world next) : Neutral world next := by
  cases step with
  | _ => exact .quiet rfl rfl rfl rfl

theorem ClosingStep.neutral (step : ClosingStep world next) : Neutral world next := by
  cases step with
  | _ => exact .quiet rfl rfl rfl rfl

theorem HandleStep.neutral (step : HandleStep world action next) : Neutral world next := by
  obtain ⟨_, _, _, _, rfl⟩ := step.frame
  exact .quiet rfl rfl rfl rfl

theorem AgendaStep.effect (step : AgendaStep world next) :
    Neutral world next ∨ ∃ token, Completes world next token := by
  cases step with
  | @settle token rest agenda noGroup =>
    refine Or.inr ⟨token, ⟨rest, agenda⟩, ?_, rfl, rfl, rfl⟩
    rw [noGroup]
    rfl
  | @settleGroup token group rest agenda captured =>
    obtain ⟨counts, waiters, same⟩ :=
      HttpRequestManager.completeGroupRequest_frame world.toHttpRequestManager group
    refine Or.inr ⟨token, ⟨rest, agenda⟩, ?_, ?_, rfl, rfl⟩
    · rw [captured]
      rfl
    · simp only [same]
  | complete => exact Or.inl (.update rfl rfl rfl rfl rfl rfl (by simp))
  | finalCallback => exact Or.inl (.events rfl rfl rfl rfl (by simp))
  | notifyWaiter => exact Or.inl (.events rfl rfl rfl rfl (by simp))
  | invokeCancel => exact Or.inl (.events rfl rfl rfl rfl (by simp))
  | discard => exact Or.inl (.events rfl rfl rfl rfl (by simp))
  | _ => exact Or.inl (.quiet rfl rfl rfl rfl)

theorem submit_effect (world : World) (request : Option HttpRequest) (callback : Bool) :
    Neutral world (world.submit request callback) ∨
      Admits world (world.submit request callback) request callback := by
  rcases submit_cases world request callback with rejected | ⟨running, admitted⟩
  · rw [rejected]
    exact Or.inl (.quiet rfl rfl rfl rfl)
  · rw [admitted]
    exact Or.inr ⟨running, rfl, rfl, rfl, rfl⟩

theorem callCancel_neutral (world : World) (identifier : ℕ) (given : Bool)
    (insert : Option CallId → Caller) :
    Neutral world (world.callCancel identifier given insert) := by
  unfold World.callCancel
  dsimp only
  split <;> exact .events rfl rfl rfl rfl (by simp)

/-- A caller's step admits a request exactly when it submits one. -/
theorem CallerStep.effect (step : CallerStep world action next) :
    Neutral world next ∨
      ∃ request callback, Admits world next request callback ∧
        (action = .submitRequest request callback ∨
          ∃ position client some_, request = some some_ ∧
            action = .continueCaller position ∧
            world.callers[position]? = some (.submitting client some_ callback)) := by
  cases step with
  | @submit request callback unlocked held =>
    rcases submit_effect world request callback with neutral | admits
    · exact Or.inl neutral
    · exact Or.inr ⟨request, callback, admits, Or.inl rfl⟩
  | @clientSubmits position client request callback unlocked found =>
    rcases submit_effect { world with callers := world.callers.eraseIdx position } (some request)
      callback with neutral | admits
    · exact Or.inl ⟨neutral.counts, neutral.counter, neutral.contexts, neutral.logged⟩
    · exact Or.inr ⟨some request, callback,
        ⟨admits.running, admits.counts, admits.counter, admits.contexts, admits.logged⟩,
        Or.inr ⟨position, client, request, rfl, rfl, found⟩⟩
  | waitRegister unlocked registered =>
    obtain ⟨_, rfl⟩ := HttpRequestManager.registerWaiter_eq_some registered
    exact Or.inl (.events rfl rfl rfl rfl (by simp))
  | cancelWait unlocked removed =>
    obtain ⟨_, _, _, rfl⟩ := HttpRequestManager.cancelWait_eq_some removed
    exact Or.inl (.events rfl rfl rfl rfl (by simp))
  | insertByGroup unlocked found queued =>
    rw [HttpRequestManager.queueCancelByGroup_eq_some queued]
    exact Or.inl (.quiet rfl rfl rfl rfl)
  | cancelById => exact Or.inl (callCancel_neutral _ _ _ _)
  | cancelByGroup => exact Or.inl (callCancel_neutral _ _ _ _)
  | waitNow => exact Or.inl (.events rfl rfl rfl rfl (by simp))
  | callerWaits => exact Or.inl (.events rfl rfl rfl rfl (by simp))
  | callerCancels => exact Or.inl (.events rfl rfl rfl rfl (by simp))
  | _ => exact Or.inl (.quiet rfl rfl rfl rfl)

/-- The state of the clients and their threads. -/
structure SameClients (world next : World) : Prop where
  callers : next.callers = world.callers
  clients : next.clients = world.clients
  counter : next.groupIdCounter = world.groupIdCounter

/-- The worker's steps, and those about handles, concern no client and admit no request. -/
theorem Transition.split (transition : Transition world action next) :
    (SameClients world next ∧ (Neutral world next ∨ ∃ token, Completes world next token)) ∨
      CallerStep world action next := by
  cases transition with
  | caller step => exact Or.inr step
  | jump => exact Or.inl ⟨⟨rfl, rfl, rfl⟩, Or.inl (.quiet rfl rfl rfl rfl)⟩
  | shutdown => exact Or.inl ⟨⟨rfl, rfl, rfl⟩, Or.inl (.events rfl rfl rfl rfl (by simp))⟩
  | pending agenda step =>
    exact Or.inl ⟨by cases step <;> exact ⟨rfl, rfl, rfl⟩, Or.inl step.neutral⟩
  | active agenda step =>
    exact Or.inl ⟨by cases step <;> exact ⟨rfl, rfl, rfl⟩, Or.inl step.neutral⟩
  | cancel agenda step =>
    exact Or.inl ⟨by cases step <;> exact ⟨rfl, rfl, rfl⟩, Or.inl step.neutral⟩
  | closing agenda step =>
    exact Or.inl ⟨by cases step <;> exact ⟨rfl, rfl, rfl⟩, Or.inl step.neutral⟩
  | agenda step =>
    refine Or.inl ⟨?_, step.effect⟩
    cases step with
    | @settleGroup token group rest agenda captured =>
      obtain ⟨counts, waiters, same⟩ :=
        HttpRequestManager.completeGroupRequest_frame world.toHttpRequestManager group
      exact ⟨rfl, rfl, by simp only [same]⟩
    | _ => exact ⟨rfl, rfl, rfl⟩
  | handles step =>
    refine Or.inl ⟨?_, Or.inl step.neutral⟩
    obtain ⟨_, _, _, _, rfl⟩ := step.frame
    exact ⟨rfl, rfl, rfl⟩

/-- Every step is neutral, admits one request, or completes one. -/
theorem Transition.effect (transition : Transition world action next) :
    Neutral world next ∨ (∃ request callback, Admits world next request callback) ∨
      ∃ token, Completes world next token := by
  rcases transition.split with ⟨_, neutral | completes⟩ | step
  · exact Or.inl neutral
  · exact Or.inr (Or.inr completes)
  · rcases step.effect with neutral | ⟨request, callback, admits, _⟩
    · exact Or.inl neutral
    · exact Or.inr (Or.inl ⟨request, callback, admits⟩)

/-! ### The counters -/

/-- The admitted requests of a group that are not completed. -/
def World.outstanding (world : World) (group : ℕ) : Finset Token :=
  (Finset.range world.nextInFlightToken).filter fun token =>
    Event.accepted token ∈ world.log ∧ (world.contexts token).groupId = group ∧
      Event.completed token ∉ world.log

/-- The counters are right, none is zero, there is none for the group zero, and every context can
find its counter again. -/
structure GroupsCounted (world : World) : Prop where
  counted : ∀ group, group ≠ 0 →
    (world.groupRequestCounts.lookup group).getD 0 = (world.outstanding group).card
  positive : ∀ group, world.groupRequestCounts.lookup group ≠ some 0
  grouped : world.groupRequestCounts.lookup 0 = none
  captured : ∀ token, Event.accepted token ∈ world.log →
    (world.contexts token).onGroupComplete =
      if (world.contexts token).groupId ≠ 0 then some (world.contexts token).groupId else none

theorem Neutral.groupId (neutral : Neutral world next) (token : Token) :
    (next.contexts token).groupId = (world.contexts token).groupId := by
  rw [HttpRequestContext.groupId, HttpRequestContext.groupId, (neutral.contexts token).1]

theorem Neutral.accepted_iff (neutral : Neutral world next) (token : Token) :
    Event.accepted token ∈ next.log ↔ Event.accepted token ∈ world.log := by
  obtain ⟨events, logged, other⟩ := neutral.logged
  rw [logged, List.mem_append, or_iff_left (other token).1]

theorem Neutral.completed_iff (neutral : Neutral world next) (token : Token) :
    Event.completed token ∈ next.log ↔ Event.completed token ∈ world.log := by
  obtain ⟨events, logged, other⟩ := neutral.logged
  rw [logged, List.mem_append, or_iff_left (other token).2]

theorem Neutral.outstanding (neutral : Neutral world next) (group : ℕ) :
    next.outstanding group = world.outstanding group := by
  unfold World.outstanding
  rw [neutral.counter]
  refine Finset.filter_congr fun token _ => ?_
  rw [neutral.accepted_iff, neutral.completed_iff, neutral.groupId]

theorem GroupsCounted.neutral (counted : GroupsCounted world) (neutral : Neutral world next) :
    GroupsCounted next where
  counted group nonzero := by
    rw [neutral.counts, neutral.outstanding]
    exact counted.counted group nonzero
  positive := by
    rw [neutral.counts]
    exact counted.positive
  grouped := by
    rw [neutral.counts]
    exact counted.grouped
  captured token accepted := by
    rw [(neutral.contexts token).2, neutral.groupId]
    exact counted.captured token ((neutral.accepted_iff token).mp accepted)

/-- Nothing is logged about a token that was not given out. -/
theorem Orderly.not_mem_log (orderly : Orderly world) :
    Event.accepted world.nextInFlightToken ∉ world.log ∧
      Event.completed world.nextInFlightToken ∉ world.log := by
  have absent := orderly.fresh _ (Nat.le_refl world.nextInFlightToken)
  have intact : stageOf world.log world.nextInFlightToken ≠ .broken := by
    rw [absent]
    simp
  rw [accepted_mem_iff intact, completed_mem_iff intact, absent]
  simp [Stage.isDone]

section Admission

variable {request : Option HttpRequest} {callback : Bool}

/-- An admitted request is outstanding in its group. -/
theorem Admits.outstanding (admits : Admits world next request callback)
    (orderly : Orderly world) (group : ℕ) :
    next.outstanding group =
      if (request.map HttpRequest.groupId).getD 0 = group then
        insert world.nextInFlightToken (world.outstanding group)
      else world.outstanding group := by
  obtain ⟨notAccepted, notCompleted⟩ := orderly.not_mem_log
  have old : ∀ token, token ≠ world.nextInFlightToken →
      (token ∈ next.outstanding group ↔ token ∈ world.outstanding group) := by
    intro token different
    simp only [World.outstanding, Finset.mem_filter, Finset.mem_range, admits.counter,
      admits.contexts, admits.logged, Function.update_of_ne different, List.mem_append,
      List.mem_singleton, Event.accepted.injEq, reduceCtorEq, or_false, different]
    have below : token < world.nextInFlightToken + 1 ↔ token < world.nextInFlightToken := by
      rw [Nat.lt_succ_iff, Nat.le_iff_lt_or_eq, or_iff_left different]
    rw [below]
  have new : world.nextInFlightToken ∈ next.outstanding group ↔
      (request.map HttpRequest.groupId).getD 0 = group := by
    simp [World.outstanding, admits.counter, admits.contexts, admits.logged, notCompleted,
      HttpRequestContext.groupId, HttpRequestContext.admitted]
  ext token
  by_cases same : token = world.nextInFlightToken
  · rw [same, new]
    split
    · rename_i inside
      simp [inside]
    · rename_i outside
      simp [outside, World.outstanding]
  · rw [old token same]
    split
    · rw [Finset.mem_insert, or_iff_right same]
    · rfl

theorem GroupsCounted.admits (counted : GroupsCounted world) (orderly : Orderly world)
    (admits : Admits world next request callback) : GroupsCounted next where
  counted group nonzero := by
    rw [admits.counts, HttpRequestManager.lookup_countGroupRequest, admits.outstanding orderly]
    by_cases same : (request.map HttpRequest.groupId).getD 0 = group
    · have fresh : world.nextInFlightToken ∉ world.outstanding group := by
        simp [World.outstanding]
      rw [if_pos same, if_pos ⟨same ▸ nonzero, same.symm⟩, Finset.card_insert_of_notMem fresh,
        Option.getD_some, same, counted.counted group nonzero]
    · rw [if_neg same, if_neg fun both => same both.2.symm]
      exact counted.counted group nonzero
  positive group := by
    rw [admits.counts, HttpRequestManager.lookup_countGroupRequest]
    split
    · simp
    · exact counted.positive group
  grouped := by
    rw [admits.counts, HttpRequestManager.lookup_countGroupRequest,
      if_neg fun both => both.1 both.2.symm]
    exact counted.grouped
  captured token accepted := by
    rw [admits.contexts]
    by_cases same : token = world.nextInFlightToken
    · rw [same, Function.update_self]
      rfl
    · rw [Function.update_of_ne same]
      rw [admits.logged, List.mem_append, List.mem_singleton, Event.accepted.injEq,
        or_iff_left same] at accepted
      exact counted.captured token accepted

end Admission

section Completion

variable {token : Token}

/-- A request that is being completed is outstanding in its group until then. -/
theorem Completes.mem_outstanding (completes : Completes world next token)
    (orderly : Orderly world) : token ∈ world.outstanding (world.contexts token).groupId := by
  obtain ⟨rest, agenda⟩ := completes.agenda
  have member : (token, Place.grouping) ∈ world.holdings :=
    mem_holdings_of_head agenda List.mem_cons_self
  obtain ⟨sound, retries, chunks, released⟩ := orderly.custody.fits token _ member
  have stage : stageOf world.log token = .released retries chunks := released
  have intact : stageOf world.log token ≠ .broken := sound.1
  rw [World.outstanding, Finset.mem_filter, Finset.mem_range, accepted_mem_iff intact,
    completed_mem_iff intact, stage]
  exact ⟨orderly.lt_of_mem member, by simp, rfl, by simp [Stage.isDone]⟩

theorem Completes.outstanding (completes : Completes world next token) (group : ℕ) :
    next.outstanding group = (world.outstanding group).erase token := by
  ext other
  rw [Finset.mem_erase, World.outstanding, World.outstanding, Finset.mem_filter,
    Finset.mem_filter, completes.counter, completes.contexts, completes.logged]
  by_cases same : other = token
  · simp [same]
  · simp [same]

theorem GroupsCounted.completes (counted : GroupsCounted world) (orderly : Orderly world)
    (completes : Completes world next token) : GroupsCounted next := by
  have member := completes.mem_outstanding orderly
  have accepted : Event.accepted token ∈ world.log := (Finset.mem_filter.mp member).2.1
  have captured := counted.captured token accepted
  have kept : ∀ group, group ≠ (world.contexts token).groupId →
      next.outstanding group = world.outstanding group := by
    intro group different
    rw [completes.outstanding]
    refine Finset.erase_eq_of_notMem fun inside => different ?_
    exact (Finset.mem_filter.mp inside).2.2.1.symm
  have counts : ∀ group, next.groupRequestCounts.lookup group =
      if group = (world.contexts token).groupId ∧ group ≠ 0 then
        (if (world.outstanding group).card > 1 then some ((world.outstanding group).card - 1)
          else none)
      else world.groupRequestCounts.lookup group := by
    intro group
    by_cases zero : (world.contexts token).groupId = 0
    · rw [zero, if_neg (not_not.mpr rfl)] at captured
      rw [completes.counts, captured, if_neg fun both => both.2 (both.1.trans zero)]
      rfl
    · rw [if_pos zero] at captured
      have present : world.groupRequestCounts.lookup (world.contexts token).groupId =
          some (world.outstanding (world.contexts token).groupId).card := by
        have right := counted.counted _ zero
        cases found : world.groupRequestCounts.lookup (world.contexts token).groupId with
        | none =>
          rw [found] at right
          exact absurd right.symm (Finset.card_ne_zero_of_mem member)
        | some count =>
          rw [found, Option.getD_some] at right
          rw [right]
      rw [completes.counts, captured, Option.map_some, Option.getD_some,
        HttpRequestManager.lookup_completeGroupRequest zero present]
      by_cases same : group = (world.contexts token).groupId
      · have both : group = (world.contexts token).groupId ∧ group ≠ 0 := ⟨same, same ▸ zero⟩
        rw [if_pos same, if_pos both, same]
      · rw [if_neg same, if_neg fun both => same both.1]
  refine ⟨fun group nonzero => ?_, fun group => ?_, ?_, fun other logged => ?_⟩
  · rw [counts]
    by_cases same : group = (world.contexts token).groupId
    · rw [if_pos ⟨same, nonzero⟩, completes.outstanding, Finset.card_erase_of_mem (same ▸ member)]
      have nonempty : 0 < (world.outstanding group).card :=
        Finset.card_pos.mpr ⟨token, same ▸ member⟩
      split
      · rfl
      · rw [Option.getD_none]
        omega
    · rw [if_neg fun both => same both.1, kept group same]
      exact counted.counted group nonzero
  · rw [counts]
    split
    · split
      · rename_i many
        simp only [ne_eq, Option.some.injEq]
        omega
      · simp
    · exact counted.positive group
  · rw [counts, if_neg fun both => both.2 rfl]
    exact counted.grouped
  · rw [completes.contexts]
    rw [completes.logged, List.mem_append, List.mem_singleton] at logged
    exact counted.captured other (logged.resolve_right (by simp))

end Completion

/-- The counters are right in every reachable state. -/
theorem groupsCounted_of_reachable (reachable : managerSystem.Reachable world) :
    GroupsCounted world := by
  refine reachable.induction GroupsCounted ?_ ?_
  · exact ⟨fun _ _ => rfl, fun _ => by simp [managerSystem], rfl,
      fun _ accepted => absurd accepted (by simp [managerSystem])⟩
  · intro state action after reached counted stepped
    have orderly := orderly_of_reachable reached
    rcases (step_transition stepped).effect with neutral | ⟨request, callback, admits⟩ |
      ⟨token, completes⟩
    · exact counted.neutral neutral
    · exact counted.admits orderly admits
    · exact counted.completes orderly completes

/-! ### The cap of a client -/

/-- A thread is between the check and the submission of the given client. -/
def Caller.submitsFor (index : ℕ) : Caller → Bool
  | .submitting client _ _ => client = index
  | _ => false

/-- The action hands over a request of the group in another way than through the client. -/
def Action.submitsElsewhere (index group : ℕ) : Action → Prop
  | .submitRequest request _ => (request.map HttpRequest.groupId).getD 0 = group
  | .clientSubmit client request _ => client ≠ index ∧ request.groupId = group
  | _ => False

/-- A client's group, together with the thread that is about to submit, stays within the cap. -/
structure Capped (index group : ℕ) (world : World) : Prop where
  nonzero : 0 < world.groupIdCounter ∧ ∀ client ∈ world.clients, client.groupId ≠ 0
  through : ∀ client request callback, Caller.submitting client request callback ∈ world.callers →
    request.groupId = group → client = index
  absent : world.clients[index]? = none →
    world.callers.countP (Caller.submitsFor index) = 0 ∧ world.outstanding group = ∅
  within : ∀ client, world.clients[index]? = some client → client.groupId = group →
    0 < client.maxInFlight →
    world.callers.countP (Caller.submitsFor index) ≤ (if client.submitting then 1 else 0) ∧
      (world.outstanding group).card + world.callers.countP (Caller.submitsFor index) ≤
        client.maxInFlight

variable {index group : ℕ}

/-- A step that admits no request leaves no new outstanding request. -/
theorem outstanding_subset (effect : Neutral world next ∨ ∃ token, Completes world next token) :
    next.outstanding group ⊆ world.outstanding group := by
  rcases effect with neutral | ⟨token, completes⟩
  · rw [neutral.outstanding]
  · rw [completes.outstanding]
    exact Finset.erase_subset _ _

theorem Capped.of_subset (capped : Capped index group world)
    (nonzero : 0 < next.groupIdCounter) (clients : next.clients = world.clients)
    (through : ∀ client request callback,
      Caller.submitting client request callback ∈ next.callers →
      Caller.submitting client request callback ∈ world.callers)
    (submitters : next.callers.countP (Caller.submitsFor index) =
      world.callers.countP (Caller.submitsFor index))
    (fewer : next.outstanding group ⊆ world.outstanding group) : Capped index group next where
  nonzero := ⟨nonzero, by rw [clients]; exact capped.nonzero.2⟩
  through client request callback member :=
    capped.through client request callback (through client request callback member)
  absent gone := by
    rw [clients] at gone
    obtain ⟨none, empty⟩ := capped.absent gone
    exact ⟨submitters.trans none, Finset.subset_empty.mp (empty ▸ fewer)⟩
  within client found same cap := by
    rw [clients] at found
    obtain ⟨single, below⟩ := capped.within client found same cap
    rw [submitters]
    exact ⟨single, (Nat.add_le_add_right (Finset.card_le_card fewer) _).trans below⟩

theorem submit_sameClients (world : World) (request : Option HttpRequest) (callback : Bool) :
    SameClients world (world.submit request callback) := by
  rcases submit_cases world request callback with rejected | ⟨_, admitted⟩
  · rw [rejected]
    exact ⟨rfl, rfl, rfl⟩
  · rw [admitted]
    exact ⟨rfl, rfl, rfl⟩

/-- A submission adds at most one outstanding request, and none to a group it is not for. -/
theorem submit_outstanding (orderly : Orderly world) (request : Option HttpRequest)
    (callback : Bool) :
    ((world.submit request callback).outstanding group).card ≤ (world.outstanding group).card + 1 ∧
      ((request.map HttpRequest.groupId).getD 0 ≠ group →
        (world.submit request callback).outstanding group = world.outstanding group) := by
  rcases submit_effect world request callback with neutral | admits
  · rw [neutral.outstanding]
    exact ⟨Nat.le_succ _, fun _ => rfl⟩
  · rw [admits.outstanding orderly]
    refine ⟨?_, fun other => if_neg other⟩
    split
    · exact Finset.card_insert_le _ _
    · exact Nat.le_succ _

/-- The call in progress is not a submission. -/
def Caller.Silent (caller : Caller) : Prop :=
  ∀ client request callback, caller ≠ .submitting client request callback

theorem Caller.Silent.submitsFor {caller : Caller} (silent : caller.Silent) (index : ℕ) :
    caller.submitsFor index = false := by
  cases caller with
  | submitting client request callback => exact absurd rfl (silent client request callback)
  | _ => rfl

theorem silent_of_mem_map {Value : Type} {values : List Value} {label : Value → Caller}
    (silent : ∀ value, (label value).Silent) : ∀ caller ∈ values.map label, caller.Silent := by
  intro caller member
  obtain ⟨value, _, rfl⟩ := List.mem_map.mp member
  exact silent value

/-- Calls begin or end that submit nothing. -/
theorem Capped.silent {kept added : List Caller} (capped : Capped index group world)
    (callers : next.callers = kept ++ added) (subset : kept ⊆ world.callers)
    (submitters : kept.countP (Caller.submitsFor index) =
      world.callers.countP (Caller.submitsFor index))
    (silent : ∀ caller ∈ added, caller.Silent) (clients : next.clients = world.clients)
    (counter : next.groupIdCounter = world.groupIdCounter) (neutral : Neutral world next) :
    Capped index group next := by
  refine capped.of_subset (counter ▸ capped.nonzero.1) clients ?_ ?_
    (outstanding_subset (Or.inl neutral))
  · intro client request callback member
    rw [callers] at member
    rcases List.mem_append.mp member with old | new
    · exact subset old
    · exact absurd rfl (silent _ new client request callback)
  · have none : added.countP (Caller.submitsFor index) = 0 := by
      rw [List.countP_eq_zero]
      intro caller member
      rw [(silent caller member).submitsFor]
      simp
    rw [callers, List.countP_append, none, Nat.add_zero, submitters]

/-- A call that submits nothing ends, and another may take its place. -/
theorem Capped.erase {position : ℕ} {caller : Caller} {added : List Caller}
    (capped : Capped index group world) (found : world.callers[position]? = some caller)
    (silentCaller : caller.Silent)
    (callers : next.callers = world.callers.eraseIdx position ++ added)
    (silent : ∀ caller ∈ added, caller.Silent) (clients : next.clients = world.clients)
    (counter : next.groupIdCounter = world.groupIdCounter) (neutral : Neutral world next) :
    Capped index group next := by
  refine capped.silent callers (List.eraseIdx_subset) ?_ silent clients counter neutral
  have counted := countP_eraseIdx found (Caller.submitsFor index)
  rw [silentCaller.submitsFor] at counted
  simpa using counted

theorem Capped.begins {client : HttpClient} {opened : ℕ} {request : HttpRequest}
    {callback : Bool} (capped : Capped index group world)
    (counted : GroupsCounted world)
    (found : world.clients[opened]? = some client) (free : client.submitting = false)
    (below : client.maxInFlight ≠ 0 →
      world.toHttpRequestManager.groupRequestCount client.groupId < client.maxInFlight)
    (own : request.groupId = group → opened = index) :
    Capped index group { world with
      clients := world.clients.set opened { client with submitting := true }
      callers := world.callers ++ [.submitting opened request callback] } := by
  have inside : opened < world.clients.length := (List.getElem?_eq_some_iff.mp found).1
  refine ⟨⟨capped.nonzero.1, ?_⟩, ?_, ?_, ?_⟩
  · intro other member
    rcases List.mem_or_eq_of_mem_set member with old | new
    · exact capped.nonzero.2 other old
    · rw [new]
      exact capped.nonzero.2 client (List.mem_of_getElem? found)
  · intro other asked given member same
    rcases List.mem_append.mp member with old | new
    · exact capped.through other asked given old same
    · rw [List.mem_singleton, Caller.submitting.injEq] at new
      rw [new.1]
      exact own (new.2.1 ▸ same)
  · intro gone
    rw [List.getElem?_set] at gone
    split at gone
    · exact absurd gone (by simp)
    · rename_i other
      obtain ⟨none, empty⟩ := capped.absent gone
      refine ⟨?_, empty⟩
      rw [List.countP_append, none]
      simp [Caller.submitsFor, other]
  · intro capping foundNow same cap
    rw [List.getElem?_set] at foundNow
    rw [List.countP_append, List.countP_singleton]
    split at foundNow
    · rename_i here
      rw [Option.some.injEq] at foundNow
      subst here foundNow
      obtain ⟨single, within⟩ := capped.within client found same cap
      rw [free] at single
      have few := below (Nat.pos_iff_ne_zero.mp cap)
      have nonzero : group ≠ 0 := same ▸ capped.nonzero.2 client (List.mem_of_getElem? found)
      rw [HttpRequestManager.groupRequestCount, same, if_neg nonzero,
        counted.counted group nonzero] at few
      have outstanding : World.outstanding { world with
          clients := world.clients.set opened { client with submitting := true }
          callers := world.callers ++ [.submitting opened request callback] } group =
          world.outstanding group := rfl
      rw [outstanding]
      simp only [Caller.submitsFor, decide_true, if_true] at single ⊢
      simp only [Bool.false_eq_true, if_false] at single
      omega
    · rename_i other
      obtain ⟨single, within⟩ := capped.within capping foundNow same cap
      have silent : Caller.submitsFor index (.submitting opened request callback) = false := by
        simp [Caller.submitsFor, other]
      rw [silent]
      simpa using ⟨single, within⟩

/-- A client whose submission has ended. -/
theorem getElem?_modify_submitting {clients : List HttpClient} {client : ℕ} {found : HttpClient}
    (present : (clients.modify client fun client => { client with submitting := false })[index]? =
      some found) :
    ∃ before, clients[index]? = some before ∧ found.groupId = before.groupId ∧
      found.maxInFlight = before.maxInFlight ∧
      found.submitting = (before.submitting && decide (client ≠ index)) := by
  rw [List.getElem?_modify, Option.map_eq_map, Option.map_eq_some_iff] at present
  obtain ⟨before, old, rfl⟩ := present
  refine ⟨before, old, ?_⟩
  by_cases same : client = index
  · simp [same]
  · simp [same]

theorem Capped.finishes {position client : ℕ} {request : HttpRequest} {callback : Bool}
    (capped : Capped index group world) (orderly : Orderly world)
    (found : world.callers[position]? = some (.submitting client request callback)) :
    Capped index group
      ({ world with callers := world.callers.eraseIdx position }.finishClientSubmit client request
        callback) := by
  have left : Orderly { world with callers := world.callers.eraseIdx position } :=
    orderly.quiet (fun _ => rfl) rfl rfl rfl
  have same := submit_sameClients { world with callers := world.callers.eraseIdx position }
    (some request) callback
  have few : ((({ world with callers := world.callers.eraseIdx position }.submit (some request)
      callback).outstanding group).card ≤ (world.outstanding group).card + 1) ∧
      (request.groupId ≠ group → ({ world with
        callers := world.callers.eraseIdx position }.submit (some request)
          callback).outstanding group = world.outstanding group) :=
    submit_outstanding left (some request) callback
  have counted := countP_eraseIdx found (Caller.submitsFor index)
  have own : request.groupId = group → client = index :=
    capped.through client request callback (List.mem_of_getElem? found)
  unfold World.finishClientSubmit
  dsimp only
  generalize { world with callers := world.callers.eraseIdx position }.submit (some request)
    callback = after at same few
  obtain ⟨callers, clients, counter⟩ := same
  dsimp only at callers clients counter
  refine ⟨⟨?_, ?_⟩, ?_, ?_, ?_⟩
  · exact counter ▸ capped.nonzero.1
  · intro other member
    obtain ⟨place, present⟩ := List.mem_iff_getElem?.mp member
    rw [clients] at present
    obtain ⟨before, old, sameGroup, _⟩ := getElem?_modify_submitting present
    rw [sameGroup]
    exact capped.nonzero.2 before (List.mem_of_getElem? old)
  · intro other asked given member
    rw [callers] at member
    exact capped.through other asked given (List.mem_of_mem_eraseIdx member)
  · intro gone
    rw [clients, List.getElem?_modify, Option.map_eq_map, Option.map_eq_none_iff] at gone
    obtain ⟨none, empty⟩ := capped.absent gone
    rw [callers]
    refine ⟨by omega, (few.2 fun mine => ?_).trans empty⟩
    have submits : Caller.submitsFor index (.submitting client request callback) = true := by
      simp [Caller.submitsFor, own mine]
    rw [submits, if_pos rfl] at counted
    omega
  · intro capping present sameGroup cap
    rw [clients] at present
    obtain ⟨before, old, oldGroup, oldCap, oldFlag⟩ := getElem?_modify_submitting present
    rw [oldGroup] at sameGroup
    rw [oldCap] at cap ⊢
    obtain ⟨single, within⟩ := capped.within before old sameGroup cap
    have unchanged : World.outstanding { after with
        clients := after.clients.modify client fun client =>
          { client with submitting := false } } group = after.outstanding group := rfl
    rw [unchanged, callers, oldFlag]
    by_cases mine : client = index
    · have submits : Caller.submitsFor index (.submitting client request callback) = true := by
        simp [Caller.submitsFor, mine]
      rw [submits, if_pos rfl] at counted
      have grows := few.1
      simp only [mine, ne_eq, not_true_eq_false, decide_false, Bool.and_false, Bool.false_eq_true,
        if_false]
      split at single <;> omega
    · have submits : Caller.submitsFor index (.submitting client request callback) = false := by
        simp [Caller.submitsFor, mine]
      have kept := few.2 fun same => mine (own same)
      rw [submits] at counted
      simp only [Bool.false_eq_true, if_false, Nat.add_zero] at counted
      rw [counted, kept]
      simp only [ne_eq, mine, not_false_eq_true, decide_true, Bool.and_true]
      exact ⟨single, within⟩

theorem Capped.newClient (capped : Capped index group world) (maxInFlight : ℕ) :
    Capped index group { world with
      groupIdCounter := world.groupIdCounter + 1
      clients := world.clients ++ [{ groupId := world.groupIdCounter, maxInFlight }] } := by
  refine ⟨⟨Nat.succ_pos _, ?_⟩, capped.through, ?_, ?_⟩
  · intro client member
    rcases List.mem_append.mp member with old | new
    · exact capped.nonzero.2 client old
    · rw [List.mem_singleton.mp new]
      exact capped.nonzero.1.ne'
  · intro gone
    rw [List.getElem?_eq_none_iff, List.length_append] at gone
    exact capped.absent (List.getElem?_eq_none_iff.mpr (Nat.le_trans (Nat.le_add_right _ _) gone))
  · intro client found same cap
    by_cases old : index < world.clients.length
    · rw [List.getElem?_append_left old] at found
      exact capped.within client found same cap
    · have gone : world.clients[index]? = none := List.getElem?_eq_none_iff.mpr (not_lt.mp old)
      obtain ⟨none, empty⟩ := capped.absent gone
      have outstanding : World.outstanding { world with
          groupIdCounter := world.groupIdCounter + 1
          clients := world.clients ++ [{ groupId := world.groupIdCounter, maxInFlight }] } group =
          ∅ := empty
      rw [outstanding, none]
      simp

theorem Capped.callCancel (capped : Capped index group world) (identifier : ℕ) (given : Bool)
    {insert : Option CallId → Caller} (silent : ∀ callback, (insert callback).Silent) :
    Capped index group (world.callCancel identifier given insert) := by
  unfold World.callCancel
  dsimp only
  split
  · exact capped.silent rfl (List.Subset.refl _) rfl
      (silent_of_mem_map (by simp [Caller.Silent])) rfl rfl (.events rfl rfl rfl rfl (by simp))
  · refine capped.silent rfl (List.Subset.refl _) rfl ?_ rfl rfl (.events rfl rfl rfl rfl (by simp))
    intro caller member
    rw [List.mem_singleton.mp member]
    exact silent _

theorem Capped.callerStep (capped : Capped index group world) (orderly : Orderly world)
    (counted : GroupsCounted world) (inside : ¬ action.submitsElsewhere index group)
    (step : CallerStep world action next) : Capped index group next := by
  cases step with
  | @submit request callback unlocked held =>
    have same := submit_sameClients world request callback
    have untouched := (submit_outstanding orderly request callback).2 inside
    exact capped.of_subset (same.counter ▸ capped.nonzero.1) same.clients
      (fun _ _ _ member => same.callers ▸ member) (by rw [same.callers]) untouched.subset
  | clientSubmits unlocked found => exact capped.finishes orderly found
  | newClient => exact capped.newClient _
  | @clientBegins opened request callback client found free held below =>
    refine capped.begins counted found free below fun same => ?_
    by_contra other
    exact inside ⟨other, same⟩
  | cancelWaitMissed => exact capped
  | clientRejected => exact capped
  | callerWaits found =>
    exact capped.erase found (by simp [Caller.Silent]) (List.append_nil _).symm (by simp) rfl rfl
      (.events rfl rfl rfl rfl (by simp))
  | callerCancels found =>
    exact capped.erase found (by simp [Caller.Silent]) (List.append_nil _).symm (by simp) rfl rfl
      (.events rfl rfl rfl rfl (by simp))
  | insertById unlocked found =>
    exact capped.erase found (by simp [Caller.Silent]) (List.append_nil _).symm (by simp) rfl rfl
      (.quiet rfl rfl rfl rfl)
  | insertByGroup unlocked found queued =>
    rw [HttpRequestManager.queueCancelByGroup_eq_some queued]
    exact capped.erase found (by simp [Caller.Silent]) (List.append_nil _).symm (by simp) rfl rfl
      (.quiet rfl rfl rfl rfl)
  | groupIdle unlocked found idle =>
    exact capped.erase found (by simp [Caller.Silent]) rfl
      (silent_of_mem_map (by simp [Caller.Silent])) rfl rfl (.quiet rfl rfl rfl rfl)
  | waitNow unlocked idle =>
    exact capped.silent rfl (List.Subset.refl _) rfl
      (silent_of_mem_map (by simp [Caller.Silent])) rfl rfl (.events rfl rfl rfl rfl (by simp))
  | waitRegister unlocked registered =>
    obtain ⟨_, rfl⟩ := HttpRequestManager.registerWaiter_eq_some registered
    exact capped.silent (List.append_nil _).symm (List.Subset.refl _) rfl (by simp) rfl rfl
      (.events rfl rfl rfl rfl (by simp))
  | cancelWait unlocked removed =>
    obtain ⟨_, _, _, rfl⟩ := HttpRequestManager.cancelWait_eq_some removed
    exact capped.silent (List.append_nil _).symm (List.Subset.refl _) rfl (by simp) rfl rfl
      (.events rfl rfl rfl rfl (by simp))
  | setMaxPending =>
    exact capped.silent (List.append_nil _).symm (List.Subset.refl _) rfl (by simp) rfl rfl
      (.quiet rfl rfl rfl rfl)
  | cancelById => exact capped.callCancel _ _ (by simp [Caller.Silent])
  | cancelByGroup => exact capped.callCancel _ _ (by simp [Caller.Silent])

/-- Along a run that hands over the requests of a group through one client only, the group
stays within the client's cap. -/
theorem capped_of_runs {actions : List Action}
    (runs : managerSystem.Runs managerSystem.init actions world)
    (inside : ∀ action ∈ actions, ¬ action.submitsElsewhere index group) :
    Capped index group world := by
  refine runs.induction (Capped index group) System.reachable_init ?_ ?_
  · refine ⟨⟨Nat.one_pos, by simp [managerSystem]⟩, by simp [managerSystem], fun _ => ⟨rfl, rfl⟩, ?_⟩
    intro client found
    exact absurd found (by simp [managerSystem])
  · intro state action after reached member capped stepped
    rcases (step_transition stepped).split with ⟨same, effect⟩ | step
    · exact capped.of_subset (same.counter ▸ capped.nonzero.1) same.clients
        (fun _ _ _ member => same.callers ▸ member) (by rw [same.callers])
        (outstanding_subset effect)
    · exact capped.callerStep (orderly_of_reachable reached) (groupsCounted_of_reachable reached)
        (inside action member) step

/-- After every run the counter of a group is the number of its outstanding requests, no
counter is zero, and a client with a positive cap through which all requests of its group were
submitted has at most that many outstanding. -/
theorem group_counts_exact {actions : List Action}
    (runs : managerSystem.Runs managerSystem.init actions world) :
    (∀ group, group ≠ 0 →
      world.toHttpRequestManager.groupRequestCount group = (world.outstanding group).card) ∧
      (∀ group, world.groupRequestCounts.lookup group ≠ some 0) ∧
      ∀ index client, world.clients[index]? = some client → 0 < client.maxInFlight →
        (∀ action ∈ actions, ¬ action.submitsElsewhere index client.groupId) →
        (world.outstanding client.groupId).card ≤ client.maxInFlight := by
  have counted := groupsCounted_of_reachable ⟨actions, runs⟩
  refine ⟨fun group nonzero => ?_, counted.positive, ?_⟩
  · rw [HttpRequestManager.groupRequestCount, if_neg nonzero]
    exact counted.counted group nonzero
  · intro index client found cap inside
    have within := ((capped_of_runs runs inside).within client found rfl cap).2
    exact (Nat.le_add_right _ _).trans within

/-- A client with cap one submits a request, and tries to submit a second one. -/
def cappedClient : List Action :=
  [.newClient 1, .clientSubmit 0 { requestId := 1, groupId := 1 } true, .continueCaller 0,
    .clientSubmit 0 { requestId := 2, groupId := 1 } true]

/-- The second request of that client is not admitted. -/
theorem group_counts_exact_cappedClient :
    ∃ world, managerSystem.Runs managerSystem.init cappedClient world ∧
      world.clients[0]? = some { groupId := 1, maxInFlight := 1 } ∧
      world.toHttpRequestManager.groupRequestCount 1 = 1 ∧ (world.outstanding 1).card = 1 ∧
      (world.outstanding 1).card ≤ 1 := by
  have checked : (managerSystem.run managerSystem.init cappedClient).any (fun world =>
      decide (world.clients[0]? = some { groupId := 1, maxInFlight := 1 } ∧
        world.toHttpRequestManager.groupRequestCount 1 = 1)) = true := by
    decide +kernel
  obtain ⟨world, runs, evaluated⟩ := System.exists_runs checked
  obtain ⟨found, one⟩ := of_decide_eq_true evaluated
  obtain ⟨counts, _, capped⟩ := group_counts_exact runs
  refine ⟨world, runs, found, one, (counts 1 (by decide)).symm.trans one, ?_⟩
  exact capped 0 _ found (by decide) (by simp [cappedClient, Action.submitsElsewhere])

end Kurlyk.Http
