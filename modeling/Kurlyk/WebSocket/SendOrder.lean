/-
This file is about the order of outgoing messages. `process_message_queue` goes
over the whole queue, asks the rate limiter about each message with fresh
readings of the clock, and skips those it refuses. A message that was accepted
earlier can therefore be overtaken by a later one with the same identifier: the
period of the limit that refused the first has to end before the second is
checked in the same pass.

When no pass has that happen, the messages of one identifier are handed to the
backend in the order in which they were accepted: at every moment those handed
over, those taken out and those still queued make up the accepted ones, in this
order.
-/

import Kurlyk.WebSocket.Sends
import Kurlyk.WebSocket.Throttle

namespace Kurlyk.WebSocket

open WebSocketRateLimiter
open Client
open RateLimiter (elapsedMs nanosPerMilli)

/-! ### The system -/

/-- The clock readings of one call of `allow_request`, in order. -/
def WebSocketRateLimiter.Readings.times (readings : Readings) : List TimePoint :=
  [readings.checkGeneral, readings.checkSpecific, readings.updateGeneral, readings.updateSpecific]

/-- The clock readings of a pass over a queue of this length, in order. -/
def passTimes (readings : ℕ → Readings) (length : ℕ) : List TimePoint :=
  (List.range length).flatMap fun position => (readings position).times

/-- A client, the last reading of the clock by a pass, and the messages that were handed to
`send_message` and `send_close`. -/
structure SendState where
  world : ClientWorld := {}
  clock : TimePoint := 0
  handed : List WebSocketSendInfo := []

/-- The readings of the clock by a pass over the queue. -/
def ClientWorld.times (world : ClientWorld) : ClientAction → List TimePoint
  | .processMessageQueue readings => passTimes readings world.client.messageQueue.length
  | _ => []

/-- The message that a step hands over. -/
def ClientWorld.hands (world : ClientWorld) : ClientAction → List WebSocketSendInfo
  | .send => world.point.sends.take 1
  | _ => []

/-- The clock does not go back during the step. -/
def SendState.InTime (state : SendState) (action : ClientAction) : Prop :=
  (state.clock :: state.world.times action).Pairwise (· ≤ ·)

instance (state : SendState) (action : ClientAction) : Decidable (state.InTime action) :=
  inferInstanceAs (Decidable (List.Pairwise _ _))

/-- One step of the client. -/
def SendState.step (state : SendState) (action : ClientAction) : Option SendState :=
  if state.InTime action then
    (state.world.step action).map fun next =>
      { world := next
        clock := (state.world.times action).getLastD state.clock
        handed := state.handed ++ state.world.hands action }
  else none

/-- A client from its construction on, with a clock that never goes back. -/
def sendSystem : System SendState ClientAction where
  init := {}
  step := SendState.step

/-- The messages with an identifier. -/
def withId (rateLimitId : ℤ) (sends : List WebSocketSendInfo) : List WebSocketSendInfo :=
  sends.filter fun send => decide (send.rateLimitId = rateLimitId)

/-- The messages that were accepted, in order. -/
def acceptedSends (log : List Effect) : List WebSocketSendInfo :=
  log.filterMap fun effect =>
    match effect with
    | .accepted send => some send
    | _ => none

/-! ### Passes in which no refusal runs out -/

/-- A limit that refused a request at the first readings is still in its period at the others. -/
def StillRefused (limiter : WebSocketRateLimiter) (rateLimitId : ℤ) (before after : Readings) :
    Prop :=
  ∃ position ∈ [0, rateLimitId.toNat], ∃ limit ∈ limiter[position]?,
    checkLimit limit (before.checked position) = false ∧
      elapsedMs (after.checked position) limit.startTime < limit.periodMs

instance (limiter : WebSocketRateLimiter) (rateLimitId : ℤ) (before after : Readings) :
    Decidable (StillRefused limiter rateLimitId before after) :=
  inferInstanceAs (Decidable (∃ position ∈ [0, rateLimitId.toNat],
    ∃ limit ∈ limiter[position]?, _ ∧ _))

/-- Whenever the limiter refuses a message of the queue, the period of a limit that refused it has
not ended when a later message with the same identifier is checked. -/
def Steady (readings : ℕ → Readings) :
    WebSocketRateLimiter → ℕ → List WebSocketSendInfo → Prop
  | _, _, [] => True
  | limiter, position, send :: rest =>
    ((limiter.allowRequest send.rateLimitId (readings position)).1 = false →
      ∀ later ∈ rest.zipIdx (position + 1), later.1.rateLimitId = send.rateLimitId →
        StillRefused limiter send.rateLimitId (readings position) (readings later.2)) ∧
    Steady readings (limiter.allowRequest send.rateLimitId (readings position)).2 (position + 1)
      rest

instance decidableSteady (readings : ℕ → Readings) : ∀ limiter position queue,
    Decidable (Steady readings limiter position queue)
  | _, _, [] => isTrue trivial
  | limiter, position, send :: rest =>
    haveI := decidableSteady readings
      (limiter.allowRequest send.rateLimitId (readings position)).2 (position + 1) rest
    inferInstanceAs (Decidable (_ ∧ _))

/-- The pass over the queue, if the step is one, lets no refusal run out. -/
def SendState.Steady (state : SendState) : ClientAction → Prop
  | .processMessageQueue readings =>
    WebSocket.Steady readings state.world.client.rateLimiter 0 state.world.client.messageQueue
  | _ => True

instance (state : SendState) : DecidablePred state.Steady
  | .processMessageQueue readings => decidableSteady readings _ 0 _
  | .setConfig _ _ | .connect _ | .disconnect _ | .setEventHandler _ | .receiveEvents
  | .receiveEvent | .submitMessage _ _ _ | .submitClose _ _ _ | .enqueue _ | .report _ _
  | .finishSend _ _ | .callProcess _ | .send | .processSendCallbackQueue | .callShutdown
  | .loopShutdown _ | .returnShutdown => isTrue trivial

/-! ### One pass -/

section Passes

variable {limiter : WebSocketRateLimiter} {rateLimitId : ℤ} {readings : ℕ → Readings}

theorem elapsedMs_mono {now later : TimePoint} (order : now ≤ later) (startTime : TimePoint) :
    elapsedMs now startTime ≤ elapsedMs later startTime := by
  refine Int.tdiv_le_tdiv (by decide) ?_
  exact Int.sub_le_sub_right (Int.ofNat_le.mpr order) _

theorem checkLimit_eq_false_iff {limit : LimitData} {now : TimePoint} :
    checkLimit limit now = false ↔ elapsedMs now limit.startTime < limit.periodMs ∧
      ¬ ((limit.count : ℤ) < limit.requestsPerPeriod ∨ limit.requestsPerPeriod = 0) := by
  unfold checkLimit
  split
  · rename_i past
    exact ⟨fun impossible => absurd impossible (by simp), fun both => absurd both.1 (by omega)⟩
  · rename_i inside
    rw [decide_eq_false_iff_not]
    exact ⟨fun full => ⟨by omega, full⟩, fun both => both.2⟩

theorem allowRequest_length (limiter : WebSocketRateLimiter) (rateLimitId : ℤ)
    (times : Readings) : (limiter.allowRequest rateLimitId times).2.length = limiter.length := by
  unfold allowRequest
  split
  · rfl
  · split
    · rfl
    · dsimp only
      split
      · split <;> simp
      · rfl

/-- A limit of the request is used up and will be in its period at these readings. -/
def Blocks (limiter : WebSocketRateLimiter) (rateLimitId : ℤ) (times : Readings) : Prop :=
  ∃ position limit, (position = 0 ∨ rateLimitId.toNat = position) ∧
    limiter[position]? = some limit ∧ checkLimit limit (times.checked position) = false

theorem StillRefused.blocks {before after : Readings}
    (still : StillRefused limiter rateLimitId before after) :
    Blocks limiter rateLimitId after := by
  obtain ⟨position, among, limit, found, refused, inside⟩ := still
  refine ⟨position, limit, ?_, found, ?_⟩
  · rcases List.mem_cons.mp among with zero | specific
    · exact Or.inl zero
    · exact Or.inr (List.mem_singleton.mp specific).symm
  · exact checkLimit_eq_false_iff.mpr ⟨inside, (checkLimit_eq_false_iff.mp refused).2⟩

/-- A blocked request is refused. -/
theorem Blocks.refused {times : Readings} (blocks : Blocks limiter rateLimitId times)
    (inRange : InRange limiter rateLimitId) :
    limiter.allowRequest rateLimitId times = (false, limiter) := by
  obtain ⟨position, limit, named, found, refused⟩ := blocks
  rcases allowRequest_cases limiter rateLimitId times with
    ⟨outside, _⟩ | ⟨_, answer, _⟩ | ⟨_, _, every⟩
  · exact absurd inRange outside
  · exact answer
  · have passed := (every position).2 limit found named
    rw [refused] at passed
    exact absurd passed Bool.false_ne_true

/-- A request checked before leaves a block in place: it would have been refused by the same
limit. -/
theorem Blocks.after {times earlier : Readings} (blocks : Blocks limiter rateLimitId times)
    (order : ∀ position, earlier.checked position ≤ times.checked position) (other : ℤ) :
    Blocks (limiter.allowRequest other earlier).2 rateLimitId times := by
  obtain ⟨position, limit, named, found, refused⟩ := blocks
  obtain ⟨inside, full⟩ := checkLimit_eq_false_iff.mp refused
  refine ⟨position, limit, named, ?_, refused⟩
  rcases allowRequest_cases limiter other earlier with
    ⟨_, answer⟩ | ⟨_, answer, _⟩ | ⟨_, _, every⟩
  · rw [answer]
    exact found
  · rw [answer]
    exact found
  · obtain ⟨updated, passed⟩ := every position
    have unnamed : ¬ (position = 0 ∨ other.toNat = position) := by
      intro charged
      have before := lt_of_le_of_lt (elapsedMs_mono (order position) limit.startTime) inside
      have refusedBefore := checkLimit_eq_false_iff.mpr ⟨before, full⟩
      rw [passed limit found charged] at refusedBefore
      exact absurd refusedBefore Bool.noConfusion
    rw [updated, found, Option.map_some, if_neg unnamed]

/-- The readings at the positions of a queue are in order. -/
def Ordered (readings : ℕ → Readings) (position length : ℕ) : Prop :=
  ∀ first second, position ≤ first → first < second → second < position + length →
    ∀ limit, (readings first).checked limit ≤ (readings second).checked limit

theorem Ordered.tail {position length : ℕ} (ordered : Ordered readings position (length + 1)) :
    Ordered readings (position + 1) length :=
  fun first second after before below => ordered first second (by omega) before (by omega)

/-- While a block lasts, no message of the identifier is taken out. -/
theorem withId_taken_eq_nil (queue : List WebSocketSendInfo) (limiter : WebSocketRateLimiter)
    (position : ℕ) (inRange : InRange limiter rateLimitId)
    (ordered : Ordered readings position queue.length)
    (blocks : ∀ later ∈ queue.zipIdx position, later.1.rateLimitId = rateLimitId →
      Blocks limiter rateLimitId (readings later.2)) :
    withId rateLimitId (selectMessages readings limiter position queue).2.1 = [] := by
  induction queue generalizing limiter position with
  | nil => rfl
  | cons send rest inductionHypothesis =>
    have stillInRange : InRange (limiter.allowRequest send.rateLimitId (readings position)).2
        rateLimitId := by
      rw [InRange, allowRequest_length]
      exact inRange
    have later := inductionHypothesis (limiter.allowRequest send.rateLimitId (readings position)).2
      (position + 1) stillInRange ordered.tail fun later member same => by
        have place := List.mem_zipIdx member
        refine (blocks later (List.mem_cons_of_mem _ member) same).after ?_ _
        exact ordered position later.2 le_rfl (by omega) (by simp only [List.length_cons]; omega)
    unfold selectMessages
    dsimp only
    split
    · rename_i allowed
      have other : send.rateLimitId ≠ rateLimitId := by
        intro same
        have refused := (blocks (send, position) List.mem_cons_self same).refused inRange
        rw [same, refused] at allowed
        exact absurd allowed Bool.false_ne_true
      rw [withId, List.filter_cons_of_neg (by simpa using other)]
      exact later
    · exact later

/-- A pass in which no refusal runs out takes the first messages of each identifier. -/
theorem withId_pass (queue : List WebSocketSendInfo) (limiter : WebSocketRateLimiter)
    (position : ℕ) (ordered : Ordered readings position queue.length)
    (steady : Steady readings limiter position queue) (rateLimitId : ℤ) :
    withId rateLimitId queue =
      withId rateLimitId (selectMessages readings limiter position queue).2.1 ++
        withId rateLimitId (selectMessages readings limiter position queue).1 := by
  induction queue generalizing limiter position with
  | nil => rfl
  | cons send rest inductionHypothesis =>
    have later := inductionHypothesis _ (position + 1) ordered.tail steady.2
    cases answer : (limiter.allowRequest send.rateLimitId (readings position)).1 with
    | true =>
      rw [selectMessages, answer, if_pos rfl]
      by_cases same : send.rateLimitId = rateLimitId
      · simpa [withId, List.filter_cons, same] using later
      · simpa [withId, List.filter_cons, same] using later
    | false =>
      rw [selectMessages, answer, if_neg Bool.false_ne_true]
      by_cases same : send.rateLimitId = rateLimitId
      · -- The message stays, and with it every later one of its identifier.
        have none_taken : withId rateLimitId (selectMessages readings
            (limiter.allowRequest send.rateLimitId (readings position)).2 (position + 1)
            rest).2.1 = [] := by
          have refusal := steady.1 answer
          rcases allowRequest_cases limiter send.rateLimitId (readings position) with
            ⟨_, given⟩ | ⟨inRange, given, _⟩ | ⟨_, given, _⟩
          · rw [given] at answer
            exact absurd answer Bool.noConfusion
          · rw [same] at given inRange refusal
            rw [same, given]
            exact withId_taken_eq_nil rest limiter (position + 1) inRange ordered.tail
              fun other member also => (refusal other member also).blocks
          · rw [given] at answer
            exact absurd answer Bool.noConfusion
        rw [none_taken, List.nil_append] at later ⊢
        simpa [withId, List.filter_cons, same] using later
      · simpa [withId, List.filter_cons, same] using later

end Passes

/-! ### Whole runs -/

/-- What a step does to the messages on their way out. -/
inductive SendMove (world : ClientWorld) (action : ClientAction) (next : ClientWorld) : Prop where
  | still (accepted : acceptedSends next.client.log = acceptedSends world.client.log)
      (queue : next.client.messageQueue = world.client.messageQueue)
      (sends : next.point.sends = world.point.sends) (hands : world.hands action = [])
  | accept (send : WebSocketSendInfo)
      (accepted : acceptedSends next.client.log = acceptedSends world.client.log ++ [send])
      (queue : next.client.messageQueue = world.client.messageQueue ++ [send])
      (sends : next.point.sends = world.point.sends) (hands : world.hands action = [])
  | take (readings : ℕ → Readings) (is : action = .processMessageQueue readings)
      (accepted : acceptedSends next.client.log = acceptedSends world.client.log)
      (before : world.point.sends = [])
      (taken : next.point.sends = (selectMessages readings world.client.rateLimiter 0
        world.client.messageQueue).2.1)
      (kept : next.client.messageQueue = (selectMessages readings world.client.rateLimiter 0
        world.client.messageQueue).1)
  | hand (send : WebSocketSendInfo)
      (accepted : acceptedSends next.client.log = acceptedSends world.client.log)
      (queue : next.client.messageQueue = world.client.messageQueue)
      (sends : world.point.sends = send :: next.point.sends)
      (hands : world.hands action = [send])

section Moves

variable {world next : ClientWorld} {action : ClientAction}

theorem acceptedSends_append (log effects : List Effect) :
    acceptedSends (log ++ effects) = acceptedSends log ++ acceptedSends effects :=
  List.filterMap_append

theorem acceptedSends_sendLog (log : List Effect) :
    acceptedSends (sendLog log) = acceptedSends log := by
  induction log with
  | nil => rfl
  | cons effect rest inductionHypothesis =>
    cases effect with
    | accepted send => exact congrArg (send :: ·) inductionHypothesis
    | _ => exact inductionHypothesis

theorem processFsmState_accepted (client : Client) (input : Input) :
    acceptedSends (client.processFsmState input).log = acceptedSends client.log := by
  rw [← acceptedSends_sendLog, ← acceptedSends_sendLog client.log]
  exact congrArg (fun side => acceptedSends side.2.2) (processFsmState_sendSide client input)

theorem SendMove.request (world : ClientWorld) (callback : Bool) (event : Option ℕ → FsmEventData)
    (hands : world.hands action = []) :
    SendMove world action (world.request callback event) := by
  cases callback with
  | true => exact .still rfl rfl rfl hands
  | false => exact .still rfl rfl rfl hands

theorem SendMove.beginSubmit (world : ClientWorld) (callback : Bool)
    (send : Option ℕ → WebSocketSendInfo) (hands : world.hands action = []) :
    SendMove world action (world.beginSubmit callback send) := by
  cases callback with
  | true => exact .still rfl rfl rfl hands
  | false => exact .still rfl rfl rfl hands

theorem sendMove_of_step (stepped : world.step action = some next) :
    SendMove world action next := by
  have quiet : acceptedSends world.client.processSendCallbackQueue.log =
      acceptedSends world.client.log := by
    refine (acceptedSends_append _ _).trans ?_
    simp [acceptedSends]
  cases clientStep_of_step stepped with
  | setConfig | connect | disconnect => exact .request world _ _ rfl
  | setEventHandler | receiveEvents | receiveEvent | rejectMessage | rejectClose =>
    exact .still rfl rfl rfl rfl
  | submitMessage | submitClose => exact .beginSubmit world _ _ rfl
  | @enqueue position send found =>
    unfold Client.enqueue
    split
    · exact .still rfl rfl rfl rfl
    · exact .accept send (acceptedSends_append _ _) rfl rfl rfl
  | @report event attempt => cases event <;> exact .still rfl rfl rfl rfl
  | finishSend =>
    unfold Client.addSendCallback
    split
    · exact .still rfl rfl rfl rfl
    · exact .still rfl rfl rfl rfl
  | callProcess point | loopShutdown point =>
    exact .still (processFsmState_accepted _ _) (processFsmState_messageQueue _ _)
      (by rw [point]; rfl) rfl
  | @processMessageQueue readings point =>
    exact .take readings rfl rfl (by rw [point]; rfl) rfl rfl
  | @send send rest point =>
    have hands : world.hands .send = [send] := by rw [ClientWorld.hands, point]; rfl
    unfold ClientWorld.sendOne
    split
    · exact .hand send rfl rfl (by rw [point]; rfl) hands
    · cases called : send.callback with
      | none => exact .hand send rfl rfl (by rw [point]; rfl) hands
      | some call =>
        exact .hand send ((acceptedSends_append _ _).trans (List.append_nil _)) rfl
          (by rw [point]; rfl) hands
  | allSent point =>
    exact .still rfl rfl (by rw [point]; rfl) (by rw [ClientWorld.hands, point]; rfl)
  | processSendCallbackQueue point | drainSendCallbackQueue point =>
    exact .still quiet rfl (by rw [point]; rfl) rfl
  | callShutdown point | returnShutdown point => exact .still rfl rfl (by rw [point]; rfl) rfl

end Moves

/-- The readings of a pass that the clock allows are in order. -/
theorem ordered_of_inTime {readings : ℕ → Readings} {length : ℕ} {clock : TimePoint}
    (inTime : (clock :: passTimes readings length).Pairwise (· ≤ ·)) :
    Ordered readings 0 length := by
  intro first second _ before below limit
  have pass := (List.pairwise_cons.mp inTime).2
  rw [Nat.zero_add] at below
  rw [passTimes, List.pairwise_flatMap] at pass
  have apart := pass.2
  have indices := List.pairwise_iff_getElem.mp apart first second
    (by rw [List.length_range]; omega) (by rw [List.length_range]; exact below) before
  rw [List.getElem_range, List.getElem_range] at indices
  refine indices _ ?_ _ ?_
  · unfold Readings.checked Readings.times
    split <;> simp
  · unfold Readings.checked Readings.times
    split <;> simp

/-- The messages of each identifier, in the order in which they were accepted: those handed over,
those taken out and those in the queue. -/
def SendState.InOrder (state : SendState) : Prop :=
  ∀ rateLimitId, withId rateLimitId (acceptedSends state.world.client.log) =
    withId rateLimitId state.handed ++ withId rateLimitId state.world.point.sends ++
      withId rateLimitId state.world.client.messageQueue

theorem withId_append (rateLimitId : ℤ) (first second : List WebSocketSendInfo) :
    withId rateLimitId (first ++ second) = withId rateLimitId first ++ withId rateLimitId second :=
  List.filter_append ..

theorem SendState.InOrder.step {state next : SendState} {action : ClientAction}
    (inOrder : state.InOrder) (steady : state.Steady action)
    (stepped : state.step action = some next) : next.InOrder := by
  unfold SendState.step at stepped
  rw [Option.ite_none_right_eq_some] at stepped
  obtain ⟨inTime, moved⟩ := stepped
  obtain ⟨world, worldStepped, rfl⟩ := Option.map_eq_some_iff.mp moved
  intro rateLimitId
  have before := inOrder rateLimitId
  dsimp only
  cases sendMove_of_step worldStepped with
  | still accepted queue sends hands =>
    rw [accepted, queue, sends, hands, List.append_nil]
    exact before
  | accept send accepted queue sends hands =>
    rw [accepted, queue, sends, hands, List.append_nil, withId_append, withId_append, before,
      List.append_assoc]
  | take readings is accepted started taken kept =>
    subst is
    have pass := withId_pass _ _ 0 (ordered_of_inTime inTime) steady rateLimitId
    rw [started] at before
    rw [accepted, taken, kept, before, List.append_assoc, List.append_assoc, ← pass]
    simp [ClientWorld.hands, withId]
  | hand send accepted queue sends hands =>
    rw [sends, ← List.singleton_append, withId_append, ← List.append_assoc] at before
    rw [accepted, queue, hands, withId_append, before]

/-- In every run in which no refusal runs out during a pass, for every queue, every limits and
every clock that does not go back: the messages of an identifier are handed over in the order in
which they were accepted. -/
theorem sends_in_order {actions : List ClientAction} {finish : SendState}
    (runs : sendSystem.Runs sendSystem.init actions finish)
    (steady : sendSystem.Throughout SendState.Steady sendSystem.init actions) (rateLimitId : ℤ) :
    withId rateLimitId finish.handed <+:
      withId rateLimitId (acceptedSends finish.world.client.log) := by
  have inOrder : finish.InOrder := by
    refine runs.induction_throughout steady SendState.InOrder System.reachable_init
      (fun _ => rfl) ?_
    intro state action next _ met held stepped
    exact held.step met stepped
  rw [inOrder rateLimitId, List.append_assoc]
  exact List.prefix_append _ _

/-! ### Three messages and a limit of one in ten milliseconds -/

/-- All readings of one call at the same instant. -/
def allAt (now : TimePoint) : Readings :=
  ⟨now, now, now, now⟩

/-- The client is connected and has accepted three messages. -/
def threeAccepted : List ClientAction :=
  List.flatten [connectWith { rateLimits := [⟨1, 10⟩] }, openAttempt 1,
    [.submitMessage "first" 0 false, .enqueue 0, .submitMessage "second" 0 false, .enqueue 0,
      .submitMessage "third" 0 false, .enqueue 0, .callProcess {}]]

/-- A pass over the three messages, checked at these instants, that hands over so many. -/
def passAt (instants : List TimePoint) (sends : ℕ) : List ClientAction :=
  .processMessageQueue (fun position => allAt (instants.getD position 0)) ::
    List.replicate sends .send

/-- The second message is refused a millisecond before the period ends, the third is checked when
it has ended. -/
theorem third_before_second :
    ∃ finish, sendSystem.Runs sendSystem.init
        (threeAccepted ++ passAt [1000000, 9000000, 10000000] 2) finish ∧
      (acceptedSends finish.world.client.log).map WebSocketSendInfo.message =
        ["first", "second", "third"] ∧
      finish.handed.map WebSocketSendInfo.message = ["first", "third"] ∧
      ¬ withId 0 finish.handed <+: withId 0 (acceptedSends finish.world.client.log) := by
  have evaluated : (sendSystem.run sendSystem.init
      (threeAccepted ++ passAt [1000000, 9000000, 10000000] 2)).any (fun finish =>
        decide ((acceptedSends finish.world.client.log).map WebSocketSendInfo.message =
            ["first", "second", "third"] ∧
          finish.handed.map WebSocketSendInfo.message = ["first", "third"] ∧
          ¬ withId 0 finish.handed <+: withId 0 (acceptedSends finish.world.client.log))) = true := by
    decide +kernel
  obtain ⟨finish, runs, checked⟩ := System.exists_runs evaluated
  exact ⟨finish, runs, of_decide_eq_true checked⟩

/-- Two passes that lie within a period each. -/
def inTurn : List ClientAction :=
  List.flatten [threeAccepted, passAt [1000000, 2000000, 3000000] 2,
    [.processSendCallbackQueue, .callProcess {}], passAt [11000000, 12000000] 1]

theorem sends_in_order_inTurn :
    ∃ finish, sendSystem.Runs sendSystem.init inTurn finish ∧
      finish.handed.map WebSocketSendInfo.message = ["first", "second"] ∧
      withId 0 finish.handed <+: withId 0 (acceptedSends finish.world.client.log) := by
  have evaluated : (sendSystem.run sendSystem.init inTurn).any (fun finish =>
      decide (finish.handed.map WebSocketSendInfo.message = ["first", "second"])) = true := by
    decide +kernel
  have steady : sendSystem.Throughout SendState.Steady sendSystem.init inTurn := by
    decide +kernel
  obtain ⟨finish, runs, checked⟩ := System.exists_runs evaluated
  exact ⟨finish, runs, of_decide_eq_true checked, sends_in_order runs steady 0⟩

end Kurlyk.WebSocket
