/-
This file says what the life of one request looks like from outside. The log of
a run, restricted to the events of one request, drives a small automaton
(`Stage`): a request is queued, dispatched to a batch, in flight, waiting for a
retry, finalised, and at last completed. The automaton is broken by an event
that does not belong to the stage it is in.

What the callback of a request sees is read off the stage: as long as the
automaton is not broken, the responses are intermediate ones numbered from one,
then stream chunks, then at most one final response. The next file shows that
no run of the manager breaks it.
-/

import Mathlib.Data.List.Basic
import Kurlyk.Http.World

namespace Kurlyk.Http

/-- Where a request is in its life. `retries` counts the failed attempts its callback has been
told about, `chunks` the stream chunks of the attempt in flight. -/
inductive Stage where
  | absent
  | queued (retries : ℕ)
  | dispatched (retries : ℕ)
  | flying (retries chunks : ℕ)
  | retrying (retries : ℕ)
  | final (retries chunks : ℕ)
  | released (retries chunks : ℕ)
  | done (retries chunks : ℕ)
  | lost (retries : ℕ)
  | broken
deriving DecidableEq

/-- The request an event is about. -/
def Event.subject : Event → Option Token
  | .accepted token => some token
  | .dispatched token => some token
  | .started token => some token
  | .response token _ => some token
  | .requeued token => some token
  | .completing token => some token
  | .completed token => some token
  | .abandoned token => some token
  | _ => none

/-- A final response, which is never a chunk. -/
def HttpResponse.isFinal (response : HttpResponse) : Bool :=
  response.ready && !response.streamChunk

/-- The response of a failed attempt that will be retried, the given number in order. -/
def HttpResponse.isIntermediate (response : HttpResponse) (number : ℕ) : Bool :=
  !response.ready && !response.streamChunk && decide (response.retryAttempt = number)

/-- A stream chunk. -/
def HttpResponse.isChunk (response : HttpResponse) : Bool :=
  !response.ready && response.streamChunk

/-- The stage after an event about the request. -/
def Stage.next : Stage → Event → Stage
  | .absent, .accepted _ => .queued 0
  | .queued retries, .dispatched _ => .dispatched retries
  | .queued retries, .response _ response =>
    if response.isFinal then .final retries 0 else .broken
  | .dispatched retries, .started _ => .flying retries 0
  | .dispatched retries, .response _ response =>
    if response.isFinal then .final retries 0 else .broken
  | .flying retries chunks, .response _ response =>
    if response.isFinal then .final retries chunks
    else if response.isChunk then .flying retries (chunks + 1)
    else if chunks = 0 ∧ response.isIntermediate (retries + 1) then .retrying (retries + 1)
    else .broken
  | .retrying retries, .requeued _ => .queued retries
  | .retrying retries, .response _ response =>
    if response.isFinal then .final retries 0 else .broken
  | .retrying retries, .abandoned _ => .lost retries
  | .final retries chunks, .completing _ => .released retries chunks
  | .released retries chunks, .completed _ => .done retries chunks
  | _, _ => .broken

/-- The stage after an event, which may be about another request. -/
def Stage.advance (token : Token) (stage : Stage) (event : Event) : Stage :=
  if event.subject = some token then stage.next event else stage

/-- The stage of a request at the end of a log. -/
def stageOf (log : List Event) (token : Token) : Stage :=
  log.foldl (Stage.advance token) .absent

variable {log : List Event} {token : Token} {event : Event}

theorem stageOf_nil (token : Token) : stageOf [] token = .absent := rfl

theorem stageOf_concat (log : List Event) (event : Event) (token : Token) :
    stageOf (log ++ [event]) token = (stageOf log token).advance token event := by
  rw [stageOf, List.foldl_append]
  rfl

theorem stageOf_concat_self (subject : event.subject = some token) :
    stageOf (log ++ [event]) token = (stageOf log token).next event := by
  rw [stageOf_concat, Stage.advance, if_pos subject]

theorem stageOf_concat_other (subject : event.subject ≠ some token) :
    stageOf (log ++ [event]) token = stageOf log token := by
  rw [stageOf_concat, Stage.advance, if_neg subject]

/-- Events that are about no request leave every stage alone. -/
theorem stageOf_append_neutral {events : List Event}
    (neutral : ∀ event ∈ events, event.subject = none) (token : Token) :
    stageOf (log ++ events) token = stageOf log token := by
  induction events using List.reverseRecOn with
  | nil => rw [List.append_nil]
  | append_singleton earlier event inductionHypothesis =>
    rw [← List.append_assoc, stageOf_concat_other]
    · exact inductionHypothesis fun other member => neutral other (List.mem_append_left _ member)
    · rw [neutral event (List.mem_append_right _ List.mem_cons_self)]
      simp

theorem advance_broken (token : Token) (event : Event) :
    Stage.broken.advance token event = .broken := by
  unfold Stage.advance
  split <;> rfl

/-- A broken automaton stays broken. -/
theorem stageOf_append_of_broken {later : List Event} (broken : stageOf log token = .broken) :
    stageOf (log ++ later) token = .broken := by
  induction later using List.reverseRecOn with
  | nil => rw [List.append_nil, broken]
  | append_singleton earlier event inductionHypothesis =>
    rw [← List.append_assoc, stageOf_concat, inductionHypothesis, advance_broken]

/-- A request whose automaton is not broken at the end of a log was not broken before. -/
theorem stageOf_prefix_ne_broken {before after : List Event}
    (intact : stageOf (before ++ after) token ≠ .broken) : stageOf before token ≠ .broken :=
  fun broken => intact (stageOf_append_of_broken broken)

/-! ### Events a stage remembers -/

/-- A stage from which a request does not return remembers the event that leads into it: if
`flag` is raised exactly by `event`, then `event` is in the log exactly when it is raised. -/
theorem mem_log_iff_flag (flag : Stage → Prop) (subject : event.subject = some token)
    (lowered : ¬ flag .absent)
    (raised : ∀ stage other, other.subject = some token → stage.next other ≠ .broken →
      (flag (stage.next other) ↔ flag stage ∨ other = event))
    (intact : stageOf log token ≠ .broken) : event ∈ log ↔ flag (stageOf log token) := by
  induction log using List.reverseRecOn with
  | nil => simp [stageOf_nil, lowered]
  | append_singleton earlier other inductionHypothesis =>
    have before := inductionHypothesis (stageOf_prefix_ne_broken intact)
    rw [List.mem_append, List.mem_singleton, before]
    by_cases about : other.subject = some token
    · rw [stageOf_concat_self about] at intact ⊢
      rw [raised _ _ about intact, eq_comm]
    · rw [stageOf_concat_other about]
      refine or_iff_left fun same => about ?_
      rw [← same, subject]

theorem next_ne_absent (stage : Stage) (event : Event) : stage.next event ≠ .absent := by
  unfold Stage.next
  split
  all_goals try split_ifs
  all_goals simp

/-- Nothing was logged about a request without a stage. -/
theorem not_subject_of_absent (absent : stageOf log token = .absent) :
    ∀ event ∈ log, event.subject ≠ some token := by
  induction log using List.reverseRecOn with
  | nil => exact fun _ member => absurd member List.not_mem_nil
  | append_singleton earlier last inductionHypothesis =>
    have other : last.subject ≠ some token := by
      intro about
      rw [stageOf_concat_self about] at absent
      exact next_ne_absent _ _ absent
    rw [stageOf_concat_other other] at absent
    intro event member
    rcases List.mem_append.mp member with old | new
    · exact inductionHypothesis absent event old
    · rw [List.mem_singleton.mp new]
      exact other

/-- A request was accepted exactly when it has a stage. -/
theorem accepted_mem_iff (intact : stageOf log token ≠ .broken) :
    Event.accepted token ∈ log ↔ stageOf log token ≠ .absent := by
  refine mem_log_iff_flag (· ≠ .absent) rfl (by simp) ?_ intact
  intro stage other about proper
  cases other with
  | accepted subject =>
    obtain rfl : subject = token := Option.some.inj about
    cases stage <;> simp_all [Stage.next]
  | _ => cases stage <;> simp_all [Stage.next] <;> split_ifs at * <;> simp_all

/-- The stages after `complete` has claimed the context. -/
def Stage.isReleased : Stage → Bool
  | .released _ _ => true
  | .done _ _ => true
  | _ => false

/-- The last stage. -/
def Stage.isDone : Stage → Bool
  | .done _ _ => true
  | _ => false

theorem isReleased_of_isDone {stage : Stage} (done : stage.isDone = true) :
    stage.isReleased = true := by
  cases stage with
  | done => rfl
  | _ => exact absurd done (by simp [Stage.isDone])

theorem completing_mem_iff (intact : stageOf log token ≠ .broken) :
    Event.completing token ∈ log ↔ (stageOf log token).isReleased = true := by
  refine mem_log_iff_flag (·.isReleased = true) rfl (by simp [Stage.isReleased]) ?_ intact
  intro stage other about proper
  cases other with
  | completing subject =>
    obtain rfl : subject = token := Option.some.inj about
    cases stage <;> simp_all [Stage.next, Stage.isReleased]
  | _ => cases stage <;> simp_all [Stage.next, Stage.isReleased] <;> split_ifs at * <;> simp_all

theorem completed_mem_iff (intact : stageOf log token ≠ .broken) :
    Event.completed token ∈ log ↔ (stageOf log token).isDone = true := by
  refine mem_log_iff_flag (·.isDone = true) rfl (by simp [Stage.isDone]) ?_ intact
  intro stage other about proper
  cases other with
  | completed subject =>
    obtain rfl : subject = token := Option.some.inj about
    cases stage <;> simp_all [Stage.next, Stage.isDone]
  | _ => cases stage <;> simp_all [Stage.next, Stage.isDone] <;> split_ifs at * <;> simp_all

/-- The stage of a request whose context was destroyed unanswered. -/
def Stage.isLost : Stage → Bool
  | .lost _ => true
  | _ => false

theorem abandoned_mem_iff (intact : stageOf log token ≠ .broken) :
    Event.abandoned token ∈ log ↔ (stageOf log token).isLost = true := by
  refine mem_log_iff_flag (·.isLost = true) rfl (by simp [Stage.isLost]) ?_ intact
  intro stage other about proper
  cases other with
  | abandoned subject =>
    obtain rfl : subject = token := Option.some.inj about
    cases stage <;> simp_all [Stage.next, Stage.isLost]
  | _ => cases stage <;> simp_all [Stage.next, Stage.isLost] <;> split_ifs at * <;> simp_all

/-! ### What the callback sees -/

/-- The response an event passes to the callback of a request. -/
def Event.responseTo (token : Token) : Event → Option HttpResponse
  | .response about reply => if about = token then some reply else none
  | _ => none

/-- The responses that were passed to the callback of a request, in order. -/
def responses (log : List Event) (token : Token) : List HttpResponse :=
  log.filterMap (Event.responseTo token)

/-- How many transfers were started for a request. -/
def starts (log : List Event) (token : Token) : ℕ :=
  log.count (.started token)

/-- The responses are the given numbers of intermediate responses, chunks and final responses,
in this order, and the intermediate ones are numbered from one. -/
structure Shape (retries chunks finals : ℕ) (seen : List HttpResponse) : Prop where
  split : ∃ first second third : List HttpResponse, seen = first ++ second ++ third ∧
    first.length = retries ∧ second.length = chunks ∧ third.length = finals ∧
    (∀ (position : ℕ) (response : HttpResponse), first[position]? = some response →
      response.isIntermediate (position + 1) = true) ∧
    (∀ response ∈ second, response.isChunk = true) ∧
    ∀ response ∈ third, response.isFinal = true

theorem Shape.nil : Shape 0 0 0 [] :=
  ⟨[], [], [], rfl, rfl, rfl, rfl, by simp, by simp, by simp⟩

theorem Shape.intermediate {retries : ℕ} {seen : List HttpResponse} {response : HttpResponse}
    (shape : Shape retries 0 0 seen) (next : response.isIntermediate (retries + 1) = true) :
    Shape (retries + 1) 0 0 (seen ++ [response]) := by
  obtain ⟨first, second, third, rfl, counted, noChunk, noFinal, numbered, _, _⟩ := shape.split
  rw [List.length_eq_zero_iff] at noChunk noFinal
  subst noChunk noFinal
  refine ⟨first ++ [response], [], [], by simp, by simp [counted], rfl, rfl, ?_, by simp, by simp⟩
  intro position other found
  rcases Nat.lt_trichotomy position first.length with before | same | beyond
  · rw [List.getElem?_append_left before] at found
    exact numbered position other found
  · rw [same, List.getElem?_concat_length, Option.some.injEq] at found
    rw [← found, same, counted]
    exact next
  · rw [List.getElem?_eq_none (by rw [List.length_append, List.length_singleton]; omega)] at found
    exact absurd found (by simp)

theorem Shape.chunk {retries chunks : ℕ} {seen : List HttpResponse} {response : HttpResponse}
    (shape : Shape retries chunks 0 seen) (isChunk : response.isChunk = true) :
    Shape retries (chunks + 1) 0 (seen ++ [response]) := by
  obtain ⟨first, second, third, rfl, counted, chunkCount, noFinal, numbered, allChunks, _⟩ :=
    shape.split
  rw [List.length_eq_zero_iff] at noFinal
  subst noFinal
  refine ⟨first, second ++ [response], [], by simp, counted, by simp [chunkCount], rfl, numbered,
    ?_, by simp⟩
  intro other member
  rcases List.mem_append.mp member with old | new
  · exact allChunks other old
  · rw [List.mem_singleton.mp new]
    exact isChunk

theorem Shape.final {retries chunks : ℕ} {seen : List HttpResponse} {response : HttpResponse}
    (shape : Shape retries chunks 0 seen) (isFinal : response.isFinal = true) :
    Shape retries chunks 1 (seen ++ [response]) := by
  obtain ⟨first, second, third, rfl, counted, chunkCount, noFinal, numbered, allChunks, _⟩ :=
    shape.split
  rw [List.length_eq_zero_iff] at noFinal
  subst noFinal
  refine ⟨first, second, [response], by simp, counted, chunkCount, rfl, numbered, allChunks, ?_⟩
  intro other member
  rw [List.mem_singleton.mp member]
  exact isFinal

/-- What a stage says about the responses seen and the transfers started so far. -/
def Stage.Describes : Stage → List HttpResponse → ℕ → Prop
  | .absent, seen, started => seen = [] ∧ started = 0
  | .queued retries, seen, started => Shape retries 0 0 seen ∧ started = retries
  | .dispatched retries, seen, started => Shape retries 0 0 seen ∧ started = retries
  | .flying retries chunks, seen, started => Shape retries chunks 0 seen ∧ started = retries + 1
  | .retrying retries, seen, started => Shape retries 0 0 seen ∧ started = retries
  | .final retries chunks, seen, started => Shape retries chunks 1 seen ∧ started ≤ retries + 1
  | .released retries chunks, seen, started => Shape retries chunks 1 seen ∧ started ≤ retries + 1
  | .done retries chunks, seen, started => Shape retries chunks 1 seen ∧ started ≤ retries + 1
  | .lost retries, seen, started => Shape retries 0 0 seen ∧ started = retries
  | .broken, _, _ => True

/-- The number of transfers an event starts for a request. -/
def Event.startsFor (token : Token) (event : Event) : ℕ :=
  if event = .started token then 1 else 0

/-- A request that is not in flight is answered by a final response. -/
theorem Stage.describes_answered {retries started : ℕ} {seen : List HttpResponse}
    {response : HttpResponse} (shape : Shape retries 0 0 seen) (starts : started = retries) :
    (if response.isFinal then Stage.final retries 0 else .broken).Describes (seen ++ [response])
      started := by
  split
  · rename_i isFinal
    exact ⟨shape.final isFinal, starts ▸ Nat.le_succ _⟩
  · trivial

/-- One event about the request keeps the description true. -/
theorem Stage.Describes.next {stage : Stage} {seen : List HttpResponse} {started : ℕ}
    (describes : stage.Describes seen started) (subject : event.subject = some token) :
    (stage.next event).Describes (seen ++ (event.responseTo token).toList)
      (started + event.startsFor token) := by
  cases event with
  | response about response =>
    obtain rfl : about = token := Option.some.inj subject
    have quiet : Event.startsFor about (.response about response) = 0 := by
      simp [Event.startsFor]
    rw [quiet, Nat.add_zero]
    simp only [Event.responseTo, if_true, Option.toList_some]
    cases stage with
    | queued retries => exact Stage.describes_answered describes.1 describes.2
    | dispatched retries => exact Stage.describes_answered describes.1 describes.2
    | retrying retries => exact Stage.describes_answered describes.1 describes.2
    | flying retries chunks =>
      simp only [Stage.next]
      split
      · rename_i isFinal
        exact ⟨describes.1.final isFinal, describes.2.le⟩
      · split
        · rename_i isChunk
          exact ⟨describes.1.chunk isChunk, describes.2⟩
        · split
          · rename_i isIntermediate
            obtain ⟨rfl, isIntermediate⟩ := isIntermediate
            exact ⟨describes.1.intermediate isIntermediate, describes.2⟩
          · trivial
    | _ => trivial
  | accepted about =>
    cases stage with
    | absent =>
      obtain ⟨rfl, rfl⟩ := describes
      exact ⟨Shape.nil, by simp [Event.startsFor]⟩
    | _ => trivial
  | dispatched about =>
    cases stage with
    | queued retries =>
      simpa [Stage.next, Stage.Describes, Event.responseTo, Event.startsFor] using describes
    | _ => trivial
  | started about =>
    obtain rfl : about = token := Option.some.inj subject
    cases stage with
    | dispatched retries =>
      simpa [Stage.next, Stage.Describes, Event.responseTo, Event.startsFor] using describes
    | _ => trivial
  | requeued about =>
    cases stage with
    | retrying retries =>
      simpa [Stage.next, Stage.Describes, Event.responseTo, Event.startsFor] using describes
    | _ => trivial
  | completing about =>
    cases stage with
    | final retries chunks =>
      simpa [Stage.next, Stage.Describes, Event.responseTo, Event.startsFor] using describes
    | _ => trivial
  | completed about =>
    cases stage with
    | released retries chunks =>
      simpa [Stage.next, Stage.Describes, Event.responseTo, Event.startsFor] using describes
    | _ => trivial
  | abandoned about =>
    cases stage with
    | retrying retries =>
      simpa [Stage.next, Stage.Describes, Event.responseTo, Event.startsFor] using describes
    | _ => trivial
  | _ => exact absurd subject (by simp [Event.subject])

theorem responseTo_of_other (subject : event.subject ≠ some token) :
    event.responseTo token = none := by
  cases event with
  | response about response =>
    have different : about ≠ token := fun same => subject (congrArg some same)
    simp [Event.responseTo, different]
  | _ => rfl

theorem startsFor_of_other (subject : event.subject ≠ some token) :
    event.startsFor token = 0 := by
  unfold Event.startsFor
  split
  · rename_i same
    exact absurd (same ▸ rfl : event.subject = some token) subject
  · rfl

/-- The stage of a request describes what its log holds. -/
theorem stageOf_describes (log : List Event) (token : Token) :
    (stageOf log token).Describes (responses log token) (starts log token) := by
  induction log using List.reverseRecOn with
  | nil => exact ⟨rfl, rfl⟩
  | append_singleton earlier event inductionHypothesis =>
    have seen : responses (earlier ++ [event]) token =
        responses earlier token ++ (event.responseTo token).toList := by
      rw [responses, List.filterMap_append, responses, List.filterMap_cons, List.filterMap_nil]
      cases event.responseTo token <;> rfl
    have started : starts (earlier ++ [event]) token =
        starts earlier token + event.startsFor token := by
      rw [starts, List.count_append, starts, List.count_singleton, Event.startsFor]
      simp [beq_iff_eq]
    rw [seen, started, stageOf_concat, Stage.advance]
    split
    · rename_i subject
      exact inductionHypothesis.next subject
    · rename_i subject
      rw [responseTo_of_other subject, startsFor_of_other subject, Option.toList_none,
        List.append_nil, Nat.add_zero]
      exact inductionHypothesis

/-- How many final responses a stage stands for. -/
def Stage.finals : Stage → ℕ
  | .final _ _ => 1
  | .released _ _ => 1
  | .done _ _ => 1
  | _ => 0

theorem Shape.countP_ready {retries chunks finals : ℕ} {seen : List HttpResponse}
    (shape : Shape retries chunks finals seen) : seen.countP (·.ready) = finals := by
  obtain ⟨first, second, third, rfl, _, _, counted, numbered, allChunks, allFinal⟩ := shape.split
  have unreadyFirst : first.countP (·.ready) = 0 := by
    rw [List.countP_eq_zero]
    intro response member
    obtain ⟨position, found⟩ := List.mem_iff_getElem?.mp member
    have intermediate := numbered position response found
    simp only [HttpResponse.isIntermediate, Bool.and_eq_true, Bool.not_eq_true'] at intermediate
    simp [intermediate.1.1]
  have unreadySecond : second.countP (·.ready) = 0 := by
    rw [List.countP_eq_zero]
    intro response member
    have chunk := allChunks response member
    simp only [HttpResponse.isChunk, Bool.and_eq_true, Bool.not_eq_true'] at chunk
    simp [chunk.1]
  have readyThird : third.countP (·.ready) = third.length := by
    rw [List.countP_eq_length]
    intro response member
    have final := allFinal response member
    simp only [HttpResponse.isFinal, Bool.and_eq_true] at final
    exact final.1
  rw [List.countP_append, List.countP_append, unreadyFirst, unreadySecond, readyThird, counted]
  omega

/-- The number of final responses a callback has seen. -/
theorem countP_ready_responses (intact : stageOf log token ≠ .broken) :
    (responses log token).countP (·.ready) = (stageOf log token).finals := by
  have describes := stageOf_describes log token
  cases stage : stageOf log token with
  | absent =>
    rw [stage] at describes
    rw [describes.1]
    rfl
  | broken => exact absurd stage intact
  | queued | dispatched | flying | retrying | final | released | done | lost =>
    rw [stage] at describes
    exact describes.1.countP_ready

/-- A transfer is only started while no chunk has been seen. -/
theorem no_chunk_before_start {before after : List Event}
    (intact : stageOf (before ++ .started token :: after) token ≠ .broken) :
    ∀ response ∈ responses before token, response.streamChunk = false := by
  have started : stageOf (before ++ [.started token]) token ≠ .broken := by
    have longer : before ++ .started token :: after = (before ++ [.started token]) ++ after := by
      rw [List.append_assoc, List.singleton_append]
    rw [longer] at intact
    exact stageOf_prefix_ne_broken intact
  rw [stageOf_concat_self rfl] at started
  have describes := stageOf_describes before token
  cases stage : stageOf before token with
  | dispatched retries =>
    rw [stage] at describes
    obtain ⟨first, second, third, split, _, noChunk, noFinal, numbered, _, _⟩ := describes.1.split
    rw [List.length_eq_zero_iff] at noChunk noFinal
    intro response member
    rw [split, noChunk, noFinal, List.append_nil, List.append_nil] at member
    obtain ⟨position, found⟩ := List.mem_iff_getElem?.mp member
    have intermediate := numbered position response found
    simp only [HttpResponse.isIntermediate, Bool.and_eq_true, Bool.not_eq_true'] at intermediate
    exact intermediate.1.2
  | _ => rw [stage] at started; exact absurd rfl started

end Kurlyk.Http
