/-
This file states what the callback of a request is promised. In every reachable
state, whatever libcurl reported and whatever was cancelled or shut down, the
responses passed to the callback are intermediate ones numbered from one, then
stream chunks, then at most one final response. The number of transfers stays
within the retry budget, and no transfer is started after a chunk was seen.
-/

import Kurlyk.Http.Custody

namespace Kurlyk.Http

variable {world : World}

/-- The responses that were passed to the callback of a request. -/
def World.callbackResponses (world : World) (token : Token) : List HttpResponse :=
  if (world.contexts token).callback then responses world.log token else []

/-- What a sound stage says about the whole life of a request so far. -/
theorem Sound.shape {status : Stage × HttpRequestContext} {seen : List HttpResponse}
    {started : ℕ} (sound : Sound status) (describes : status.1.Describes seen started) :
    ∃ retries chunks finals, finals ≤ 1 ∧ Shape retries chunks finals seen ∧
      (retries : ℤ) ≤ max 0 (status.2.retryAttempts - 1) ∧
      (started : ℤ) ≤ max 1 status.2.retryAttempts := by
  obtain ⟨stage, context⟩ := status
  obtain ⟨intact, budget⟩ := sound
  have within : ∀ retries : ℕ, (retries = 0 ∨ (retries : ℤ) < context.retryAttempts) →
      (retries : ℤ) ≤ max 0 (context.retryAttempts - 1) ∧
        ∀ starts : ℕ, starts ≤ retries + 1 → (starts : ℤ) ≤ max 1 context.retryAttempts := by
    intro retries bounded
    refine ⟨by omega, fun starts few => ?_⟩
    omega
  cases stage with
  | absent =>
    obtain ⟨rfl, rfl⟩ := describes
    exact ⟨0, 0, 0, by omega, .nil, by omega, by omega⟩
  | queued retries =>
    exact ⟨retries, 0, 0, by omega, describes.1, (within retries budget).1,
      (within retries budget).2 _ (by rw [describes.2]; omega)⟩
  | dispatched retries =>
    exact ⟨retries, 0, 0, by omega, describes.1, (within retries budget).1,
      (within retries budget).2 _ (by rw [describes.2]; omega)⟩
  | flying retries chunks =>
    exact ⟨retries, chunks, 0, by omega, describes.1, (within retries budget).1,
      (within retries budget).2 _ describes.2.le⟩
  | retrying retries =>
    exact ⟨retries, 0, 0, by omega, describes.1, (within retries budget).1,
      (within retries budget).2 _ (by rw [describes.2]; omega)⟩
  | final retries chunks =>
    exact ⟨retries, chunks, 1, by omega, describes.1, (within retries budget).1,
      (within retries budget).2 _ describes.2⟩
  | released retries chunks =>
    exact ⟨retries, chunks, 1, by omega, describes.1, (within retries budget).1,
      (within retries budget).2 _ describes.2⟩
  | done retries chunks =>
    exact ⟨retries, chunks, 1, by omega, describes.1, (within retries budget).1,
      (within retries budget).2 _ describes.2⟩
  | lost retries =>
    exact ⟨retries, 0, 0, by omega, describes.1, (within retries budget).1,
      (within retries budget).2 _ (by rw [describes.2]; omega)⟩
  | broken => exact absurd rfl intact

/-- In every reachable state the responses a callback has seen are intermediate ones numbered
1, 2, and so on, then chunks, then at most one final response; the transfers started stay
within the retry budget, and none was started after a chunk. -/
theorem callback_language (reachable : managerSystem.Reachable world) (token : Token) :
    ∃ retries chunks finals, finals ≤ 1 ∧
      Shape retries chunks finals (world.callbackResponses token) ∧
      (retries : ℤ) ≤ max 0 ((world.contexts token).retryAttempts - 1) ∧
      (starts world.log token : ℤ) ≤ max 1 (world.contexts token).retryAttempts ∧
      ∀ before after, world.log = before ++ .started token :: after →
        ∀ response ∈ responses before token, response.streamChunk = false := by
  have sound := (orderly_of_reachable reachable).custody.sound token
  have describes := stageOf_describes world.log token
  obtain ⟨retries, chunks, finals, once, shape, budget, started⟩ := sound.shape describes
  have unstreamed : ∀ before after, world.log = before ++ .started token :: after →
      ∀ response ∈ responses before token, response.streamChunk = false := by
    intro before after split
    have intact := sound.1
    rw [World.status, split] at intact
    exact no_chunk_before_start intact
  cases given : (world.contexts token).callback with
  | true =>
    refine ⟨retries, chunks, finals, once, ?_, budget, started, unstreamed⟩
    rw [World.callbackResponses, given, if_pos rfl]
    exact shape
  | false =>
    refine ⟨0, 0, 0, by omega, ?_, by omega, started, unstreamed⟩
    rw [World.callbackResponses, given, if_neg (by simp)]
    exact .nil

/-- A streaming request whose first attempt fails, and whose second attempt delivers one chunk
and then ends. -/
def retryThenStream : List Action :=
  [.submitRequest (some { requestId := 1, streaming := true, retryAttempts := 2 }) true,
    .callProcess, .work .proceed, .work (.time 1), .work (.time 1), .work (.multiInit true),
    .work (.easyInit true true), .work .proceed, .work .proceed, .work (.performed true true),
    .work (.message 0 { result := 7, responseCode := 0 } 1), .work .noMessage, .work .proceed,
    .work (.time 1), .work .proceed, .work .proceed,
    .callProcess, .work .proceed, .work .proceed, .work (.performed true false), .work .noMessage,
    .work .proceed, .work .proceed, .work .proceed, .work (.time 1), .work (.time 1),
    .work .proceed, .work .proceed,
    .callProcess, .work .proceed, .work (.time 2), .work (.time 2), .work (.multiInit true),
    .work (.easyInit true true), .work .proceed, .work .proceed,
    .work (.write 0 [104, 105] 200), .work (.performed true false),
    .work (.message 0 { result := 0, responseCode := 200 } 2), .work .proceed, .work .proceed,
    .work .proceed]

/-- The callback of that request sees one response of each kind. -/
theorem callback_language_retryThenStream :
    ∃ world, managerSystem.Reachable world ∧ (world.callbackResponses 1).length = 3 ∧
      ∃ retries chunks finals, finals ≤ 1 ∧
        Shape retries chunks finals (world.callbackResponses 1) ∧
        (starts world.log 1 : ℤ) ≤ max 1 (world.contexts 1).retryAttempts := by
  have checked : (managerSystem.run managerSystem.init retryThenStream).any
      (fun world => decide ((world.callbackResponses 1).length = 3)) = true := by
    decide +kernel
  obtain ⟨world, runs, seen⟩ := System.exists_runs checked
  obtain ⟨retries, chunks, finals, once, shape, _, started, _⟩ := callback_language ⟨_, runs⟩ 1
  exact ⟨world, ⟨_, runs⟩, of_decide_eq_true seen, retries, chunks, finals, once, shape, started⟩

end Kurlyk.Http
