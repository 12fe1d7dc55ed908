/-
This file models `ProxyChecker`: a check is one request through the manager, whose callback turns
the final response into a result and sets the promise that the caller waits for. The thread that
checks sets the promise itself when the arguments are invalid or the request is rejected.

The manager runs as before, with all its other callers. The timings of a result are left out, as
are the options that only libcurl reads.
-/

import Kurlyk.Http.Futures
import Kurlyk.Http.ProxyConfig

namespace Kurlyk.Http

open RateLimiter Utils

/-! ### The model -/

/-- The fields of `ProxyCheckOptions` that decide whether a request is made. -/
structure ProxyCheckOptions where
  testUrl : List UInt8 := ascii "https://example.com/"
  connectTimeout : ℤ := 3
  requestTimeout : ℤ := 5
deriving DecidableEq

structure ProxyCheckResult where
  reachable : Bool := false
  httpOk : Bool := false
  httpsOk : Bool := false
  errorCode : ErrorCode := .none
  errorMessage : String := ""
  httpStatus : ℤ := 0
deriving DecidableEq

/-- The conversion of a `std::error_code` to `bool`. -/
def ErrorCode.isError : ErrorCode → Bool
  | .none => false
  | .curl code => code ≠ 0
  | .http status => status ≠ 0
  | .client _ => true

/-- `is_http_error`. -/
def ErrorCode.isHttpError : ErrorCode → Bool
  | .http _ => true
  | _ => false

def proxyCheckHasScheme (url scheme : List UInt8) : Bool :=
  scheme.length ≤ url.length &&
    (url.zip scheme).all fun (actual, expected) => tolower actual = expected

def proxyCheckIsHttpUrl (url : List UInt8) : Bool :=
  proxyCheckHasScheme url (ascii "http://") || proxyCheckHasScheme url (ascii "https://")

section

-- `error_code.message()`
variable (message : ErrorCode → String)

def makeProxyCheckError (errorCode : ErrorCode) (errorMessage : String) : ProxyCheckResult :=
  { errorCode
    errorMessage := if errorMessage.isEmpty then message errorCode else errorMessage }

def makeProxyCheckResult (response : Option HttpResponse) (isHttps : Bool) : ProxyCheckResult :=
  match response with
  | none =>
    makeProxyCheckError message (.client .abortedDuringDestruction)
      "Proxy check returned no HTTP response"
  | some response =>
    let receivedHttpResponse := response.ready && response.statusCode > 0 &&
      (!response.errorCode.isError || response.errorCode.isHttpError)
    let httpOk := receivedHttpResponse && 200 ≤ response.statusCode && response.statusCode < 400
    { reachable := receivedHttpResponse
      httpOk
      httpsOk := isHttps && httpOk
      errorCode := response.errorCode
      errorMessage := if response.errorMessage.isEmpty && response.errorCode.isError then
        message response.errorCode else response.errorMessage
      httpStatus := response.statusCode }

end

/-- The manager with the checks that were asked for. A promise is named by the number of its check;
`captured` is the promise in a callback, with the scheme of the test URL. `handledErrors` counts the
exceptions of `set_value`. -/
structure ProxyChecks where
  world : World := {}
  asked : List (ProxyConfig × ProxyCheckOptions) := []
  result : ℕ → Option ProxyCheckResult := fun _ => none
  captured : Token → Option (ℕ × Bool) := fun _ => none
  handledErrors : ℕ := 0

namespace ProxyChecks

variable (message : ErrorCode → String) (checks : ProxyChecks)

/-- `set_proxy_check_promise`. -/
def setProxyCheckPromise (promise : ℕ) (result : ProxyCheckResult) : ProxyChecks :=
  match checks.result promise with
  | none => { checks with result := Function.update checks.result promise (some result) }
  | some _ => { checks with handledErrors := checks.handledErrors + 1 }

/-- A response is passed to the callback of its request. -/
def notice : Event → ProxyChecks
  | .response token response =>
    match checks.captured token with
    | none => checks
    | some (promise, isHttps) =>
      if response.ready = false then checks
      else checks.setProxyCheckPromise promise
        (makeProxyCheckResult message (some response) isHttps)
  | _ => checks

/-- The manager has made a step, and the callbacks it has invoked have returned. -/
def resume (next : World) : ProxyChecks :=
  (next.log.drop checks.world.log.length).foldl (notice message) { checks with world := next }

/-- A new check, with its promise. -/
def ask (proxy : ProxyConfig) (options : ProxyCheckOptions) : ProxyChecks :=
  { checks with asked := checks.asked ++ [(proxy, options)] }

/-- The callback of a request captures a promise. -/
def capture (token : Token) (promise : ℕ) (isHttps : Bool) : ProxyChecks :=
  { checks with captured := Function.update checks.captured token (some (promise, isHttps)) }

/-- `check`. The fields of the request that the manager reads have their defaults. -/
def check (proxy : ProxyConfig) (options : ProxyCheckOptions) : Option ProxyChecks :=
  let promise := checks.asked.length
  if !proxy.isValid then
    some ((checks.ask proxy options).setProxyCheckPromise promise (makeProxyCheckError message
      (.client .invalidConfiguration) "Proxy server must contain a valid host and port"))
  else if !proxyCheckIsHttpUrl options.testUrl ∨ options.connectTimeout < 0 ∨
      options.requestTimeout < 0 then
    some ((checks.ask proxy options).setProxyCheckPromise promise (makeProxyCheckError message
      (.client .invalidConfiguration)
      "Proxy check requires an HTTP(S) test URL and non-negative timeouts"))
  else
    let request : HttpRequest := {}
    (checks.world.step (.submitRequest (some request) true)).map fun next =>
      let opened := (checks.resume message next).ask proxy options
      match checks.world.toHttpRequestManager.submitRequest (some request) with
      | .ok (token, _) =>
        opened.capture token promise (proxyCheckHasScheme options.testUrl (ascii "https://"))
      | .error error =>
        opened.setProxyCheckPromise promise (makeProxyCheckError message (.client error) "")

end ProxyChecks

/-- The steps of all threads, those that check proxies among them. -/
inductive CheckAction where
  | manage (action : Action)
  | check (proxy : ProxyConfig) (options : ProxyCheckOptions)

/-- One step of one thread. -/
def ProxyChecks.step (message : ErrorCode → String) (checks : ProxyChecks) :
    CheckAction → Option ProxyChecks
  | .manage action => (checks.world.step action).map (checks.resume message)
  | .check proxy options => checks.check message proxy options

/-- The manager and the checks, as a system. -/
def checkSystem (message : ErrorCode → String) : System ProxyChecks CheckAction where
  init := {}
  step := ProxyChecks.step message

variable {message : ErrorCode → String} {checks next : ProxyChecks} {after : World}
  {log : List Event} {token : Token} {promise : ℕ} {isHttps : Bool} {proxy : ProxyConfig}
  {options : ProxyCheckOptions}

/-! ### Who sets which promise -/

/-- The arguments of a check are such that a request is made. -/
def CheckMakesSense (proxy : ProxyConfig) (options : ProxyCheckOptions) : Prop :=
  proxy.isValid = true ∧ proxyCheckIsHttpUrl options.testUrl = true ∧
    0 ≤ options.connectTimeout ∧ 0 ≤ options.requestTimeout

/-- The result of a check that no request answers: its arguments are invalid, or the manager has
rejected the request. -/
inductive Refused (message : ErrorCode → String) (proxy : ProxyConfig)
    (options : ProxyCheckOptions) : ProxyCheckResult → Prop where
  | invalid (text : String) (senseless : ¬ CheckMakesSense proxy options) :
      Refused message proxy options
        (makeProxyCheckError message (.client .invalidConfiguration) text)
  | rejected {error : ClientError} (sensible : CheckMakesSense proxy options)
      (reason : error = .queueLimitExceeded ∨ error = .shuttingDown) :
      Refused message proxy options (makeProxyCheckError message (.client error) "")

/-- The promises of the checks stand as the log of the manager says. -/
structure Checked (message : ErrorCode → String) (checks : ProxyChecks) (log : List Event) :
    Prop where
  made : ∀ token promise isHttps, checks.captured token = some (promise, isHttps) →
    ∃ proxy options, checks.asked[promise]? = some (proxy, options) ∧
      CheckMakesSense proxy options ∧
      isHttps = proxyCheckHasScheme options.testUrl (ascii "https://")
  unique : ∀ token other promise isHttps too, checks.captured token = some (promise, isHttps) →
    checks.captured other = some (promise, too) → token = other
  unused : ∀ promise, checks.asked.length ≤ promise → checks.result promise = none
  answered : ∀ token promise isHttps, checks.captured token = some (promise, isHttps) →
    checks.result promise = ((responses log token).find? (·.ready)).map fun response =>
      makeProxyCheckResult message (some response) isHttps
  refused : ∀ promise proxy options, checks.asked[promise]? = some (proxy, options) →
    (∀ token isHttps, checks.captured token ≠ some (promise, isHttps)) →
    ∃ result, checks.result promise = some result ∧ Refused message proxy options result
  unhandled : checks.handledErrors = 0

theorem Checked.created (checked : Checked message checks log)
    (captured : checks.captured token = some (promise, isHttps)) :
    promise < checks.asked.length := by
  obtain ⟨_, _, asked, _⟩ := checked.made token promise isHttps captured
  exact (List.getElem?_eq_some_iff.mp asked).1

theorem setProxyCheckPromise_unset {result : ProxyCheckResult}
    (unset : checks.result promise = none) :
    checks.setProxyCheckPromise promise result =
      { checks with result := Function.update checks.result promise (some result) } := by
  unfold ProxyChecks.setProxyCheckPromise
  rw [unset]

/-- A callback sets its promise at most once, and to what the final response gives. -/
theorem Checked.notice {event : Event} (checked : Checked message checks log)
    (few : ∀ token, (responses (log ++ [event]) token).countP (·.ready) ≤ 1) :
    Checked message (checks.notice message event) (log ++ [event]) := by
  cases event with
  | response token response =>
    cases captured : checks.captured token with
    | none =>
      have same : checks.notice message (.response token response) = checks := by
        unfold ProxyChecks.notice
        dsimp only
        rw [captured]
      rw [same]
      refine { checked with answered := fun other promise isHttps caught => ?_ }
      have different : token ≠ other := by
        rintro rfl
        rw [captured] at caught
        cases caught
      rw [responses_response_other log response different]
      exact checked.answered other promise isHttps caught
    | some capture =>
      obtain ⟨promise, isHttps⟩ := capture
      have current := checked.answered token promise isHttps captured
      cases ready : response.ready with
      | false =>
        have same : checks.notice message (.response token response) = checks := by
          unfold ProxyChecks.notice
          dsimp only
          rw [captured]
          exact if_pos ready
        rw [same]
        refine { checked with answered := fun other kept too caught => ?_ }
        by_cases same : token = other
        · subst same
          rw [responses_response_self, find?_ready_concat _ ready]
          exact checked.answered token kept too caught
        · rw [responses_response_other log response same]
          exact checked.answered other kept too caught
      | true =>
        have counted := few token
        rw [responses_response_self] at counted
        obtain ⟨unset, found⟩ := find?_ready_last ready counted
        rw [unset, Option.map_none] at current
        have sets : checks.notice message (.response token response) =
            checks.setProxyCheckPromise promise
              (makeProxyCheckResult message (some response) isHttps) := by
          unfold ProxyChecks.notice
          dsimp only
          rw [captured]
          dsimp only
          rw [ready, if_neg Bool.true_eq_false.mp]
        rw [sets, setProxyCheckPromise_unset current]
        refine { checked with
          unused := fun other beyond => ?_
          answered := fun other kept too caught => ?_
          refused := fun other proxy options asked free => ?_ }
        · have different : other ≠ promise := fun same =>
            absurd (checked.created captured) (Nat.not_lt_of_le (same ▸ beyond))
          exact (Function.update_of_ne different _ _).trans (checked.unused other beyond)
        · by_cases same : kept = promise
          · subst same
            obtain rfl := checked.unique other token kept too isHttps caught captured
            obtain rfl : isHttps = too :=
              (Prod.mk.inj (Option.some.inj (captured.symm.trans caught))).2
            rw [responses_response_self, found]
            exact Function.update_self ..
          · have different : token ≠ other := by
              rintro rfl
              exact same (Prod.mk.inj (Option.some.inj (caught.symm.trans captured))).1
            rw [responses_response_other log response different]
            exact (Function.update_of_ne same _ _).trans (checked.answered other kept too caught)
        · have different : other ≠ promise := by
            rintro rfl
            exact free token isHttps captured
          obtain ⟨result, there, reason⟩ := checked.refused other proxy options asked free
          exact ⟨result, (Function.update_of_ne different _ _).trans there, reason⟩
  | _ =>
    refine { checked with answered := fun other promise isHttps caught => ?_ }
    rw [responses_append_silent (by simp)]
    exact checked.answered other promise isHttps caught

theorem Checked.notices (checked : Checked message checks log) (events : List Event)
    (few : ∀ token, (responses (log ++ events) token).countP (·.ready) ≤ 1) :
    Checked message (events.foldl (ProxyChecks.notice message) checks) (log ++ events) := by
  induction events generalizing checks log with
  | nil => rwa [List.append_nil]
  | cons event events inductionHypothesis =>
    have split : log ++ event :: events = (log ++ [event]) ++ events := by
      rw [List.append_assoc, List.singleton_append]
    rw [split] at few ⊢
    refine inductionHypothesis (checked.notice fun token => ?_) few
    have counted := few token
    rw [responses_append, List.countP_append] at counted
    exact Nat.le_trans (Nat.le_add_right _ _) counted

/-! ### A new check -/

theorem getElem?_concat_cases {Entry : Type} {entries : List Entry} {entry found : Entry}
    {position : ℕ} (there : (entries ++ [entry])[position]? = some found) :
    entries[position]? = some found ∨ position = entries.length ∧ found = entry := by
  rcases Nat.lt_trichotomy position entries.length with below | rfl | beyond
  · rw [List.getElem?_append_left below] at there
    exact Or.inl there
  · rw [List.getElem?_concat_length] at there
    exact Or.inr ⟨rfl, (Option.some.inj there).symm⟩
  · rw [List.getElem?_eq_none (by rw [List.length_append]; exact beyond)] at there
    cases there

theorem getElem?_concat_of_some {Entry : Type} {entries : List Entry} {entry found : Entry}
    {position : ℕ} (there : entries[position]? = some found) :
    (entries ++ [entry])[position]? = some found := by
  rw [List.getElem?_append_left (List.getElem?_eq_some_iff.mp there).1]
  exact there

/-- A check that is refused sets its promise at once. -/
theorem Checked.refuse {result : ProxyCheckResult} (checked : Checked message checks log)
    (reason : Refused message proxy options result) :
    Checked message ((checks.ask proxy options).setProxyCheckPromise checks.asked.length result)
      log := by
  have unset : (checks.ask proxy options).result checks.asked.length = none :=
    checked.unused _ (Nat.le_refl _)
  rw [setProxyCheckPromise_unset unset]
  refine ⟨fun token promise isHttps caught => ?_, checked.unique, fun other beyond => ?_,
    fun token promise isHttps caught => ?_, fun other proxy' options' asked free => ?_,
    checked.unhandled⟩
  · obtain ⟨proxy', options', asked, sense⟩ := checked.made token promise isHttps caught
    exact ⟨proxy', options', getElem?_concat_of_some asked, sense⟩
  · replace beyond : (checks.asked ++ [(proxy, options)]).length ≤ other := beyond
    rw [List.length_append, List.length_singleton] at beyond
    have different : other ≠ checks.asked.length := by omega
    exact (Function.update_of_ne different _ _).trans (checked.unused other (by omega))
  · have different : promise ≠ checks.asked.length := Nat.ne_of_lt (checked.created caught)
    exact (Function.update_of_ne different _ _).trans
      (checked.answered token promise isHttps caught)
  · rcases getElem?_concat_cases asked with before | ⟨rfl, same⟩
    · have different : other ≠ checks.asked.length :=
        Nat.ne_of_lt (List.getElem?_eq_some_iff.mp before).1
      obtain ⟨old, there, why⟩ := checked.refused other proxy' options' before free
      exact ⟨old, (Function.update_of_ne different _ _).trans there, why⟩
    · obtain ⟨rfl, rfl⟩ := Prod.mk.inj same
      exact ⟨result, Function.update_self .., reason⟩

/-- A check whose request is accepted leaves its promise to the callback. -/
theorem Checked.capture (checked : Checked message checks log)
    (sensible : CheckMakesSense proxy options) (free : checks.captured token = none)
    (unanswered : responses log token = []) :
    Checked message ((checks.ask proxy options).capture token checks.asked.length
      (proxyCheckHasScheme options.testUrl (ascii "https://"))) log := by
  have caught_iff {other : Token} {kept : ℕ × Bool} :
      Function.update checks.captured token (some (checks.asked.length,
          proxyCheckHasScheme options.testUrl (ascii "https://"))) other = some kept ↔
        other = token ∧ kept = (checks.asked.length,
          proxyCheckHasScheme options.testUrl (ascii "https://")) ∨
        other ≠ token ∧ checks.captured other = some kept := by
    by_cases same : other = token
    · rw [same, Function.update_self, Option.some.injEq]
      simp [eq_comm]
    · rw [Function.update_of_ne same]
      simp [same]
  refine ⟨fun other promise isHttps caught => ?_, fun other another promise isHttps too caught
    again => ?_, fun other beyond => ?_, fun other promise isHttps caught => ?_,
    fun other proxy' options' asked unheld => ?_, checked.unhandled⟩
  · rcases caught_iff.mp caught with ⟨_, same⟩ | ⟨_, before⟩
    · obtain ⟨rfl, rfl⟩ := Prod.mk.inj same
      exact ⟨proxy, options, List.getElem?_concat_length, sensible, rfl⟩
    · obtain ⟨proxy', options', asked, sense⟩ := checked.made other promise isHttps before
      exact ⟨proxy', options', getElem?_concat_of_some asked, sense⟩
  · rcases caught_iff.mp caught with ⟨rfl, same⟩ | ⟨_, before⟩
    · rcases caught_iff.mp again with ⟨rfl, _⟩ | ⟨_, earlier⟩
      · rfl
      · exact absurd (checked.created earlier) (by rw [(Prod.mk.inj same).1]; omega)
    · rcases caught_iff.mp again with ⟨rfl, same⟩ | ⟨_, earlier⟩
      · exact absurd (checked.created before) (by rw [(Prod.mk.inj same).1]; omega)
      · exact checked.unique other another promise isHttps too before earlier
  · replace beyond : (checks.asked ++ [(proxy, options)]).length ≤ other := beyond
    rw [List.length_append, List.length_singleton] at beyond
    exact checked.unused other (by omega)
  · rcases caught_iff.mp caught with ⟨rfl, same⟩ | ⟨_, before⟩
    · rw [unanswered, (Prod.mk.inj same).1]
      exact checked.unused _ (Nat.le_refl _)
    · exact checked.answered other promise isHttps before
  · rcases getElem?_concat_cases asked with before | ⟨rfl, _⟩
    · refine checked.refused other proxy' options' before fun another isHttps held => ?_
      have different : another ≠ token := by
        rintro rfl
        cases free.symm.trans held
      exact unheld another isHttps (caught_iff.mpr (Or.inr ⟨different, held⟩))
    · exact absurd (caught_iff.mpr (Or.inl ⟨rfl, rfl⟩)) (unheld token _)

/-! ### Every step keeps the promises of the checks -/

/-- Setting promises changes neither the manager nor what was asked and captured. -/
structure SameChecks (checks next : ProxyChecks) : Prop where
  world : next.world = checks.world
  asked : next.asked = checks.asked
  captured : next.captured = checks.captured

theorem setProxyCheckPromise_same (checks : ProxyChecks) (promise : ℕ) (result : ProxyCheckResult) :
    SameChecks checks (checks.setProxyCheckPromise promise result) := by
  unfold ProxyChecks.setProxyCheckPromise
  split <;> exact ⟨rfl, rfl, rfl⟩

theorem check_notice_same (message : ErrorCode → String) (checks : ProxyChecks) (event : Event) :
    SameChecks checks (checks.notice message event) := by
  unfold ProxyChecks.notice
  split
  · split
    · exact ⟨rfl, rfl, rfl⟩
    · split
      · exact ⟨rfl, rfl, rfl⟩
      · exact setProxyCheckPromise_same checks _ _
  · exact ⟨rfl, rfl, rfl⟩

theorem check_resume_same (message : ErrorCode → String) (checks : ProxyChecks) (after : World) :
    SameChecks { checks with world := after } (checks.resume message after) := by
  unfold ProxyChecks.resume
  generalize { checks with world := after } = moved
  induction after.log.drop checks.world.log.length generalizing moved with
  | nil => exact ⟨rfl, rfl, rfl⟩
  | cons event events inductionHypothesis =>
    have here := check_notice_same message moved event
    have later := inductionHypothesis (moved.notice message event)
    exact ⟨later.world.trans here.world, later.asked.trans here.asked,
      later.captured.trans here.captured⟩

/-- The invariant: the promises stand as the log says, and a callback that holds one belongs to an
accepted request. -/
structure Attended (message : ErrorCode → String) (checks : ProxyChecks) : Prop where
  reachable : managerSystem.Reachable checks.world
  checked : Checked message checks checks.world.log
  accepted : ∀ token promise isHttps, checks.captured token = some (promise, isHttps) →
    .accepted token ∈ checks.world.log

/-- The manager makes a step, and the callbacks return. -/
theorem Attended.resume {action : Action} (attended : Attended message checks)
    (stepped : managerSystem.step checks.world action = some after) :
    Attended message (checks.resume message after) := by
  obtain ⟨events, logged⟩ :=
    (step_transition stepped).logged (controlled_of_reachable attended.reachable)
  have same := check_resume_same message checks after
  have reachable := attended.reachable.step stepped
  have anew : after.log.drop checks.world.log.length = events := by
    rw [logged, List.drop_left]
  have moved : Checked message { checks with world := after } checks.world.log :=
    { attended.checked with }
  have delivered := moved.notices events fun token => by
    rw [← logged]
    exact countP_ready_le_one reachable token
  rw [← logged, ← anew] at delivered
  refine ⟨same.world ▸ reachable, same.world ▸ delivered, fun token promise isHttps caught => ?_⟩
  rw [same.world, logged]
  exact List.mem_append_left _ (attended.accepted token promise isHttps
    ((congrFun same.captured token).symm.trans caught))

/-- The next token is in no callback. -/
theorem Attended.fresh (attended : Attended message checks) :
    stageOf checks.world.log checks.world.nextInFlightToken = .absent ∧
      checks.captured checks.world.nextInFlightToken = none := by
  have orderly := orderly_of_reachable attended.reachable
  refine ⟨orderly.fresh _ (Nat.le_refl _), ?_⟩
  cases captured : checks.captured checks.world.nextInFlightToken with
  | none => rfl
  | some kept =>
    exact absurd (orderly.lt_of_accepted (attended.accepted _ kept.1 kept.2 captured))
      (Nat.lt_irrefl _)

theorem Attended.refuse {result : ProxyCheckResult} (attended : Attended message checks)
    (reason : Refused message proxy options result) :
    Attended message
      ((checks.ask proxy options).setProxyCheckPromise checks.asked.length result) := by
  have same := setProxyCheckPromise_same (checks.ask proxy options) checks.asked.length result
  refine ⟨same.world ▸ attended.reachable, same.world ▸ attended.checked.refuse reason,
    fun token promise isHttps caught => ?_⟩
  rw [same.world]
  exact attended.accepted token promise isHttps ((congrFun same.captured token).symm.trans caught)

theorem Attended.check (attended : Attended message checks)
    (stepped : checks.check message proxy options = some next) : Attended message next := by
  unfold ProxyChecks.check at stepped
  dsimp only at stepped
  split at stepped
  · rename_i invalid
    obtain rfl := Option.some.inj stepped
    refine attended.refuse (.invalid _ fun sense => ?_)
    rw [sense.1] at invalid
    cases invalid
  · rename_i valid
    split at stepped
    · rename_i invalid
      obtain rfl := Option.some.inj stepped
      refine attended.refuse (.invalid _ fun sense => ?_)
      obtain ⟨_, http, connects, answers⟩ := sense
      rw [http] at invalid
      rcases invalid with no | late | late
      · cases no
      · omega
      · omega
    · rename_i fine
      have sense : CheckMakesSense proxy options := by
        rw [not_or, not_or] at fine
        exact ⟨by simpa using valid, by simpa using fine.1, by omega, by omega⟩
      obtain ⟨after, moved, rfl⟩ := Option.map_eq_some_iff.mp stepped
      replace moved : managerSystem.step checks.world (.submitRequest (some {}) true) =
        some after := moved
      have submitted := submit_of_step moved
      have resumed : Attended message (checks.resume message after) := attended.resume moved
      have same := check_resume_same message checks after
      have asked : (checks.resume message after).asked.length = checks.asked.length :=
        congrArg List.length same.asked
      obtain ⟨fresh, free⟩ := attended.fresh
      have outcome := submit_answer checks.world {} true
      rw [← submitted] at outcome
      rcases outcome with ⟨manager, answer, accepted⟩ | ⟨error, answer, reason, _⟩
      · rw [answer]
        dsimp only
        rw [← asked]
        have described := stageOf_describes checks.world.log checks.world.nextInFlightToken
        rw [fresh] at described
        have unanswered : responses after.log checks.world.nextInFlightToken = [] := by
          rw [accepted, responses_append_silent (by simp)]
          exact described.1
        have captured := resumed.checked.capture sense ((congrFun same.captured _).trans free)
          (by rw [same.world]; exact unanswered)
        refine ⟨resumed.reachable, captured, fun token promise isHttps caught => ?_⟩
        by_cases here : token = checks.world.nextInFlightToken
        · rw [here]
          change _ ∈ (checks.resume message after).world.log
          rw [same.world]
          exact accepted ▸ List.mem_append_right _ List.mem_cons_self
        · refine resumed.accepted token promise isHttps (Eq.trans ?_ caught)
          exact (Function.update_of_ne here _ _).symm
      · rw [answer]
        dsimp only
        rw [← asked]
        exact resumed.refuse (.rejected sense reason)

theorem attended_of_reachable (reachable : (checkSystem message).Reachable checks) :
    Attended message checks := by
  refine reachable.induction (Attended message) ?_ ?_
  · exact ⟨System.reachable_init, ⟨by rintro _ _ _ ⟨⟩, by rintro _ _ _ _ _ ⟨⟩, fun _ _ => rfl,
      by rintro _ _ _ ⟨⟩, by rintro _ _ _ ⟨⟩, rfl⟩, by rintro _ _ _ ⟨⟩⟩
  · intro state action next _ attended stepped
    cases action with
    | manage action =>
      obtain ⟨after, moved, rfl⟩ := Option.map_eq_some_iff.mp stepped
      exact attended.resume moved
    | check proxy options => exact attended.check stepped

/-! ### What a check gives -/

/-- A result agrees with itself: an endpoint that is well was reached, and with a status of
success or of redirection. -/
structure ProxyCheckResult.Consistent (result : ProxyCheckResult) : Prop where
  reached : result.reachable = true → 0 < result.httpStatus ∧
    (result.errorCode.isError = true → result.errorCode.isHttpError = true)
  http : result.httpOk = true ↔
    result.reachable = true ∧ 200 ≤ result.httpStatus ∧ result.httpStatus < 400
  https : result.httpsOk = true → result.httpOk = true

theorem makeProxyCheckError_consistent (message : ErrorCode → String) (errorCode : ErrorCode)
    (text : String) : (makeProxyCheckError message errorCode text).Consistent :=
  ⟨nofun, by simp [makeProxyCheckError], nofun⟩

theorem makeProxyCheckResult_consistent (message : ErrorCode → String)
    (response : Option HttpResponse) (isHttps : Bool) :
    (makeProxyCheckResult message response isHttps).Consistent := by
  cases response with
  | none => exact makeProxyCheckError_consistent ..
  | some response =>
    refine ⟨fun reached => ?_, ?_, fun https => ?_⟩
    · simp only [makeProxyCheckResult, Bool.and_eq_true, decide_eq_true_iff, Bool.or_eq_true,
        Bool.not_eq_true'] at reached
      obtain ⟨⟨_, positive⟩, kind⟩ := reached
      refine ⟨positive, fun isError => kind.resolve_left fun none => ?_⟩
      cases isError.symm.trans none
    · simp only [makeProxyCheckResult, Bool.and_eq_true, decide_eq_true_iff]
      rw [and_assoc]
    · exact (Bool.and_eq_true _ _ ▸ https).2

/-- A request that `shutdown` cleans up before it is sent counts as answered. -/
example (message : ErrorCode → String) (isHttps : Bool) :
    (makeProxyCheckResult message (some cleanupResponse) isHttps).reachable = true :=
  rfl

/-- What becomes of a check: it was refused, or it is in the callback of one accepted request, and
its result is made of the one final response of this callback, if there was one. -/
inductive CheckOutcome (message : ErrorCode → String) (checks : ProxyChecks) (promise : ℕ) :
    Prop where
  | refused {result : ProxyCheckResult} {proxy : ProxyConfig} {options : ProxyCheckOptions}
    (asked : checks.asked[promise]? = some (proxy, options))
    (free : ∀ token isHttps, checks.captured token ≠ some (promise, isHttps))
    (value : checks.result promise = some result) (reason : Refused message proxy options result) :
    CheckOutcome message checks promise
  | captured {token : Token} {proxy : ProxyConfig} {options : ProxyCheckOptions}
    (asked : checks.asked[promise]? = some (proxy, options))
    (sensible : CheckMakesSense proxy options) {isHttps : Bool}
    (scheme : isHttps = proxyCheckHasScheme options.testUrl (ascii "https://"))
    (held : checks.captured token = some (promise, isHttps))
    (alone : ∀ other too, checks.captured other = some (promise, too) → token = other)
    (accepted : .accepted token ∈ checks.world.log)
    (once : (responses checks.world.log token).countP (·.ready) ≤ 1)
    (value : checks.result promise =
      ((responses checks.world.log token).find? (·.ready)).map fun response =>
        makeProxyCheckResult message (some response) isHttps) :
    CheckOutcome message checks promise

theorem Attended.outcome (attended : Attended message checks)
    (created : promise < checks.asked.length) : CheckOutcome message checks promise := by
  by_cases held : ∃ token isHttps, checks.captured token = some (promise, isHttps)
  · obtain ⟨token, isHttps, held⟩ := held
    obtain ⟨proxy, options, asked, sensible, scheme⟩ := attended.checked.made _ _ _ held
    exact .captured asked sensible scheme held
      (fun other too caught => attended.checked.unique token other promise isHttps too held caught)
      (attended.accepted token promise isHttps held) (countP_ready_le_one attended.reachable token)
      (attended.checked.answered token promise isHttps held)
  · have free : ∀ token isHttps, checks.captured token ≠ some (promise, isHttps) :=
      fun token isHttps caught => held ⟨token, isHttps, caught⟩
    have asked := List.getElem?_eq_getElem created
    obtain ⟨result, value, reason⟩ := attended.checked.refused promise _ _ asked free
    exact .refused asked free value reason

theorem CheckOutcome.consistent {result : ProxyCheckResult}
    (outcome : CheckOutcome message checks promise) (value : checks.result promise = some result) :
    result.Consistent := by
  cases outcome with
  | refused _ _ same reason =>
    obtain rfl := Option.some.inj (value.symm.trans same)
    cases reason <;> exact makeProxyCheckError_consistent ..
  | captured _ _ _ _ _ _ _ same =>
    obtain ⟨response, _, rfl⟩ := Option.map_eq_some_iff.mp (same.symm.trans value)
    exact makeProxyCheckResult_consistent ..

/-- No promise of a check is ever set twice, every check has one of the outcomes, and every result
agrees with itself. Once `shutdown` has returned, nobody waits for ever on a check: it has a result,
unless the context of its request was destroyed unanswered, and then its promise is broken. -/
theorem check_outcome (reachable : (checkSystem message).Reachable checks) :
    checks.handledErrors = 0 ∧
    (∀ promise < checks.asked.length, CheckOutcome message checks promise ∧
      (∀ result, checks.result promise = some result → result.Consistent) ∧
      (checks.world.ShutdownReturned → (∃ result, checks.result promise = some result) ∨
        ∃ token isHttps, checks.captured token = some (promise, isHttps) ∧
          .abandoned token ∈ checks.world.log)) := by
  have attended := attended_of_reachable reachable
  refine ⟨attended.checked.unhandled, fun promise created => ?_⟩
  have outcome := attended.outcome created
  refine ⟨outcome, fun result value => outcome.consistent value, fun returned => ?_⟩
  cases outcome with
  | refused _ _ value _ => exact Or.inl ⟨_, value⟩
  | @captured token _ _ _ _ isHttps _ held _ accepted _ value =>
    by_cases abandoned : .abandoned token ∈ checks.world.log
    · exact Or.inr ⟨token, isHttps, held, abandoned⟩
    · obtain ⟨response, found⟩ :=
        answered_of_returned attended.reachable returned accepted abandoned
      exact Or.inl ⟨_, by rw [value, found, Option.map_some]⟩

/-! ### One proxy reached, one refused -/

/-- The messages of client errors; the others are not asked for below. -/
def clientMessage : ErrorCode → String
  | .client error => error.message
  | _ => ""

/-- Of two checks the first has no address, and the second is answered. -/
def oneReached : List CheckAction :=
  [.check {} {}, .check { proxyServer := ascii "proxy:8080" } {}, .manage .callProcess] ++
    [.proceed, .time 0, .time 0, .multiInit true, .easyInit true true, .proceed, .proceed,
      .performed true false, .message 0 { result := 0, responseCode := 200 } 0, .proceed].map
        fun input => .manage (.work input)

theorem check_outcome_oneReached : ∃ checks,
    (checkSystem clientMessage).Runs (checkSystem clientMessage).init oneReached checks ∧
      ((checks.result 0).map (·.errorCode) = some (.client .invalidConfiguration) ∧
        (checks.result 1).map (·.httpsOk) = some true) ∧
      checks.handledErrors = 0 ∧ CheckOutcome clientMessage checks 0 ∧
      CheckOutcome clientMessage checks 1 := by
  have evaluated : ((checkSystem clientMessage).run (checkSystem clientMessage).init oneReached).any
      (fun checks =>
        decide (((checks.result 0).map (·.errorCode) = some (.client .invalidConfiguration) ∧
          (checks.result 1).map (·.httpsOk) = some true) ∧ checks.asked.length = 2)) = true := by
    decide +kernel
  obtain ⟨checks, runs, checked⟩ := System.exists_runs evaluated
  obtain ⟨values, two⟩ := of_decide_eq_true checked
  obtain ⟨unhandled, outcome⟩ := check_outcome ⟨_, runs⟩
  exact ⟨checks, runs, values, unhandled, (outcome 0 (two ▸ Nat.two_pos)).1,
    (outcome 1 (two ▸ Nat.one_lt_two)).1⟩

end Kurlyk.Http
