/-
This file models the calls on one `OAuthPkceClient` one after the other: authorization URLs are
built, redirects are validated, codes are exchanged and tokens refreshed, in any order. What comes
back from outside is an input of the call: the random bytes, the redirect and the reply of the
token endpoint.

A client keeps one state and one verifier, those of the last URL. The results are about the texts
that leave the client: which redirect a URL lets through, and what a token request tells the
endpoint when it is decoded as the form it is.
-/

import Kurlyk.Lib.Log
import Kurlyk.Lib.System
import Kurlyk.Http.OAuthToken
import Kurlyk.Http.Url
import Kurlyk.Utils.Base64Url
import Kurlyk.Utils.Pkce

namespace Kurlyk.Http

open Utils

/-! ### The model -/

/-- `make_s256_code_challenge`. -/
def makeS256CodeChallenge (sha256 : List UInt8 → List UInt8) (verifier : List UInt8) :
    List UInt8 :=
  base64urlEncode (sha256 verifier)

/-- `make_pkce_pair`. -/
def makePkcePair (sha256 : List UInt8 → List UInt8) (stream : ℕ → UInt8) (rounds : ℕ) :
    Option (Except RuntimeError PkcePair) :=
  (generateCodeVerifier stream rounds 64).map fun drawn =>
    drawn.map fun codeVerifier =>
      { codeVerifier, codeChallenge := makeS256CodeChallenge sha256 codeVerifier }

/-- What the future of a token request gives. -/
inductive TokenReply where
  | threw (what : List UInt8)
  | null
  | response (statusCode : ℤ) (content : List UInt8)
deriving DecidableEq

/-- The texts that leave the client. -/
inductive SessionEvent where
  | built (url : List UInt8)
  -- the random generator or the digest failed when the new state was stored
  | interrupted
  | exchanged (code body : List UInt8)
  | refreshed (refreshToken body : List UInt8)
deriving DecidableEq

/-- `OAuthPkceClient` with the fields of its configuration that only token requests need. The log
is there for the statements only. -/
structure OAuthSession extends OAuthPkceClient where
  tokenEndpoint : List UInt8
  clientSecret : List UInt8 := []
  log : List SessionEvent := []

/-- What a client calls: libcurl, the iteration of its containers, SHA-256 and the parser of a
token response. -/
structure SessionCalls where
  curl : Curl
  iterated : QueryParams → QueryParams
  sha256 : List UInt8 → List UInt8
  parseTokenResponse : List UInt8 → AuthResult → Option (Bool × AuthResult)

/-- A call of `exchange_code` or `refresh_access_token`: the body it posts, if it gets that far, and
what it returns, unless that is undefined. -/
structure TokenCall where
  body : Option (List UInt8)
  returned : Option (Bool × AuthResult)

/-- `parse_token_response` without JSON support. The parser of the user returns whether it has
succeeded, and writes a token and an error. -/
def parseTokenResponseCustom
    (tokenParser : Option (List UInt8 → OAuthToken → Bool × OAuthToken × List UInt8))
    (rawResponse : List UInt8) (outResult : AuthResult) : Option (Bool × AuthResult) :=
  match tokenParser with
  | some parser =>
    let (ok, token, errorMsg) := parser rawResponse outResult.token
    if !ok then
      some (false, { outResult with
        token, error := .invalidResponse,
        errorMessage := if errorMsg.isEmpty then ascii "custom token parser failed" else errorMsg })
    else some (true, { outResult with token, success := true })
  | none =>
    some (false, { outResult with
      error := .unsupportedFlow,
      errorMessage := ascii "JSON support disabled and no custom token parser set" })

/-- What the client makes of the reply of the token endpoint. -/
def readTokenReply (calls : SessionCalls) (reply : TokenReply) : Option (Bool × AuthResult) :=
  match reply with
  | .threw what =>
    some (false, { error := .httpError, errorMessage := ascii "HTTP request failed: " ++ what })
  | .null =>
    some (false,
      { error := .httpError, errorMessage := ascii "HTTP request returned null response" })
  | .response statusCode content =>
    if statusCode < 200 ∨ statusCode ≥ 300 then
      some (false,
        { error := .httpError, rawResponse := content,
          errorMessage := ascii "Token endpoint returned HTTP " ++ ascii (toString statusCode) })
    else calls.parseTokenResponse content { rawResponse := content }

namespace OAuthSession

variable (session : OAuthSession) (calls : SessionCalls)

/-- A call that is refused before there is a request. -/
def refusedCall (message : String) : TokenCall where
  body := none
  returned := some (false, { error := .invalidConfig, errorMessage := ascii message })

/-- The body parameters of `exchange_code`, with the verifier that the client has. -/
def exchangeParams (code codeVerifier : List UInt8) : QueryParams :=
  [(ascii "grant_type", ascii "authorization_code"), (ascii "code", code),
    (ascii "redirect_uri", session.config.redirectUri),
    (ascii "client_id", session.config.clientId)] ++
    givenParam "client_secret" session.clientSecret ++
    (if session.config.usePkce && !codeVerifier.isEmpty then
      [(ascii "code_verifier", codeVerifier)] else [])

/-- The body parameters of `refresh_access_token`. -/
def refreshParams (refreshToken : List UInt8) : QueryParams :=
  [(ascii "grant_type", ascii "refresh_token"), (ascii "refresh_token", refreshToken),
    (ascii "client_id", session.config.clientId)] ++
    givenParam "client_secret" session.clientSecret

/-- What `exchange_code` and `refresh_access_token` share: given something to ask for and an
endpoint, the parameters are posted as a form. -/
def requestToken (given : List UInt8) (missing : String) (params : QueryParams)
    (reply : TokenReply) : TokenCall :=
  if given.isEmpty then refusedCall missing
  else if session.tokenEndpoint.isEmpty then refusedCall "token_endpoint is not configured"
  else
    { body := some (toQueryStringCurl calls.curl (calls.iterated params) [])
      returned := readTokenReply calls reply }

/-- `exchange_code`. -/
def exchangeCode (code : List UInt8) (reply : TokenReply) : TokenCall :=
  session.requestToken calls code "authorization code is empty"
    (session.exchangeParams code session.codeVerifier) reply

/-- `refresh_access_token`. -/
def refreshAccessToken (refreshToken : List UInt8) (reply : TokenReply) : TokenCall :=
  session.requestToken calls refreshToken "refresh_token is empty"
    (session.refreshParams refreshToken) reply

/-- `validate_state`. -/
def validateState (returnedState : List UInt8) : Bool :=
  !session.state.isEmpty && session.state == returnedState

def record (event : SessionEvent) : OAuthSession :=
  { session with log := session.log ++ [event] }

/-- `build_authorization_url` with the state and the pair that it has drawn. -/
def buildWith (state : List UInt8) (pair : PkcePair) : OAuthSession :=
  let (url, client) :=
    session.toOAuthPkceClient.buildAuthorizationUrl calls.curl calls.iterated state pair
  { session with toOAuthPkceClient := client }.record (.built url)

/-- The configuration lacks something that `build_authorization_url` asks for. -/
def incomplete : Bool :=
  session.config.authorizationEndpoint.isEmpty || session.config.clientId.isEmpty ||
    session.config.redirectUri.isEmpty

/-- `build_authorization_url`, which draws the state and the pair from the random bytes. -/
def build (stateStream pairStream : ℕ → UInt8) (rounds : ℕ) : Option OAuthSession :=
  if session.incomplete then some (session.record (.built []))
  else
    match generateCodeVerifier stateStream rounds 64,
      if session.config.usePkce then makePkcePair calls.sha256 pairStream rounds
      else some (.ok { codeVerifier := [], codeChallenge := [] }) with
    | some (.ok state), some (.ok pair) => some (session.buildWith calls state pair)
    | _, _ => none

/-- `build_authorization_url` where OpenSSL fails in `make_pkce_pair`: the state is stored by
then. -/
def buildInterrupted (stateStream : ℕ → UInt8) (rounds : ℕ) : Option OAuthSession :=
  if session.incomplete || !session.config.usePkce then none
  else
    match generateCodeVerifier stateStream rounds 64 with
    | some (.ok state) => some ({ session with state }.record .interrupted)
    | _ => none

end OAuthSession

/-- The calls that change the client or send something. -/
inductive SessionAction where
  | build (stateStream pairStream : ℕ → UInt8) (rounds : ℕ)
  | buildInterrupted (stateStream : ℕ → UInt8) (rounds : ℕ)
  | exchange (code : List UInt8) (reply : TokenReply)
  | refresh (refreshToken : List UInt8) (reply : TokenReply)

namespace OAuthSession

/-- The step of a call. -/
def step (calls : SessionCalls) (session : OAuthSession) : SessionAction → Option OAuthSession
  | .build stateStream pairStream rounds => session.build calls stateStream pairStream rounds
  | .buildInterrupted stateStream rounds => session.buildInterrupted stateStream rounds
  | .exchange code reply =>
    match (session.exchangeCode calls code reply).body with
    | none => some session
    | some body => some (session.record (.exchanged code body))
  | .refresh refreshToken reply =>
    match (session.refreshAccessToken calls refreshToken reply).body with
    | none => some session
    | some body => some (session.record (.refreshed refreshToken body))

end OAuthSession

/-- A client that has just been constructed, and any calls on it. -/
def sessionSystem (calls : SessionCalls) (config : OAuthConfig)
    (tokenEndpoint clientSecret : List UInt8) : System OAuthSession SessionAction where
  init := { config, tokenEndpoint, clientSecret }
  step := OAuthSession.step calls

/-! ### What a form says -/

/-- The last URL that was handed out, and the empty text before there is one. -/
def lastUrl (log : List SessionEvent) : List UInt8 :=
  log.foldl (fun last event =>
    match event with
    | .built url => url
    | _ => last) []

/-- The last attempt to build a URL was not interrupted. -/
def Completed (log : List SessionEvent) : Bool :=
  log.foldl (fun completed event =>
    match event with
    | .built _ => true
    | .interrupted => false
    | _ => completed) true

@[simp]
theorem lastUrl_concat (log : List SessionEvent) (event : SessionEvent) :
    lastUrl (log ++ [event]) =
      match event with
      | .built url => url
      | _ => lastUrl log := by
  rw [lastUrl, List.foldl_append]
  cases event <;> rfl

@[simp]
theorem completed_concat (log : List SessionEvent) (event : SessionEvent) :
    Completed (log ++ [event]) =
      match event with
      | .built _ => true
      | .interrupted => false
      | _ => Completed log := by
  rw [Completed, List.foldl_append]
  cases event <;> rfl

/-- A query behind an endpoint without one is read as it was given. -/
theorem urlParameters_append {curl : Curl} (escapes : curl.Escapes) {endpoint : List UInt8}
    (plain : '?'.toUInt8 ∉ endpoint) {query : QueryParams} (given : query ≠ []) :
    urlParameters (endpoint ++ toQueryStringCurl curl query (ascii "?")) = query := by
  obtain ⟨component, found, parameters⟩ := (appendsParameters_iff escapes endpoint given).mpr plain
  have bare : urlParameters endpoint = [] := by
    rw [urlParameters, Text.after_of_not_mem plain, Option.map_none, Option.getD_none]
  rw [urlParameters, found, Option.map_some, Option.getD_some, parameters, bare, List.nil_append]

/-- A form body is read as it was given. -/
theorem parametersOf_body {curl : Curl} (escapes : curl.Escapes) {query : QueryParams}
    (given : query ≠ []) : parametersOf (toQueryStringCurl curl query []) = query := by
  rw [toQueryStringCurl_eq escapes, if_neg given, List.nil_append, parametersOf_joinFields given]

/-- Nothing in a form body is read as a blank. -/
theorem plus_not_mem_body {curl : Curl} (escapes : curl.Escapes) {query : QueryParams} :
    '+'.toUInt8 ∉ toQueryStringCurl curl query [] := by
  have joined : '+'.toUInt8 ∉ joinFields (query.map escapedField) := by
    induction query with
    | nil => exact List.not_mem_nil
    | cons field rest inductionHypothesis =>
      have own := not_mem_escapedField (by decide +kernel : '+'.toUInt8 ∈ delimiters) (by decide)
        field
      cases rest with
      | nil => rwa [List.map_singleton, joinFields, List.intercalate_singleton]
      | cons second others =>
        rw [List.map_cons, joinFields, List.intercalate_cons_of_ne_nil (by simp), ← joinFields,
          List.mem_append, List.mem_append, List.mem_singleton, not_or, not_or]
        exact ⟨⟨own, by decide⟩, inductionHypothesis⟩
  rw [toQueryStringCurl_eq escapes]
  split
  · exact List.not_mem_nil
  · exact joined

theorem not_mem_givenParam {name other : String} (differs : ascii name ≠ ascii other)
    (value text : List UInt8) : (ascii name, value) ∉ givenParam other text := by
  rw [givenParam]
  split
  · exact List.not_mem_nil
  · rw [List.mem_singleton, Prod.mk.injEq]
    exact fun same => differs same.1

section Parameters

variable {config : OAuthConfig} {state value : List UInt8} {pair : PkcePair}

/-- The parameter `state` of an authorization URL is the state. -/
theorem mem_params_state :
    (ascii "state", value) ∈ OAuthPkceClient.params config state pair ↔ value = state := by
  have leading : ascii "state" ≠ ascii "response_type" ∧ ascii "state" ≠ ascii "client_id" ∧
      ascii "state" ≠ ascii "redirect_uri" := by decide +kernel
  have challenge : ascii "state" ≠ ascii "code_challenge" ∧
      ascii "state" ≠ ascii "code_challenge_method" := by decide +kernel
  have optional : ascii "state" ≠ ascii "scope" ∧ ascii "state" ≠ ascii "audience" ∧
      ascii "state" ≠ ascii "prompt" ∧ ascii "state" ≠ ascii "access_type" := by decide +kernel
  cases pkce : config.usePkce <;>
    simp [OAuthPkceClient.params, pkce, not_mem_givenParam, leading, challenge, optional]

/-- The parameter `code_challenge` is there with PKCE, and is the challenge of the pair. -/
theorem mem_params_codeChallenge :
    (ascii "code_challenge", value) ∈ OAuthPkceClient.params config state pair ↔
      config.usePkce = true ∧ value = pair.codeChallenge := by
  have leading : ascii "code_challenge" ≠ ascii "response_type" ∧
      ascii "code_challenge" ≠ ascii "client_id" ∧
      ascii "code_challenge" ≠ ascii "redirect_uri" := by decide +kernel
  have others : ascii "code_challenge" ≠ ascii "state" ∧
      ascii "code_challenge" ≠ ascii "code_challenge_method" := by decide +kernel
  have optional : ascii "code_challenge" ≠ ascii "scope" ∧
      ascii "code_challenge" ≠ ascii "audience" ∧ ascii "code_challenge" ≠ ascii "prompt" ∧
      ascii "code_challenge" ≠ ascii "access_type" := by decide +kernel
  cases pkce : config.usePkce <;>
    simp [OAuthPkceClient.params, pkce, not_mem_givenParam, leading, others, optional]

end Parameters

theorem params_ne_nil (config : OAuthConfig) (state : List UInt8) (pair : PkcePair) :
    OAuthPkceClient.params config state pair ≠ [] := by
  simp [OAuthPkceClient.params]

/-! ### What the generator draws -/

/-- A verifier is as long as it was asked to be. -/
theorem le_length_of_generateLoop {stream : ℕ → UInt8} {length rounds position : ℕ}
    {kept verifier : List UInt8}
    (drawn : generateLoop stream length rounds position kept = some (.ok verifier)) :
    length ≤ verifier.length := by
  induction rounds generalizing position kept with
  | zero => exact absurd drawn (by simp [generateLoop])
  | succ rounds inductionHypothesis =>
    rw [generateLoop] at drawn
    split at drawn
    · dsimp only at drawn
      split at drawn
      · exact absurd drawn (by simp)
      · exact inductionHypothesis drawn
    · rename_i full
      obtain rfl := Except.ok.inj (Option.some.inj drawn)
      exact Nat.le_of_not_lt full

theorem ne_nil_of_generateCodeVerifier {stream : ℕ → UInt8} {rounds : ℕ} {verifier : List UInt8}
    (drawn : generateCodeVerifier stream rounds 64 = some (.ok verifier)) : verifier ≠ [] := by
  have long : 64 ≤ verifier.length := le_length_of_generateLoop drawn
  rintro rfl
  exact absurd long (by decide)

/-- The challenge of a pair is that of its verifier. -/
theorem pair_of_makePkcePair {sha256 : List UInt8 → List UInt8} {stream : ℕ → UInt8} {rounds : ℕ}
    {pair : PkcePair} (made : makePkcePair sha256 stream rounds = some (.ok pair)) :
    pair.codeVerifier ≠ [] ∧
      pair.codeChallenge = makeS256CodeChallenge sha256 pair.codeVerifier := by
  obtain ⟨outcome, drawn, mapped⟩ := Option.map_eq_some_iff.mp made
  cases outcome with
  | error exception => exact absurd mapped (by simp [Except.map])
  | ok verifier =>
    obtain rfl := Except.ok.inj mapped
    exact ⟨ne_nil_of_generateCodeVerifier drawn, rfl⟩

/-! ### What one call can do -/

variable {calls : SessionCalls} {session next : OAuthSession} {action : SessionAction}

/-- The calls, with what they draw and what they leave. -/
inductive SessionStep (calls : SessionCalls) (session : OAuthSession) : OAuthSession → Prop where
  | unsent : SessionStep calls session session
  | refused (incomplete : session.incomplete = true) :
      SessionStep calls session (session.record (.built []))
  | built {state : List UInt8} {pair : PkcePair} (complete : session.incomplete = false)
      (drawn : state ≠ [])
      (paired : session.config.usePkce = true → pair.codeVerifier ≠ [] ∧
        pair.codeChallenge = makeS256CodeChallenge calls.sha256 pair.codeVerifier) :
      SessionStep calls session (session.buildWith calls state pair)
  | interrupted {state : List UInt8} (complete : session.incomplete = false) :
      SessionStep calls session ({ session with state }.record .interrupted)
  | exchanged (code : List UInt8) :
      SessionStep calls session (session.record (.exchanged code (toQueryStringCurl calls.curl
        (calls.iterated (session.exchangeParams code session.codeVerifier)) [])))
  | refreshed (refreshToken : List UInt8) :
      SessionStep calls session (session.record (.refreshed refreshToken
        (toQueryStringCurl calls.curl (calls.iterated (session.refreshParams refreshToken)) [])))

/-- What is sent is the parameters as a form. -/
theorem body_requestToken {given body : List UInt8} {missing : String} {params : QueryParams}
    {reply : TokenReply}
    (sent : (session.requestToken calls given missing params reply).body = some body) :
    body = toQueryStringCurl calls.curl (calls.iterated params) [] := by
  unfold OAuthSession.requestToken at sent
  split at sent
  · exact absurd sent nofun
  · split at sent
    · exact absurd sent nofun
    · exact (Option.some.inj sent).symm

theorem sessionStep_of_step (stepped : session.step calls action = some next) :
    SessionStep calls session next := by
  cases action with
  | build stateStream pairStream rounds =>
    change session.build calls stateStream pairStream rounds = some next at stepped
    unfold OAuthSession.build at stepped
    split at stepped
    · obtain rfl := Option.some.inj stepped
      exact .refused ‹_›
    · rename_i complete
      split at stepped
      · rename_i state pair drawn made
        obtain rfl := Option.some.inj stepped
        refine .built (by simpa using complete) (ne_nil_of_generateCodeVerifier drawn) ?_
        intro pkce
        rw [if_pos pkce] at made
        exact pair_of_makePkcePair made
      · cases stepped
  | buildInterrupted stateStream rounds =>
    change session.buildInterrupted stateStream rounds = some next at stepped
    unfold OAuthSession.buildInterrupted at stepped
    split at stepped
    · cases stepped
    · rename_i complete
      split at stepped
      · obtain rfl := Option.some.inj stepped
        rw [Bool.or_eq_true, not_or, Bool.not_eq_true] at complete
        exact .interrupted complete.1
      · cases stepped
  | exchange code reply =>
    simp only [OAuthSession.step] at stepped
    split at stepped
    · obtain rfl := Option.some.inj stepped
      exact .unsent
    · rename_i body sent
      obtain rfl := Option.some.inj stepped
      rw [body_requestToken sent]
      exact .exchanged code
  | refresh refreshToken reply =>
    simp only [OAuthSession.step] at stepped
    split at stepped
    · obtain rfl := Option.some.inj stepped
      exact .unsent
    · rename_i body sent
      obtain rfl := Option.some.inj stepped
      rw [body_requestToken sent]
      exact .refreshed refreshToken

/-! ### The state and the verifier are those of the last URL -/

/-- What the texts tell the endpoints: an exchange tells the verifier of the challenge in the last
URL before it. -/
def Informs (calls : SessionCalls) (session : OAuthSession) (earlier : List SessionEvent) :
    SessionEvent → Prop
  | .exchanged code body => '+'.toUInt8 ∉ body ∧ ∃ codeVerifier,
      (parametersOf body).Perm (session.exchangeParams code codeVerifier) ∧
      ∀ challenge, (ascii "code_challenge", challenge) ∈ urlParameters (lastUrl earlier) ↔
        session.config.usePkce = true ∧ codeVerifier ≠ [] ∧
          challenge = makeS256CodeChallenge calls.sha256 codeVerifier
  | .refreshed refreshToken body => '+'.toUInt8 ∉ body ∧
      (parametersOf body).Perm (session.refreshParams refreshToken)
  | _ => True

/-- The client and the texts that have left it. -/
structure Bound (calls : SessionCalls) (config : OAuthConfig) (session : OAuthSession) :
    Prop where
  config_eq : session.config = config
  untouched : session.incomplete = true → session.state = [] ∧ session.codeVerifier = []
  stated : Completed session.log = true → ∀ returnedState,
    session.validateState returnedState = true ↔
      (ascii "state", returnedState) ∈ urlParameters (lastUrl session.log)
  challenged : ∀ challenge,
    (ascii "code_challenge", challenge) ∈ urlParameters (lastUrl session.log) ↔
      session.config.usePkce = true ∧ session.codeVerifier ≠ [] ∧
        challenge = makeS256CodeChallenge calls.sha256 session.codeVerifier
  told : ∀ earlier event later, session.log = earlier ++ event :: later →
    Informs calls session earlier event

/-- What building a URL with a complete configuration leaves. -/
theorem buildWith_eq {state : List UInt8} {pair : PkcePair}
    (complete : session.incomplete = false) : session.buildWith calls state pair =
      { session with
        state
        codeVerifier := if session.config.usePkce then pair.codeVerifier else session.codeVerifier
        codeChallenge :=
          if session.config.usePkce then pair.codeChallenge else session.codeChallenge
        log := session.log ++ [.built (session.config.authorizationEndpoint ++
          toQueryStringCurl calls.curl
            (calls.iterated (OAuthPkceClient.params session.config state pair))
            (ascii "?"))] } := by
  unfold OAuthSession.incomplete at complete
  simp only [OAuthSession.buildWith, OAuthPkceClient.buildAuthorizationUrl, complete,
    OAuthSession.record]
  cases session.config.usePkce <;> rfl

/-- An entry that a client with the same parameters would log is logged as well. -/
theorem Informs.of_same {other : OAuthSession} {earlier : List SessionEvent} {event : SessionEvent}
    (config : other.config = session.config) (secret : other.clientSecret = session.clientSecret)
    (tells : Informs calls session earlier event) : Informs calls other earlier event := by
  cases event with
  | built url => trivial
  | interrupted => trivial
  | exchanged code body =>
    simp only [Informs, OAuthSession.exchangeParams, config, secret]
    exact tells
  | refreshed refreshToken body =>
    simp only [Informs, OAuthSession.refreshParams, config, secret]
    exact tells

theorem Bound.step {config : OAuthConfig} (escapes : calls.curl.Escapes)
    (ordered : ∀ params : QueryParams, (calls.iterated params).Perm params)
    (plain : '?'.toUInt8 ∉ config.authorizationEndpoint) (bound : Bound calls config session)
    (step : SessionStep calls session next) : Bound calls config next := by
  -- what the containers give back is no less than what was put in
  have given {params : QueryParams} (given : params ≠ []) : calls.iterated params ≠ [] :=
    fun nothing => given (List.nil_perm.mp (nothing ▸ ordered params))
  have told (event : SessionEvent) (tells : Informs calls session session.log event) :
      ∀ earlier entry later, session.log ++ [event] = earlier ++ entry :: later →
        Informs calls session earlier entry :=
    Log.forall_concat bound.told tells
  cases step with
  | unsent => exact bound
  | refused incomplete =>
    obtain ⟨noState, noVerifier⟩ := bound.untouched incomplete
    exact { bound with
      stated := fun _ returnedState => by
        simp [OAuthSession.record, OAuthSession.validateState, noState, urlParameters, Text.after]
      challenged := fun challenge => by
        simp [OAuthSession.record, noVerifier, urlParameters, Text.after]
      told := told (.built []) trivial }
  | built complete drawn paired =>
    rename_i state pair
    rw [buildWith_eq complete]
    rw [← bound.config_eq] at plain
    have query := urlParameters_append escapes plain
      (given (params_ne_nil session.config state pair))
    refine ⟨bound.config_eq, fun incomplete => ?_, fun _ returnedState => ?_,
      fun challenge => ?_, ?_⟩
    · exact absurd (incomplete.symm.trans complete) (by simp)
    · simp only [lastUrl_concat, query, (ordered _).mem_iff, mem_params_state]
      rw [OAuthSession.validateState, List.isEmpty_eq_false_iff.mpr drawn, Bool.not_false,
        Bool.true_and, beq_iff_eq]
      exact eq_comm
    · simp only [lastUrl_concat, query, (ordered _).mem_iff, mem_params_codeChallenge]
      refine and_congr_right fun pkce => ?_
      rw [if_pos pkce, (paired pkce).2]
      exact ⟨fun same => ⟨(paired pkce).1, same⟩, fun both => both.2⟩
    · exact fun earlier event later split =>
        Informs.of_same rfl rfl (told (.built _) trivial _ _ _ split)
  | interrupted complete =>
    exact { bound with
      untouched := fun incomplete => absurd (incomplete.symm.trans complete) (by simp)
      stated := fun completed => by simp [OAuthSession.record] at completed
      challenged := fun challenge => by
        rw [OAuthSession.record, lastUrl_concat]
        exact bound.challenged challenge
      told := fun earlier event later split =>
        Informs.of_same rfl rfl (told .interrupted trivial _ _ _ split) }
  | exchanged code =>
    have sent : parametersOf (toQueryStringCurl calls.curl
        (calls.iterated (session.exchangeParams code session.codeVerifier)) []) =
          calls.iterated (session.exchangeParams code session.codeVerifier) :=
      parametersOf_body escapes (given (by simp [OAuthSession.exchangeParams]))
    exact { bound with
      stated := fun completed => by
        rw [OAuthSession.record, completed_concat] at completed
        rw [OAuthSession.record, lastUrl_concat]
        exact bound.stated completed
      challenged := fun challenge => by
        rw [OAuthSession.record, lastUrl_concat]
        exact bound.challenged challenge
      told := told (.exchanged code _)
        ⟨plus_not_mem_body escapes, session.codeVerifier, by rw [sent]; exact ordered _,
          bound.challenged⟩ }
  | refreshed refreshToken =>
    have sent : parametersOf (toQueryStringCurl calls.curl
        (calls.iterated (session.refreshParams refreshToken)) []) =
          calls.iterated (session.refreshParams refreshToken) :=
      parametersOf_body escapes (given (by simp [OAuthSession.refreshParams]))
    exact { bound with
      stated := fun completed => by
        rw [OAuthSession.record, completed_concat] at completed
        rw [OAuthSession.record, lastUrl_concat]
        exact bound.stated completed
      challenged := fun challenge => by
        rw [OAuthSession.record, lastUrl_concat]
        exact bound.challenged challenge
      told := told (.refreshed refreshToken _)
        ⟨plus_not_mem_body escapes, by rw [sent]; exact ordered _⟩ }

variable {config : OAuthConfig} {tokenEndpoint clientSecret : List UInt8}

theorem bound_of_reachable (escapes : calls.curl.Escapes)
    (ordered : ∀ params : QueryParams, (calls.iterated params).Perm params)
    (plain : '?'.toUInt8 ∉ config.authorizationEndpoint)
    (reachable : (sessionSystem calls config tokenEndpoint clientSecret).Reachable session) :
    Bound calls config session := by
  refine reachable.induction (Bound calls config) ?_ ?_
  · refine ⟨rfl, fun _ => ⟨rfl, rfl⟩, fun _ returnedState => ?_, fun challenge => ?_, ?_⟩
    · simp [sessionSystem, OAuthSession.validateState, lastUrl, urlParameters, Text.after]
    · simp [sessionSystem, lastUrl, urlParameters, Text.after]
    · exact fun earlier event later split => absurd split (by simp [sessionSystem])
  · exact fun _ _ _ _ bound stepped =>
      bound.step escapes ordered plain (sessionStep_of_step stepped)

/-- A client accepts exactly the redirects that answer the last URL, and every token request tells
the endpoint exactly the intended parameters, an exchange the verifier of the last challenge. -/
theorem session_bound (escapes : calls.curl.Escapes)
    (ordered : ∀ params : QueryParams, (calls.iterated params).Perm params)
    (plain : '?'.toUInt8 ∉ config.authorizationEndpoint ∧
      '#'.toUInt8 ∉ config.authorizationEndpoint)
    (reachable : (sessionSystem calls config tokenEndpoint clientSecret).Reachable session) :
    (Completed session.log = true → ∀ returnedState,
      session.validateState returnedState = true ↔
        (ascii "state", returnedState) ∈ urlParameters (lastUrl session.log)) ∧
    (∀ earlier later code body, session.log = earlier ++ .exchanged code body :: later →
      '+'.toUInt8 ∉ body ∧ ∃ codeVerifier,
        (parametersOf body).Perm (session.exchangeParams code codeVerifier) ∧
        ∀ challenge,
          (ascii "code_challenge", challenge) ∈ urlParameters (lastUrl earlier) ↔
            session.config.usePkce = true ∧ codeVerifier ≠ [] ∧
              challenge = makeS256CodeChallenge calls.sha256 codeVerifier) ∧
    ∀ earlier later refreshToken body,
      session.log = earlier ++ .refreshed refreshToken body :: later →
        '+'.toUInt8 ∉ body ∧ (parametersOf body).Perm (session.refreshParams refreshToken) :=
  have bound := bound_of_reachable escapes ordered plain.1 reachable
  ⟨bound.stated, fun earlier later code body => bound.told earlier (.exchanged code body) later,
    fun earlier later refreshToken body =>
      bound.told earlier (.refreshed refreshToken body) later⟩

/-- Calls with the SHA-256 digest of the one verifier that is drawn below. -/
def exampleCalls : SessionCalls where
  curl := faithfulCurl
  iterated := id
  sha256 _ := [213, 62, 218, 122, 99, 124, 153, 204, 127, 181, 102, 217, 110, 159, 161, 9, 191, 21,
    196, 120, 65, 10, 63, 94, 180, 212, 196, 226, 108, 208, 129, 246]
  parseTokenResponse := (sampleLibrary 3600).parseTokenResponse 1700000000000

abbrev exampleSystem : System OAuthSession SessionAction :=
  sessionSystem exampleCalls (exampleClient "http://example.com/auth").config
    (ascii "http://example.com/token") []

/-- A login with the state `BB…` and the verifier `AA…`. -/
def exampleLogin : List SessionAction :=
  [.build (fun _ => 1) (fun _ => 0) 2,
    .exchange (ascii "a+b c") (.response 200 (sampleResponse 3600))]

theorem session_bound_login :
    ∃ session url code body, exampleSystem.Runs exampleSystem.init exampleLogin session ∧
      session.log = [.built url, .exchanged code body] ∧
      (∀ returnedState, session.validateState returnedState = true ↔
        (ascii "state", returnedState) ∈ urlParameters url) ∧
      session.validateState (List.replicate 64 'B'.toUInt8) = true ∧
      code = ascii "a+b c" ∧ ∃ codeVerifier,
        (parametersOf body).Perm (session.exchangeParams code codeVerifier) := by
  have evaluated : (exampleSystem.run exampleSystem.init exampleLogin).any (fun session =>
      decide (session.validateState (List.replicate 64 'B'.toUInt8) = true ∧
        session.log = [.built (lastUrl session.log), .exchanged (ascii "a+b c")
          (toQueryStringCurl faithfulCurl
            (session.exchangeParams (ascii "a+b c") session.codeVerifier) [])])) = true := by
    decide +kernel
  obtain ⟨session, runs, checked⟩ := System.exists_runs evaluated
  obtain ⟨valid, logged⟩ := of_decide_eq_true checked
  obtain ⟨stated, exchanged, _⟩ := session_bound faithfulCurl_escapes (fun _ => List.Perm.refl _)
    (by decide +kernel) ⟨exampleLogin, runs⟩
  obtain ⟨_, codeVerifier, told, _⟩ := exchanged [.built (lastUrl session.log)] [] _ _ logged
  have completed : Completed session.log = true := by
    rw [logged]
    rfl
  have answers := stated completed
  exact ⟨session, _, _, _, runs, logged, answers, valid, rfl, codeVerifier, told⟩

/-! ### What a token request returns -/

/-- The endpoint answered, with a status of success. -/
def TokenReply.Accepted : TokenReply → Prop
  | .response statusCode _ => 200 ≤ statusCode ∧ statusCode < 300
  | _ => False

/-- The body of the answer, if there is one. -/
def TokenReply.content : TokenReply → List UInt8
  | .response _ content => content
  | _ => []

variable {library : JsonLibrary} {nowMs : Int64} {rawResponse : List UInt8}
  {outResult result : AuthResult}

/-- A response that is accepted has an access token. -/
theorem readTokenResponse_of_true
    (accepted : (library.readTokenResponse nowMs rawResponse outResult).run =
      some (.ok (true, result))) :
    ∃ token : OAuthToken, token.accessToken ≠ [] ∧ token.rawResponse = rawResponse ∧
      result = { outResult with token, success := true } := by
  obtain ⟨j, accepted⟩ := run_bind_eq_ok accepted
  split at accepted
  · obtain ⟨_, accepted⟩ := run_bind_eq_ok accepted
    obtain ⟨message, accepted⟩ := run_bind_eq_ok accepted
    exact absurd (Prod.mk.inj (Except.ok.inj (Option.some.inj accepted))).1 (by simp)
  · obtain ⟨accessToken, accepted⟩ := run_bind_eq_ok accepted
    obtain ⟨_, accepted⟩ := run_bind_eq_ok accepted
    obtain ⟨_, accepted⟩ := run_bind_eq_ok accepted
    obtain ⟨_, accepted⟩ := run_bind_eq_ok accepted
    obtain ⟨_, accepted⟩ := run_bind_eq_ok accepted
    split at accepted
    · exact absurd (Prod.mk.inj (Except.ok.inj (Option.some.inj accepted))).1 (by simp)
    · rename_i given
      exact ⟨_, fun nothing => given (List.isEmpty_iff.mpr nothing), rfl,
        (Prod.mk.inj (Except.ok.inj (Option.some.inj accepted))).2.symm⟩

theorem parseTokenResponse_of_true
    (accepted : library.parseTokenResponse nowMs rawResponse outResult = some (true, result)) :
    ∃ token : OAuthToken, token.accessToken ≠ [] ∧ token.rawResponse = rawResponse ∧
      result = { outResult with token, success := true } := by
  obtain ⟨outcome, read, returned⟩ := Option.bind_eq_some_iff.mp accepted
  cases outcome with
  | ok pair =>
    rw [Option.some.inj returned] at read
    exact readTokenResponse_of_true read
  | error what => exact absurd (Prod.mk.inj (Option.some.inj returned)).1 (by simp)

/-- What the result of a token request says, whichever parser there is. -/
structure Explains (reply : TokenReply) (sent ok : Bool) (result : AuthResult) : Prop where
  success : result.success = ok
  noError : ok = true ↔ result.error = .none
  refused : result.error = .invalidConfig ↔ sent = false
  failed : result.error = .httpError ↔ sent = true ∧ ¬ reply.Accepted
  raw : sent = true → result.rawResponse = reply.content

/-- A token is the endpoint's, and there is none without success. -/
structure HandsOut (reply : TokenReply) (ok : Bool) (result : AuthResult) : Prop where
  granted : ok = true →
    reply.Accepted ∧ result.token.accessToken ≠ [] ∧ result.token.rawResponse = reply.content
  withheld : ok = false → result.token = {}

/-- The parser reports success and failure as the client does, and no error of the client. -/
def Reports (parse : List UInt8 → AuthResult → Option (Bool × AuthResult)) : Prop :=
  ∀ content ok result, parse content { rawResponse := content } = some (ok, result) →
    result.success = ok ∧ (ok = true ↔ result.error = .none) ∧ result.error ≠ .invalidConfig ∧
      result.error ≠ .httpError ∧ result.rawResponse = content

theorem reports_json : Reports (library.parseTokenResponse nowMs) := by
  intro content ok result returned
  cases ok with
  | true =>
    obtain ⟨token, _, _, rfl⟩ := parseTokenResponse_of_true returned
    exact ⟨rfl, iff_of_true rfl rfl, nofun, nofun, rfl⟩
  | false =>
    rw [JsonLibrary.parseTokenResponse_of_false returned]
    exact ⟨rfl, iff_of_false nofun nofun, nofun, nofun, rfl⟩

theorem reports_custom
    (tokenParser : Option (List UInt8 → OAuthToken → Bool × OAuthToken × List UInt8)) :
    Reports (parseTokenResponseCustom tokenParser) := by
  intro content ok result returned
  cases tokenParser with
  | none =>
    obtain ⟨rfl, rfl⟩ := Prod.mk.inj (Option.some.inj returned)
    exact ⟨rfl, iff_of_false nofun nofun, nofun, nofun, rfl⟩
  | some parser =>
    simp only [parseTokenResponseCustom] at returned
    split at returned
    · obtain ⟨rfl, rfl⟩ := Prod.mk.inj (Option.some.inj returned)
      exact ⟨rfl, iff_of_false nofun nofun, nofun, nofun, rfl⟩
    · obtain ⟨rfl, rfl⟩ := Prod.mk.inj (Option.some.inj returned)
      exact ⟨rfl, iff_of_true rfl rfl, nofun, nofun, rfl⟩

/-- A call is refused, or returns what the client makes of the reply. -/
theorem requestToken_cases (session : OAuthSession) (calls : SessionCalls)
    (given : List UInt8) (missing : String) (params : QueryParams) (reply : TokenReply) :
    (∃ message, session.requestToken calls given missing params reply =
        OAuthSession.refusedCall message) ∨
      (session.requestToken calls given missing params reply).body.isSome = true ∧
        (session.requestToken calls given missing params reply).returned =
          readTokenReply calls reply := by
  unfold OAuthSession.requestToken
  split
  · exact .inl ⟨_, rfl⟩
  · split
    · exact .inl ⟨_, rfl⟩
    · exact .inr ⟨rfl, rfl⟩

/-- What is not for the parser to read is explained. -/
theorem readTokenReply_cases {reply : TokenReply} {ok : Bool}
    (returned : readTokenReply calls reply = some (ok, result)) :
    (Explains reply true ok result ∧ HandsOut reply ok result) ∨ reply.Accepted ∧
      calls.parseTokenResponse reply.content { rawResponse := reply.content } =
        some (ok, result) := by
  unfold readTokenReply at returned
  cases reply with
  | threw what =>
    obtain ⟨rfl, rfl⟩ := Prod.mk.inj (Option.some.inj returned)
    refine .inl ⟨?_, ?_⟩ <;> constructor <;> simp [TokenReply.Accepted, TokenReply.content]
  | null =>
    obtain ⟨rfl, rfl⟩ := Prod.mk.inj (Option.some.inj returned)
    refine .inl ⟨?_, ?_⟩ <;> constructor <;> simp [TokenReply.Accepted, TokenReply.content]
  | response statusCode content =>
    dsimp only at returned
    split at returned
    · obtain ⟨rfl, rfl⟩ := Prod.mk.inj (Option.some.inj returned)
      have rejected : ¬ (200 ≤ statusCode ∧ statusCode < 300) := by omega
      refine .inl ⟨?_, ?_⟩ <;> constructor <;>
        simp [TokenReply.Accepted, TokenReply.content, rejected]
    · exact .inr ⟨⟨by omega, by omega⟩, returned⟩

theorem explains_requestToken {given : List UInt8} {missing : String} {params : QueryParams}
    {reply : TokenReply} {ok : Bool} (reports : Reports calls.parseTokenResponse)
    (returned : (session.requestToken calls given missing params reply).returned =
      some (ok, result)) :
    Explains reply (session.requestToken calls given missing params reply).body.isSome ok
      result := by
  rcases requestToken_cases session calls given missing params reply with
    ⟨message, refused⟩ | ⟨sent, same⟩
  · rw [refused] at returned ⊢
    obtain ⟨rfl, rfl⟩ := Prod.mk.inj (Option.some.inj returned)
    constructor <;> simp [OAuthSession.refusedCall]
  · rw [same] at returned
    rw [sent]
    rcases readTokenReply_cases returned with ⟨explains, _⟩ | ⟨accepted, parsed⟩
    · exact explains
    · obtain ⟨success, noError, notRefused, notFailed, raw⟩ := reports _ _ _ parsed
      exact ⟨success, noError, iff_of_false notRefused nofun,
        iff_of_false notFailed fun failed => failed.2 accepted, fun _ => raw⟩

theorem handsOut_requestToken {given : List UInt8} {missing : String} {params : QueryParams}
    {reply : TokenReply} {ok : Bool}
    (parses : calls.parseTokenResponse = library.parseTokenResponse nowMs)
    (returned : (session.requestToken calls given missing params reply).returned =
      some (ok, result)) : HandsOut reply ok result := by
  rcases requestToken_cases session calls given missing params reply with
    ⟨message, refused⟩ | ⟨_, same⟩
  · rw [refused] at returned
    obtain ⟨rfl, rfl⟩ := Prod.mk.inj (Option.some.inj returned)
    constructor <;> simp
  · rw [same] at returned
    rcases readTokenReply_cases returned with ⟨_, handsOut⟩ | ⟨accepted, parsed⟩
    · exact handsOut
    · rw [parses] at parsed
      cases ok with
      | true =>
        obtain ⟨token, given, raw, rfl⟩ := parseTokenResponse_of_true parsed
        exact ⟨fun _ => ⟨accepted, given, raw⟩, nofun⟩
      | false =>
        rw [JsonLibrary.parseTokenResponse_of_false parsed]
        exact ⟨nofun, fun _ => rfl⟩

/-- The result of `exchange_code` and `refresh_access_token` says what became of the request, in
both builds: nothing was sent, the endpoint did not accept it, the parser found no token, or it
found one. With JSON support there is a token exactly on success, and it is the endpoint's. A call
whose response carries an expiry that overflows has no result here. -/
theorem token_call_explained {call : TokenCall} {reply : TokenReply} {ok : Bool}
    (made : (∃ code, call = session.exchangeCode calls code reply) ∨
      ∃ refreshToken, call = session.refreshAccessToken calls refreshToken reply)
    (returned : call.returned = some (ok, result)) :
    ((∃ library nowMs, calls.parseTokenResponse = JsonLibrary.parseTokenResponse library nowMs) →
      Explains reply call.body.isSome ok result ∧ HandsOut reply ok result) ∧
    ((∃ tokenParser, calls.parseTokenResponse = parseTokenResponseCustom tokenParser) →
      Explains reply call.body.isSome ok result) := by
  constructor
  · rintro ⟨library, nowMs, parses⟩
    have reports : Reports calls.parseTokenResponse := parses ▸ reports_json
    rcases made with ⟨code, rfl⟩ | ⟨refreshToken, rfl⟩
    · exact ⟨explains_requestToken reports returned, handsOut_requestToken parses returned⟩
    · exact ⟨explains_requestToken reports returned, handsOut_requestToken parses returned⟩
  · rintro ⟨tokenParser, parses⟩
    have reports : Reports calls.parseTokenResponse := parses ▸ reports_custom tokenParser
    rcases made with ⟨code, rfl⟩ | ⟨refreshToken, rfl⟩
    · exact explains_requestToken reports returned
    · exact explains_requestToken reports returned

/-- A code that is exchanged for the token of the sample response. -/
theorem token_call_explained_login :
    ∃ result, (exampleSystem.init.exchangeCode exampleCalls (ascii "abc")
        (.response 200 (sampleResponse 3600))).returned = some (true, result) ∧
      Explains (.response 200 (sampleResponse 3600)) true true result ∧
      HandsOut (.response 200 (sampleResponse 3600)) true result := by
  have evaluated : ((exampleSystem.init.exchangeCode exampleCalls (ascii "abc")
      (.response 200 (sampleResponse 3600))).returned.map Prod.fst) = some true := by
    decide +kernel
  obtain ⟨⟨ok, result⟩, returned, rfl⟩ := Option.map_eq_some_iff.mp evaluated
  exact ⟨result, returned, (token_call_explained (.inl ⟨ascii "abc", rfl⟩) returned).1
    ⟨sampleLibrary 3600, 1700000000000, rfl⟩⟩

end Kurlyk.Http
