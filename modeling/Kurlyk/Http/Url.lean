/-
This file models what the library does to the text of a URL: `HttpRequest::set_url` with query
parameters, `OAuthPkceClient::build_authorization_url` and `ApiKeyAuthProvider::authorize`. All
three append to the text and look at nothing but whether it is empty or has a `?` in it.

Over the model stands what a URL is made of: a base, a query after the first `?` and a fragment
after the first `#`, and what a query says: its parts between ampersands, each a name and a value.
Of the two appending functions only `authorize` looks for a query that is already there, and none
looks for a fragment.
-/

import Kurlyk.Lib.Text
import Kurlyk.Utils.QueryString

namespace Kurlyk.Http

open Utils

/-! ### The model -/

/-- The fields of `HttpRequest` that a URL or an authorization is written to. -/
structure RequestTarget where
  url : List UInt8
  headers : List (List UInt8 × List UInt8) := []
deriving DecidableEq

/-- `HttpRequest::set_url(url, query)`. -/
def RequestTarget.setUrl (request : RequestTarget) (curl : Curl) (url : List UInt8)
    (query : QueryParams) : RequestTarget :=
  let argsStr := toQueryStringCurl curl query (ascii "?")
  { request with url := if query.isEmpty then url else url ++ argsStr }

/-- The fields of `OAuthConfig` that the authorization URL is made of. -/
structure OAuthConfig where
  clientId : List UInt8
  authorizationEndpoint : List UInt8
  redirectUri : List UInt8
  scope : List UInt8 := []
  usePkce : Bool := true
  audience : List UInt8 := []
  prompt : List UInt8 := []
  accessType : List UInt8 := []

/-- `PkcePair`. -/
structure PkcePair where
  codeVerifier : List UInt8
  codeChallenge : List UInt8
  codeChallengeMethod : List UInt8 := ascii "S256"

/-- `OAuthPkceClient`. -/
structure OAuthPkceClient where
  config : OAuthConfig
  codeVerifier : List UInt8 := []
  codeChallenge : List UInt8 := []
  state : List UInt8 := []

/-- A parameter that is only given when it is not empty. -/
def givenParam (name : String) (value : List UInt8) : QueryParams :=
  if value.isEmpty then [] else [(ascii name, value)]

/-- The parameters in the order in which they are emplaced. -/
def OAuthPkceClient.params (config : OAuthConfig) (state : List UInt8) (pair : PkcePair) :
    QueryParams :=
  [(ascii "response_type", ascii "code"), (ascii "client_id", config.clientId),
    (ascii "redirect_uri", config.redirectUri)] ++ givenParam "scope" config.scope ++
    [(ascii "state", state)] ++
    (if config.usePkce then [(ascii "code_challenge", pair.codeChallenge),
      (ascii "code_challenge_method", pair.codeChallengeMethod)] else []) ++
    givenParam "audience" config.audience ++ givenParam "prompt" config.prompt ++
    givenParam "access_type" config.accessType

/-- `build_authorization_url`: `state` and `pair` are what the random generators give, and
`iterated` is the order in which the container gives its entries back. -/
def OAuthPkceClient.buildAuthorizationUrl (client : OAuthPkceClient) (curl : Curl)
    (iterated : QueryParams → QueryParams) (state : List UInt8) (pair : PkcePair) :
    List UInt8 × OAuthPkceClient :=
  let config := client.config
  if config.authorizationEndpoint.isEmpty || config.clientId.isEmpty ||
      config.redirectUri.isEmpty then
    ([], client)
  else
    let stated := { client with state }
    (config.authorizationEndpoint ++
        toQueryStringCurl curl (iterated (params config state pair)) (ascii "?"),
      if config.usePkce then
        { stated with codeVerifier := pair.codeVerifier, codeChallenge := pair.codeChallenge }
      else stated)

/-- `ApiKeyPlacement`. -/
inductive ApiKeyPlacement where
  | header
  | query
deriving DecidableEq

/-- `ApiKeyAuthProvider`. -/
structure ApiKeyAuthProvider where
  keyName : List UInt8
  keyValue : List UInt8
  placement : ApiKeyPlacement := .header

/-- `ApiKeyAuthProvider::authorize` of a request. -/
def ApiKeyAuthProvider.authorize (provider : ApiKeyAuthProvider) (request : RequestTarget) :
    Bool × RequestTarget :=
  if provider.keyName.isEmpty || provider.keyValue.isEmpty then (false, request)
  else
    match provider.placement with
    | .header =>
      let others := request.headers.filter (!caseInsensitiveEqual ·.1 provider.keyName)
      (true, { request with headers := others ++ [(provider.keyName, provider.keyValue)] })
    | .query =>
      let encodedKey := percentEncode provider.keyName
      let encodedValue := percentEncode provider.keyValue
      let param := encodedKey ++ ascii "=" ++ encodedValue
      if '?'.toUInt8 ∉ request.url then
        (true, { request with url := request.url ++ (ascii "?" ++ param) })
      else (true, { request with url := request.url ++ (ascii "&" ++ param) })

/-! ### What a query says -/

/-- The name and the value of one part of a query. -/
def decodeField (part : List UInt8) : List UInt8 × List UInt8 :=
  (percentDecode (Text.before '='.toUInt8 part),
    percentDecode ((Text.after '='.toUInt8 part).getD []))

/-- The names and values of a query. -/
def parametersOf (query : List UInt8) : QueryParams :=
  (query.splitOn '&'.toUInt8).map decodeField

/-- The names and values of the query of a URL that has no fragment. -/
def urlParameters (url : List UInt8) : QueryParams :=
  ((Text.after '?'.toUInt8 url).map parametersOf).getD []

/-- A URL: `base[?query][#fragment]`. -/
structure Url where
  base : List UInt8
  query : Option (List UInt8)
  fragment : Option (List UInt8)
  base_plain : '?'.toUInt8 ∉ base ∧ '#'.toUInt8 ∉ base
  query_plain : ∀ text ∈ query, '#'.toUInt8 ∉ text

/-- The text of a URL. -/
def Url.text (url : Url) : List UInt8 :=
  url.base ++ (url.query.map ('?'.toUInt8 :: ·)).getD [] ++
    (url.fragment.map ('#'.toUInt8 :: ·)).getD []

def Url.parameters (url : Url) : QueryParams :=
  (url.query.map parametersOf).getD []

/-- An escaped text holds no delimiter. -/
theorem not_mem_percentEncode {delimiter : UInt8} (delimits : delimiter ∈ delimiters)
    (value : List UInt8) : delimiter ∉ percentEncode value :=
  fun member => (escaped_percentEncode value).not_mem_delimiters delimiter member delimits

/-- No delimiter but the equals sign stands in a field. -/
theorem not_mem_escapedField {delimiter : UInt8} (delimits : delimiter ∈ delimiters)
    (other : delimiter ≠ '='.toUInt8) (field : List UInt8 × List UInt8) :
    delimiter ∉ escapedField field := by
  rw [escapedField, List.mem_append, List.mem_append, List.mem_singleton]
  rintro ((name | equals) | value)
  · exact not_mem_percentEncode delimits _ name
  · exact other equals
  · exact not_mem_percentEncode delimits _ value

/-- A field is read back as it was given. -/
theorem decodeField_escapedField (field : List UInt8 × List UInt8) :
    decodeField (escapedField field) = field := by
  have absent := not_mem_percentEncode (by decide +kernel : '='.toUInt8 ∈ delimiters) field.1
  rw [decodeField, escapedField, List.append_assoc, List.singleton_append,
    Text.before_append_cons absent, Text.after_append_cons absent, Option.getD_some,
    percentDecode_percentEncode, percentDecode_percentEncode]

theorem parametersOf_escapedField (field : List UInt8 × List UInt8) :
    parametersOf (escapedField field) = [field] := by
  have absent := not_mem_escapedField (by decide +kernel : '&'.toUInt8 ∈ delimiters) (by decide) field
  rw [parametersOf, List.splitOn_eq_singleton absent, List.map_singleton,
    decodeField_escapedField]

/-- Joined fields are read back as they were given. -/
theorem parametersOf_joinFields {query : QueryParams} (given : query ≠ []) :
    parametersOf (joinFields (query.map escapedField)) = query := by
  have separate : ∀ part ∈ query.map escapedField, '&'.toUInt8 ∉ part := by
    intro part member
    obtain ⟨field, _, rfl⟩ := List.mem_map.mp member
    exact not_mem_escapedField (by decide +kernel) (by decide) field
  rw [parametersOf, joinFields, List.splitOn_intercalate _ separate (by simpa using given),
    List.map_map]
  exact (List.map_congr_left fun field _ => decodeField_escapedField field).trans (List.map_id _)

theorem parametersOf_append (query rest : List UInt8) :
    parametersOf (query ++ '&'.toUInt8 :: rest) = parametersOf query ++ parametersOf rest := by
  rw [parametersOf, List.splitOn_append_cons_self, List.map_append, parametersOf, parametersOf]

/-- A query has one parameter more than it has ampersands. -/
theorem length_parametersOf (query : List UInt8) :
    (parametersOf query).length = query.count '&'.toUInt8 + 1 := by
  rw [parametersOf, List.length_map]
  induction query with
  | nil => rfl
  | cons character rest inductionHypothesis =>
    rw [List.splitOn_cons_eq_if_modifyHead, List.count_cons]
    split
    · rw [List.length_cons, inductionHypothesis]
    · rw [List.length_modifyHead, inductionHypothesis]

/-! ### Query parameters behind a URL -/

/-- The written URL has a query component whose parameters are those of the base URL followed by
the given ones. -/
def AppendsParameters (base : List UInt8) (query : QueryParams) (written : List UInt8) : Prop :=
  ∃ component, Text.after '?'.toUInt8 written = some component ∧
    parametersOf component = urlParameters base ++ query

/-- Appending `?` and the parameters is right exactly for a base URL without a query. -/
theorem appendsParameters_iff {curl : Curl} (escapes : curl.Escapes) (base : List UInt8)
    {query : QueryParams} (given : query ≠ []) :
    AppendsParameters base query (base ++ toQueryStringCurl curl query (ascii "?")) ↔
      '?'.toUInt8 ∉ base := by
  have appended : base ++ toQueryStringCurl curl query (ascii "?") =
      base ++ '?'.toUInt8 :: joinFields (query.map escapedField) := by
    rw [toQueryStringCurl_eq escapes, if_neg given]
    rfl
  rw [appended, AppendsParameters]
  constructor
  · rintro ⟨component, found, parameters⟩ present
    obtain ⟨front, rest, rfl, absent⟩ := List.eq_append_cons_of_mem present
    have own : urlParameters (front ++ '?'.toUInt8 :: rest) = parametersOf rest := by
      rw [urlParameters, Text.after_append_cons absent, Option.map_some, Option.getD_some]
    rw [List.append_assoc, List.cons_append, Text.after_append_cons absent,
      Option.some.injEq] at found
    -- The second `?` separates nothing, so one parameter is missing.
    have total := congrArg List.length parameters
    rw [own, ← found, List.length_append, length_parametersOf, length_parametersOf,
      List.count_append, List.count_cons_of_ne (by decide)] at total
    have added := congrArg List.length (parametersOf_joinFields given)
    rw [length_parametersOf] at added
    omega
  · intro absent
    refine ⟨_, Text.after_append_cons absent, ?_⟩
    rw [parametersOf_joinFields given, urlParameters, Text.after_of_not_mem absent]
    rfl

/-- `set_url` and `build_authorization_url` write the given parameters behind those of the base URL
exactly when the base URL has none of its own. -/
theorem query_appended_iff {curl : Curl} (escapes : curl.Escapes) :
    (∀ (request : RequestTarget) (url : List UInt8) (query : QueryParams),
      '#'.toUInt8 ∉ url → query ≠ [] →
        (AppendsParameters url query (request.setUrl curl url query).url ↔ '?'.toUInt8 ∉ url)) ∧
    ∀ (client : OAuthPkceClient) (iterated : QueryParams → QueryParams) (state : List UInt8)
      (pair : PkcePair), (∀ params : QueryParams, (iterated params).Perm params) →
      client.config.authorizationEndpoint ≠ [] → client.config.clientId ≠ [] →
      client.config.redirectUri ≠ [] → '#'.toUInt8 ∉ client.config.authorizationEndpoint →
        (AppendsParameters client.config.authorizationEndpoint
          (iterated (OAuthPkceClient.params client.config state pair))
          (client.buildAuthorizationUrl curl iterated state pair).1 ↔
            '?'.toUInt8 ∉ client.config.authorizationEndpoint) := by
  refine ⟨fun request url query _ given => ?_,
    fun client iterated state pair ordered endpoint clientId redirect _ => ?_⟩
  · rw [RequestTarget.setUrl, if_neg (by rwa [List.isEmpty_iff])]
    exact appendsParameters_iff escapes url given
  · have given : iterated (OAuthPkceClient.params client.config state pair) ≠ [] := by
      intro nothing
      have emptied := ordered (OAuthPkceClient.params client.config state pair)
      rw [nothing, List.nil_perm] at emptied
      exact absurd emptied (by simp [OAuthPkceClient.params])
    have complete : (client.config.authorizationEndpoint.isEmpty ||
        client.config.clientId.isEmpty || client.config.redirectUri.isEmpty) = false := by
      simp [endpoint, clientId, redirect]
    rw [OAuthPkceClient.buildAuthorizationUrl, complete]
    exact appendsParameters_iff escapes _ given

/-- A client whose authorization endpoint is the given one. -/
def exampleClient (endpoint : String) : OAuthPkceClient where
  config :=
    { clientId := ascii "app", authorizationEndpoint := ascii endpoint,
      redirectUri := ascii "http://localhost/" }

theorem query_appended_iff_plainUrl :
    AppendsParameters (ascii "http://example.com/") [(ascii "b", ascii "2")]
        (RequestTarget.setUrl { url := [] } faithfulCurl (ascii "http://example.com/")
          [(ascii "b", ascii "2")]).url ∧
      AppendsParameters (ascii "http://example.com/auth")
        (OAuthPkceClient.params (exampleClient "http://example.com/auth").config (ascii "xyz")
          { codeVerifier := ascii "verifier", codeChallenge := ascii "challenge" })
        ((exampleClient "http://example.com/auth").buildAuthorizationUrl faithfulCurl id
          (ascii "xyz") { codeVerifier := ascii "verifier", codeChallenge := ascii "challenge" }).1 :=
  ⟨((query_appended_iff faithfulCurl_escapes).1 _ _ _ (by decide +kernel) (by decide +kernel)).mpr
      (by decide +kernel),
    ((query_appended_iff faithfulCurl_escapes).2 (exampleClient "http://example.com/auth") id _ _
      (fun _ => List.Perm.refl _) (by decide +kernel) (by decide +kernel) (by decide +kernel)
      (by decide +kernel)).mpr (by decide +kernel)⟩

/-- Behind an existing query the new parameters become part of the last value. -/
theorem second_question_mark :
    (RequestTarget.setUrl { url := [] } faithfulCurl (ascii "http://example.com/?a=1")
        [(ascii "b", ascii "2")]).url = ascii "http://example.com/?a=1?b=2" ∧
      urlParameters (ascii "http://example.com/?a=1?b=2") = [(ascii "a", ascii "1?b=2")] ∧
      ¬ ∀ (curl : Curl) (request : RequestTarget) (url : List UInt8) (query : QueryParams),
        curl.Escapes → '#'.toUInt8 ∉ url → query ≠ [] →
          AppendsParameters url query (request.setUrl curl url query).url := by
  refine ⟨by decide +kernel, by decide +kernel, fun appends => ?_⟩
  have wrong := appends faithfulCurl { url := [] } (ascii "http://example.com/?a=1")
    [(ascii "b", ascii "2")] faithfulCurl_escapes (by decide +kernel) (by decide +kernel)
  obtain ⟨component, found, parameters⟩ := wrong
  have split : Text.after '?'.toUInt8 (RequestTarget.setUrl { url := [] } faithfulCurl
      (ascii "http://example.com/?a=1") [(ascii "b", ascii "2")]).url =
        some (ascii "a=1?b=2") := by
    decide +kernel
  rw [split, Option.some.injEq] at found
  rw [← found] at parameters
  exact absurd parameters (by decide +kernel)

/-! ### An API key in the query -/

/-- The text is the URL with the key as a further parameter of its query: base and fragment are
kept, and the query reads as before with the key behind it. -/
def AttachesKey (url : Url) (name value : List UInt8) (written : List UInt8) : Prop :=
  ∃ result : Url, written = result.text ∧ result.base = url.base ∧
    result.query = some ((url.query.map (· ++ ['&'.toUInt8])).getD [] ++ percentEncode name ++
      ['='.toUInt8] ++ percentEncode value) ∧
    result.fragment = url.fragment ∧ result.parameters = url.parameters ++ [(name, value)]

/-- The query with the key behind what it had. -/
def queryWithKey (name value : List UInt8) : Option (List UInt8) → List UInt8
  | none => escapedField (name, value)
  | some text => text ++ '&'.toUInt8 :: escapedField (name, value)

theorem queryWithKey_eq (name value : List UInt8) (query : Option (List UInt8)) :
    (query.map (· ++ ['&'.toUInt8])).getD [] ++ percentEncode name ++ ['='.toUInt8] ++
      percentEncode value = queryWithKey name value query := by
  cases query with
  | none => simp [queryWithKey, escapedField]
  | some text => simp [queryWithKey, escapedField]

theorem parametersOf_queryWithKey (name value : List UInt8) (query : Option (List UInt8)) :
    parametersOf (queryWithKey name value query) =
      (query.map parametersOf).getD [] ++ [(name, value)] := by
  cases query with
  | none => exact parametersOf_escapedField (name, value)
  | some text =>
    rw [queryWithKey, parametersOf_append, parametersOf_escapedField]
    rfl

/-- The URL with the key in its query. -/
def Url.withKey (url : Url) (name value : List UInt8) : Url where
  base := url.base
  query := some (queryWithKey name value url.query)
  fragment := url.fragment
  base_plain := url.base_plain
  query_plain := by
    intro text same
    obtain rfl := Option.some.inj same
    have field := not_mem_escapedField (by decide +kernel : '#'.toUInt8 ∈ delimiters) (by decide)
      (name, value)
    cases query : url.query with
    | none => exact field
    | some text =>
      rw [queryWithKey, List.mem_append, List.mem_cons, not_or, not_or]
      exact ⟨url.query_plain text query, by decide, field⟩

/-- The written text is right exactly when it is that of the URL with the key in its query. -/
theorem attachesKey_iff (url : Url) (name value written : List UInt8) :
    AttachesKey url name value written ↔ written = (url.withKey name value).text := by
  constructor
  · rintro ⟨result, rfl, base, query, fragment, _⟩
    rw [Url.text, base, query, fragment, queryWithKey_eq]
    rfl
  · intro same
    exact ⟨url.withKey name value, same, rfl, congrArg some (queryWithKey_eq _ _ _).symm, rfl,
      parametersOf_queryWithKey name value url.query⟩

/-- What `authorize` appends: an ampersand and the key when there is a question mark anywhere, a
question mark and the key otherwise. -/
theorem authorize_query {provider : ApiKeyAuthProvider} {request : RequestTarget}
    (placed : provider.placement = .query) (named : provider.keyName ≠ [])
    (valued : provider.keyValue ≠ []) :
    provider.authorize request = (true, { request with
      url := request.url ++ (if '?'.toUInt8 ∈ request.url then '&'.toUInt8 else '?'.toUInt8) ::
        escapedField (provider.keyName, provider.keyValue) }) := by
  have complete : (provider.keyName.isEmpty || provider.keyValue.isEmpty) = false := by
    simp [named, valued]
  rw [ApiKeyAuthProvider.authorize, complete, placed]
  by_cases present : '?'.toUInt8 ∈ request.url
  · simp only [Bool.false_eq_true, if_false, present, if_true]
    rfl
  · simp only [Bool.false_eq_true, if_false, present, not_false_eq_true, if_true]
    rfl

/-- Behind a URL the key stands in the query exactly when there is no fragment before it. -/
theorem append_key_iff (url : Url) (name value : List UInt8) :
    url.text ++ (if '?'.toUInt8 ∈ url.text then '&'.toUInt8 else '?'.toUInt8) ::
        escapedField (name, value) = (url.withKey name value).text ↔ url.fragment = none := by
  obtain ⟨base, query, fragment, ⟨noQuestion, _⟩, _⟩ := url
  unfold Url.withKey Url.text
  cases fragment with
  | none =>
    refine iff_of_true ?_ rfl
    cases query with
    | none => simp [queryWithKey, noQuestion]
    | some text => simp [queryWithKey]
  | some rest =>
    refine iff_of_false ?_ (by simp)
    -- The first character behind the base and the old query differs.
    cases query with
    | none => simp [show '#'.toUInt8 ≠ '?'.toUInt8 by decide]
    | some text => simp [queryWithKey, show '#'.toUInt8 ≠ '&'.toUInt8 by decide]

/-- `authorize` with query placement makes the key a parameter of the query exactly when the URL
has no fragment. -/
theorem key_attached_iff (url : Url) {provider : ApiKeyAuthProvider} {request : RequestTarget}
    (placed : provider.placement = .query) (named : provider.keyName ≠ [])
    (valued : provider.keyValue ≠ []) (target : request.url = url.text) :
    ((provider.authorize request).1 = true ∧
      (provider.authorize request).2.headers = request.headers ∧
      AttachesKey url provider.keyName provider.keyValue (provider.authorize request).2.url) ↔
        url.fragment = none := by
  rw [authorize_query placed named valued, attachesKey_iff, target]
  simp only [true_and]
  exact append_key_iff url provider.keyName provider.keyValue

/-- The URL `http://example.com/?a=1`, with a fragment or without. -/
def exampleUrl (fragment : Option (List UInt8)) : Url where
  base := ascii "http://example.com/"
  query := some (ascii "a=1")
  fragment := fragment
  base_plain := by decide +kernel
  query_plain := by decide +kernel

/-- A provider that puts its key into the query. -/
def exampleProvider : ApiKeyAuthProvider where
  keyName := ascii "key"
  keyValue := ascii "val"
  placement := .query

theorem key_attached_iff_noFragment :
    AttachesKey (exampleUrl none) (ascii "key") (ascii "val")
      (exampleProvider.authorize { url := (exampleUrl none).text }).2.url :=
  ((key_attached_iff (exampleUrl none) rfl (by decide +kernel) (by decide +kernel) rfl).mpr
    rfl).2.2

/-- Behind a fragment the key becomes part of the fragment. -/
theorem key_in_fragment :
    (exampleUrl (some (ascii "top"))).text = ascii "http://example.com/?a=1#top" ∧
      (exampleProvider.authorize { url := ascii "http://example.com/?a=1#top" }).2.url =
        ascii "http://example.com/?a=1#top&key=val" ∧
      ¬ AttachesKey (exampleUrl (some (ascii "top"))) (ascii "key") (ascii "val")
        (exampleProvider.authorize { url := ascii "http://example.com/?a=1#top" }).2.url := by
  refine ⟨by decide +kernel, by decide +kernel, ?_⟩
  rw [attachesKey_iff]
  decide +kernel

end Kurlyk.Http
