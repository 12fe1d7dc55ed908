/-
This file models the expiration of an OAuth token: `OAuthPkceClient::parse_token_response` with JSON
support, which turns the lifetime in a token response into an instant, and `OAuthToken::is_expired`,
which compares that instant with the clock.

The lifetime is multiplied and added to the clock in `int64_t` without a look at its size. A sum
that does not fit is undefined, and a sum that is not positive is later taken for an unknown
expiration. Between the two, a token expires when the response says.

The JSON library is not part of the repository. It is a parameter, and a token response is described
by what the library reads in it.
-/

import Mathlib.Algebra.Group.Int.Defs
import Kurlyk.Utils.Characters

namespace Kurlyk.Http

open Utils

/-! ### The model -/

/-- What is used of the JSON library. A failed call throws; the text is that of the exception. -/
structure JsonLibrary where
  Json : Type
  parse : List UInt8 → Except (List UInt8) Json
  contains : Json → List UInt8 → Bool
  /-- `j[key]`. -/
  field : Json → List UInt8 → Json
  /-- `j.value(key, default)` with a string as the default. -/
  value : Json → List UInt8 → List UInt8 → Except (List UInt8) (List UInt8)
  getString : Json → Except (List UInt8) (List UInt8)
  getInt64 : Json → Except (List UInt8) Int64

inductive AuthError where
  | none
  | invalidConfig
  | httpError
  | invalidResponse
  | tokenExpired
  | unsupportedFlow
  | stateMismatch
deriving DecidableEq

structure OAuthToken where
  accessToken : List UInt8 := []
  refreshToken : List UInt8 := []
  tokenType : List UInt8 := []
  scope : List UInt8 := []
  expiresAtMs : Int64 := 0
  rawResponse : List UInt8 := []
deriving DecidableEq

structure AuthResult where
  success : Bool := false
  error : AuthError := .none
  errorMessage : List UInt8 := []
  token : OAuthToken := {}
  rawResponse : List UInt8 := []
deriving DecidableEq

/-- The result of an operation on `int64_t`, which is undefined when it does not fit. -/
def int64 (result : ℤ) : Option Int64 :=
  if -2 ^ 63 ≤ result ∧ result < 2 ^ 63 then some (Int64.ofInt result) else none

/-- A computation that may throw, or be undefined. -/
abbrev Attempt := ExceptT (List UInt8) Option

namespace OAuthToken

/-- `is_expired` when the clock is at `nowMs`. -/
def isExpired (token : OAuthToken) (nowMs skewMs : Int64) : Option Bool :=
  if token.expiresAtMs ≤ 0 then some false
  else do
    let sum ← int64 (nowMs.toInt + skewMs.toInt)
    return sum ≥ token.expiresAtMs

end OAuthToken

namespace JsonLibrary

variable (library : JsonLibrary)

/-- A field of the token, which stays empty when the response does not have it. -/
def stringField (j : library.Json) (key : String) : Attempt (List UInt8) :=
  if library.contains j (ascii key) then ofExcept (library.getString (library.field j (ascii key)))
  else return []

/-- The instant of expiration, when the clock is at `nowMs`. -/
def expiresAt (nowMs : Int64) (j : library.Json) : Attempt Int64 :=
  if library.contains j (ascii "expires_in") then do
    let expiresIn ← ofExcept (library.getInt64 (library.field j (ascii "expires_in")))
    let lifetime ← ExceptT.lift (int64 (expiresIn.toInt * 1000))
    ExceptT.lift (int64 (nowMs.toInt + lifetime.toInt))
  else return 0

/-- The guarded part of `parse_token_response`. -/
def readTokenResponse (nowMs : Int64) (rawResponse : List UInt8) (outResult : AuthResult) :
    Attempt (Bool × AuthResult) := do
  let j ← ofExcept (library.parse rawResponse)
  if library.contains j (ascii "error") then
    let error ← ofExcept (library.value j (ascii "error") (ascii "unknown error"))
    let message ← ofExcept (library.value j (ascii "error_description") error)
    return (false, { outResult with error := .invalidResponse, errorMessage := message })
  else
    let accessToken ← library.stringField j "access_token"
    let refreshToken ← library.stringField j "refresh_token"
    let tokenType ← library.stringField j "token_type"
    let scope ← library.stringField j "scope"
    let expiresAtMs ← library.expiresAt nowMs j
    if accessToken.isEmpty then
      return (false, { outResult with
        error := .invalidResponse, errorMessage := ascii "access_token is missing in response" })
    else
      return (true, { outResult with
        token := { accessToken, refreshToken, tokenType, scope, expiresAtMs, rawResponse },
        success := true })

/-- `parse_token_response` with JSON support. -/
def parseTokenResponse (nowMs : Int64) (rawResponse : List UInt8) (outResult : AuthResult) :
    Option (Bool × AuthResult) := do
  match ← (library.readTokenResponse nowMs rawResponse outResult).run with
  | .ok result => return result
  | .error what =>
    return (false, { outResult with
      error := .invalidResponse, errorMessage := ascii "JSON parse error: " ++ what })

end JsonLibrary

/-! ### Arithmetic in `int64_t` -/

theorem int64_of_fits {result : ℤ} (low : -2 ^ 63 ≤ result) (high : result < 2 ^ 63) :
    ∃ value : Int64, int64 result = some value ∧ value.toInt = result :=
  ⟨Int64.ofInt result, if_pos ⟨low, high⟩, Int64.toInt_ofInt_of_le low high⟩

theorem eq_of_int64 {result : ℤ} {value : Int64} (computed : int64 result = some value) :
    value.toInt = result ∧ -2 ^ 63 ≤ result ∧ result < 2 ^ 63 := by
  by_cases fits : -2 ^ 63 ≤ result ∧ result < 2 ^ 63
  · rw [int64, if_pos fits] at computed
    rw [← Option.some.inj computed]
    exact ⟨Int64.toInt_ofInt_of_le fits.1 fits.2, fits⟩
  · rw [int64, if_neg fits] at computed
    exact absurd computed (by simp)

namespace OAuthToken

variable {token : OAuthToken} {nowMs skewMs : Int64}

/-- An expiration that is not positive is taken for an unknown one. -/
theorem isExpired_of_nonpos (unknown : token.expiresAtMs.toInt ≤ 0) :
    token.isExpired nowMs skewMs = some false :=
  if_pos (Int64.le_iff_toInt_le.mpr unknown)

/-- A known expiration is compared with the clock. -/
theorem isExpired_of_pos (known : 0 < token.expiresAtMs.toInt)
    (low : -2 ^ 63 ≤ nowMs.toInt + skewMs.toInt) (high : nowMs.toInt + skewMs.toInt < 2 ^ 63) :
    token.isExpired nowMs skewMs =
      some (decide (nowMs.toInt + skewMs.toInt ≥ token.expiresAtMs.toInt)) := by
  have notUnknown : ¬ token.expiresAtMs ≤ 0 := fun unknown =>
    absurd (Int64.le_iff_toInt_le.mp unknown) (Int.not_le.mpr known)
  obtain ⟨sum, computed, same⟩ := int64_of_fits low high
  rw [isExpired, if_neg notUnknown, computed, ← same]
  exact congrArg some (decide_eq_decide.mpr Int64.le_iff_toInt_le)

end OAuthToken

/-! ### What becomes of a token response -/

/-- A call of the library that does not throw. -/
theorem ofExcept_ok {Value : Type} (value : Value) :
    (ofExcept (Except.ok value : Except (List UInt8) Value) : Attempt Value) = pure value :=
  rfl

/-- What follows a call runs when the call has returned. -/
theorem run_bind_eq_ok {Value Result : Type} {call : Attempt Value} {next : Value → Attempt Result}
    {result : Result} (returned : (call >>= next).run = some (.ok result)) :
    ∃ value, (next value).run = some (.ok result) := by
  rw [ExceptT.run_bind] at returned
  obtain ⟨outcome, _, continued⟩ := Option.bind_eq_some_iff.mp returned
  cases outcome with
  | ok value => exact ⟨value, continued⟩
  | error what => exact absurd (Option.some.inj continued) (by simp)

namespace JsonLibrary

variable {library : JsonLibrary} {nowMs : Int64} {rawResponse : List UInt8}
  {outResult result : AuthResult}

theorem readTokenResponse_of_false
    (refused : (library.readTokenResponse nowMs rawResponse outResult).run =
      some (.ok (false, result))) :
    result = { outResult with error := .invalidResponse, errorMessage := result.errorMessage } := by
  obtain ⟨j, refused⟩ := run_bind_eq_ok refused
  split at refused
  · obtain ⟨_, refused⟩ := run_bind_eq_ok refused
    obtain ⟨message, refused⟩ := run_bind_eq_ok refused
    rw [← (Prod.mk.inj (Except.ok.inj (Option.some.inj refused))).2]
  · obtain ⟨accessToken, refused⟩ := run_bind_eq_ok refused
    obtain ⟨_, refused⟩ := run_bind_eq_ok refused
    obtain ⟨_, refused⟩ := run_bind_eq_ok refused
    obtain ⟨_, refused⟩ := run_bind_eq_ok refused
    obtain ⟨_, refused⟩ := run_bind_eq_ok refused
    split at refused
    · rw [← (Prod.mk.inj (Except.ok.inj (Option.some.inj refused))).2]
    · exact absurd (Prod.mk.inj (Except.ok.inj (Option.some.inj refused))).1 (by simp)

/-- A response that is refused leaves the token as it was, and the error says why. -/
theorem parseTokenResponse_of_false
    (refused : library.parseTokenResponse nowMs rawResponse outResult = some (false, result)) :
    result = { outResult with error := .invalidResponse, errorMessage := result.errorMessage } := by
  obtain ⟨outcome, read, returned⟩ := Option.bind_eq_some_iff.mp refused
  cases outcome with
  | ok pair =>
    rw [Option.some.inj returned] at read
    exact readTokenResponse_of_false read
  | error what => rw [← (Prod.mk.inj (Option.some.inj returned)).2]

end JsonLibrary

/-- A token response with an access token and a lifetime in seconds, as the library reads it. -/
structure TokenResponse (library : JsonLibrary) (rawResponse : List UInt8) (expiresIn : Int64) where
  json : library.Json
  parsed : library.parse rawResponse = .ok json
  noError : library.contains json (ascii "error") = false
  accessToken : List UInt8
  hasAccessToken : library.contains json (ascii "access_token") = true
  accessToken_read : library.getString (library.field json (ascii "access_token")) = .ok accessToken
  accessToken_given : accessToken ≠ []
  strings : ∀ key ∈ ["refresh_token", "token_type", "scope"],
    library.contains json (ascii key) = true →
      ∃ text, library.getString (library.field json (ascii key)) = .ok text
  hasExpiresIn : library.contains json (ascii "expires_in") = true
  expiresIn_read : library.getInt64 (library.field json (ascii "expires_in")) = .ok expiresIn

namespace TokenResponse

variable {library : JsonLibrary} {rawResponse : List UInt8} {expiresIn : Int64}
  (response : TokenResponse library rawResponse expiresIn)
include response

/-- An optional field is read. -/
theorem stringField_eq (key : String) (optional : key ∈ ["refresh_token", "token_type", "scope"]) :
    ∃ text, library.stringField response.json key = pure text := by
  unfold JsonLibrary.stringField
  split
  · rename_i present
    obtain ⟨text, read⟩ := response.strings key optional present
    exact ⟨text, by rw [read]; rfl⟩
  · exact ⟨[], rfl⟩

/-- The lifetime is read. -/
theorem expiresAt_eq (nowMs : Int64) : library.expiresAt nowMs response.json =
    ExceptT.lift ((int64 (expiresIn.toInt * 1000)).bind fun lifetime =>
      int64 (nowMs.toInt + lifetime.toInt)) := by
  rw [JsonLibrary.expiresAt, if_pos response.hasExpiresIn, response.expiresIn_read, ofExcept_ok,
    pure_bind]
  cases int64 (expiresIn.toInt * 1000) with
  | none => rfl
  | some lifetime => rfl

/-- The response is turned into a token, unless the instant of its expiration is undefined. -/
theorem parseTokenResponse_eq (nowMs : Int64) (outResult : AuthResult) :
    ∃ token : Int64 → OAuthToken, (∀ instant, (token instant).expiresAtMs = instant) ∧
      library.parseTokenResponse nowMs rawResponse outResult =
        (((int64 (expiresIn.toInt * 1000)).bind fun lifetime =>
          int64 (nowMs.toInt + lifetime.toInt)).map fun instant =>
            (true, { outResult with token := token instant, success := true })) := by
  obtain ⟨refreshToken, refresh⟩ := response.stringField_eq "refresh_token" (by simp)
  obtain ⟨tokenType, type⟩ := response.stringField_eq "token_type" (by simp)
  obtain ⟨scope, range⟩ := response.stringField_eq "scope" (by simp)
  have access : library.stringField response.json "access_token" = pure response.accessToken := by
    rw [JsonLibrary.stringField, if_pos response.hasAccessToken, response.accessToken_read,
      ofExcept_ok]
  have given : response.accessToken.isEmpty = false :=
    List.isEmpty_eq_false_iff.mpr response.accessToken_given
  refine ⟨fun instant => {
    accessToken := response.accessToken
    refreshToken := refreshToken
    tokenType := tokenType
    scope := scope
    expiresAtMs := instant
    rawResponse := rawResponse }, fun _ => rfl, ?_⟩
  simp only [JsonLibrary.parseTokenResponse, JsonLibrary.readTokenResponse, response.parsed,
    ofExcept_ok, pure_bind, response.noError, access, refresh, type, range, given,
    response.expiresAt_eq, Bool.false_eq_true, if_false, ExceptT.run_bind_lift]
  cases (int64 (expiresIn.toInt * 1000)).bind fun lifetime =>
      int64 (nowMs.toInt + lifetime.toInt) with
  | none => rfl
  | some instant => rfl

end TokenResponse

/-! ### Expiration -/

/-- A token comes out, and from then on it is expired exactly when its lifetime is over. -/
def ExpiresAsTold (library : JsonLibrary) (rawResponse : List UInt8) (expiresIn nowMs : Int64)
    (outResult : AuthResult) : Prop :=
  ∃ result : AuthResult,
    library.parseTokenResponse nowMs rawResponse outResult = some (true, result) ∧
    ∀ later skewMs : Int64, nowMs.toInt ≤ later.toInt → 0 ≤ skewMs.toInt →
      later.toInt + skewMs.toInt < 2 ^ 63 →
      result.token.isExpired later skewMs =
        some (decide (later.toInt + skewMs.toInt ≥ nowMs.toInt + 1000 * expiresIn.toInt))

/-- A response received after the epoch expires as told exactly when the instant of its expiration
is positive and fits. -/
theorem expires_as_told_iff {library : JsonLibrary} {rawResponse : List UInt8} {expiresIn : Int64}
    (response : TokenResponse library rawResponse expiresIn) (outResult : AuthResult)
    {nowMs : Int64} (afterEpoch : 0 ≤ nowMs.toInt) :
    ExpiresAsTold library rawResponse expiresIn nowMs outResult ↔
      0 < nowMs.toInt + 1000 * expiresIn.toInt ∧
        nowMs.toInt + 1000 * expiresIn.toInt < 2 ^ 63 := by
  obtain ⟨token, instants, parsed⟩ := response.parseTokenResponse_eq nowMs outResult
  have clock := nowMs.toInt_lt
  constructor
  · rintro ⟨result, returned, asTold⟩
    rw [parsed, Option.map_eq_some_iff] at returned
    obtain ⟨instant, computed, same⟩ := returned
    obtain ⟨lifetime, product, sum⟩ := Option.bind_eq_some_iff.mp computed
    obtain ⟨lifetimeExact, _, _⟩ := eq_of_int64 product
    obtain ⟨instantExact, _, fits⟩ := eq_of_int64 sum
    -- An instant that is not positive has passed already when the response is received.
    refine ⟨Int.not_le.mp fun passed => ?_, by omega⟩
    have unknown : result.token.expiresAtMs.toInt ≤ 0 := by
      rw [← (Prod.mk.inj same).2, instants]
      omega
    have now := asTold nowMs 0 (Int.le_refl _) (Int.le_refl _) (by simpa using clock)
    rw [OAuthToken.isExpired_of_nonpos unknown] at now
    have notYet := of_decide_eq_false (Option.some.inj now).symm
    have skew : (0 : Int64).toInt = 0 := rfl
    omega
  · rintro ⟨positive, fits⟩
    obtain ⟨lifetime, product, lifetimeExact⟩ :=
      int64_of_fits (by omega : -2 ^ 63 ≤ expiresIn.toInt * 1000) (by omega)
    obtain ⟨instant, sum, instantExact⟩ :=
      int64_of_fits (by omega : -2 ^ 63 ≤ nowMs.toInt + lifetime.toInt) (by omega)
    rw [product, Option.bind_some, sum] at parsed
    refine ⟨_, parsed, fun later skewMs notBefore skew high => ?_⟩
    have expiration : (token instant).expiresAtMs.toInt = nowMs.toInt + 1000 * expiresIn.toInt := by
      rw [instants]
      omega
    rw [OAuthToken.isExpired_of_pos (expiration ▸ positive) (by omega) high, expiration]

/-! ### A library that reads one response -/

/-- The parts of a response that has an access token and a lifetime. -/
inductive SampleJson where
  | object (accessToken : List UInt8) (expiresIn : Int64)
  | string (text : List UInt8)
  | integer (number : Int64)

/-- `{"access_token":"t","expires_in":…}`. -/
def sampleResponse (expiresIn : Int64) : List UInt8 :=
  ascii ("\x7b\"access_token\":\"t\",\"expires_in\":" ++ expiresIn.toInt.repr ++ "\x7d")

/-- What the library does with that response. -/
def sampleLibrary (expiresIn : Int64) : JsonLibrary where
  Json := SampleJson
  parse text :=
    if text = sampleResponse expiresIn then .ok (.object (ascii "t") expiresIn)
    else .error (ascii "parse error")
  contains
    | .object _ _, key => key = ascii "access_token" ∨ key = ascii "expires_in"
    | _, _ => false
  field
    | .object accessToken number, key =>
      if key = ascii "access_token" then .string accessToken else .integer number
    | json, _ => json
  value _ _ default := .ok default
  getString
    | .string text => .ok text
    | _ => .error (ascii "type must be string")
  getInt64
    | .integer number => .ok number
    | _ => .error (ascii "type must be number")

theorem sampleLibrary_absent (expiresIn : Int64) :
    ∀ key ∈ ["refresh_token", "token_type", "scope"],
      (sampleLibrary expiresIn).contains (.object (ascii "t") expiresIn) (ascii key) = false := by
  simp only [sampleLibrary]
  decide +kernel

def sampleTokenResponse (expiresIn : Int64) :
    TokenResponse (sampleLibrary expiresIn) (sampleResponse expiresIn) expiresIn where
  json := .object (ascii "t") expiresIn
  parsed := if_pos rfl
  noError := by simp only [sampleLibrary]; decide +kernel
  accessToken := ascii "t"
  hasAccessToken := by simp only [sampleLibrary]; decide +kernel
  accessToken_read := rfl
  accessToken_given := by decide
  strings key optional present :=
    absurd present (by simp [sampleLibrary_absent expiresIn key optional])
  hasExpiresIn := by simp only [sampleLibrary]; decide +kernel
  expiresIn_read := rfl

/-- An hour, told in autumn 2023. -/
theorem expires_as_told_iff_hour :
    ExpiresAsTold (sampleLibrary 3600) (sampleResponse 3600) 3600 1700000000000 {} :=
  (expires_as_told_iff (sampleTokenResponse 3600) {} (by decide)).mpr (by decide)

/-- The longest lifetime is undefined. One that ended before the epoch does not expire. -/
theorem lifetimes_not_told :
    ¬ ExpiresAsTold (sampleLibrary Int64.maxValue) (sampleResponse Int64.maxValue)
        Int64.maxValue 1700000000000 {} ∧
      ¬ ExpiresAsTold (sampleLibrary (-1700000001)) (sampleResponse (-1700000001))
        (-1700000001) 1700000000000 {} := by
  have undefined : (sampleLibrary Int64.maxValue).parseTokenResponse 1700000000000
      (sampleResponse Int64.maxValue) {} = none := by decide +kernel
  have parsed : (sampleLibrary (-1700000001)).parseTokenResponse 1700000000000
      (sampleResponse (-1700000001)) {} = some (true, {
        success := true
        token := {
          accessToken := ascii "t"
          expiresAtMs := -1000
          rawResponse := sampleResponse (-1700000001) } }) := by decide +kernel
  refine ⟨?_, ?_⟩
  · rintro ⟨result, returned, _⟩
    rw [undefined] at returned
    exact absurd returned (by simp)
  · rintro ⟨result, returned, asTold⟩
    rw [parsed] at returned
    have now := asTold 1700000000000 0 (by decide) (by decide) (by decide)
    rw [← (Prod.mk.inj (Option.some.inj returned)).2] at now
    exact absurd now (by decide)

end Kurlyk.Http
