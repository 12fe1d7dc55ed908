/-
This file models what is kept in JSON documents: tokens, results of authentication, the settings of
a client and the settings of a proxy. Each is written as an object with one name for each field, and
read back by name; a name that is missing leaves the field of the target as it is, and a value of
the wrong type throws out of the middle.

The raw response of a token is not written. So a token that is read keeps the raw response of its
target, and the token inside a result, which is read into a new one, has none.
-/

import Kurlyk.Lib.Record
import Kurlyk.Http.OAuthToken
import Kurlyk.Http.ProxyConfig
import Kurlyk.Http.Url

namespace Kurlyk.Http

open Utils Record

/-! ### The library -/

/-- What else is used of the JSON library: how documents are made, and more of what is read. -/
structure JsonDocuments extends JsonLibrary where
  string : List UInt8 → Json
  boolean : Bool → Json
  number : Int64 → Json
  /-- `json{{name, value}, …}`. -/
  object : List (List UInt8 × Json) → Json
  getBool : Json → Except (List UInt8) Bool
  isNumberInteger : Json → Bool
  getInt : Json → Except (List UInt8) Int32

namespace JsonDocuments

variable (library : JsonDocuments)

/-- What is made can be read. -/
structure Documented : Prop where
  getString_string : ∀ text, library.getString (library.string text) = .ok text
  getBool_boolean : ∀ value, library.getBool (library.boolean value) = .ok value
  getInt64_number : ∀ value, library.getInt64 (library.number value) = .ok value
  isNumberInteger_string : ∀ text, library.isNumberInteger (library.string text) = false
  contains_object : ∀ members name value, (members.map Prod.fst).Nodup → (name, value) ∈ members →
    library.contains (library.object members) name = true
  field_object : ∀ members name value, (members.map Prod.fst).Nodup → (name, value) ∈ members →
    library.field (library.object members) name = value

/-- What a document says under a name. -/
def document (j : library.Json) : Document (List UInt8) library.Json := fun name =>
  if library.contains j name then some (library.field j name) else none

variable {Value Whole : Type}

/-- `if (j.contains(name)) target.field = j[name].get<Value>();`. -/
def assign (j : library.Json) (name : String) (get : library.Json → Except (List UInt8) Value)
    (set : Value → Whole → Whole) : Update (List UInt8) Whole Unit :=
  if library.contains j (ascii name) then do
    modify (set (← Update.ofExcept (get (library.field j (ascii name)))))
  else pure ()

/-- `get<Whole>`, which reads into a new value. -/
def getNew (fromJson : library.Json → Update (List UInt8) Whole Unit) (new : Whole)
    (j : library.Json) : Except (List UInt8) Whole :=
  match (fromJson j).apply new with
  | (.ok (), value) => .ok value
  | (.error what, _) => .error what

end JsonDocuments

/-! ### The model -/

/-- The other fields of `OAuthConfig`. -/
structure OAuthSettings extends OAuthConfig where
  clientSecret : List UInt8 := []
  tokenEndpoint : List UInt8

variable (library : JsonDocuments)

namespace OAuthToken

def toJson (token : OAuthToken) : library.Json :=
  library.object [
    (ascii "access_token", library.string token.accessToken),
    (ascii "refresh_token", library.string token.refreshToken),
    (ascii "token_type", library.string token.tokenType),
    (ascii "scope", library.string token.scope),
    (ascii "expires_at_ms", library.number token.expiresAtMs)]

def fromJson (j : library.Json) : Update (List UInt8) OAuthToken Unit := do
  library.assign j "access_token" library.getString fun accessToken token =>
    { token with accessToken }
  library.assign j "refresh_token" library.getString fun refreshToken token =>
    { token with refreshToken }
  library.assign j "token_type" library.getString fun tokenType token => { token with tokenType }
  library.assign j "scope" library.getString fun scope token => { token with scope }
  library.assign j "expires_at_ms" library.getInt64 fun expiresAtMs token =>
    { token with expiresAtMs }

end OAuthToken

namespace AuthError

def toJson : AuthError → library.Json
  | .none => library.string (ascii "None")
  | .invalidConfig => library.string (ascii "InvalidConfig")
  | .httpError => library.string (ascii "HttpError")
  | .invalidResponse => library.string (ascii "InvalidResponse")
  | .tokenExpired => library.string (ascii "TokenExpired")
  | .unsupportedFlow => library.string (ascii "UnsupportedFlow")
  | .stateMismatch => library.string (ascii "StateMismatch")

def fromJson (j : library.Json) : Except (List UInt8) AuthError := do
  let s ← library.getString j
  return if s = ascii "None" then .none
    else if s = ascii "InvalidConfig" then .invalidConfig
    else if s = ascii "HttpError" then .httpError
    else if s = ascii "InvalidResponse" then .invalidResponse
    else if s = ascii "TokenExpired" then .tokenExpired
    else if s = ascii "UnsupportedFlow" then .unsupportedFlow
    else if s = ascii "StateMismatch" then .stateMismatch
    else .none

end AuthError

namespace AuthResult

def toJson (result : AuthResult) : library.Json :=
  library.object [
    (ascii "success", library.boolean result.success),
    (ascii "error", result.error.toJson library),
    (ascii "error_message", library.string result.errorMessage),
    (ascii "token", result.token.toJson library),
    (ascii "raw_response", library.string result.rawResponse)]

def fromJson (j : library.Json) : Update (List UInt8) AuthResult Unit := do
  library.assign j "success" library.getBool fun success result => { result with success }
  library.assign j "error" (AuthError.fromJson library) fun error result => { result with error }
  library.assign j "error_message" library.getString fun errorMessage result =>
    { result with errorMessage }
  library.assign j "token" (library.getNew (OAuthToken.fromJson library) {}) fun token result =>
    { result with token }
  library.assign j "raw_response" library.getString fun rawResponse result =>
    { result with rawResponse }

end AuthResult

namespace OAuthSettings

def toJson (config : OAuthSettings) : library.Json :=
  library.object [
    (ascii "client_id", library.string config.clientId),
    (ascii "client_secret", library.string config.clientSecret),
    (ascii "authorization_endpoint", library.string config.authorizationEndpoint),
    (ascii "token_endpoint", library.string config.tokenEndpoint),
    (ascii "redirect_uri", library.string config.redirectUri),
    (ascii "scope", library.string config.scope),
    (ascii "use_pkce", library.boolean config.usePkce),
    (ascii "audience", library.string config.audience),
    (ascii "prompt", library.string config.prompt),
    (ascii "access_type", library.string config.accessType)]

def fromJson (j : library.Json) : Update (List UInt8) OAuthSettings Unit := do
  library.assign j "client_id" library.getString fun clientId config => { config with clientId }
  library.assign j "client_secret" library.getString fun clientSecret config =>
    { config with clientSecret }
  library.assign j "authorization_endpoint" library.getString fun authorizationEndpoint config =>
    { config with authorizationEndpoint }
  library.assign j "token_endpoint" library.getString fun tokenEndpoint config =>
    { config with tokenEndpoint }
  library.assign j "redirect_uri" library.getString fun redirectUri config =>
    { config with redirectUri }
  library.assign j "scope" library.getString fun scope config => { config with scope }
  library.assign j "use_pkce" library.getBool fun usePkce config => { config with usePkce }
  library.assign j "audience" library.getString fun audience config => { config with audience }
  library.assign j "prompt" library.getString fun prompt config => { config with prompt }
  library.assign j "access_type" library.getString fun accessType config =>
    { config with accessType }

end OAuthSettings

/-- `to_upper_case`. -/
def toUpperCase (text : List UInt8) : List UInt8 :=
  text.map fun character => if islower character then character - 32 else character

namespace ProxyType

/-- The values in their order. -/
def values : List ProxyType :=
  [.proxyHttp, .proxyHttps, .proxyHttp10, .proxySocks4, .proxySocks4a, .proxySocks5,
    .proxySocks5Hostname]

/-- `proxy_type_name`. -/
def name : ProxyType → List UInt8
  | .proxyHttp => ascii "PROXY_HTTP"
  | .proxyHttps => ascii "PROXY_HTTPS"
  | .proxyHttp10 => ascii "PROXY_HTTP_1_0"
  | .proxySocks4 => ascii "PROXY_SOCKS4"
  | .proxySocks4a => ascii "PROXY_SOCKS4A"
  | .proxySocks5 => ascii "PROXY_SOCKS5"
  | .proxySocks5Hostname => ascii "PROXY_SOCKS5_HOSTNAME"

/-- The names that `proxy_type_from_json` compares with. -/
def ofName (name : List UInt8) : Except (List UInt8) ProxyType :=
  if name = ascii "PROXY_HTTP" then .ok .proxyHttp
  else if name = ascii "PROXY_HTTPS" then .ok .proxyHttps
  else if name = ascii "PROXY_HTTP_1_0" then .ok .proxyHttp10
  else if name = ascii "PROXY_SOCKS4" then .ok .proxySocks4
  else if name = ascii "PROXY_SOCKS4A" then .ok .proxySocks4a
  else if name = ascii "PROXY_SOCKS5" then .ok .proxySocks5
  else if name = ascii "PROXY_SOCKS5_HOSTNAME" then .ok .proxySocks5Hostname
  else .error (ascii "Invalid ProxyType: " ++ name)

/-- The value of an integer, if it has one. -/
def ofInteger? (value : library.Json) : Except (List UInt8) (Option ProxyType) :=
  if library.isNumberInteger value then do
    let raw ← library.getInt value
    return if 0 ≤ raw.toInt ∧ raw.toInt ≤ 6 then values[raw.toInt.toNat]? else none
  else return none

/-- `proxy_type_from_json`. -/
def fromJson (value : library.Json) : Except (List UInt8) ProxyType := do
  match ← ofInteger? library value with
  | some type => return type
  | none => ofName (toUpperCase (← library.getString value))

end ProxyType

namespace ProxyConfig

def toJson (config : ProxyConfig) : library.Json :=
  library.object [
    (ascii "proxy_server", library.string config.proxyServer),
    (ascii "proxy_auth", library.string config.proxyAuth),
    (ascii "proxy_type", library.string config.proxyType.name),
    (ascii "use", library.boolean config.use)]

def fromJson (j : library.Json) : Update (List UInt8) ProxyConfig Unit := do
  library.assign j "proxy_server" library.getString fun proxyServer config =>
    { config with proxyServer }
  library.assign j "proxy_auth" library.getString fun proxyAuth config => { config with proxyAuth }
  library.assign j "proxy_type" (ProxyType.fromJson library) fun proxyType config =>
    { config with proxyType }
  library.assign j "use" library.getBool fun use config => { config with use }

end ProxyConfig

/-! ### The fields -/

variable {library}

/-- The fields of a record, and the two functions that write and read them. -/
structure Keeps {Whole : Type}
    (fields : List (Field (List UInt8) library.Json (List UInt8) Whole))
    (toJson : Whole → library.Json) (fromJson : library.Json → Update (List UInt8) Whole Unit) :
    Prop where
  writes : ∀ whole, toJson whole = library.object (store fields whole)
  reads : ∀ j, fromJson j = load fields (library.document j)
  distinct : (fields.map Field.key).Nodup
  apart : fields.Pairwise Field.Apart
  overwrites : ∀ field ∈ fields, field.Overwrites
  unmoved : ∀ field ∈ fields, ∀ other ∈ fields, other.key ≠ field.key → field.Unmoved other

theorem read_eq_assign {Value Whole : Type} (j : library.Json) (name : String)
    (getter : Whole → Value) (set : Value → Whole → Whole) (encode : Value → library.Json)
    (decode : library.Json → Except (List UInt8) Value) :
    Field.read ⟨ascii name, Value, getter, set, encode, decode⟩ (library.document j) =
      library.assign j name decode set := by
  unfold Field.read JsonDocuments.document JsonDocuments.assign
  dsimp only
  by_cases has : library.contains j (ascii name) = true
  · rw [if_pos has, if_pos has]
  · rw [if_neg has, if_neg has]

/-- No name stands for two fields of one record. -/
theorem names_distinct :
    (["access_token", "refresh_token", "token_type", "scope", "expires_at_ms"].map ascii).Nodup ∧
    (["success", "error", "error_message", "token", "raw_response"].map ascii).Nodup ∧
    (["client_id", "client_secret", "authorization_endpoint", "token_endpoint", "redirect_uri",
      "scope", "use_pkce", "audience", "prompt", "access_type"].map ascii).Nodup ∧
    (["proxy_server", "proxy_auth", "proxy_type", "use"].map ascii).Nodup := by
  decide +kernel

namespace OAuthToken

def fields (library : JsonDocuments) :
    List (Field (List UInt8) library.Json (List UInt8) OAuthToken) := [
  ⟨ascii "access_token", _, accessToken, fun accessToken token => { token with accessToken },
    library.string, library.getString⟩,
  ⟨ascii "refresh_token", _, refreshToken, fun refreshToken token => { token with refreshToken },
    library.string, library.getString⟩,
  ⟨ascii "token_type", _, tokenType, fun tokenType token => { token with tokenType },
    library.string, library.getString⟩,
  ⟨ascii "scope", _, scope, fun scope token => { token with scope },
    library.string, library.getString⟩,
  ⟨ascii "expires_at_ms", _, expiresAtMs, fun expiresAtMs token => { token with expiresAtMs },
    library.number, library.getInt64⟩]

theorem keeps : Keeps (fields library) (toJson library) (fromJson library) where
  writes _ := rfl
  reads j := by simp only [fromJson, fields, load, read_eq_assign, bind_pure_unit]
  distinct := names_distinct.1
  apart := by simp [fields, Field.Apart]
  overwrites := by simp [fields, Field.Overwrites]
  unmoved := by simp [fields, Field.Unmoved]

end OAuthToken

namespace AuthResult

def fields (library : JsonDocuments) :
    List (Field (List UInt8) library.Json (List UInt8) AuthResult) := [
  ⟨ascii "success", _, success, fun success result => { result with success },
    library.boolean, library.getBool⟩,
  ⟨ascii "error", _, error, fun error result => { result with error },
    AuthError.toJson library, AuthError.fromJson library⟩,
  ⟨ascii "error_message", _, errorMessage, fun errorMessage result => { result with errorMessage },
    library.string, library.getString⟩,
  ⟨ascii "token", _, token, fun token result => { result with token },
    OAuthToken.toJson library, library.getNew (OAuthToken.fromJson library) {}⟩,
  ⟨ascii "raw_response", _, rawResponse, fun rawResponse result => { result with rawResponse },
    library.string, library.getString⟩]

theorem keeps : Keeps (fields library) (toJson library) (fromJson library) where
  writes _ := rfl
  reads j := by simp only [fromJson, fields, load, read_eq_assign, bind_pure_unit]
  distinct := names_distinct.2.1
  apart := by simp [fields, Field.Apart]
  overwrites := by simp [fields, Field.Overwrites]
  unmoved := by simp [fields, Field.Unmoved]

end AuthResult

namespace OAuthSettings

def fields (library : JsonDocuments) :
    List (Field (List UInt8) library.Json (List UInt8) OAuthSettings) := [
  ⟨ascii "client_id", _, (·.clientId), fun clientId config => { config with clientId },
    library.string, library.getString⟩,
  ⟨ascii "client_secret", _, clientSecret, fun clientSecret config => { config with clientSecret },
    library.string, library.getString⟩,
  ⟨ascii "authorization_endpoint", _, (·.authorizationEndpoint),
    fun authorizationEndpoint config => { config with authorizationEndpoint },
    library.string, library.getString⟩,
  ⟨ascii "token_endpoint", _, tokenEndpoint,
    fun tokenEndpoint config => { config with tokenEndpoint }, library.string, library.getString⟩,
  ⟨ascii "redirect_uri", _, (·.redirectUri), fun redirectUri config => { config with redirectUri },
    library.string, library.getString⟩,
  ⟨ascii "scope", _, (·.scope), fun scope config => { config with scope },
    library.string, library.getString⟩,
  ⟨ascii "use_pkce", _, (·.usePkce), fun usePkce config => { config with usePkce },
    library.boolean, library.getBool⟩,
  ⟨ascii "audience", _, (·.audience), fun audience config => { config with audience },
    library.string, library.getString⟩,
  ⟨ascii "prompt", _, (·.prompt), fun prompt config => { config with prompt },
    library.string, library.getString⟩,
  ⟨ascii "access_type", _, (·.accessType), fun accessType config => { config with accessType },
    library.string, library.getString⟩]

theorem keeps : Keeps (fields library) (toJson library) (fromJson library) where
  writes _ := rfl
  reads j := by simp only [fromJson, fields, load, read_eq_assign, bind_pure_unit]
  distinct := names_distinct.2.2.1
  apart := by simp [fields, Field.Apart]
  overwrites := by simp [fields, Field.Overwrites]
  unmoved := by simp [fields, Field.Unmoved]

end OAuthSettings

namespace ProxyConfig

def fields (library : JsonDocuments) :
    List (Field (List UInt8) library.Json (List UInt8) ProxyConfig) := [
  ⟨ascii "proxy_server", _, proxyServer, fun proxyServer config => { config with proxyServer },
    library.string, library.getString⟩,
  ⟨ascii "proxy_auth", _, proxyAuth, fun proxyAuth config => { config with proxyAuth },
    library.string, library.getString⟩,
  ⟨ascii "proxy_type", _, proxyType, fun proxyType config => { config with proxyType },
    fun type => library.string type.name, ProxyType.fromJson library⟩,
  ⟨ascii "use", _, use, fun use config => { config with use }, library.boolean, library.getBool⟩]

theorem keeps : Keeps (fields library) (toJson library) (fromJson library) where
  writes _ := rfl
  reads j := by simp only [fromJson, fields, load, read_eq_assign, bind_pure_unit]
  distinct := names_distinct.2.2.2
  apart := by simp [fields, Field.Apart]
  overwrites := by simp [fields, Field.Overwrites]
  unmoved := by simp [fields, Field.Unmoved]

end ProxyConfig

/-! ### What was written is read -/

namespace Keeps

variable {Whole : Type} {fields : List (Field (List UInt8) library.Json (List UInt8) Whole)}
  {toJson : Whole → library.Json} {fromJson : library.Json → Update (List UInt8) Whole Unit}

/-- What is written is read into any target. -/
theorem fromJson_toJson (keeps : Keeps fields toJson fromJson) (documented : library.Documented)
    (readable : ∀ field ∈ fields, field.Readable) (whole target : Whole) :
    (fromJson (toJson whole)).apply target = (.ok (), copy fields whole target) := by
  have distinct : ((store fields whole).map Prod.fst).Nodup := by
    rw [store, List.map_map]
    exact keeps.distinct
  rw [keeps.reads, keeps.writes]
  refine load_store readable fun name value member => ?_
  rw [JsonDocuments.document, if_pos (documented.contains_object _ name value distinct member),
    documented.field_object _ name value distinct member]

end Keeps

namespace AuthError

theorem fromJson_toJson (documented : library.Documented) (error : AuthError) :
    fromJson library (error.toJson library) = .ok error := by
  unfold fromJson
  cases error <;> rw [toJson, documented.getString_string] <;> decide +kernel

end AuthError

namespace OAuthToken

theorem fromJson_toJson (documented : library.Documented) (token target : OAuthToken) :
    (fromJson library (token.toJson library)).apply target =
      (.ok (), { token with rawResponse := target.rawResponse }) := by
  have readable : ∀ field ∈ fields library, field.Readable := by
    simp [fields, Field.Readable, Field.kept, documented.getString_string,
      documented.getInt64_number]
  rw [keeps.fromJson_toJson documented readable]
  simp [copy, fields, Field.kept, documented.getString_string, documented.getInt64_number]

/-- A token inside a document is read into a new one. -/
theorem getNew_toJson (documented : library.Documented) (token : OAuthToken) :
    library.getNew (fromJson library) {} (token.toJson library) =
      .ok { token with rawResponse := [] } := by
  rw [JsonDocuments.getNew, fromJson_toJson documented]

end OAuthToken

namespace AuthResult

theorem fromJson_toJson (documented : library.Documented) (result target : AuthResult) :
    (fromJson library (result.toJson library)).apply target =
      (.ok (), { result with token := { result.token with rawResponse := [] } }) := by
  have readable : ∀ field ∈ fields library, field.Readable := by
    simp [fields, Field.Readable, Field.kept, documented.getString_string,
      documented.getBool_boolean, AuthError.fromJson_toJson documented,
      OAuthToken.getNew_toJson documented]
  rw [keeps.fromJson_toJson documented readable]
  simp [copy, fields, Field.kept, documented.getString_string, documented.getBool_boolean,
    AuthError.fromJson_toJson documented, OAuthToken.getNew_toJson documented]

end AuthResult

namespace OAuthSettings

theorem fromJson_toJson (documented : library.Documented) (config target : OAuthSettings) :
    (fromJson library (config.toJson library)).apply target = (.ok (), config) := by
  have readable : ∀ field ∈ fields library, field.Readable := by
    simp [fields, Field.Readable, Field.kept, documented.getString_string,
      documented.getBool_boolean]
  rw [keeps.fromJson_toJson documented readable]
  simp [copy, fields, Field.kept, documented.getString_string, documented.getBool_boolean]

end OAuthSettings

namespace ProxyType

/-- A name is found in the table, and is in upper case. -/
theorem ofName_name (type : ProxyType) :
    ofName type.name = .ok type ∧ toUpperCase type.name = type.name := by
  cases type <;> decide +kernel

theorem ofName_eq_ok_iff {text : List UInt8} {type : ProxyType} :
    ofName text = .ok type ↔ text = type.name := by
  constructor
  · intro found
    unfold ofName at found
    split_ifs at found <;> cases found <;> assumption
  · rintro rfl
    exact (ofName_name type).1

/-- A type is accepted as its number, or as its name in letters of either case. -/
theorem fromJson_eq_ok_iff {value : library.Json} {type : ProxyType} :
    fromJson library value = .ok type ↔
      ofInteger? library value = .ok (some type) ∨ ofInteger? library value = .ok none ∧
        ∃ text, library.getString value = .ok text ∧ toUpperCase text = type.name := by
  unfold fromJson
  cases integer : ofInteger? library value with
  | error what => simp [bind, Except.bind]
  | ok found =>
    cases found with
    | some other => simp [bind, Except.bind, pure, Except.pure]
    | none =>
      cases read : library.getString value with
      | error what => simp [bind, Except.bind]
      | ok text =>
        simp only [bind, Except.bind, ofName_eq_ok_iff]
        simp

theorem fromJson_name (documented : library.Documented) (type : ProxyType) :
    fromJson library (library.string type.name) = .ok type := by
  have text : ofInteger? library (library.string type.name) = .ok none := by
    rw [ofInteger?, if_neg (by rw [documented.isNumberInteger_string]; exact Bool.false_ne_true)]
    rfl
  exact fromJson_eq_ok_iff.mpr
    (Or.inr ⟨text, type.name, documented.getString_string type.name, (ofName_name type).2⟩)

end ProxyType

namespace ProxyConfig

theorem fromJson_toJson (documented : library.Documented) (config target : ProxyConfig) :
    (fromJson library (config.toJson library)).apply target = (.ok (), config) := by
  have readable : ∀ field ∈ fields library, field.Readable := by
    simp [fields, Field.Readable, Field.kept, documented.getString_string,
      documented.getBool_boolean, ProxyType.fromJson_name documented]
  rw [keeps.fromJson_toJson documented readable]
  simp [copy, fields, Field.kept, documented.getString_string, documented.getBool_boolean,
    ProxyType.fromJson_name documented]

end ProxyConfig

/-- What is written is read again, into any target. Only the raw response of a token is not
written. -/
theorem stored_comes_back (documented : library.Documented) :
    (∀ token target : OAuthToken,
      (OAuthToken.fromJson library (token.toJson library)).apply target =
        (.ok (), { token with rawResponse := target.rawResponse })) ∧
    (∀ error, AuthError.fromJson library (error.toJson library) = .ok error) ∧
    (∀ result target : AuthResult,
      (AuthResult.fromJson library (result.toJson library)).apply target =
        (.ok (), { result with token := { result.token with rawResponse := [] } })) ∧
    (∀ config target : OAuthSettings,
      (OAuthSettings.fromJson library (config.toJson library)).apply target = (.ok (), config)) ∧
    ∀ config target : ProxyConfig,
      (ProxyConfig.fromJson library (config.toJson library)).apply target = (.ok (), config) :=
  ⟨OAuthToken.fromJson_toJson documented, AuthError.fromJson_toJson documented,
    AuthResult.fromJson_toJson documented, OAuthSettings.fromJson_toJson documented,
    ProxyConfig.fromJson_toJson documented⟩

/-- What a proxy is set to is what is read from the document it is written to: the host, the port
and the type, and the username and the password unless the username holds a colon. -/
theorem proxy_comes_back (documented : library.Documented) {port : ℤ} (positive : 1 ≤ port)
    (bounded : port ≤ 65535) (config target : ProxyConfig) (ip username password : List UInt8)
    (type : ProxyType) :
    ∃ read : ProxyConfig,
      (ProxyConfig.fromJson library
          ((config.setProxyWithAuth ip port username password type).toJson library)).apply target =
        (.ok (), read) ∧
      read.getIp = ip ∧ read.getPort = port ∧ read.proxyType = type ∧ read.use = config.use ∧
      (read.isValid = true ↔ ip ≠ []) ∧
      (read.getUsername = username ∧ read.getPassword = password ↔ ':'.toUInt8 ∉ username) := by
  refine ⟨_, ProxyConfig.fromJson_toJson documented _ target, ?_⟩
  obtain ⟨host, number⟩ : (config.setProxy ip port type).getIp = ip ∧
      (config.setProxy ip port type).getPort = port :=
    ProxyConfig.getPort_setProxy positive bounded type
  refine ⟨host, number, rfl, rfl, ?_, ProxyConfig.credentials_setProxyAuth_iff⟩
  have valid : (config.setProxyWithAuth ip port username password type).isValid =
      (!ip.isEmpty && decide (port ≠ 0)) := by
    change (!(config.setProxy ip port type).getIp.isEmpty &&
      decide ((config.setProxy ip port type).getPort ≠ 0)) = _
    rw [host, number]
  have nonzero : port ≠ 0 := by omega
  rw [valid, decide_eq_true nonzero, Bool.and_true, Bool.not_eq_true', List.isEmpty_eq_false_iff]

/-! ### A library that keeps trees -/

/-- The values of JSON that the source makes. -/
inductive SampleValue where
  | string (text : List UInt8)
  | boolean (value : Bool)
  | number (value : Int64)
  | object (members : List (List UInt8 × SampleValue))

def wrongType : List UInt8 := ascii "type must be another"

def sampleDocuments : JsonDocuments where
  Json := SampleValue
  parse _ := .error (ascii "parse error")
  contains
    | .object members, name => (members.lookup name).isSome
    | _, _ => false
  field
    | .object members, name => (members.lookup name).getD (.string [])
    | json, _ => json
  value _ _ default := .ok default
  getString
    | .string text => .ok text
    | _ => .error wrongType
  getInt64
    | .number value => .ok value
    | _ => .error wrongType
  string := .string
  boolean := .boolean
  number := .number
  object := .object
  getBool
    | .boolean value => .ok value
    | _ => .error wrongType
  isNumberInteger
    | .number _ => true
    | _ => false
  getInt
    | .number value => .ok value.toInt32
    | _ => .error wrongType

theorem sampleDocuments_documented : sampleDocuments.Documented := by
  have found {members : List (List UInt8 × SampleValue)} {name : List UInt8} {value : SampleValue}
      (distinct : (members.map Prod.fst).Nodup) (member : (name, value) ∈ members) :
      members.lookup name = some value := by
    induction members with
    | nil => cases member
    | cons first members inductionHypothesis =>
      rw [List.map_cons, List.nodup_cons] at distinct
      rcases List.mem_cons.mp member with rfl | behind
      · exact List.lookup_cons_self
      · have different : name ≠ first.1 := by
          rintro rfl
          exact distinct.1 (List.mem_map.mpr ⟨(first.1, value), behind, rfl⟩)
        rw [List.lookup_cons, beq_false_of_ne different]
        exact inductionHypothesis distinct.2 behind
  refine ⟨fun _ => rfl, fun _ => rfl, fun _ => rfl, fun _ => rfl, ?_, ?_⟩
  · intro members name value distinct member
    exact Option.isSome_of_eq_some (found distinct member)
  · intro members name value distinct member
    exact congrArg (Option.getD · (.string [])) (found distinct member)

/-- A token with a raw response, inside a result. -/
theorem stored_comes_back_sample :
    (AuthResult.fromJson sampleDocuments (AuthResult.toJson sampleDocuments
        { success := true
          token := { accessToken := ascii "t", rawResponse := ascii "raw" } })).apply
            { error := .httpError } =
      (.ok (), { success := true, token := { accessToken := ascii "t" } }) :=
  (stored_comes_back sampleDocuments_documented).2.2.1 _ _

/-- A proxy with an IPv6 address, whose password holds a colon. -/
theorem proxy_comes_back_loopback : ∃ read : ProxyConfig,
    (ProxyConfig.fromJson sampleDocuments
        ((({} : ProxyConfig).setProxyWithAuth (ascii "::1") 8080 (ascii "user") (ascii "pass:word")
          .proxySocks5).toJson sampleDocuments)).apply {} = (.ok (), read) ∧
      read.getIp = ascii "::1" ∧ read.getPort = 8080 ∧ read.proxyType = .proxySocks5 ∧
      (read.getUsername = ascii "user" ∧ read.getPassword = ascii "pass:word") := by
  obtain ⟨read, same, host, port, type, _, _, credentials⟩ :=
    proxy_comes_back sampleDocuments_documented (by decide : (1 : ℤ) ≤ 8080) (by decide) {} {}
      (ascii "::1") (ascii "user") (ascii "pass:word") .proxySocks5
  exact ⟨read, same, host, port, type, credentials.mpr (by decide)⟩

/-! ### Any document is read -/

variable {Whole : Type} {fields : List (Field (List UInt8) library.Json (List UInt8) Whole)}
  {toJson : Whole → library.Json} {fromJson : library.Json → Update (List UInt8) Whole Unit}

/-- How any document is read into a record of these fields. -/
structure ReadByName (fields : List (Field (List UInt8) library.Json (List UInt8) Whole))
    (fromJson : library.Json → Update (List UInt8) Whole Unit) : Prop where
  /-- Only a value that cannot be read under the name of a field throws. -/
  ends_iff : ∀ j target, ((fromJson j).apply target).1 = .ok () ↔
    ∀ field ∈ fields, ¬ field.Unreadable (library.document j)
  /-- The first such value throws. The fields before it are read, and those behind it are not. -/
  stops : ∀ j target before field after stored error, fields = before ++ field :: after →
    (∀ earlier ∈ before, ¬ earlier.Unreadable (library.document j)) →
    library.document j field.key = some stored → field.decode stored = .error error →
    (fromJson j).apply target =
      (.error error, ((load before (library.document j)).apply target).2)
  /-- A name that is missing leaves its field as it is. -/
  leaves : ∀ j target, ∀ field ∈ fields, library.document j field.key = none →
    field.get ((fromJson j).apply target).2 = field.get target
  /-- Two documents that are read one after the other make one document, in which the second lies
  over the first. -/
  layers : ∀ first second both target,
    library.document both = laidOver (library.document second) (library.document first) →
    ((fromJson first).apply target).1 = .ok () →
    ((fromJson both).apply target).1 =
        ((fromJson second).apply ((fromJson first).apply target).2).1 ∧
      (((fromJson both).apply target).1 = .ok () →
        (fromJson both).apply target =
          (fromJson second).apply ((fromJson first).apply target).2)

theorem Keeps.readByName (keeps : Keeps fields toJson fromJson) : ReadByName fields fromJson where
  ends_iff j target := by
    rw [keeps.reads]
    exact load_ok_iff
  stops j target before field after stored error split readable present read := by
    rw [keeps.reads, split]
    exact load_stops readable present read
  leaves j target field member absent := by
    rw [keeps.reads]
    exact get_load (keeps.unmoved field member) absent
  layers first second both target laid ended := by
    rw [keeps.reads] at ended
    rw [keeps.reads, keeps.reads, keeps.reads, laid]
    obtain ⟨same, left⟩ := load_load keeps.overwrites keeps.apart ended
    exact ⟨same, fun fine => Prod.ext same (left (same.symm.trans fine))⟩

/-- Tokens, results, settings of a client and settings of a proxy are all read so. Two documents
read one after the other are the two laid on top of each other where neither reading throws. -/
theorem documents_read_by_name (library : JsonDocuments) :
    ReadByName (OAuthToken.fields library) (OAuthToken.fromJson library) ∧
    ReadByName (AuthResult.fields library) (AuthResult.fromJson library) ∧
    ReadByName (OAuthSettings.fields library) (OAuthSettings.fromJson library) ∧
    ReadByName (ProxyConfig.fields library) (ProxyConfig.fromJson library) :=
  ⟨OAuthToken.keeps.readByName, AuthResult.keeps.readByName, OAuthSettings.keeps.readByName,
    ProxyConfig.keeps.readByName⟩

end Kurlyk.Http
