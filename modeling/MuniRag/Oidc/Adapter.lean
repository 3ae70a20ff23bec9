import MuniRag.Lib.Json
import MuniRag.Lib.JsonOrder
import MuniRag.Lib.Results

/-!
# The OIDC adapter

The data of `humanSession/oidcAdapter.ts`: the options that its constructor checks, the
URLs it derives from the issuer, and the reading of responses and key sets.  All of this
is pure; the calls that use it over the network are in `Exchange`.

The URL parser, JSON and the letter cases of the platform are parameters.  A JSON number
is the rational number that it denotes.
-/

namespace Oidc

open Json Results

/-! ## Texts -/

/-- A URL as `new URL(text)` takes it apart. -/
structure Url where
  href : JsString
  protocol : JsString
  username : JsString
  password : JsString
  hostname : JsString
  origin : JsString
  pathname : JsString
  search : JsString
  hash : JsString
  deriving DecidableEq, Repr

/-- The entries of a JSON object. -/
abbrev Fields := List (JsString × Value ℚ)

/-- What the platform computes: `parseUrl` and `parseJson` give `none` where they throw,
and `basicCredentials` encodes a client id and a secret. -/
structure Platform where
  parseUrl : JsString → Option Url
  parseJson : List UInt8 → Option (Value ℚ)
  toLowerCase : JsString → JsString
  basicCredentials : JsString → JsString → JsString

/-- `CONTROL.test(value)`. -/
def hasControl (value : JsString) : Bool := value.any fun u => u ≤ 0x1f || u == 0x7f

def isBase64UrlUnit (u : UInt16) : Bool :=
  isUpperLetter u || isLowerLetter u || isDecimalDigit u || u == 0x5f || u == 0x2d

/-- `^[a-z][a-z0-9-]{2,63}$`. -/
def isProviderId (value : JsString) : Bool :=
  decide (3 ≤ value.length ∧ value.length ≤ 64) && value.head?.any isLowerLetter &&
    value.all fun u => isLowerLetter u || isDecimalDigit u || u == 0x2d

/-- `^[A-Za-z0-9_-]{43,172}$`. -/
def isOpaque (value : JsString) : Bool :=
  decide (43 ≤ value.length ∧ value.length ≤ 172) && value.all isBase64UrlUnit

/-- `^[A-Za-z0-9._~-]{8,512}$`. -/
def isAuthorizationCode (value : JsString) : Bool :=
  decide (8 ≤ value.length ∧ value.length ≤ 512) &&
    value.all fun u => isBase64UrlUnit u || u == 0x2e || u == 0x7e

/-- Three texts of `[A-Za-z0-9_-]+` with a point between them. -/
def isJwt (value : JsString) : Bool :=
  let parts := value.splitOn 0x2e
  decide (parts.length = 3) && parts.all fun part => !part.isEmpty && part.all isBase64UrlUnit

/-! ## Failures -/

/-- How `jwtVerify` and the key set it is given refuse a token. -/
inductive VerifyError
  | noMatchingKey
  | signatureFailed
  | other (code : JsString)
  deriving DecidableEq, Repr

inductive Failure
  | authentication
  | unavailable
  | verify (error : VerifyError)
  | thrown
  deriving DecidableEq, Repr

/-! ## Construction -/

structure ProviderOptions where
  providerId : JsString
  issuer : JsString
  clientId : JsString
  clientSecret : JsString
  allowedEndpointOrigins : Option (List JsString)
  allowedSigningAlgorithms : Option (List JsString)
  tokenEndpointAuthMethod : Option JsString
  requestTimeoutMs : Option ℚ
  maxResponseBytes : Option ℚ
  discoveryCacheTtlSeconds : Option ℚ
  jwksCacheTtlSeconds : Option ℚ
  maxIdTokenLifetimeSeconds : Option ℚ
  clockToleranceSeconds : Option ℚ

/-- The private fields of the adapter that do not change. -/
structure Adapter where
  providerId : JsString
  issuer : JsString
  clientId : JsString
  clientSecret : JsString
  allowedEndpointOrigins : List JsString
  allowedSigningAlgorithms : List JsString
  tokenEndpointAuthMethod : JsString
  requestTimeoutMs : Int
  maxResponseBytes : Int
  discoveryCacheTtlMs : Int
  jwksCacheTtlMs : Int
  maxIdTokenLifetimeSeconds : Int
  clockToleranceSeconds : Int
  deriving DecidableEq, Repr

def allowedSigningAlgorithms : List JsString := [js "RS256", js "PS256", js "ES256"]

def tokenEndpointAuthMethods : List JsString :=
  [js "client_secret_basic", js "client_secret_post"]

def boundedInteger (value : Option ℚ) (fallback minimum maximum : Int) (name : String) :
    Except JsString Int := do
  let resolved := value.getD fallback
  require (resolved.den = 1 ∧ minimum ≤ resolved.num ∧ resolved.num ≤ maximum)
    (js s!"{name} must be an integer between {minimum} and {maximum}")
  return resolved.num

/-- `.replace(/\/$/, "")`. -/
def stripSlash (value : JsString) : JsString :=
  if value.getLast? = some 0x2f then value.dropLast else value

section Construction

variable (platform : Platform)

def newUrl (value : JsString) : Except JsString Url :=
  orRefuse (platform.parseUrl value) (js "Invalid URL")

def normalizeIssuer (value : JsString) : Except JsString JsString := do
  require (8 ≤ value.length ∧ value.length ≤ 500 ∧ hasControl value = false)
    (js "OIDC issuer is invalid")
  let parsed ← newUrl platform value
  require (parsed.protocol = js "https:" ∧ parsed.username = [] ∧ parsed.password = [] ∧
    parsed.search = [] ∧ parsed.hash = []) (js "OIDC issuer must be an exact HTTPS URI")
  return stripSlash parsed.href

def wellKnownPath : JsString := js "/.well-known/openid-configuration"

/-- The well-known path goes between the origin and the path of the issuer. -/
def discoveryUrl (issuer : JsString) : Except JsString Url := do
  let parsed ← newUrl platform issuer
  let issuerPath := if parsed.pathname = js "/" then [] else parsed.pathname
  newUrl platform (parsed.origin ++ wellKnownPath ++ issuerPath)

def normalizeOrigin (value : JsString) : Except JsString JsString := do
  let parsed ← newUrl platform value
  require (parsed.protocol = js "https:" ∧ parsed.username = [] ∧ parsed.password = [] ∧
    parsed.pathname = js "/" ∧ parsed.search = [] ∧ parsed.hash = [])
    (js "OIDC endpoint origin must be an exact HTTPS origin")
  return parsed.origin

/-- The constructor; the error is the message it throws. -/
def construct (options : ProviderOptions) : Except JsString Adapter := do
  require (isProviderId options.providerId) (js "OIDC providerId is invalid")
  require (1 ≤ options.clientId.length ∧ options.clientId.length ≤ 255 ∧
    hasControl options.clientId = false) (js "OIDC clientId is invalid")
  require (16 ≤ options.clientSecret.length ∧ options.clientSecret.length ≤ 4096 ∧
    hasControl options.clientSecret = false) (js "OIDC clientSecret is invalid")
  let issuer ← normalizeIssuer platform options.issuer
  let issuerOrigin := (← newUrl platform issuer).origin
  let origins := options.allowedEndpointOrigins.getD [issuerOrigin]
  require (1 ≤ origins.length ∧ origins.length ≤ 16) (js "OIDC endpoint origins are invalid")
  let normalizedOrigins ← origins.mapM (normalizeOrigin platform)
  let algorithms := options.allowedSigningAlgorithms.getD [js "RS256"]
  require (1 ≤ algorithms.length ∧ algorithms.length ≤ allowedSigningAlgorithms.length ∧
    ∀ algorithm ∈ algorithms, algorithm ∈ allowedSigningAlgorithms)
    (js "OIDC signing algorithm allowlist is invalid")
  let authMethod := options.tokenEndpointAuthMethod.getD (js "client_secret_basic")
  require (authMethod ∈ tokenEndpointAuthMethods)
    (js "OIDC token endpoint authentication method is invalid")
  let requestTimeoutMs ←
    boundedInteger options.requestTimeoutMs 5000 500 15000 "OIDC requestTimeoutMs"
  let maxResponseBytes ←
    boundedInteger options.maxResponseBytes 32768 4096 65536 "OIDC maxResponseBytes"
  let discoveryCacheTtl ←
    boundedInteger options.discoveryCacheTtlSeconds 300 60 3600 "OIDC discoveryCacheTtlSeconds"
  let jwksCacheTtl ←
    boundedInteger options.jwksCacheTtlSeconds 300 60 3600 "OIDC jwksCacheTtlSeconds"
  let maxIdTokenLifetimeSeconds ←
    boundedInteger options.maxIdTokenLifetimeSeconds 3600 60 3600 "OIDC maxIdTokenLifetimeSeconds"
  let clockToleranceSeconds ←
    boundedInteger options.clockToleranceSeconds 30 0 60 "OIDC clockToleranceSeconds"
  return {
    providerId := options.providerId
    issuer := issuer
    clientId := options.clientId
    clientSecret := options.clientSecret
    allowedEndpointOrigins := (normalizedOrigins ++ [issuerOrigin]).eraseDups
    allowedSigningAlgorithms := algorithms.eraseDups
    tokenEndpointAuthMethod := authMethod
    requestTimeoutMs := requestTimeoutMs
    maxResponseBytes := maxResponseBytes
    discoveryCacheTtlMs := discoveryCacheTtl * 1000
    jwksCacheTtlMs := jwksCacheTtl * 1000
    maxIdTokenLifetimeSeconds := maxIdTokenLifetimeSeconds
    clockToleranceSeconds := clockToleranceSeconds }

end Construction

/-! ## Documents -/

/-- A property of a record; `none` is `undefined`. -/
def field (record : Fields) (name : String) : Option (Value ℚ) := record.lookup (js name)

def stringOf : Option (Value ℚ) → Option JsString
  | some (.string s) => some s
  | _ => none

/-- A JSON number that `Number.isSafeInteger` accepts. -/
def safeInteger : Option (Value ℚ) → Option Int
  | some (.number n) => if n.den = 1 ∧ n.num.natAbs < 2 ^ 53 then some n.num else none
  | _ => none

def stringArray (value : Option (Value ℚ)) (maximum : Nat) : Option (List JsString) :=
  match value with
  | some (.array items) =>
      if 1 ≤ items.length ∧ items.length ≤ maximum then
        (items.mapM fun item => (stringOf (some item)).filter fun text =>
          decide (0 < text.length ∧ text.length ≤ 100)).map List.eraseDups
      else none
  | _ => none

/-- A piece of a response body, or the failure of the connection. -/
inductive Chunk
  | data (bytes : List UInt8)
  | broken
  deriving DecidableEq, Repr

structure Response where
  status : Nat
  contentType : Option JsString
  contentLength : Option JsString
  body : Option (List Chunk)
  deriving DecidableEq, Repr

def Response.ok (response : Response) : Bool := decide (200 ≤ response.status ∧ response.status ≤ 299)

/-- The loop over the reader, after `total` bytes. -/
def readChunks (maximumBytes : Int) : Nat → List Chunk → Except Failure (List UInt8)
  | _, [] => .ok []
  | _, .broken :: _ => .error .thrown
  | total, .data bytes :: rest =>
      if maximumBytes < ↑(total + bytes.length) then .error .unavailable
      else (readChunks maximumBytes (total + bytes.length) rest).map (bytes ++ ·)

def jsonMedia : List JsString := [js "application/json"]

def jwksMedia : List JsString := [js "application/json", js "application/jwk-set+json"]

section Documents

variable (platform : Platform)

def readBoundedJson (response : Response) (maximumBytes : Int) (mediaTypes : List JsString) :
    Except Failure Fields := do
  let mediaType := response.contentType.map fun header =>
    platform.toLowerCase (trim ((header.splitOn 0x3b).headD []))
  require (mediaType.any (· ∈ mediaTypes)) .unavailable
  require (response.contentLength.all fun declared => ¬ (declared ≠ [] ∧
    declared.all isDecimalDigit ∧ maximumBytes < decimalValue declared)) .unavailable
  let chunks ← orRefuse response.body .unavailable
  let bytes ← readChunks maximumBytes 0 chunks
  match platform.parseJson bytes with
  | some (.object record) => .ok record
  | _ => .error .unavailable

variable (adapter : Adapter)

def normalizeEndpoint (value : Option (Value ℚ)) : Except Failure Url := do
  let text ← orRefuse (stringOf value) .unavailable
  require (8 ≤ text.length ∧ text.length ≤ 1000 ∧ hasControl text = false) .unavailable
  let parsed ← orRefuse (platform.parseUrl text) .unavailable
  require (parsed.protocol = js "https:" ∧ parsed.username = [] ∧ parsed.password = [] ∧
    parsed.search = [] ∧ parsed.hash = [] ∧ parsed.origin ∈ adapter.allowedEndpointOrigins)
    .unavailable
  return parsed

structure DiscoveryDocument where
  issuer : JsString
  authorizationEndpoint : Url
  tokenEndpoint : Url
  jwksUri : Url
  signingAlgorithms : List JsString
  deriving DecidableEq, Repr

/-- What the metadata must advertise, whatever issuer it declares. -/
def advertised (document : Fields) : Except Failure DiscoveryDocument := do
  let responseTypes := stringArray (field document "response_types_supported") 32
  let subjectTypes := stringArray (field document "subject_types_supported") 8
  let advertisedAlgorithms :=
    stringArray (field document "id_token_signing_alg_values_supported") 32
  require (responseTypes.any (js "code" ∈ ·) ∧
    subjectTypes.any (fun types => js "public" ∈ types ∨ js "pairwise" ∈ types) ∧
    advertisedAlgorithms.isSome) .unavailable
  let signingAlgorithms := adapter.allowedSigningAlgorithms.filter fun algorithm =>
    algorithm ∈ advertisedAlgorithms.getD []
  require (1 ≤ signingAlgorithms.length) .unavailable
  let challengeMethods := stringArray (field document "code_challenge_methods_supported") 16
  require (challengeMethods.any (js "S256" ∈ ·)) .unavailable
  let tokenAuthMethods :=
    match field document "token_endpoint_auth_methods_supported" with
    | none => some [js "client_secret_basic"]
    | methods => stringArray methods 16
  require (tokenAuthMethods.any (adapter.tokenEndpointAuthMethod ∈ ·)) .unavailable
  let authorizationEndpoint ←
    normalizeEndpoint platform adapter (field document "authorization_endpoint")
  let tokenEndpoint ← normalizeEndpoint platform adapter (field document "token_endpoint")
  let jwksUri ← normalizeEndpoint platform adapter (field document "jwks_uri")
  return {
    issuer := adapter.issuer
    authorizationEndpoint := authorizationEndpoint
    tokenEndpoint := tokenEndpoint
    jwksUri := jwksUri
    signingAlgorithms := signingAlgorithms }

/-- The checks of `loadDiscovery` on the metadata. -/
def validateDiscovery (document : Fields) : Except Failure DiscoveryDocument := do
  require (stringOf (field document "issuer") = some adapter.issuer) .unavailable
  advertised platform adapter document

/-- The checks on one key of a key set. -/
def isVerificationKey (allowedAlgorithms : List JsString) (key : Fields) : Bool :=
  (stringOf (field key "kty")).any (fun kty => kty = js "RSA" ∨ kty = js "EC") &&
  (stringOf (field key "kid")).any (fun kid => 1 ≤ kid.length ∧ kid.length ≤ 255) &&
  (field key "d").isNone && (field key "p").isNone && (field key "q").isNone &&
  (field key "k").isNone &&
  ((field key "alg").isNone ||
    (stringOf (field key "alg")).any fun alg => alg ∈ allowedAlgorithms) &&
  ((field key "use").isNone || stringOf (field key "use") = some (js "sig")) &&
  match field key "key_ops" with
  | none => true
  | some (.array items) => items.any fun item => stringOf (some item) = some (js "verify")
  | some _ => false

def kidOf (key : Fields) : JsString := (stringOf (field key "kid")).getD []

/-- The keys one by one, with the ids of those before. -/
def validateKeys (allowedAlgorithms : List JsString) :
    List JsString → List (Value ℚ) → Except Failure (List Fields)
  | _, [] => .ok []
  | keyIds, .object key :: rest =>
      if isVerificationKey allowedAlgorithms key ∧ kidOf key ∉ keyIds then
        (validateKeys allowedAlgorithms (keyIds ++ [kidOf key]) rest).map (key :: ·)
      else .error .unavailable
  | _, _ :: _ => .error .unavailable

def validateJwks (document : Fields) (allowedAlgorithms : List JsString) :
    Except Failure (List Fields) :=
  match field document "keys" with
  | some (.array keys) =>
      if 1 ≤ keys.length ∧ keys.length ≤ 100 then validateKeys allowedAlgorithms [] keys
      else .error .unavailable
  | _ => .error .unavailable

end Documents

/-! ## What the checks establish -/

section Facts

variable {platform : Platform} {adapter : Adapter}

/-- A key that only verifies: an RSA or EC key with an id and without private members. -/
structure PublicKey (key : Fields) : Prop where
  kind : stringOf (field key "kty") = some (js "RSA") ∨ stringOf (field key "kty") = some (js "EC")
  named : ∃ kid, stringOf (field key "kid") = some kid
  noPrivate : field key "d" = none ∧ field key "p" = none ∧ field key "q" = none ∧
    field key "k" = none

/-- A URL at which the adapter may ask: HTTPS at an allowed origin. -/
def AllowedEndpoint (adapter : Adapter) (url : Url) : Prop :=
  url.protocol = js "https:" ∧ url.origin ∈ adapter.allowedEndpointOrigins

theorem isVerificationKey_public {algorithms : List JsString} {key : Fields}
    (h : isVerificationKey algorithms key = true) : PublicKey key := by
  simp only [isVerificationKey, Bool.and_eq_true, Option.any_eq_true, decide_eq_true_eq,
    Option.isNone_iff_eq_none] at h
  obtain ⟨⟨⟨⟨⟨⟨⟨⟨⟨kty, hkty, hkind⟩, kid, hkid, -⟩, hd⟩, hp⟩, hq⟩, hk⟩, -⟩, -⟩, -⟩ := h
  refine ⟨?_, ⟨kid, hkid⟩, hd, hp, hq, hk⟩
  rcases hkind with rfl | rfl
  · exact .inl hkty
  · exact .inr hkty

theorem validateKeys_public {algorithms : List JsString} {keys : List (Value ℚ)}
    {keyIds : List JsString} {valid : List Fields}
    (h : validateKeys algorithms keyIds keys = .ok valid) : ∀ key ∈ valid, PublicKey key := by
  induction keys generalizing keyIds valid with
  | nil =>
      obtain rfl := Except.ok.inj h
      simp
  | cons first rest ih =>
      cases first with
      | object key =>
          unfold validateKeys at h
          split_ifs at h with hkey
          cases hrest : validateKeys algorithms (keyIds ++ [kidOf key]) rest with
          | error failure => simp [hrest, Except.map] at h
          | ok others =>
              simp only [hrest, Except.map, Except.ok.injEq] at h
              subst h
              exact List.forall_mem_cons.mpr ⟨isVerificationKey_public hkey.1, ih hrest⟩
      | null => simp [validateKeys] at h
      | bool b => simp [validateKeys] at h
      | number n => simp [validateKeys] at h
      | string s => simp [validateKeys] at h
      | array items => simp [validateKeys] at h

theorem validateJwks_public {document : Fields} {algorithms : List JsString} {keys : List Fields}
    (h : validateJwks document algorithms = .ok keys) : ∀ key ∈ keys, PublicKey key := by
  unfold validateJwks at h
  split at h
  · split_ifs at h
    exact validateKeys_public h
  · simp at h

theorem normalizeEndpoint_allowed {value : Option (Value ℚ)} {url : Url}
    (h : normalizeEndpoint platform adapter value = .ok url) : AllowedEndpoint adapter url := by
  obtain ⟨text, -, h⟩ := then_ok.mp h
  obtain ⟨-, -, h⟩ := then_ok.mp h
  obtain ⟨parsed, -, h⟩ := then_ok.mp h
  obtain ⟨_, hchecks, h⟩ := then_ok.mp h
  obtain rfl := return_ok.mp h
  obtain ⟨hprotocol, -, -, -, -, horigin⟩ := require_ok.mp hchecks
  exact ⟨hprotocol, horigin⟩

theorem advertised_ok {document : Fields} {discovery : DiscoveryDocument}
    (h : advertised platform adapter document = .ok discovery) :
    discovery.issuer = adapter.issuer ∧ AllowedEndpoint adapter discovery.tokenEndpoint ∧
      normalizeEndpoint platform adapter (field document "jwks_uri") = .ok discovery.jwksUri := by
  obtain ⟨-, -, h⟩ := then_ok.mp h
  obtain ⟨-, -, h⟩ := then_ok.mp h
  obtain ⟨-, -, h⟩ := then_ok.mp h
  obtain ⟨-, -, h⟩ := then_ok.mp h
  obtain ⟨authorization, -, h⟩ := then_ok.mp h
  obtain ⟨token, htoken, h⟩ := then_ok.mp h
  obtain ⟨jwks, hjwks, h⟩ := then_ok.mp h
  obtain rfl := return_ok.mp h
  exact ⟨rfl, normalizeEndpoint_allowed htoken, hjwks⟩

theorem validateDiscovery_ok {document : Fields} {discovery : DiscoveryDocument} :
    validateDiscovery platform adapter document = .ok discovery ↔
      stringOf (field document "issuer") = some adapter.issuer ∧
        advertised platform adapter document = .ok discovery := by
  rw [validateDiscovery, then_ok]
  constructor
  · rintro ⟨_, hissuer, h⟩
    exact ⟨require_ok.mp hissuer, h⟩
  · rintro ⟨hissuer, h⟩
    exact ⟨(), require_ok.mpr hissuer, h⟩

end Facts

end Oidc
