import MuniRag.Lib.Actions
import MuniRag.Oidc.Adapter

/-!
# Logins with the OIDC adapter

The calls of `OidcHumanIdentityProvider` over the network.  The adapter keeps the metadata
and the key set of the provider for a while; a token that its keys do not verify makes it
fetch the keys once more.

The world is any clock and any answers: each reading of the clock and each request takes
one tick, and the network says what the clock shows and what is answered at a tick.  What
the adapter has asked is recorded.  The token verification of the `jose` package is a
parameter, with what the package documents of it (`Jose`).
-/

namespace Oidc

open Fallible Json

/-! ## Verification of tokens -/

/-- The options of `jwtVerify`; the required claims are always the same. -/
structure VerifyOptions where
  issuer : JsString
  audience : JsString
  algorithms : List JsString
  clockTolerance : Int
  currentDate : Time
  deriving DecidableEq, Repr

/-- The audiences of a payload: one text or an array of texts. -/
def audiencesOf (payload : Fields) : List JsString :=
  match field payload "aud" with
  | some (.string audience) => [audience]
  | some (.array items) => items.filterMap fun item => stringOf (some item)
  | _ => []

def numberOf : Option (Value ℚ) → Option ℚ
  | some (.number n) => some n
  | _ => none

/-- The claims that `jwtVerify` checks, at the second of the current date. -/
structure RightClaims (payload : Fields) (options : VerifyOptions) : Prop where
  issuer : stringOf (field payload "iss") = some options.issuer
  audience : options.audience ∈ audiencesOf payload
  expires : ∃ exp, numberOf (field payload "exp") = some exp ∧
    ((options.currentDate / 1000 - options.clockTolerance : Int) : ℚ) < exp
  notBefore : field payload "nbf" = none ∨ ∃ nbf, numberOf (field payload "nbf") = some nbf ∧
    nbf ≤ ((options.currentDate / 1000 + options.clockTolerance : Int) : ℚ)
  required : ∀ claim ∈ ["iss", "sub", "aud", "exp", "iat", "nonce"], (field payload claim).isSome

/-- The key of a set that a token's header names, if its signature verifies under it. -/
def VerifiesUnder (signedBy : JsString → Fields → Bool) (header : Fields) (token : JsString)
    (keys : List Fields) : Prop :=
  ∃ key ∈ keys, stringOf (field header "kid") = stringOf (field key "kid") ∧
    signedBy token key = true

/-- The functions of the `jose` package.  `signedBy token key` says that the signature of
the token verifies under the key, used as its parameters allow, and `usable` that the key
can be imported. -/
structure Jose where
  decodeProtectedHeader : JsString → Option Fields
  payloadOf : JsString → Option Fields
  signedBy : JsString → Fields → Bool
  usable : Fields → Bool
  jwtVerify : JsString → List Fields → VerifyOptions → Except VerifyError Fields
  /-- Exactly the signed tokens with right claims are accepted. -/
  accepts : ∀ token keys options payload, jwtVerify token keys options = .ok payload ↔
    payloadOf token = some payload ∧ RightClaims payload options ∧
      ∃ header, decodeProtectedHeader token = some header ∧
        (∃ algorithm ∈ options.algorithms, stringOf (field header "alg") = some algorithm) ∧
        VerifiesUnder signedBy header token keys
  /-- The key is looked for and the signature checked before the claims. -/
  keyErrors : ∀ token keys options header, decodeProtectedHeader token = some header →
    (payloadOf token).isSome →
    (∃ algorithm ∈ options.algorithms, stringOf (field header "alg") = some algorithm) →
    (∀ key ∈ keys, usable key = true) → ¬ VerifiesUnder signedBy header token keys →
    jwtVerify token keys options = .error .noMatchingKey ∨
      jwtVerify token keys options = .error .signatureFailed

/-! ## The world and the state of the adapter -/

inductive Method
  | get
  | post
  deriving DecidableEq, Repr

structure Request where
  method : Method
  url : Url
  accept : JsString
  form : List (JsString × JsString)
  authorization : Option JsString
  deriving DecidableEq, Repr

/-- What the clock shows and what is answered, by ticks; `none` is a request that failed,
timed out or was redirected. -/
structure Network where
  clock : Nat → Time
  respond : Nat → Request → Option Response

inductive Purpose
  | discovery
  | token
  | jwks (forceRefresh : Bool)
  deriving DecidableEq, Repr

structure Sent where
  tick : Nat
  purpose : Purpose
  request : Request
  deriving DecidableEq, Repr

structure DiscoveryCache where
  value : DiscoveryDocument
  expiresAtMs : Time
  deriving DecidableEq, Repr

structure JwksCache where
  value : List Fields
  uri : JsString
  expiresAtMs : Time

structure State where
  discoveryCache : Option DiscoveryCache
  jwksCache : Option JwksCache
  tick : Nat
  sent : List Sent

/-- The state after construction. -/
def State.initial : State where
  discoveryCache := none
  jwksCache := none
  tick := 0
  sent := []

abbrev Call (α : Type) : Type := Fallible Failure State α

structure AuthorizationCodeExchange where
  code : JsString
  codeVerifier : JsString
  redirectUri : JsString
  deriving DecidableEq, Repr

structure ProviderIdentity where
  issuer : JsString
  subject : JsString
  nonce : JsString
  deriving DecidableEq, Repr

/-! ## The calls -/

section Calls

variable (platform : Platform) (jose : Jose) (network : Network) (adapter : Adapter)

/-- `this.#now().getTime()`. -/
def now : Call Time :=
  readModify fun s => (network.clock s.tick, { s with tick := s.tick + 1 })

def askNetwork (purpose : Purpose) (asked : Request) : Call (Option Response) :=
  readModify fun s => (network.respond s.tick asked,
    { s with tick := s.tick + 1, sent := s.sent ++ [⟨s.tick, purpose, asked⟩] })

def request (purpose : Purpose) (asked : Request) : Call Response := do
  match ← askNetwork network purpose asked with
  | some response => pure response
  | none => fail .unavailable

def getRequest (url : Url) (accept : String) : Request where
  method := .get
  url := url
  accept := js accept
  form := []
  authorization := none

/-- Where an exception of `new URL` or of another pure call surfaces. -/
def thrown {α : Type} (x : Except JsString α) : Except Failure α := x.mapError fun _ => .thrown

def fetchDiscovery : Call DiscoveryDocument := do
  let url ← lift (thrown (discoveryUrl platform adapter.issuer))
  let response ← request network .discovery (getRequest url "application/json")
  if response.ok then
    let document ← lift (readBoundedJson platform response adapter.maxResponseBytes jsonMedia)
    let value ← lift (validateDiscovery platform adapter document)
    let stored ← now network
    modify fun s => { s with
      discoveryCache := some ⟨value, stored + adapter.discoveryCacheTtlMs⟩ }
    pure value
  else fail .unavailable

def loadDiscovery : Call DiscoveryDocument := do
  match (← get).discoveryCache with
  | some cached =>
      if (← now network) < cached.expiresAtMs then pure cached.value
      else fetchDiscovery platform network adapter
  | none => fetchDiscovery platform network adapter

def fetchJwks (uri : Url) (forceRefresh : Bool) : Call (List Fields) := do
  let response ← request network (.jwks forceRefresh)
    (getRequest uri "application/jwk-set+json, application/json")
  if response.ok then
    let document ← lift (readBoundedJson platform response adapter.maxResponseBytes jwksMedia)
    let value ← lift (validateJwks document adapter.allowedSigningAlgorithms)
    let stored ← now network
    modify fun s => { s with
      jwksCache := some ⟨value, uri.href, stored + adapter.jwksCacheTtlMs⟩ }
    pure value
  else fail .unavailable

/-- The cached key set, if it is of this URL and a refresh is not forced. -/
def usableCache (uri : Url) (forceRefresh : Bool) (s : State) : Option JwksCache :=
  if forceRefresh then none else s.jwksCache.filter (·.uri = uri.href)

def loadJwks (uri : Url) (forceRefresh : Bool) : Call (List Fields) := do
  match usableCache uri forceRefresh (← get) with
  | some cached =>
      if (← now network) < cached.expiresAtMs then pure cached.value
      else fetchJwks platform network adapter uri forceRefresh
  | none => fetchJwks platform network adapter uri forceRefresh

/-- The checks on the header of a token before its signature is verified. -/
def acceptsHeader (discovery : DiscoveryDocument) (header : Fields) : Bool :=
  (stringOf (field header "alg")).any (· ∈ discovery.signingAlgorithms) &&
  (stringOf (field header "kid")).any (fun kid => 1 ≤ kid.length ∧ kid.length ≤ 255) &&
  (field header "jku").isNone && (field header "x5u").isNone && (field header "jwk").isNone &&
  (field header "crit").isNone &&
  ((field header "typ").isNone || stringOf (field header "typ") = some (js "JWT"))

/-- The checks on the audiences, whose items `jwtVerify` need not have read as texts. -/
def acceptsAudience (payload : Fields) : Bool :=
  adapter.clientId ∈ audiencesOf payload &&
  let several := match field payload "aud" with
    | some (.array items) => decide (1 < items.length)
    | _ => false
  (!several || stringOf (field payload "azp") = some adapter.clientId) &&
  ((field payload "azp").isNone || stringOf (field payload "azp") = some adapter.clientId)

/-- The subject, the nonce and the times of a payload, if they have the right form. -/
def claimsOf (payload : Fields) : Option (JsString × JsString × Int × Int) := do
  let subject ← stringOf (field payload "sub")
  let nonce ← stringOf (field payload "nonce")
  let issuedAt ← safeInteger (field payload "iat")
  let expiresAt ← safeInteger (field payload "exp")
  if 1 ≤ subject.length ∧ subject.length ≤ 255 ∧ hasControl subject = false ∧
      isOpaque nonce = true ∧ issuedAt < expiresAt then
    some (subject, nonce, issuedAt, expiresAt)
  else none

/-- The checks on a verified payload, with the clock read for the time of issue. -/
def checkPayload (discovery : DiscoveryDocument) (payload : Fields) : Call ProviderIdentity :=
  if acceptsAudience adapter payload then
    match claimsOf payload with
    | none => fail .authentication
    | some (subject, nonce, issuedAt, expiresAt) => do
      let current ← now network
      if issuedAt ≤ current / 1000 + adapter.clockToleranceSeconds ∧
          expiresAt - issuedAt ≤ adapter.maxIdTokenLifetimeSeconds then
        pure { issuer := discovery.issuer, subject := subject, nonce := nonce }
      else fail .authentication
  else fail .authentication

def verifyIdToken (idToken : JsString) (discovery : DiscoveryDocument) (forceKeyRefresh : Bool) :
    Call ProviderIdentity := do
  match jose.decodeProtectedHeader idToken with
  | none => fail .authentication
  | some header =>
    if acceptsHeader discovery header then
      let keys ← loadJwks platform network adapter discovery.jwksUri forceKeyRefresh
      let currentDate ← now network
      let payload ← lift ((jose.jwtVerify idToken keys {
        issuer := discovery.issuer
        audience := adapter.clientId
        algorithms := discovery.signingAlgorithms
        clockTolerance := adapter.clockToleranceSeconds
        currentDate := currentDate }).mapError .verify)
      checkPayload network adapter discovery payload
    else fail .authentication

def refreshableKeyError : Failure → Bool
  | .verify .noMatchingKey => true
  | .verify .signatureFailed => true
  | _ => false

def normalizeRedirectUri (value : JsString) : Except Failure JsString := do
  let parsed ← Results.orRefuse (platform.parseUrl value) .thrown
  let loopback := parsed.protocol = js "http:" ∧
    parsed.hostname ∈ [js "localhost", js "127.0.0.1", js "::1"]
  Results.require ((loopback ∨ parsed.protocol = js "https:") ∧ parsed.username = [] ∧
    parsed.password = [] ∧ parsed.hash = []) .authentication
  return parsed.href

/-- The POST to the token endpoint, with the secret where the method puts it. -/
def tokenRequest (discovery : DiscoveryDocument) (exchange : AuthorizationCodeExchange)
    (redirectUri : JsString) : Request :=
  let basic : Bool := adapter.tokenEndpointAuthMethod = js "client_secret_basic"
  { method := .post
    url := discovery.tokenEndpoint
    accept := js "application/json"
    form := [(js "grant_type", js "authorization_code"), (js "code", exchange.code),
        (js "redirect_uri", redirectUri), (js "code_verifier", exchange.codeVerifier)] ++
      if basic then [] else
        [(js "client_id", adapter.clientId), (js "client_secret", adapter.clientSecret)]
    authorization := if basic then
      some (js "Basic " ++ platform.basicCredentials adapter.clientId adapter.clientSecret)
      else none }

/-- The token of a token response, if the response has the right form. -/
def idTokenOf (tokenResponse : Fields) : Option JsString :=
  (stringOf (field tokenResponse "id_token")).filter fun idToken =>
    decide (64 ≤ idToken.length ∧ idToken.length ≤ 16384) && isJwt idToken &&
    ((field tokenResponse "token_type").isNone ||
      (stringOf (field tokenResponse "token_type")).any fun tokenType =>
        platform.toLowerCase tokenType = js "bearer")

/-- The first `catch`: with keys fetched anew, if the key was not found or the signature
failed. -/
def retryVerification (discovery : DiscoveryDocument) (idToken : JsString) (error : Failure) :
    Call ProviderIdentity :=
  if error = .unavailable then fail .unavailable
  else if refreshableKeyError error then
    recover (verifyIdToken platform jose network adapter idToken discovery true)
      fun retryError =>
        if retryError = .unavailable then fail .unavailable else fail .authentication
  else fail .authentication

def verifyRefreshing (discovery : DiscoveryDocument) (idToken : JsString) :
    Call ProviderIdentity :=
  recover (verifyIdToken platform jose network adapter idToken discovery false)
    (retryVerification platform jose network adapter discovery idToken)

def readTokenResponse (discovery : DiscoveryDocument) (response : Response) :
    Call ProviderIdentity :=
  if response.status = 429 ∨ 500 ≤ response.status then fail .unavailable
  else if response.ok then do
    let tokenResponse ←
      lift (readBoundedJson platform response adapter.maxResponseBytes jsonMedia)
    match idTokenOf platform tokenResponse with
    | none => fail .authentication
    | some idToken => verifyRefreshing platform jose network adapter discovery idToken
  else fail .authentication

def exchangeAuthorizationCode (exchange : AuthorizationCodeExchange) : Call ProviderIdentity :=
  if isAuthorizationCode exchange.code = true ∧ isOpaque exchange.codeVerifier = true then do
    let discovery ← loadDiscovery platform network adapter
    let redirectUri ← lift (normalizeRedirectUri platform exchange.redirectUri)
    let response ←
      request network .token (tokenRequest platform adapter discovery exchange redirectUri)
    readTokenResponse platform jose network adapter discovery response
  else fail .authentication

structure AuthorizationRequest where
  state : JsString
  nonce : JsString
  codeChallenge : JsString
  redirectUri : JsString
  deriving DecidableEq, Repr

/-- `buildAuthorizationUrl`, up to the URL it assembles from what is returned here. -/
def buildAuthorizationUrl (asked : AuthorizationRequest) : Call (Url × JsString) :=
  if isOpaque asked.state = true ∧ isOpaque asked.nonce = true ∧
      isOpaque asked.codeChallenge = true then do
    let discovery ← loadDiscovery platform network adapter
    let redirectUri ← lift (normalizeRedirectUri platform asked.redirectUri)
    pure (discovery.authorizationEndpoint, redirectUri)
  else fail .authentication

/-- What the session handler asks of the adapter. -/
inductive Operation
  | authorize (asked : AuthorizationRequest)
  | exchange (exchange : AuthorizationCodeExchange)
  deriving DecidableEq, Repr

/-- The state that an operation leaves, whether it returns or fails. -/
def perform (s : State) : Operation → State
  | .authorize asked => stateAfter (buildAuthorizationUrl platform network adapter asked) s
  | .exchange exchange =>
      stateAfter (exchangeAuthorizationCode platform jose network adapter exchange) s

end Calls

end Oidc
