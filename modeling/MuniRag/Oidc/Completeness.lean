import MuniRag.Oidc.Soundness

/-!
# Who can log in

A provider that conforms to OpenID Connect Discovery declares the configured issuer in its
metadata and serves the metadata below it.  The adapter compares the declared issuer with
the issuer that it has normalised, and it asks for the metadata at the well-known path
before the path of the issuer.  So a login with such a provider succeeds, through expired
caches and rotated keys, exactly when the issuer is its own normal form and the provider
serves its metadata where the adapter asks (`login_iff`): the provider of an issuer with a
final slash is never reached, nor one that serves the metadata of an issuer with a path at
the standard place only.
-/

namespace Oidc

open Fallible Json Results

section Completeness

/-! ## Conforming providers -/

/-- A provider: its metadata, the URLs where it serves them, and its key set at each tick. -/
structure Provider where
  metadata : Fields
  serves : JsString → Bool
  keySet : Nat → Fields

/-- Where OpenID Connect Discovery puts the metadata: below the issuer, less a final slash. -/
def standardLocation (platform : Platform) (issuer : JsString) : Option Url :=
  platform.parseUrl (stripSlash issuer ++ wellKnownPath)

/-- An answer that the adapter reads as a document. -/
def Reads (platform : Platform) (adapter : Adapter) (media : List JsString)
    (answer : Option Response) (document : Fields) : Prop :=
  ∃ response, answer = some response ∧ response.ok = true ∧
    readBoundedJson platform response adapter.maxResponseBytes media = .ok document

/-- The provider conforms to OpenID Connect Discovery for exactly this issuer and supports
what the adapter requires: the code flow with PKCE, one of the algorithms, the client
authentication, endpoints at allowed origins, and key sets of public verification keys. -/
structure Conforms (platform : Platform) (jose : Jose) (network : Network) (adapter : Adapter)
    (issuer : JsString) (provider : Provider) (discovery : DiscoveryDocument) : Prop where
  declares : stringOf (field provider.metadata "issuer") = some issuer
  supports : advertised platform adapter provider.metadata = .ok discovery
  located : ∀ url, standardLocation platform issuer = some url → provider.serves url.href = true
  metadata : ∀ k url, provider.serves url.href = true →
    Reads platform adapter jsonMedia (network.respond k (getRequest url "application/json"))
      provider.metadata
  elsewhere : ∀ k url document, provider.serves url.href = false →
    Reads platform adapter jsonMedia (network.respond k (getRequest url "application/json"))
      document → stringOf (field document "issuer") ≠ some adapter.issuer
  keys : ∀ k uri, uri.href = discovery.jwksUri.href →
    Reads platform adapter jwksMedia (network.respond k
      (getRequest uri "application/jwk-set+json, application/json")) (provider.keySet k)
  verificationKeys : ∀ k, ∃ keys,
    validateJwks (provider.keySet k) adapter.allowedSigningAlgorithms = .ok keys ∧
      ∀ key ∈ keys, jose.usable key = true

structure IssuedToken where
  idToken : JsString
  header : Fields
  payload : Fields
  subject : JsString
  nonce : JsString
  issuedAt : Int
  expiresAt : Int

/-- At tick `k` the token endpoint answers the request with a token for this client, whose
claims are right and whose key is published at every tick until the exchange has ended. -/
structure Issued (platform : Platform) (jose : Jose) (network : Network) (adapter : Adapter)
    (issuer : JsString) (provider : Provider) (discovery : DiscoveryDocument) (asked : Request)
    (stop k : Nat) (token : IssuedToken) : Prop where
  answered : ∃ tokenResponse,
    Reads platform adapter jsonMedia (network.respond k asked) tokenResponse ∧
      idTokenOf platform tokenResponse = some token.idToken
  header : jose.decodeProtectedHeader token.idToken = some token.header
  signature : acceptsHeader discovery token.header = true
  payload : jose.payloadOf token.idToken = some token.payload
  audience : acceptsAudience adapter token.payload = true
  subject : claimsOf token.payload =
    some (token.subject, token.nonce, token.issuedAt, token.expiresAt)
  lifetime : token.expiresAt - token.issuedAt ≤ adapter.maxIdTokenLifetimeSeconds
  claims : ∀ j, k < j → j < stop → RightClaims token.payload {
    issuer := issuer
    audience := adapter.clientId
    algorithms := discovery.signingAlgorithms
    clockTolerance := adapter.clockToleranceSeconds
    currentDate := network.clock j }
  issuedAt : ∀ j, k < j → j < stop →
    token.issuedAt ≤ network.clock j / 1000 + adapter.clockToleranceSeconds
  published : ∀ j, k < j → j < stop → ∀ keys,
    validateJwks (provider.keySet j) adapter.allowedSigningAlgorithms = .ok keys →
      VerifiesUnder jose.signedBy token.header token.idToken keys

variable {platform : Platform} {jose : Jose} {network : Network} {adapter : Adapter}
  {issuer : JsString} {provider : Provider} {discovery : DiscoveryDocument}

/-- The provider serves its metadata where the adapter asks. -/
def ServedWhereAsked (platform : Platform) (adapter : Adapter) (provider : Provider) : Prop :=
  ∃ url, discoveryUrl platform adapter.issuer = .ok url ∧ provider.serves url.href = true

/-! ## The metadata -/

theorem Reads.unique {media : List JsString} {answer : Option Response}
    {document other : Fields} (h : Reads platform adapter media answer document)
    (h' : Reads platform adapter media answer other) : document = other := by
  obtain ⟨response, hanswer, -, hread⟩ := h
  obtain ⟨response', hanswer', -, hread'⟩ := h'
  obtain rfl : response = response' := Option.some.inj (hanswer.symm.trans hanswer')
  exact Except.ok.inj (hread.symm.trans hread')

/-- Metadata that passed are those of the provider, found where the adapter asked. -/
theorem Discovered.served (hconforms : Conforms platform jose network adapter issuer provider
    discovery) {s : State} {document : Fields} {found : DiscoveryDocument}
    (h : Discovered platform network adapter s document found) :
    adapter.issuer = issuer ∧ ServedWhereAsked platform adapter provider ∧ found = discovery := by
  obtain ⟨k, url, response, hurl, hanswered, hok, hread, hvalid⟩ := h
  have hreads : Reads platform adapter jsonMedia
      (network.respond k (getRequest url "application/json")) document :=
    ⟨response, hanswered.answer, hok, hread⟩
  obtain ⟨hissuer, hadvertised⟩ := validateDiscovery_ok.mp hvalid
  have hserved : provider.serves url.href = true := by
    by_contra hnot
    exact hconforms.elsewhere k url document (by simpa using hnot) hreads hissuer
  obtain rfl := hreads.unique (hconforms.metadata k url hserved)
  refine ⟨?_, ⟨url, hurl, hserved⟩, ?_⟩
  · exact Option.some.inj (hissuer.symm.trans hconforms.declares)
  · exact Except.ok.inj (hadvertised.symm.trans hconforms.supports)

theorem loadDiscovery_run (hconforms : Conforms platform jose network adapter issuer provider
    discovery) (hissuer : adapter.issuer = issuer)
    (hserved : ServedWhereAsked platform adapter provider) {s : State}
    (hs : Cached platform network adapter s) :
    ∃ s', loadDiscovery platform network adapter s = (.ok discovery, s') := by
  have hfetch : ∀ s : State, ∃ s',
      fetchDiscovery platform network adapter s = (.ok discovery, s') := by
    intro s
    obtain ⟨url, hurl, hserves⟩ := hserved
    obtain ⟨response, hanswer, hok, hread⟩ := hconforms.metadata s.tick url hserves
    have hvalid : validateDiscovery platform adapter provider.metadata = .ok discovery :=
      validateDiscovery_ok.mpr ⟨hissuer ▸ hconforms.declares, hconforms.supports⟩
    have hlift : thrown (discoveryUrl platform adapter.issuer) = .ok url := by
      rw [hurl]
      rfl
    rw [fetchDiscovery, bind_of_ok (lift_of_ok hlift)]
    have hrequest : request network .discovery (getRequest url "application/json") s =
        (.ok response, { s with
          tick := s.tick + 1
          sent := s.sent ++ [⟨s.tick, .discovery, getRequest url "application/json"⟩] }) := by
      simp only [request, askNetwork, bind, readModify, hanswer]
      rfl
    rw [bind_of_ok hrequest, if_pos hok, bind_of_ok (lift_of_ok hread),
      bind_of_ok (lift_of_ok hvalid)]
    exact ⟨_, rfl⟩
  cases hcache : s.discoveryCache with
  | none =>
      have hrun : loadDiscovery platform network adapter s =
          fetchDiscovery platform network adapter s := by
        simp only [loadDiscovery, bind, Fallible.get, readModify, hcache]
      rw [hrun]
      exact hfetch s
  | some cached =>
      obtain ⟨document, hdiscovered⟩ := hs.discovery cached hcache
      obtain ⟨-, -, hsame⟩ := hdiscovered.served hconforms
      have hrun : loadDiscovery platform network adapter s =
          (if network.clock s.tick < cached.expiresAtMs then
            (pure cached.value : Call DiscoveryDocument)
          else fetchDiscovery platform network adapter) { s with tick := s.tick + 1 } := by
        simp only [loadDiscovery, bind, Fallible.get, readModify, now, hcache]
      rw [hrun]
      split_ifs
      · exact ⟨_, by rw [hsame]; rfl⟩
      · exact hfetch _

/-! ## The keys -/

/-- Keys that the adapter fetched at this URL are a key set of the provider. -/
theorem KeysFetched.served (hconforms : Conforms platform jose network adapter issuer provider
    discovery) {s : State} {k : Nat} {uri : Url} {keys : List Fields}
    (h : KeysFetched platform network adapter s k uri keys)
    (huri : uri.href = discovery.jwksUri.href) :
    validateJwks (provider.keySet k) adapter.allowedSigningAlgorithms = .ok keys := by
  obtain ⟨forceRefresh, response, document, -, hanswered, hok, hread, hvalid⟩ := h
  have hreads : Reads platform adapter jwksMedia (network.respond k
      (getRequest uri "application/jwk-set+json, application/json")) document :=
    ⟨response, hanswered.answer, hok, hread⟩
  rw [← hreads.unique (hconforms.keys k uri huri)]
  exact hvalid

theorem fetchJwks_run (hconforms : Conforms platform jose network adapter issuer provider
    discovery) (forceRefresh : Bool) (s : State) :
    ∃ keys s', fetchJwks platform network adapter discovery.jwksUri forceRefresh s =
        (.ok keys, s') ∧
      validateJwks (provider.keySet s.tick) adapter.allowedSigningAlgorithms = .ok keys ∧
      s'.tick = s.tick + 2 := by
  obtain ⟨response, hanswer, hok, hread⟩ := hconforms.keys s.tick discovery.jwksUri rfl
  obtain ⟨keys, hvalid, -⟩ := hconforms.verificationKeys s.tick
  let asked := getRequest discovery.jwksUri "application/jwk-set+json, application/json"
  have hrequest : request network (.jwks forceRefresh) asked s = (.ok response, { s with
      tick := s.tick + 1
      sent := s.sent ++ [⟨s.tick, .jwks forceRefresh, asked⟩] }) := by
    simp only [request, askNetwork, bind, readModify, asked, hanswer]
    rfl
  rw [fetchJwks, bind_of_ok hrequest, if_pos hok, bind_of_ok (lift_of_ok hread),
    bind_of_ok (lift_of_ok hvalid)]
  exact ⟨keys, _, rfl, hvalid, rfl⟩

/-- The adapter gets a key set of the provider, a forced one from now. -/
theorem loadJwks_run (hconforms : Conforms platform jose network adapter issuer provider
    discovery) (forceRefresh : Bool) {s : State} (hs : Cached platform network adapter s) :
    ∃ keys s' k, loadJwks platform network adapter discovery.jwksUri forceRefresh s =
        (.ok keys, s') ∧
      validateJwks (provider.keySet k) adapter.allowedSigningAlgorithms = .ok keys ∧
      s.tick ≤ s'.tick ∧ (forceRefresh = true → s.tick ≤ k ∧ k < s'.tick) := by
  cases hcache : usableCache discovery.jwksUri forceRefresh s with
  | none =>
      have hrun : loadJwks platform network adapter discovery.jwksUri forceRefresh s =
          fetchJwks platform network adapter discovery.jwksUri forceRefresh s := by
        simp only [loadJwks, bind, Fallible.get, readModify, hcache]
      obtain ⟨keys, s', hfetch, hvalid, htick⟩ := fetchJwks_run hconforms forceRefresh s
      refine ⟨keys, s', s.tick, hrun.trans hfetch, hvalid, ?_, fun _ => ⟨Nat.le_refl _, ?_⟩⟩ <;>
        omega
  | some cached =>
      obtain ⟨hjwks, huri⟩ := usableCache_some hcache
      obtain ⟨k, uri, hhref, hfetched, -⟩ := hs.jwks cached hjwks
      have hnotForced : forceRefresh = false := by
        cases forceRefresh with
        | false => rfl
        | true => simp [usableCache] at hcache
      have hrun : loadJwks platform network adapter discovery.jwksUri forceRefresh s =
          (if network.clock s.tick < cached.expiresAtMs then
            (pure cached.value : Call (List Fields))
          else fetchJwks platform network adapter discovery.jwksUri forceRefresh)
            { s with tick := s.tick + 1 } := by
        simp only [loadJwks, bind, Fallible.get, readModify, now, hcache]
      rw [hrun]
      split_ifs
      · exact ⟨cached.value, _, k, rfl, hfetched.served hconforms (hhref.trans huri),
          Nat.le_succ _, fun h => by simp [hnotForced] at h⟩
      · obtain ⟨keys, s', hfetch, hvalid, htick⟩ := fetchJwks_run hconforms forceRefresh
          { s with tick := s.tick + 1 }
        refine ⟨keys, s', s.tick + 1, hfetch, hvalid, ?_, fun _ => ⟨Nat.le_succ _, ?_⟩⟩ <;>
          simp only at htick <;> omega

/-! ## The token -/

variable {asked : Request} {stop k : Nat} {token : IssuedToken}

/-- With keys that verify the token it is accepted; other keys of the provider are refreshed.
The states in between have passed no more ticks than the whole. -/
theorem verifyIdToken_run (hconforms : Conforms platform jose network adapter issuer provider
    discovery) (hissuer : adapter.issuer = issuer)
    (htoken : Issued platform jose network adapter issuer provider discovery asked stop k token)
    (forceKeyRefresh : Bool) {s : State} (hs : Cached platform network adapter s)
    (hstart : k < s.tick)
    (hstop : (stateAfter (verifyIdToken platform jose network adapter token.idToken discovery
      forceKeyRefresh) s).tick ≤ stop) :
    (∃ s', verifyIdToken platform jose network adapter token.idToken discovery forceKeyRefresh s =
      (.ok ⟨issuer, token.subject, token.nonce⟩, s')) ∨
    forceKeyRefresh = false ∧ ∃ error s',
      verifyIdToken platform jose network adapter token.idToken discovery forceKeyRefresh s =
        (.error error, s') ∧ refreshableKeyError error = true := by
  obtain ⟨keys, s', k', hload, hvalid, htick, hforced⟩ :=
    loadJwks_run hconforms forceKeyRefresh hs
  have hdiscoveryIssuer : discovery.issuer = issuer :=
    (advertised_ok hconforms.supports).1.trans hissuer
  have hnow : now network s' =
      (.ok (network.clock s'.tick), { s' with tick := s'.tick + 1 }) := rfl
  have halgorithm : ∃ algorithm ∈ discovery.signingAlgorithms,
      stringOf (field token.header "alg") = some algorithm := by
    have hsignature := htoken.signature
    simp only [acceptsHeader, Bool.and_eq_true, Option.any_eq_true, decide_eq_true_eq]
      at hsignature
    obtain ⟨⟨⟨⟨⟨⟨⟨algorithm, halg, hmem⟩, -⟩, -⟩, -⟩, -⟩, -⟩, -⟩ := hsignature
    exact ⟨algorithm, hmem, halg⟩
  let options : VerifyOptions := {
    issuer := discovery.issuer
    audience := adapter.clientId
    algorithms := discovery.signingAlgorithms
    clockTolerance := adapter.clockToleranceSeconds
    currentDate := network.clock s'.tick }
  -- The run up to the verification, whatever its outcome.
  have hrun : verifyIdToken platform jose network adapter token.idToken discovery
      forceKeyRefresh s =
      (lift ((jose.jwtVerify token.idToken keys options).mapError .verify) >>=
        checkPayload network adapter discovery) { s' with tick := s'.tick + 1 } := by
    simp only [verifyIdToken, htoken.header]
    rw [if_pos htoken.signature, bind_of_ok hload, bind_of_ok hnow]
  have hrest : Advances 0 0 { s' with tick := s'.tick + 1 }
      (stateAfter (verifyIdToken platform jose network adapter token.idToken discovery
        forceKeyRefresh) s) := by
    rw [stateAfter, hrun]
    exact advances_bind (advances_lift _) (checkPayload_advances discovery) _
  have hticks : s'.tick < stop := (Nat.lt_of_succ_le hrest.tick).trans_le hstop
  by_cases hverifies : VerifiesUnder jose.signedBy token.header token.idToken keys
  · left
    have hclaims : RightClaims token.payload options := by
      have hright := htoken.claims s'.tick (hstart.trans_le htick) hticks
      rwa [← hdiscoveryIssuer] at hright
    have haccepted : jose.jwtVerify token.idToken keys options = .ok token.payload :=
      (jose.accepts _ _ _ _).mpr
        ⟨htoken.payload, hclaims, token.header, htoken.header, halgorithm, hverifies⟩
    have hchecked : verifyIdToken platform jose network adapter token.idToken discovery
        forceKeyRefresh s =
        (if token.issuedAt ≤ network.clock (s'.tick + 1) / 1000 + adapter.clockToleranceSeconds ∧
            token.expiresAt - token.issuedAt ≤ adapter.maxIdTokenLifetimeSeconds then
          pure { issuer := discovery.issuer, subject := token.subject, nonce := token.nonce }
        else fail .authentication) { s' with tick := s'.tick + 1 + 1 } := by
      have hlift : ((jose.jwtVerify token.idToken keys options).mapError .verify :
          Except Failure Fields) = .ok token.payload := by
        rw [haccepted]
        rfl
      rw [hrun, bind_of_ok (lift_of_ok hlift), checkPayload, if_pos htoken.audience,
        htoken.subject]
      rfl
    have hlast : s'.tick + 1 < stop := by
      have hafter : (stateAfter (verifyIdToken platform jose network adapter token.idToken
          discovery forceKeyRefresh) s).tick = s'.tick + 1 + 1 := by
        rw [stateAfter, hchecked]
        split_ifs <;> rfl
      omega
    have hnotFuture := htoken.issuedAt (s'.tick + 1) (by omega) hlast
    rw [hchecked, if_pos ⟨hnotFuture, htoken.lifetime⟩, hdiscoveryIssuer]
    exact ⟨_, rfl⟩
  · right
    have hnotForced : forceKeyRefresh = false := by
      by_contra hforce
      obtain ⟨hlow, hhigh⟩ := hforced (by simpa using hforce)
      have hpublished := htoken.published k' (hstart.trans_le hlow) (hhigh.trans hticks)
      exact hverifies (hpublished keys hvalid)
    have husable : ∀ key ∈ keys, jose.usable key = true := by
      obtain ⟨keys', hvalid', husable⟩ := hconforms.verificationKeys k'
      obtain rfl : keys = keys' := Except.ok.inj (hvalid.symm.trans hvalid')
      exact husable
    have hpayload : (jose.payloadOf token.idToken).isSome := by simp [htoken.payload]
    have hrefused : ∃ error, jose.jwtVerify token.idToken keys options = .error error ∧
        refreshableKeyError (.verify error) = true := by
      rcases jose.keyErrors token.idToken keys options token.header htoken.header hpayload
        halgorithm husable hverifies with herror | herror
      · exact ⟨.noMatchingKey, herror, rfl⟩
      · exact ⟨.signatureFailed, herror, rfl⟩
    obtain ⟨error, herror, hrefreshable⟩ := hrefused
    have hlift : ((jose.jwtVerify token.idToken keys options).mapError .verify :
        Except Failure Fields) = .error (.verify error) := by
      rw [herror]
      rfl
    refine ⟨hnotForced, .verify error, { s' with tick := s'.tick + 1 }, ?_, hrefreshable⟩
    rw [hrun]
    exact bind_of_error (lift_of_error hlift) _

/-- An exchange with a well-formed code, whenever it asks for the token a rightly issued one
is given, for as long as the exchange lasts. -/
structure Login (platform : Platform) (jose : Jose) (network : Network) (adapter : Adapter)
    (issuer : JsString) (provider : Provider) (discovery : DiscoveryDocument)
    (exchange : AuthorizationCodeExchange) (redirectUri : JsString) (s : State) : Prop where
  code : isAuthorizationCode exchange.code = true
  verifier : isOpaque exchange.codeVerifier = true
  redirect : normalizeRedirectUri platform exchange.redirectUri = .ok redirectUri
  issued : ∀ k, s.tick ≤ k → k < (stateAfter
      (exchangeAuthorizationCode platform jose network adapter exchange) s).tick →
    ∃ token, Issued platform jose network adapter issuer provider discovery
      (tokenRequest platform adapter discovery exchange redirectUri) (stateAfter
        (exchangeAuthorizationCode platform jose network adapter exchange) s).tick k token

/-- With a provider that serves its metadata where the adapter asks, a login succeeds. -/
theorem exchange_run (hconforms : Conforms platform jose network adapter issuer provider
    discovery) (hissuer : adapter.issuer = issuer)
    (hserved : ServedWhereAsked platform adapter provider)
    {exchange : AuthorizationCodeExchange} {redirectUri : JsString} {s : State}
    (hs : Cached platform network adapter s)
    (hlogin : Login platform jose network adapter issuer provider discovery exchange redirectUri
      s) :
    ∃ k token s', Issued platform jose network adapter issuer provider discovery
        (tokenRequest platform adapter discovery exchange redirectUri) (stateAfter
          (exchangeAuthorizationCode platform jose network adapter exchange) s).tick k token ∧
      exchangeAuthorizationCode platform jose network adapter exchange s =
        (.ok ⟨issuer, token.subject, token.nonce⟩, s') := by
  obtain ⟨hcode, hverifier, hredirect, hissued⟩ := hlogin
  obtain ⟨s₁, hload⟩ := loadDiscovery_run hconforms hissuer hserved hs
  obtain ⟨hready, -⟩ := loadDiscovery_ready.ok ⟨hs, Nat.le_refl _⟩ hload
  let asked := tokenRequest platform adapter discovery exchange redirectUri
  let s₂ : State := { s₁ with
    tick := s₁.tick + 1
    sent := s₁.sent ++ [⟨s₁.tick, .token, asked⟩] }
  have hcached : Cached platform network adapter s₂ :=
    hready.cached.later (List.prefix_append _ _) rfl rfl
  -- The run up to the answer of the token endpoint.
  have hrun : exchangeAuthorizationCode platform jose network adapter exchange s =
      ((network.respond s₁.tick asked).elim (fail .unavailable)
        (readTokenResponse platform jose network adapter discovery)) s₂ := by
    have hask : askNetwork network .token asked s₁ = (.ok (network.respond s₁.tick asked), s₂) :=
      rfl
    rw [exchangeAuthorizationCode, if_pos ⟨hcode, hverifier⟩, bind_of_ok hload,
      bind_of_ok (lift_of_ok hredirect)]
    cases hanswer : network.respond s₁.tick asked with
    | none =>
        rw [hanswer] at hask
        refine bind_of_error ?_ _
        rw [request, bind_of_ok hask]
        rfl
    | some response =>
        rw [hanswer] at hask
        refine bind_of_ok ?_ _
        rw [request, bind_of_ok hask]
        rfl
  have hstop : s₁.tick < (stateAfter
      (exchangeAuthorizationCode platform jose network adapter exchange) s).tick := by
    have hmove : Advances 1 1 s₂ (stateAfter
        (exchangeAuthorizationCode platform jose network adapter exchange) s) := by
      rw [stateAfter, hrun]
      cases network.respond s₁.tick asked with
      | none => exact advances_fail _ s₂
      | some response => exact readTokenResponse_advances discovery response s₂
    exact Nat.lt_of_succ_le hmove.tick
  obtain ⟨token, htoken⟩ := hissued s₁.tick hready.tick hstop
  obtain ⟨tokenResponse, ⟨response, hanswer, hok, hread⟩, hidToken⟩ := htoken.answered
  have hstatus : ¬ (response.status = 429 ∨ 500 ≤ response.status) := by
    have hrange : 200 ≤ response.status ∧ response.status ≤ 299 := of_decide_eq_true hok
    omega
  have hverify : exchangeAuthorizationCode platform jose network adapter exchange s =
      verifyRefreshing platform jose network adapter discovery token.idToken s₂ := by
    rw [hrun, hanswer]
    change readTokenResponse platform jose network adapter discovery response s₂ = _
    simp only [readTokenResponse]
    rw [if_neg hstatus, if_pos hok, bind_of_ok (lift_of_ok hread), hidToken]
  have hallowed : AllowedEndpoint adapter discovery.jwksUri :=
    normalizeEndpoint_allowed (advertised_ok hconforms.supports).2.2
  have hretry : ∀ error, Moves (Advances 0 1)
      (retryVerification platform jose network adapter discovery token.idToken error) :=
    retryVerification_advances discovery token.idToken
  have hfirst := move_recover Advances.refl hretry s₂
    (x := verifyIdToken platform jose network adapter token.idToken discovery false)
  have hafter : stateAfter (exchangeAuthorizationCode platform jose network adapter exchange) s =
      stateAfter (verifyRefreshing platform jose network adapter discovery token.idToken) s₂ := by
    rw [stateAfter, stateAfter, hverify]
  have hstopped := hafter ▸ hfirst.tick
  rcases verifyIdToken_run hconforms hissuer htoken false hcached (Nat.lt_succ_self _) hstopped with
    ⟨s', hok⟩ | ⟨-, error, s₃, herror, hrefreshable⟩
  · exact ⟨s₁.tick, token, s', htoken, hverify.trans (recover_of_ok hok _)⟩
  -- The keys at hand do not verify the token; those fetched anew do.
  · have hcached₃ : Cached platform network adapter s₃ :=
      ((verifyIdToken_ready hallowed [] token.idToken false).error ⟨hcached, Nat.zero_le _⟩
        herror).cached
    have hticks : s₂.tick ≤ s₃.tick := by
      have hmove := @verifyIdToken_advances platform jose network adapter token.idToken discovery
        false s₂
      rw [stateAfter, herror] at hmove
      exact hmove.tick
    have hunavailable : error ≠ .unavailable := by
      rintro rfl
      simp [refreshableKeyError] at hrefreshable
    have hsecond : exchangeAuthorizationCode platform jose network adapter exchange s =
        recover (verifyIdToken platform jose network adapter token.idToken discovery true)
          (fun retryError =>
            if retryError = .unavailable then fail .unavailable else fail .authentication) s₃ := by
      rw [hverify, verifyRefreshing, recover_of_error herror, retryVerification,
        if_neg hunavailable, if_pos hrefreshable]
    have hlast : ∀ retryError : Failure, Moves (Advances 0 0)
        (if retryError = .unavailable then (fail .unavailable : Call ProviderIdentity)
          else fail .authentication) :=
      fun retryError => advances_ite (advances_fail _) (advances_fail _)
    have hstopped₃ : (stateAfter (verifyIdToken platform jose network adapter token.idToken
        discovery true) s₃).tick ≤ (stateAfter
          (exchangeAuthorizationCode platform jose network adapter exchange) s).tick := by
      have hmove := move_recover Advances.refl hlast s₃
        (x := verifyIdToken platform jose network adapter token.idToken discovery true)
      have hsame : stateAfter (exchangeAuthorizationCode platform jose network adapter exchange) s =
          stateAfter (recover (verifyIdToken platform jose network adapter token.idToken discovery
            true) fun retryError =>
              if retryError = .unavailable then fail .unavailable else fail .authentication)
            s₃ := by
        rw [stateAfter, stateAfter, hsecond]
      rw [hsame]
      exact hmove.tick
    rcases verifyIdToken_run hconforms hissuer htoken true hcached₃
      ((Nat.lt_succ_self _).trans_le hticks) hstopped₃ with ⟨s', hok⟩ | ⟨hforced, -⟩
    · exact ⟨s₁.tick, token, s', htoken, hsecond.trans (recover_of_ok hok _)⟩
    · exact absurd hforced (by decide)

/-! ## The exact condition -/

variable {options : ProviderOptions}

theorem boundedInteger_ok {value : Option ℚ} {fallback minimum maximum bounded : Int}
    {name : String} (h : boundedInteger value fallback minimum maximum name = .ok bounded) :
    minimum ≤ bounded ∧ bounded ≤ maximum := by
  obtain ⟨_, hrange, h⟩ := then_ok.mp h
  obtain rfl := return_ok.mp h
  exact (require_ok.mp hrange).2

/-- What the constructor makes of the issuer, and its bound on the lifetime of a token. -/
theorem construct_ok (h : construct platform options = .ok adapter) :
    normalizeIssuer platform options.issuer = .ok adapter.issuer ∧
      adapter.maxIdTokenLifetimeSeconds ≤ 3600 := by
  obtain ⟨_, -, h⟩ := then_ok.mp h
  obtain ⟨_, -, h⟩ := then_ok.mp h
  obtain ⟨_, -, h⟩ := then_ok.mp h
  obtain ⟨issuer, hissuer, h⟩ := then_ok.mp h
  obtain ⟨parsed, -, h⟩ := then_ok.mp h
  obtain ⟨_, -, h⟩ := then_ok.mp h
  obtain ⟨origins, -, h⟩ := then_ok.mp h
  obtain ⟨_, -, h⟩ := then_ok.mp h
  obtain ⟨_, -, h⟩ := then_ok.mp h
  obtain ⟨timeout, -, h⟩ := then_ok.mp h
  obtain ⟨bytes, -, h⟩ := then_ok.mp h
  obtain ⟨discoveryTtl, -, h⟩ := then_ok.mp h
  obtain ⟨jwksTtl, -, h⟩ := then_ok.mp h
  obtain ⟨lifetime, hlifetime, h⟩ := then_ok.mp h
  obtain ⟨tolerance, -, h⟩ := then_ok.mp h
  obtain rfl := return_ok.mp h
  exact ⟨hissuer, (boundedInteger_ok hlifetime).2⟩

/-- **Sound and exactly complete.**  Whatever happened before, an exchange returns vouched
identities only and asks for at most one extra key set.  A login with a conforming provider
succeeds exactly when the configured issuer is its own normal form and the provider serves
its metadata where the adapter asks. -/
theorem login_iff (hadapter : construct platform options = .ok adapter)
    (operations : List Operation) (exchange : AuthorizationCodeExchange) :
    (∀ identity s', exchangeAuthorizationCode platform jose network adapter exchange
        (afterOperations platform jose network adapter operations) = (.ok identity, s') →
      ∃ evidence, Vouched platform jose network adapter
          (afterOperations platform jose network adapter operations).tick s' identity evidence ∧
        evidence.expiresAt - evidence.issuedAt ≤ 3600) ∧
    Advances 1 1 (afterOperations platform jose network adapter operations)
      (stateAfter (exchangeAuthorizationCode platform jose network adapter exchange)
        (afterOperations platform jose network adapter operations)) ∧
    ∀ provider discovery redirectUri,
      Conforms platform jose network adapter options.issuer provider discovery →
      Login platform jose network adapter options.issuer provider discovery exchange redirectUri
        (afterOperations platform jose network adapter operations) →
      ((∃ k token s', Issued platform jose network adapter options.issuer provider discovery
            (tokenRequest platform adapter discovery exchange redirectUri) (stateAfter
              (exchangeAuthorizationCode platform jose network adapter exchange)
              (afterOperations platform jose network adapter operations)).tick k token ∧
          exchangeAuthorizationCode platform jose network adapter exchange
              (afterOperations platform jose network adapter operations) =
            (.ok ⟨options.issuer, token.subject, token.nonce⟩, s')) ↔
        normalizeIssuer platform options.issuer = .ok options.issuer ∧
          ServedWhereAsked platform adapter provider) := by
  obtain ⟨hissuer, hlifetime⟩ := construct_ok hadapter
  have hcached := @cached_afterOperations platform jose network adapter operations
  refine ⟨fun identity s' hrun => ?_, exchange_advances exchange _, ?_⟩
  · obtain ⟨evidence, hvouched⟩ := exchange_sound hrun
    exact ⟨evidence, hvouched, hvouched.lifetime.2.trans hlifetime⟩
  · intro provider discovery redirectUri hconforms hlogin
    constructor
    · rintro ⟨k, token, s', -, hrun⟩
      obtain ⟨evidence, hvouched⟩ := exchange_sound hrun
      obtain ⟨hsame, hserved, -⟩ := hvouched.discovered.served hconforms
      exact ⟨hsame ▸ hissuer, hserved⟩
    · rintro ⟨hnormal, hserved⟩
      have hsame : adapter.issuer = options.issuer :=
        Except.ok.inj (hissuer.symm.trans hnormal)
      exact exchange_run hconforms hsame hserved hcached hlogin

/-! ## Two spellings of an issuer -/

open Classical in
/-- The verification of `jose`, from its parts. -/
noncomputable def Jose.ofParts (decodeProtectedHeader payloadOf : JsString → Option Fields)
    (signedBy : JsString → Fields → Bool) : Jose where
  decodeProtectedHeader := decodeProtectedHeader
  payloadOf := payloadOf
  signedBy := signedBy
  usable _ := true
  jwtVerify token keys options :=
    match payloadOf token, decodeProtectedHeader token with
    | some payload, some header =>
        if ∃ algorithm ∈ options.algorithms, stringOf (field header "alg") = some algorithm then
          if VerifiesUnder signedBy header token keys then
            if RightClaims payload options then .ok payload
            else .error (.other (js "ERR_JWT_CLAIM_VALIDATION_FAILED"))
          else if ∃ key ∈ keys, stringOf (field header "kid") = stringOf (field key "kid") then
            .error .signatureFailed
          else .error .noMatchingKey
        else .error (.other (js "ERR_JOSE_ALG_NOT_ALLOWED"))
    | _, _ => .error (.other (js "ERR_JWS_INVALID"))
  accepts token keys options payload := by
    cases hpayload : payloadOf token with
    | none => simp
    | some claims =>
      cases hheader : decodeProtectedHeader token with
      | none => simp
      | some header =>
        simp only [Option.some.injEq, exists_eq_left']
        split_ifs with halgorithm hverifies hclaims hnamed
        · simp only [Except.ok.injEq]
          constructor
          · rintro rfl
            exact ⟨rfl, hclaims, halgorithm, hverifies⟩
          · exact fun h => h.1
        · simp only [false_iff]
          rintro ⟨rfl, hright, -⟩
          exact hclaims hright
        all_goals simp_all
  keyErrors token keys options header hheader hpayload halgorithm _ hverifies := by
    obtain ⟨payload, hpayload⟩ := Option.isSome_iff_exists.mp hpayload
    simp only [hpayload, hheader, if_pos halgorithm, if_neg hverifies]
    split_ifs
    · exact .inr rfl
    · exact .inl rfl

def base64UrlDigit (digit : Nat) : UInt16 :=
  if digit < 26 then 0x41 + .ofNat digit
  else if digit < 52 then 0x61 + .ofNat (digit - 26)
  else if digit < 62 then 0x30 + .ofNat (digit - 52)
  else if digit = 62 then 0x2d else 0x5f

/-- The unpadded base64url text of so many bytes, given as one number. -/
def base64Url (length number : Nat) : JsString :=
  let digits := (length * 8 + 5) / 6
  (List.range digits).map fun i =>
    base64UrlDigit (number * 2 ^ (digits * 6 - length * 8) / 64 ^ (digits - 1 - i) % 64)

def base64UrlText (text : JsString) : JsString :=
  base64Url text.length (text.foldl (fun number unit => number * 256 + unit.toNat) 0)

def bigEndian (words : List Nat) : Nat := words.foldl (fun number word => number * 2 ^ 256 + word) 0

/-- The modulus of the sample key, of 2048 bits. -/
def sampleModulus : JsString :=
  base64Url 256 <| bigEndian [
    0xB19507FDEA8DE427739A6DC84FB8222D7AF020AB7F3CA884D2195FC516240CF8,
    0x26BDB93638F4C938D648DE21732E8C2D007BD62A30AB590D7889D630249C5E7E,
    0x907D19E6BDFE07085601DE288FA280631347380C8BEB49EDF5938C4EEE920AF1,
    0x1219F7C4B4C85957CF415ED8FE346E607100F9C0C6F55FC73F6628644C672203,
    0xCBF87F465741B694AE32D7330F5B4246A8BC38B61CDDFBF6C0002E175958ABBE,
    0x680F5FEE839B9A0E882BF266EA0BE2708FFABAB4B4CDD07612545CFFB25C25E6,
    0xD886D65366F43B5884DF64D8DE165297F46157F0E141EDD9D19522649739F7D9,
    0x5FB457BBCA55EAE53770F49AE4EC3BC5507AC8400B8469E18131A407665CFA27]

def sampleNonce : JsString := List.replicate 43 0x6e

/-- The token for an issuer, with a signature by RS256. -/
def sampleToken (issuer : String) (signature : Nat) : JsString :=
  base64UrlText (js "\x7b\"alg\":\"RS256\",\"kid\":\"key-1\"\x7d") ++ js "." ++
    base64UrlText (js "\x7b\"iss\":\"" ++ js issuer ++ js "\",\"sub\":\"subject-1\"," ++
      js "\"aud\":\"la-muni\"," ++ js "\"exp\":1785267300," ++ js "\"iat\":1785267000," ++
      js "\"nonce\":\"" ++ sampleNonce ++ js "\"\x7d") ++ js "." ++
    base64Url 256 signature

/-- The token of `https://login.example`. -/
def plainToken : JsString :=
  sampleToken "https://login.example" <| bigEndian [
    0xA58A6E587362AF108965F7BF05D67E30F32DCA5F3779F453EDC5F7AE87FBB9E7,
    0x06C62760FE3075514C289B0E72F15C8A7E4B2CBFB1B5A68FA309947E54AF3876,
    0xC733D1DD330AB6B3E1E5B6869C9A5FAC4A628FD66656C3CB2FB7C816DC0DA4F9,
    0xCFCA337C6EACE9415934D690B6B6C14CF2AF995CA1054CD38B51B72C613FE2EF,
    0x1358271FB6C14D5ECC61FE4CD5B7D87A0F0B23D3F890B94244E6C6063456C240,
    0xE5493F44BED6FE2348BDC22384EA7979ED020A39D4469B631E93F676362D6167,
    0xAC46BD09E2ED60146BEBF042F3AB277340FDE876D5041B5C780787E0A17936CA,
    0x31739DEFA8A065AF495627EE4FF33E29499D6DE61D9300678159AF14BD322908]

/-- The token of `https://login.example/`. -/
def slashToken : JsString :=
  sampleToken "https://login.example/" <| bigEndian [
    0xA2C08D127B3D4569987966DD7E7CDA7B3416C8BC57666979D6C6259037D5FBBC,
    0xD37A1F40C153706D8BB712AD1492F769E9D9B6DE2F16FB2570ABC6954FF8D3B0,
    0x532BC685AC5FE3420D301CF394A0724F25747DED4E63A3FBDC16CF561E79198D,
    0xE0C445A09F528B0D285019FEDAAAFD76A11C2684497D8471E50F4EB497FA60A5,
    0xF8B13FC381C869BBBE951404C5CED911452EE49DD84DDD1DB9DCFE110FC79302,
    0x47855DCEA428D073934782CB71F277D46CCB3AE569B640F7C006858BCF667F63,
    0x7492E23CA275EFAB519C95F0A3763526FB498E7C7248283F5936CF4E49F6C951,
    0xB5587EE6F513D8168C71FED6789A999CB8198C94BD762627E9B6CFBA1F99815D]

def sampleUrl (origin path : String) : Url where
  href := js (origin ++ path)
  protocol := js "https:"
  username := []
  password := []
  hostname := (js origin).drop 8
  origin := js origin
  pathname := js path
  search := []
  hash := []

def sampleUrls : List (JsString × Url) :=
  (js "https://login.example", sampleUrl "https://login.example" "/") ::
  (["/", "/authorize", "/token", "/keys", "/.well-known/openid-configuration"].map fun path =>
    (js ("https://login.example" ++ path), sampleUrl "https://login.example" path)) ++
  [(js "https://app.example/auth/callback", sampleUrl "https://app.example" "/auth/callback")]

def asciiBytes (text : JsString) : List UInt8 := text.map UInt16.toUInt8

def textValue (text : String) : Value ℚ := .string (js text)

def sampleMetadata (issuer : String) : Fields := [
  (js "issuer", textValue issuer),
  (js "authorization_endpoint", textValue "https://login.example/authorize"),
  (js "token_endpoint", textValue "https://login.example/token"),
  (js "jwks_uri", textValue "https://login.example/keys"),
  (js "response_types_supported", .array [textValue "code"]),
  (js "subject_types_supported", .array [textValue "public"]),
  (js "id_token_signing_alg_values_supported", .array [textValue "RS256"]),
  (js "code_challenge_methods_supported", .array [textValue "S256"])]

def metadataText (issuer : String) : JsString :=
  js "\x7b\"issuer\":\"" ++ js issuer ++ js "\",\"authorization_endpoint\":" ++
    js "\"https://login.example/authorize\"," ++ js "\"token_endpoint\":" ++
    js "\"https://login.example/token\"," ++ js "\"jwks_uri\":" ++
    js "\"https://login.example/keys\"," ++ js "\"response_types_supported\":[\"code\"]," ++
    js "\"subject_types_supported\":[\"public\"]," ++
    js "\"id_token_signing_alg_values_supported\":" ++ js "[\"RS256\"]," ++
    js "\"code_challenge_methods_supported\":" ++ js "[\"S256\"]\x7d"

def sampleKey : Fields := [(js "kty", textValue "RSA"), (js "kid", textValue "key-1"),
  (js "e", textValue "AQAB"), (js "n", .string sampleModulus)]

def keySetText : JsString :=
  js "\x7b\"keys\":[\x7b\"kty\":\"RSA\",\"kid\":\"key-1\"," ++ js "\"e\":\"AQAB\",\"n\":\"" ++
    sampleModulus ++ js "\"\x7d]\x7d"

def tokenText (idToken : JsString) : JsString :=
  js "\x7b\"token_type\":\"Bearer\",\"id_token\":\"" ++ idToken ++ js "\"\x7d"

/-- The bodies of the sample provider and what they denote. -/
def sampleBodies (issuer : String) (idToken : JsString) : List (List UInt8 × Fields) := [
  (asciiBytes (metadataText issuer), sampleMetadata issuer),
  (asciiBytes keySetText, [(js "keys", .array [.object sampleKey])]),
  (asciiBytes (tokenText idToken),
    [(js "token_type", textValue "Bearer"), (js "id_token", .string idToken)])]

def samplePlatform (issuer : String) (idToken : JsString) : Platform where
  parseUrl text := sampleUrls.lookup text
  parseJson bytes := ((sampleBodies issuer idToken).lookup bytes).map .object
  toLowerCase := List.map lowerUnit
  basicCredentials _ _ := js "bGEtbXVuaTpzYW1wbGUtY2xpZW50LXNlY3JldA=="

/-- `2026-07-28T19:30:00.000Z`. -/
def sampleNow : Time := 1785267000000

def samplePayload (issuer : String) : Fields := [
  (js "iss", textValue issuer), (js "sub", textValue "subject-1"), (js "aud", textValue "la-muni"),
  (js "exp", .number 1785267300), (js "iat", .number 1785267000),
  (js "nonce", .string sampleNonce)]

noncomputable def sampleJose (issuer : String) (idToken : JsString) : Jose :=
  Jose.ofParts
    (fun token => if token = idToken then
      some [(js "alg", textValue "RS256"), (js "kid", textValue "key-1")] else none)
    (fun token => if token = idToken then some (samplePayload issuer) else none)
    fun token key => token = idToken && stringOf (field key "n") = some sampleModulus

def sampleResponse (body : List UInt8) : Response where
  status := 200
  contentType := some (js "application/json")
  contentLength := none
  body := some [.data body]

/-- A provider with one key whose metadata are at the standard place; its clock stands. -/
def sampleNetwork (issuer : String) (idToken : JsString) : Network where
  clock _ := sampleNow
  respond _ asked :=
    if asked.method = .get then
      if asked.url.href = js "https://login.example/.well-known/openid-configuration" then
        some (sampleResponse (asciiBytes (metadataText issuer)))
      else if asked.url.href = js "https://login.example/keys" then
        some (sampleResponse (asciiBytes keySetText))
      else none
    else if asked.url.href = js "https://login.example/token" then
      some (sampleResponse (asciiBytes (tokenText idToken)))
    else none

def sampleOptions (issuer : String) : ProviderOptions where
  providerId := js "approved-provider"
  issuer := js issuer
  clientId := js "la-muni"
  clientSecret := js "sample-client-secret"
  allowedEndpointOrigins := none
  allowedSigningAlgorithms := none
  tokenEndpointAuthMethod := none
  requestTimeoutMs := none
  maxResponseBytes := none
  discoveryCacheTtlSeconds := none
  jwksCacheTtlSeconds := none
  maxIdTokenLifetimeSeconds := none
  clockToleranceSeconds := none

/-- The adapter of either spelling. -/
def sampleAdapter : Adapter where
  providerId := js "approved-provider"
  issuer := js "https://login.example"
  clientId := js "la-muni"
  clientSecret := js "sample-client-secret"
  allowedEndpointOrigins := [js "https://login.example"]
  allowedSigningAlgorithms := [js "RS256"]
  tokenEndpointAuthMethod := js "client_secret_basic"
  requestTimeoutMs := 5000
  maxResponseBytes := 32768
  discoveryCacheTtlMs := 300000
  jwksCacheTtlMs := 300000
  maxIdTokenLifetimeSeconds := 3600
  clockToleranceSeconds := 30

def sampleDiscovery : DiscoveryDocument where
  issuer := js "https://login.example"
  authorizationEndpoint := sampleUrl "https://login.example" "/authorize"
  tokenEndpoint := sampleUrl "https://login.example" "/token"
  jwksUri := sampleUrl "https://login.example" "/keys"
  signingAlgorithms := [js "RS256"]

def sampleProvider (issuer : String) : Provider where
  metadata := sampleMetadata issuer
  serves href := href = js "https://login.example/.well-known/openid-configuration"
  keySet _ := [(js "keys", .array [.object sampleKey])]

def sampleExchange : AuthorizationCodeExchange where
  code := js "code-0001"
  codeVerifier := List.replicate 64 0x76
  redirectUri := js "https://app.example/auth/callback"

def sampleIssued (issuer : String) (idToken : JsString) : IssuedToken where
  idToken := idToken
  header := [(js "alg", textValue "RS256"), (js "kid", textValue "key-1")]
  payload := samplePayload issuer
  subject := js "subject-1"
  nonce := sampleNonce
  issuedAt := 1785267000
  expiresAt := 1785267300

theorem reads_sample {platform : Platform} {media : List JsString} {body : List UInt8}
    {record : Fields} (hlower : platform.toLowerCase = List.map lowerUnit)
    (hmedia : js "application/json" ∈ media) (hlength : body.length ≤ 32768)
    (hparse : platform.parseJson body = some (.object record)) :
    Reads platform sampleAdapter media (some (sampleResponse body)) record := by
  refine ⟨_, rfl, rfl, ?_⟩
  have htype : platform.toLowerCase (trim (((js "application/json").splitOn 0x3b).headD [])) =
      js "application/json" := by
    rw [hlower]
    decide +kernel
  have hmediaType : ((sampleResponse body).contentType.map fun header =>
      platform.toLowerCase (trim ((header.splitOn 0x3b).headD []))) =
        some (js "application/json") := congrArg some htype
  have hchunks : readChunks sampleAdapter.maxResponseBytes 0 [.data body] = .ok body := by
    have hbound : ¬ sampleAdapter.maxResponseBytes < ↑(0 + body.length) := by
      simp only [sampleAdapter]
      omega
    rw [readChunks, if_neg hbound]
    simp [readChunks, Except.map]
  refine then_ok.mpr ⟨(), require_ok.mpr ?_, then_ok.mpr ⟨(), require_ok.mpr rfl,
    then_ok.mpr ⟨_, orRefuse_ok.mpr rfl, then_ok.mpr ⟨body, hchunks, ?_⟩⟩⟩⟩
  · rw [hmediaType]
    simpa using hmedia
  · rw [hparse]

variable {spelling : String} {idToken : JsString}

theorem sample_conforms (hstrip : stripSlash (js spelling) = js "https://login.example")
    (hlength : (asciiBytes (metadataText spelling)).length ≤ 32768)
    (hkeys : asciiBytes keySetText ≠ asciiBytes (metadataText spelling))
    (hsupports : advertised (samplePlatform spelling idToken) sampleAdapter
      (sampleMetadata spelling) = .ok sampleDiscovery) :
    Conforms (samplePlatform spelling idToken) (sampleJose spelling idToken)
      (sampleNetwork spelling idToken) sampleAdapter (js spelling) (sampleProvider spelling)
      sampleDiscovery := by
  have hplace : standardLocation (samplePlatform spelling idToken) (js spelling) =
      some (sampleUrl "https://login.example" "/.well-known/openid-configuration") := by
    have hlookup : sampleUrls.lookup (js "https://login.example" ++ wellKnownPath) =
        some (sampleUrl "https://login.example" "/.well-known/openid-configuration") := by
      decide +kernel
    rw [standardLocation, hstrip]
    exact hlookup
  have hkeySet : (samplePlatform spelling idToken).parseJson (asciiBytes keySetText) =
      some (.object [(js "keys", .array [.object sampleKey])]) := by
    have hother : (asciiBytes keySetText == asciiBytes (metadataText spelling)) = false := by simpa using hkeys
    simp [samplePlatform, sampleBodies, List.lookup_cons, hother]
  have hreadKeys : ∀ media, js "application/json" ∈ media →
      Reads (samplePlatform spelling idToken) sampleAdapter media
        (some (sampleResponse (asciiBytes keySetText))) [(js "keys", .array [.object sampleKey])] :=
    fun media hmedia => reads_sample rfl hmedia (by decide +kernel) hkeySet
  refine
    { declares := rfl
      supports := hsupports
      located := ?_
      metadata := ?_
      elsewhere := ?_
      keys := ?_
      verificationKeys := fun k => ⟨[sampleKey], rfl, fun key _ => rfl⟩ }
  · intro url hurl
    obtain rfl := Option.some.inj (hplace.symm.trans hurl)
    simp [sampleProvider, sampleUrl, js]
  · intro k url hserves
    have hhref : url.href = js "https://login.example/.well-known/openid-configuration" :=
      of_decide_eq_true hserves
    have hanswer : (sampleNetwork spelling idToken).respond k
        (getRequest url "application/json") =
          some (sampleResponse (asciiBytes (metadataText spelling))) := by
      simp [sampleNetwork, getRequest, hhref]
    rw [hanswer]
    exact reads_sample rfl (by decide) hlength (by simp [samplePlatform, sampleBodies]; rfl)
  · intro k url document hserves hreads
    have hhref : ¬ url.href = js "https://login.example/.well-known/openid-configuration" :=
      of_decide_eq_false hserves
    by_cases hkeysUrl : url.href = js "https://login.example/keys"
    · have hanswer : (sampleNetwork spelling idToken).respond k
          (getRequest url "application/json") = some (sampleResponse (asciiBytes keySetText)) := by
        simp only [sampleNetwork, getRequest, if_neg hhref, if_pos hkeysUrl, if_true]
      rw [hanswer] at hreads
      obtain rfl := hreads.unique (hreadKeys jsonMedia (by decide))
      have hnone : stringOf (field [(js "keys", .array [.object sampleKey])] "issuer") = none := by
        rfl
      rw [hnone]
      exact (Option.some_ne_none _).symm
    · have hanswer : (sampleNetwork spelling idToken).respond k
          (getRequest url "application/json") = none := by
        simp only [sampleNetwork, getRequest, if_neg hhref, if_neg hkeysUrl, if_true]
      obtain ⟨response, hsome, -⟩ := hreads
      rw [hanswer] at hsome
      exact absurd hsome (by simp)
  · intro k uri huri
    have hhref : uri.href = js "https://login.example/keys" := huri
    have hother : ¬ uri.href = js "https://login.example/.well-known/openid-configuration" := by
      rw [hhref]
      decide +kernel
    have hanswer : (sampleNetwork spelling idToken).respond k
        (getRequest uri "application/jwk-set+json, application/json") =
          some (sampleResponse (asciiBytes keySetText)) := by
      simp only [sampleNetwork, getRequest, if_neg hother, if_pos hhref, if_true]
    rw [hanswer]
    exact hreadKeys jwksMedia (by decide)

/-- At every tick the sample provider gives its token. -/
theorem sample_issued (stop k : Nat) (hlength : (asciiBytes (tokenText idToken)).length ≤ 32768)
    (hmetadata : asciiBytes (tokenText idToken) ≠ asciiBytes (metadataText spelling))
    (hkeys : asciiBytes (tokenText idToken) ≠ asciiBytes keySetText)
    (hidToken : idTokenOf (samplePlatform spelling idToken)
      [(js "token_type", textValue "Bearer"), (js "id_token", .string idToken)] = some idToken)
    (redirectUri : JsString) :
    Issued (samplePlatform spelling idToken) (sampleJose spelling idToken)
      (sampleNetwork spelling idToken) sampleAdapter (js spelling) (sampleProvider spelling)
      sampleDiscovery (tokenRequest (samplePlatform spelling idToken) sampleAdapter
        sampleDiscovery sampleExchange redirectUri) stop k (sampleIssued spelling idToken) where
  answered := by
    have hanswer : (sampleNetwork spelling idToken).respond k
        (tokenRequest (samplePlatform spelling idToken) sampleAdapter sampleDiscovery
          sampleExchange redirectUri) = some (sampleResponse (asciiBytes (tokenText idToken))) := by
      simp [sampleNetwork, tokenRequest, sampleDiscovery, sampleUrl]
    have hparse : (samplePlatform spelling idToken).parseJson (asciiBytes (tokenText idToken)) =
        some (.object [(js "token_type", textValue "Bearer"), (js "id_token", .string idToken)]) := by
      have hnotMetadata : (asciiBytes (tokenText idToken) == asciiBytes (metadataText spelling)) = false := by
        simpa using hmetadata
      have hnotKeys : (asciiBytes (tokenText idToken) == asciiBytes keySetText) = false := by simpa using hkeys
      simp [samplePlatform, sampleBodies, List.lookup_cons, hnotMetadata, hnotKeys]
    rw [hanswer]
    exact ⟨_, reads_sample rfl (by decide) hlength hparse, hidToken⟩
  header := if_pos rfl
  signature := by
    have hheader : acceptsHeader sampleDiscovery
        [(js "alg", textValue "RS256"), (js "kid", textValue "key-1")] = true := by decide +kernel
    exact hheader
  payload := if_pos rfl
  audience := by rfl
  subject := by rfl
  lifetime := by norm_num [sampleIssued, sampleAdapter]
  claims j _ _ := {
    issuer := rfl
    audience := List.mem_singleton_self (js "la-muni")
    expires := ⟨1785267300, rfl, by norm_num [sampleNetwork, sampleNow, sampleAdapter]⟩
    notBefore := .inl rfl
    required := by
      intro claim hclaim
      fin_cases hclaim <;> rfl }
  issuedAt j _ _ := by
    norm_num [sampleIssued, sampleNetwork, sampleNow, sampleAdapter]
  published j _ _ keys hkeySet := by
    obtain rfl : [sampleKey] = keys := Except.ok.inj hkeySet
    have hmodulus : stringOf (field sampleKey "n") = some sampleModulus := rfl
    exact ⟨sampleKey, List.mem_singleton_self _, rfl, by
      simp [sampleJose, Jose.ofParts, sampleIssued, hmodulus]⟩

theorem sample_login (hlength : (asciiBytes (tokenText idToken)).length ≤ 32768)
    (hmetadata : asciiBytes (tokenText idToken) ≠ asciiBytes (metadataText spelling))
    (hkeys : asciiBytes (tokenText idToken) ≠ asciiBytes keySetText)
    (hidToken : idTokenOf (samplePlatform spelling idToken)
      [(js "token_type", textValue "Bearer"), (js "id_token", .string idToken)] = some idToken)
    (s : State) :
    Login (samplePlatform spelling idToken) (sampleJose spelling idToken)
      (sampleNetwork spelling idToken) sampleAdapter (js spelling) (sampleProvider spelling)
      sampleDiscovery sampleExchange sampleExchange.redirectUri s where
  code := by decide +kernel
  verifier := by decide +kernel
  redirect := rfl
  issued k _ _ := ⟨_, sample_issued _ k hlength hmetadata hkeys hidToken _⟩

/-- The provider of the plain spelling lets its user in. -/
theorem login_plain : ∃ identity s',
    exchangeAuthorizationCode (samplePlatform "https://login.example" plainToken)
        (sampleJose "https://login.example" plainToken)
        (sampleNetwork "https://login.example" plainToken) sampleAdapter sampleExchange
        State.initial = (.ok identity, s') ∧
      identity.issuer = js "https://login.example" := by
  have hadapter : construct (samplePlatform "https://login.example" plainToken)
      (sampleOptions "https://login.example") = .ok sampleAdapter := by rfl
  have hconforms := @sample_conforms "https://login.example" plainToken (by decide +kernel)
    (by decide +kernel) (by decide +kernel) (by decide +kernel)
  have hlogin := @sample_login "https://login.example" plainToken (by decide +kernel)
    (by decide +kernel) (by decide +kernel) (by decide +kernel) State.initial
  have hnormal : normalizeIssuer (samplePlatform "https://login.example" plainToken)
      (js "https://login.example") = .ok (js "https://login.example") := by rfl
  have hserved : ServedWhereAsked (samplePlatform "https://login.example" plainToken)
      sampleAdapter (sampleProvider "https://login.example") :=
    ⟨sampleUrl "https://login.example" "/.well-known/openid-configuration", rfl, rfl⟩
  obtain ⟨k, token, s', -, hrun⟩ := ((login_iff hadapter [] sampleExchange).2.2 _ _ _ hconforms
    hlogin).mpr ⟨hnormal, hserved⟩
  exact ⟨_, s', hrun, rfl⟩

/-- A provider whose issuer ends with a slash conforms, issues its tokens and answers each
request, and nobody is let in. -/
theorem login_slash :
    construct (samplePlatform "https://login.example/" slashToken)
        (sampleOptions "https://login.example/") = .ok sampleAdapter ∧
      Conforms (samplePlatform "https://login.example/" slashToken)
        (sampleJose "https://login.example/" slashToken)
        (sampleNetwork "https://login.example/" slashToken) sampleAdapter
        (js "https://login.example/") (sampleProvider "https://login.example/")
        sampleDiscovery ∧
      Login (samplePlatform "https://login.example/" slashToken)
        (sampleJose "https://login.example/" slashToken)
        (sampleNetwork "https://login.example/" slashToken) sampleAdapter
        (js "https://login.example/") (sampleProvider "https://login.example/")
        sampleDiscovery sampleExchange sampleExchange.redirectUri State.initial ∧
      ¬ ∃ identity s', exchangeAuthorizationCode
        (samplePlatform "https://login.example/" slashToken)
        (sampleJose "https://login.example/" slashToken)
        (sampleNetwork "https://login.example/" slashToken) sampleAdapter sampleExchange
        State.initial = (.ok identity, s') := by
  have hconforms := @sample_conforms "https://login.example/" slashToken (by decide +kernel)
    (by decide +kernel) (by decide +kernel) (by decide +kernel)
  refine ⟨by rfl, hconforms, @sample_login "https://login.example/" slashToken
    (by decide +kernel) (by decide +kernel) (by decide +kernel) (by decide +kernel) _, ?_⟩
  rintro ⟨identity, s', hrun⟩
  obtain ⟨evidence, hvouched⟩ := @exchange_sound _ _ _ _ [] _ _ _ hrun
  obtain ⟨hsame, -⟩ := hvouched.discovered.served hconforms
  have hother : sampleAdapter.issuer ≠ js "https://login.example/" := by decide +kernel
  exact hother hsame

end Completeness

end Oidc
