import MuniRag.Oidc.Progress

/-!
# Whom the adapter lets in

An identity that an exchange returns is vouched for (`exchange_sound`): by a token that
this exchange was given, whose signature verifies under a public key of a key set fetched
from an allowed endpoint, in this exchange or no longer ago than the cache period.  It
holds in every state that operations reach, whatever the network answers and the clock
shows, since what the caches hold was fetched and checked (`Cached`).
-/

namespace Oidc

open Fallible Json Results

section Soundness

variable {platform : Platform} {jose : Jose} {network : Network} {adapter : Adapter}

/-! ## What was fetched -/

/-- A request that was sent at a tick, with its answer. -/
structure Answered (network : Network) (s : State) (k : Nat) (purpose : Purpose)
    (asked : Request) (response : Response) : Prop where
  sent : ⟨k, purpose, asked⟩ ∈ s.sent
  answer : network.respond k asked = some response

/-- The metadata that was fetched from the well-known URL of the issuer and passed. -/
def Discovered (platform : Platform) (network : Network) (adapter : Adapter) (s : State)
    (document : Fields) (discovery : DiscoveryDocument) : Prop :=
  ∃ k url response, discoveryUrl platform adapter.issuer = .ok url ∧
    Answered network s k .discovery (getRequest url "application/json") response ∧
    response.ok = true ∧
    readBoundedJson platform response adapter.maxResponseBytes jsonMedia = .ok document ∧
    validateDiscovery platform adapter document = .ok discovery

/-- The key set that was fetched at a tick from an allowed endpoint and passed. -/
def KeysFetched (platform : Platform) (network : Network) (adapter : Adapter) (s : State)
    (k : Nat) (uri : Url) (keys : List Fields) : Prop :=
  ∃ forceRefresh response document, AllowedEndpoint adapter uri ∧
    Answered network s k (.jwks forceRefresh)
      (getRequest uri "application/jwk-set+json, application/json") response ∧
    response.ok = true ∧
    readBoundedJson platform response adapter.maxResponseBytes jwksMedia = .ok document ∧
    validateJwks document adapter.allowedSigningAlgorithms = .ok keys

/-- The key set is of an exchange that began at tick `start`: fetched in it, or so long
before that its period, counted from the tick after the fetch, was not over. -/
def FreshKeys (platform : Platform) (network : Network) (adapter : Adapter) (start : Nat)
    (s : State) (uri : Url) (keys : List Fields) : Prop :=
  ∃ k fetched, fetched.href = uri.href ∧ KeysFetched platform network adapter s k fetched keys ∧
    (start ≤ k ∨ ∃ c, start ≤ c ∧ c < s.tick ∧
      network.clock c < network.clock (k + 1) + adapter.jwksCacheTtlMs)

/-- What the caches hold was fetched and checked. -/
structure Cached (platform : Platform) (network : Network) (adapter : Adapter)
    (s : State) : Prop where
  discovery : ∀ cache, s.discoveryCache = some cache →
    ∃ document, Discovered platform network adapter s document cache.value
  jwks : ∀ cache, s.jwksCache = some cache →
    ∃ k uri, uri.href = cache.uri ∧ KeysFetched platform network adapter s k uri cache.value ∧
      cache.expiresAtMs = network.clock (k + 1) + adapter.jwksCacheTtlMs

theorem Answered.later {s s' : State} {k : Nat} {purpose : Purpose} {asked : Request}
    {response : Response} (h : Answered network s k purpose asked response)
    (hsent : s.sent <+: s'.sent) : Answered network s' k purpose asked response :=
  ⟨hsent.subset h.sent, h.answer⟩

theorem Discovered.later {s s' : State} {document : Fields} {discovery : DiscoveryDocument}
    (h : Discovered platform network adapter s document discovery) (hsent : s.sent <+: s'.sent) :
    Discovered platform network adapter s' document discovery := by
  obtain ⟨k, url, response, hurl, hanswered, hok⟩ := h
  exact ⟨k, url, response, hurl, hanswered.later hsent, hok⟩

theorem KeysFetched.later {s s' : State} {k : Nat} {uri : Url} {keys : List Fields}
    (h : KeysFetched platform network adapter s k uri keys) (hsent : s.sent <+: s'.sent) :
    KeysFetched platform network adapter s' k uri keys := by
  obtain ⟨forceRefresh, response, document, hallowed, hanswered, hok⟩ := h
  exact ⟨forceRefresh, response, document, hallowed, hanswered.later hsent, hok⟩

theorem FreshKeys.later {start : Nat} {s s' : State} {uri : Url} {keys : List Fields}
    (h : FreshKeys platform network adapter start s uri keys) (htick : s.tick ≤ s'.tick)
    (hsent : s.sent <+: s'.sent) : FreshKeys platform network adapter start s' uri keys := by
  obtain ⟨k, fetched, huri, hkeys, hfresh⟩ := h
  refine ⟨k, fetched, huri, hkeys.later hsent, hfresh.imp_right ?_⟩
  rintro ⟨c, hstart, hc, hperiod⟩
  exact ⟨c, hstart, hc.trans_le htick, hperiod⟩

/-- The caches stay right while they do not change. -/
theorem Cached.later {s s' : State} (h : Cached platform network adapter s)
    (hsent : s.sent <+: s'.sent) (hdiscovery : s'.discoveryCache = s.discoveryCache)
    (hjwks : s'.jwksCache = s.jwksCache) : Cached platform network adapter s' where
  discovery cache hcache := by
    obtain ⟨document, hdiscovered⟩ := h.discovery cache (hdiscovery ▸ hcache)
    exact ⟨document, hdiscovered.later hsent⟩
  jwks cache hcache := by
    obtain ⟨k, uri, huri, hkeys, hexpires⟩ := h.jwks cache (hjwks ▸ hcache)
    exact ⟨k, uri, huri, hkeys.later hsent, hexpires⟩

theorem cached_initial : Cached platform network adapter State.initial where
  discovery cache hcache := by simp [State.initial] at hcache
  jwks cache hcache := by simp [State.initial] at hcache

/-! ## The calls, one by one -/

/-- The caches are right, and the exchange that began at tick `start` goes on. -/
structure Ready (platform : Platform) (network : Network) (adapter : Adapter) (start : Nat)
    (s : State) : Prop where
  cached : Cached platform network adapter s
  tick : start ≤ s.tick

variable {start : Nat}

theorem Ready.ticked {s : State} (h : Ready platform network adapter start s) :
    Ready platform network adapter start { s with tick := s.tick + 1 } :=
  ⟨h.cached.later List.prefix_rfl rfl rfl, h.tick.trans (Nat.le_succ _)⟩

/-- Reading the clock, with a fact that stays true as the calls go on. -/
theorem now_ready {R : State → Prop} (hR : ∀ s s', Advances 0 0 s s' → R s → R s') :
    Triple (fun s => Ready platform network adapter start s ∧ R s) (now network)
      (fun time s => Ready platform network adapter start s ∧ R s ∧
        ∃ c, start ≤ c ∧ c < s.tick ∧ time = network.clock c)
      fun _ s => Ready platform network adapter start s := by
  rintro s ⟨hs, hfact⟩
  have hmove : Advances 0 0 s (stateAfter (now network) s) := advances_now s
  exact ⟨hs.ticked, hR s _ hmove hfact, s.tick, hs.tick, Nat.lt_succ_self _, rfl⟩

theorem request_ready (purpose : Purpose) (asked : Request) :
    Triple (Ready platform network adapter start) (request network purpose asked)
      (fun response s => Ready platform network adapter start s ∧ ∃ k, start ≤ k ∧
        k + 1 = s.tick ∧ Answered network s k purpose asked response)
      fun _ s => Ready platform network adapter start s := by
  have hask : Triple (Ready platform network adapter start) (askNetwork network purpose asked)
      (fun answer s => Ready platform network adapter start s ∧ ∃ k, start ≤ k ∧ k + 1 = s.tick ∧
        ⟨k, purpose, asked⟩ ∈ s.sent ∧ network.respond k asked = answer)
      fun _ s => Ready platform network adapter start s := by
    intro s hs
    refine ⟨⟨hs.cached.later (List.prefix_append _ _) rfl rfl, hs.tick.trans (Nat.le_succ _)⟩,
      s.tick, hs.tick, rfl, ?_, rfl⟩
    exact List.mem_append_right _ List.mem_cons_self
  refine triple_bind hask fun answer => ?_
  cases answer with
  | none => exact fun s hs => hs.1
  | some response =>
      rintro s ⟨hs, k, hstart, htick, hsent, hanswer⟩
      exact ⟨hs, k, hstart, htick, hsent, hanswer⟩

theorem mapError_ok {ε ε' α : Type} {f : ε → ε'} {x : Except ε α} {a : α}
    (h : x.mapError f = .ok a) : x = .ok a := by
  cases x with
  | ok b => simpa [Except.mapError] using h
  | error e => simp [Except.mapError] at h

theorem fetchDiscovery_ready :
    Triple (Ready platform network adapter start) (fetchDiscovery platform network adapter)
      (fun discovery s => Ready platform network adapter start s ∧
        ∃ document, Discovered platform network adapter s document discovery)
      fun _ s => Ready platform network adapter start s := by
  refine triple_bind (triple_lift.consequence (fun _ hs => hs) (fun _ _ h => h)
    fun _ _ h => h.1) fun url => triple_of_fact fun hurl => ?_
  refine triple_bind (request_ready .discovery _) fun response => ?_
  refine triple_ite (fun hok => ?_) fun _ s hs => hs.1
  refine triple_bind (triple_lift.consequence (fun _ hs => hs) (fun _ _ h => h)
    fun _ _ h => h.1.1) fun document => triple_of_fact fun hread => ?_
  refine triple_bind (triple_lift.consequence (fun _ hs => hs) (fun _ _ h => h)
    fun _ _ h => h.1.1) fun discovery => triple_of_fact fun hvalid => ?_
  rintro s ⟨hs, k, -, -, hanswered⟩
  have hdiscovered : Discovered platform network adapter s document discovery :=
    ⟨k, url, response, mapError_ok hurl, hanswered, hok, hread, hvalid⟩
  refine ⟨⟨⟨?_, ?_⟩, hs.tick.trans (Nat.le_succ _)⟩, document,
    hdiscovered.later List.prefix_rfl⟩
  · rintro cache hcache
    obtain rfl := Option.some.inj hcache
    exact ⟨document, hdiscovered.later List.prefix_rfl⟩
  · intro cache hcache
    obtain ⟨k, uri, huri, hkeys, hexpires⟩ := hs.cached.jwks cache hcache
    exact ⟨k, uri, huri, hkeys.later List.prefix_rfl, hexpires⟩

theorem loadDiscovery_ready :
    Triple (Ready platform network adapter start) (loadDiscovery platform network adapter)
      (fun discovery s => Ready platform network adapter start s ∧
        ∃ document, Discovered platform network adapter s document discovery)
      fun _ s => Ready platform network adapter start s := by
  intro s hs
  cases hcache : s.discoveryCache with
  | none =>
      have hrun : loadDiscovery platform network adapter s =
          fetchDiscovery platform network adapter s := by
        simp only [loadDiscovery, bind, Fallible.get, readModify, hcache]
      rw [hrun]
      exact fetchDiscovery_ready s hs
  | some cached =>
      obtain ⟨document, hdiscovered⟩ := hs.cached.discovery cached hcache
      have hrun : loadDiscovery platform network adapter s =
          (now network >>= fun time => if time < cached.expiresAtMs then pure cached.value
            else fetchDiscovery platform network adapter) s := by
        simp only [loadDiscovery, bind, Fallible.get, readModify, hcache]
      rw [hrun]
      refine triple_bind (now_ready fun s s' hmove
        (h : Discovered platform network adapter s document cached.value) => h.later hmove.sent)
        (fun time => ?_) s ⟨hs, hdiscovered⟩
      refine triple_ite (fun _ s' hs' => ⟨hs'.1, document, hs'.2.1⟩) fun _ => ?_
      exact fetchDiscovery_ready.consequence (fun _ h => h.1) (fun _ _ h => h) fun _ _ h => h

theorem fetchJwks_ready {uri : Url} (hallowed : AllowedEndpoint adapter uri)
    (forceRefresh : Bool) :
    Triple (Ready platform network adapter start)
      (fetchJwks platform network adapter uri forceRefresh)
      (fun keys s => Ready platform network adapter start s ∧
        FreshKeys platform network adapter start s uri keys)
      fun _ s => Ready platform network adapter start s := by
  refine triple_bind (request_ready (.jwks forceRefresh) _) fun response => ?_
  refine triple_ite (fun hok => ?_) fun _ s hs => hs.1
  refine triple_bind (triple_lift.consequence (fun _ hs => hs) (fun _ _ h => h)
    fun _ _ h => h.1.1) fun document => triple_of_fact fun hread => ?_
  refine triple_bind (triple_lift.consequence (fun _ hs => hs) (fun _ _ h => h)
    fun _ _ h => h.1.1) fun keys => triple_of_fact fun hvalid => ?_
  rintro s ⟨hs, k, hstart, htick, hanswered⟩
  have hfetched : KeysFetched platform network adapter s k uri keys :=
    ⟨forceRefresh, response, document, hallowed, hanswered, hok, hread, hvalid⟩
  refine ⟨⟨⟨?_, ?_⟩, hs.tick.trans (Nat.le_succ _)⟩, k, uri, rfl,
    hfetched.later List.prefix_rfl, .inl hstart⟩
  · intro cache hcache
    obtain ⟨document, hdiscovered⟩ := hs.cached.discovery cache hcache
    exact ⟨document, hdiscovered.later List.prefix_rfl⟩
  · rintro cache hcache
    obtain rfl := Option.some.inj hcache
    exact ⟨k, uri, rfl, hfetched.later List.prefix_rfl, by rw [htick]⟩

theorem usableCache_some {uri : Url} {forceRefresh : Bool} {s : State} {cache : JwksCache}
    (h : usableCache uri forceRefresh s = some cache) :
    s.jwksCache = some cache ∧ cache.uri = uri.href := by
  unfold usableCache at h
  split_ifs at h
  obtain ⟨hcache, huri⟩ := Option.filter_eq_some_iff.mp h
  exact ⟨hcache, of_decide_eq_true huri⟩

theorem loadJwks_ready {uri : Url} (hallowed : AllowedEndpoint adapter uri)
    (forceRefresh : Bool) :
    Triple (Ready platform network adapter start)
      (loadJwks platform network adapter uri forceRefresh)
      (fun keys s => Ready platform network adapter start s ∧
        FreshKeys platform network adapter start s uri keys)
      fun _ s => Ready platform network adapter start s := by
  intro s hs
  cases hcache : usableCache uri forceRefresh s with
  | none =>
      have hrun : loadJwks platform network adapter uri forceRefresh s =
          fetchJwks platform network adapter uri forceRefresh s := by
        simp only [loadJwks, bind, Fallible.get, readModify, hcache]
      rw [hrun]
      exact fetchJwks_ready hallowed forceRefresh s hs
  | some cached =>
      obtain ⟨hjwks, huri⟩ := usableCache_some hcache
      obtain ⟨k, fetched, hhref, hkeys, hexpires⟩ := hs.cached.jwks cached hjwks
      have hrun : loadJwks platform network adapter uri forceRefresh s =
          (now network >>= fun time => if time < cached.expiresAtMs then pure cached.value
            else fetchJwks platform network adapter uri forceRefresh) s := by
        simp only [loadJwks, bind, Fallible.get, readModify, hcache]
      rw [hrun]
      refine triple_bind (now_ready fun s s' hmove
        (h : KeysFetched platform network adapter s k fetched cached.value) => h.later hmove.sent)
        (fun time => ?_) s ⟨hs, hkeys⟩
      refine triple_ite (fun hunexpired => ?_) fun _ => ?_
      · rintro s' ⟨hready, hkeys', c, hstart, hc, rfl⟩
        exact ⟨hready, k, fetched, hhref.trans huri, hkeys',
          .inr ⟨c, hstart, hc, hexpires ▸ hunexpired⟩⟩
      · exact (fetchJwks_ready hallowed forceRefresh).consequence (fun _ h => h.1)
          (fun _ _ h => h) fun _ _ h => h

/-! ## Tokens and identities -/

/-- What vouches for an identity. -/
structure Evidence where
  document : Fields
  discovery : DiscoveryDocument
  idToken : JsString
  header : Fields
  keys : List Fields
  key : Fields
  payload : Fields
  issuedAt : Int
  expiresAt : Int
  verified : Nat
  checked : Nat

/-- The token of the evidence is signed by a public key of a fresh key set and says what the
identity says; its claims were right when they were verified. -/
structure TokenVouched (platform : Platform) (jose : Jose) (network : Network)
    (adapter : Adapter) (start : Nat) (s : State) (identity : ProviderIdentity)
    (evidence : Evidence) : Prop where
  header : jose.decodeProtectedHeader evidence.idToken = some evidence.header
  fresh : FreshKeys platform network adapter start s evidence.discovery.jwksUri evidence.keys
  key : evidence.key ∈ evidence.keys
  isPublic : PublicKey evidence.key
  named : stringOf (field evidence.header "kid") = stringOf (field evidence.key "kid")
  signed : jose.signedBy evidence.idToken evidence.key = true
  payload : jose.payloadOf evidence.idToken = some evidence.payload
  duringExchange : (start ≤ evidence.verified ∧ evidence.verified < s.tick) ∧
    start ≤ evidence.checked ∧ evidence.checked < s.tick
  claims : RightClaims evidence.payload {
    issuer := evidence.discovery.issuer
    audience := adapter.clientId
    algorithms := evidence.discovery.signingAlgorithms
    clockTolerance := adapter.clockToleranceSeconds
    currentDate := network.clock evidence.verified }
  authorizedParty : 1 < (audiencesOf evidence.payload).length →
    stringOf (field evidence.payload "azp") = some adapter.clientId
  issuer : identity.issuer = evidence.discovery.issuer
  subject : stringOf (field evidence.payload "sub") = some identity.subject
  nonce : stringOf (field evidence.payload "nonce") = some identity.nonce
  times : safeInteger (field evidence.payload "iat") = some evidence.issuedAt ∧
    safeInteger (field evidence.payload "exp") = some evidence.expiresAt
  lifetime : evidence.issuedAt < evidence.expiresAt ∧
    evidence.expiresAt - evidence.issuedAt ≤ adapter.maxIdTokenLifetimeSeconds
  notFuture : evidence.issuedAt ≤
    network.clock evidence.checked / 1000 + adapter.clockToleranceSeconds

/-- This exchange asked the token endpoint and was given the token. -/
def Received (platform : Platform) (network : Network) (adapter : Adapter) (start : Nat)
    (s : State) (discovery : DiscoveryDocument) (idToken : JsString) : Prop :=
  ∃ k exchange redirectUri response tokenResponse, start ≤ k ∧
    Answered network s k .token (tokenRequest platform adapter discovery exchange redirectUri)
      response ∧
    readBoundedJson platform response adapter.maxResponseBytes jsonMedia = .ok tokenResponse ∧
    idTokenOf platform tokenResponse = some idToken

/-- The identity is vouched for: its issuer is the one that the fetched metadata declares,
and the token came from the token endpoint named there. -/
structure Vouched (platform : Platform) (jose : Jose) (network : Network) (adapter : Adapter)
    (start : Nat) (s : State) (identity : ProviderIdentity) (evidence : Evidence) : Prop
    extends TokenVouched platform jose network adapter start s identity evidence where
  discovered : Discovered platform network adapter s evidence.document evidence.discovery
  declared : stringOf (field evidence.document "issuer") = some identity.issuer
  received : Received platform network adapter start s evidence.discovery evidence.idToken

theorem FreshKeys.isPublic {s : State} {uri : Url} {keys : List Fields}
    (h : FreshKeys platform network adapter start s uri keys) : ∀ key ∈ keys, PublicKey key := by
  obtain ⟨k, fetched, -, ⟨forceRefresh, response, document, -, -, -, -, hvalid⟩, -⟩ := h
  exact validateJwks_public hvalid

theorem claimsOf_some {payload : Fields} {subject nonce : JsString} {issuedAt expiresAt : Int}
    (h : claimsOf payload = some (subject, nonce, issuedAt, expiresAt)) :
    stringOf (field payload "sub") = some subject ∧
      stringOf (field payload "nonce") = some nonce ∧
      safeInteger (field payload "iat") = some issuedAt ∧
      safeInteger (field payload "exp") = some expiresAt ∧ issuedAt < expiresAt := by
  simp only [claimsOf, Option.bind_eq_bind, Option.bind_eq_some_iff] at h
  obtain ⟨sub, hsub, non, hnonce, iat, hiat, exp, hexp, h⟩ := h
  split_ifs at h with hchecks
  obtain ⟨rfl, rfl, rfl, rfl⟩ : sub = subject ∧ non = nonce ∧ iat = issuedAt ∧ exp = expiresAt := by
    simpa using h
  exact ⟨hsub, hnonce, hiat, hexp, hchecks.2.2.2.2⟩

theorem acceptsAudience_party {payload : Fields} (h : acceptsAudience adapter payload = true)
    (hseveral : 1 < (audiencesOf payload).length) :
    stringOf (field payload "azp") = some adapter.clientId := by
  simp only [acceptsAudience, Bool.and_eq_true, Bool.or_eq_true, Bool.not_eq_true',
    decide_eq_true_eq] at h
  obtain ⟨-, hparty, -⟩ := h
  refine hparty.resolve_left fun hone => ?_
  unfold audiencesOf at hseveral
  split at hseveral
  · simp at hseveral
  · rename_i items haud
    rw [haud] at hone
    have hlength := List.length_filterMap_le (fun item => stringOf (some item)) items
    have hitems : 1 < items.length := hseveral.trans_le hlength
    simp [hitems] at hone
  · simp at hseveral

theorem verifyIdToken_ready {discovery : DiscoveryDocument}
    (hallowed : AllowedEndpoint adapter discovery.jwksUri) (document : Fields)
    (idToken : JsString) (forceKeyRefresh : Bool) :
    Triple (Ready platform network adapter start)
      (verifyIdToken platform jose network adapter idToken discovery forceKeyRefresh)
      (fun identity s => Ready platform network adapter start s ∧ ∃ evidence,
        evidence.document = document ∧ evidence.discovery = discovery ∧
        evidence.idToken = idToken ∧
        TokenVouched platform jose network adapter start s identity evidence)
      fun _ s => Ready platform network adapter start s := by
  unfold verifyIdToken
  cases hheader : jose.decodeProtectedHeader idToken with
  | none => exact fun s hs => hs
  | some header =>
    refine triple_ite (fun _ => ?_) fun _ s hs => hs
    refine triple_bind (loadJwks_ready hallowed forceKeyRefresh) fun keys => ?_
    refine triple_bind (now_ready fun s s' hmove
      (h : FreshKeys platform network adapter start s discovery.jwksUri keys) =>
        h.later hmove.tick hmove.sent) fun currentDate => ?_
    refine triple_bind (triple_lift.consequence (fun _ hs => hs) (fun _ _ h => h)
      fun _ _ h => h.1.1) fun payload => triple_of_fact fun hverified => ?_
    have haccepted := mapError_ok hverified
    obtain ⟨hpayload, hclaims, header', hheader', -, key, hkey, hkid, hsigned⟩ :=
      (jose.accepts _ _ _ _).mp haccepted
    obtain rfl : header = header' := Option.some.inj (hheader.symm.trans hheader')
    refine triple_ite (fun haudience => ?_) fun _ s hs => hs.1
    cases hclaimsOf : claimsOf payload with
    | none => exact fun s hs => hs.1
    | some claims =>
      obtain ⟨subject, nonce, issuedAt, expiresAt⟩ := claims
      obtain ⟨hsubject, hnonce, hiat, hexp, hlifetime⟩ := claimsOf_some hclaimsOf
      refine triple_bind (now_ready fun s s' hmove
        (h : FreshKeys platform network adapter start s discovery.jwksUri keys ∧
          ∃ c, start ≤ c ∧ c < s.tick ∧ currentDate = network.clock c) => ?_) fun current => ?_
      · obtain ⟨hfresh, c, hstart, hc, htime⟩ := h
        exact ⟨hfresh.later hmove.tick hmove.sent, c, hstart, hc.trans_le hmove.tick, htime⟩
      refine triple_ite (fun htimes => ?_) fun _ s hs => hs.1
      rintro s ⟨hs, ⟨hfresh, c, hstart, hc, rfl⟩, c', hstart', hc', rfl⟩
      let evidence : Evidence := {
        document := document
        discovery := discovery
        idToken := idToken
        header := header
        keys := keys
        key := key
        payload := payload
        issuedAt := issuedAt
        expiresAt := expiresAt
        verified := c
        checked := c' }
      refine ⟨hs, evidence, rfl, rfl, rfl, ?_⟩
      exact {
        header := hheader
        fresh := hfresh
        key := hkey
        isPublic := hfresh.isPublic key hkey
        named := hkid
        signed := hsigned
        payload := hpayload
        duringExchange := ⟨⟨hstart, hc⟩, hstart', hc'⟩
        claims := hclaims
        authorizedParty := acceptsAudience_party haudience
        issuer := rfl
        subject := hsubject
        nonce := hnonce
        times := ⟨hiat, hexp⟩
        lifetime := ⟨hlifetime, htimes.2⟩
        notFuture := htimes.1 }

theorem Received.later {s s' : State} {discovery : DiscoveryDocument} {idToken : JsString}
    (h : Received platform network adapter start s discovery idToken)
    (hsent : s.sent <+: s'.sent) :
    Received platform network adapter start s' discovery idToken := by
  obtain ⟨k, exchange, redirectUri, response, tokenResponse, hstart, hanswered, hread⟩ := h
  exact ⟨k, exchange, redirectUri, response, tokenResponse, hstart, hanswered.later hsent, hread⟩

/-- A verification in an exchange that has found the metadata and received the token. -/
theorem verifyIdToken_vouched {discovery : DiscoveryDocument}
    (hallowed : AllowedEndpoint adapter discovery.jwksUri) (document : Fields)
    (idToken : JsString) (forceKeyRefresh : Bool) :
    Triple (fun s => Ready platform network adapter start s ∧
        Discovered platform network adapter s document discovery ∧
        Received platform network adapter start s discovery idToken)
      (verifyIdToken platform jose network adapter idToken discovery forceKeyRefresh)
      (fun identity s => Ready platform network adapter start s ∧ ∃ evidence,
        Vouched platform jose network adapter start s identity evidence)
      fun _ s => Ready platform network adapter start s ∧
        Discovered platform network adapter s document discovery ∧
        Received platform network adapter start s discovery idToken := by
  have hverify := @verifyIdToken_ready platform jose network adapter start discovery hallowed
    document idToken forceKeyRefresh
  have hcarry := hverify.carry (verifyIdToken_advances idToken discovery forceKeyRefresh)
    fun s s' hmove (h : Discovered platform network adapter s document discovery ∧
      Received platform network adapter start s discovery idToken) =>
        ⟨h.1.later hmove.sent, h.2.later hmove.sent⟩
  refine hcarry.consequence (fun _ h => h) ?_ fun _ _ h => h
  rintro identity s ⟨⟨hs, evidence, rfl, rfl, rfl, hvouched⟩, hdiscovered, hreceived⟩
  obtain ⟨k, url, response, hurl, hanswered, hok, hread, hvalid⟩ := hdiscovered
  obtain ⟨hissuer, hadvertised⟩ := validateDiscovery_ok.mp hvalid
  refine ⟨hs, evidence, hvouched, ⟨k, url, response, hurl, hanswered, hok, hread, hvalid⟩, ?_,
    hreceived⟩
  rw [hissuer, hvouched.issuer, (advertised_ok hadvertised).1]

theorem verifyRefreshing_vouched {discovery : DiscoveryDocument}
    (hallowed : AllowedEndpoint adapter discovery.jwksUri) (document : Fields)
    (idToken : JsString) :
    Triple (fun s => Ready platform network adapter start s ∧
        Discovered platform network adapter s document discovery ∧
        Received platform network adapter start s discovery idToken)
      (verifyRefreshing platform jose network adapter discovery idToken)
      (fun identity s => Ready platform network adapter start s ∧ ∃ evidence,
        Vouched platform jose network adapter start s identity evidence)
      fun _ s => Ready platform network adapter start s := by
  refine triple_recover (verifyIdToken_vouched hallowed document idToken false) fun error => ?_
  unfold retryVerification
  refine triple_ite (fun _ s hs => hs.1) fun _ => triple_ite (fun _ => ?_) fun _ s hs => hs.1
  refine triple_recover (verifyIdToken_vouched hallowed document idToken true)
    fun retryError => ?_
  exact triple_ite (fun _ s hs => hs.1) fun _ s hs => hs.1

/-- **Soundness.**  An exchange returns vouched identities only, and keeps the caches right. -/
theorem exchange_ready (exchange : AuthorizationCodeExchange) :
    Triple (Ready platform network adapter start)
      (exchangeAuthorizationCode platform jose network adapter exchange)
      (fun identity s => Ready platform network adapter start s ∧ ∃ evidence,
        Vouched platform jose network adapter start s identity evidence)
      fun _ s => Ready platform network adapter start s := by
  refine triple_ite (fun _ => ?_) fun _ s hs => hs
  refine triple_bind loadDiscovery_ready fun discovery => ?_
  refine triple_bind (triple_lift.consequence (fun _ hs => hs) (fun _ _ h => h)
    fun _ _ h => h.1.1) fun redirectUri => triple_of_fact fun _ => ?_
  have hrequest := (@request_ready platform network adapter start .token
      (tokenRequest platform adapter discovery exchange redirectUri)).carry
    (advances_request _ _) fun s s' hmove
      (h : ∃ document, Discovered platform network adapter s document discovery) =>
        h.imp fun document hdiscovered => hdiscovered.later hmove.sent
  refine triple_bind (hrequest.consequence (fun _ h => h) (fun _ _ h => h) fun _ _ h => h.1)
    fun response => ?_
  unfold readTokenResponse
  refine triple_ite (fun _ s hs => hs.1.1) fun _ => triple_ite (fun _ => ?_) fun _ s hs => hs.1.1
  refine triple_bind (triple_lift.consequence (fun _ hs => hs) (fun _ _ h => h)
    fun _ _ h => h.1.1.1) fun tokenResponse => triple_of_fact fun hread => ?_
  cases htoken : idTokenOf platform tokenResponse with
  | none => exact fun s hs => hs.1.1
  | some idToken =>
    rintro s ⟨⟨hs, k, hstart, -, hanswered⟩, document, hdiscovered⟩
    have hreceived : Received platform network adapter start s discovery idToken :=
      ⟨k, exchange, redirectUri, response, tokenResponse, hstart, hanswered, hread, htoken⟩
    have hallowed : AllowedEndpoint adapter discovery.jwksUri := by
      obtain ⟨-, -, -, -, -, -, -, hvalid⟩ := hdiscovered
      exact normalizeEndpoint_allowed (advertised_ok (validateDiscovery_ok.mp hvalid).2).2.2
    exact verifyRefreshing_vouched hallowed document idToken s ⟨hs, hdiscovered, hreceived⟩

theorem buildAuthorizationUrl_ready (asked : AuthorizationRequest) :
    Triple (Ready platform network adapter start)
      (buildAuthorizationUrl platform network adapter asked)
      (fun _ s => Ready platform network adapter start s)
      fun _ s => Ready platform network adapter start s := by
  refine triple_ite (fun _ => ?_) fun _ s hs => hs
  refine triple_bind loadDiscovery_ready fun discovery => ?_
  refine triple_bind (triple_lift.consequence (fun _ hs => hs) (fun _ _ h => h)
    fun _ _ h => h.1.1) fun redirectUri => triple_of_fact fun _ => ?_
  exact fun s hs => hs.1

/-! ## Runs -/

/-- The state after a list of operations of a new adapter. -/
def afterOperations (platform : Platform) (jose : Jose) (network : Network) (adapter : Adapter)
    (operations : List Operation) : State :=
  operations.foldl (perform platform jose network adapter) State.initial

theorem cached_perform {s : State} (h : Cached platform network adapter s)
    (operation : Operation) :
    Cached platform network adapter (perform platform jose network adapter s operation) := by
  have hready : Ready platform network adapter 0 s := ⟨h, Nat.zero_le _⟩
  cases operation with
  | authorize asked => exact ((buildAuthorizationUrl_ready asked).stateAfter hready).cached
  | exchange exchange =>
      have hexchange := @exchange_ready platform jose network adapter 0 exchange
      exact ((hexchange.consequence (fun _ h => h) (fun _ _ h => h.1) fun _ _ h => h).stateAfter
        hready).cached

/-- The caches are right in every state that operations reach. -/
theorem cached_afterOperations (operations : List Operation) :
    Cached platform network adapter
      (afterOperations platform jose network adapter operations) := by
  induction operations using List.reverseRecOn with
  | nil => exact cached_initial
  | append_singleton operations operation ih =>
      rw [afterOperations, List.foldl_concat]
      exact cached_perform ih operation

/-- Every identity an adapter returns, after whatever operations, is vouched for. -/
theorem exchange_sound {operations : List Operation} {exchange : AuthorizationCodeExchange}
    {identity : ProviderIdentity} {s' : State}
    (h : exchangeAuthorizationCode platform jose network adapter exchange
      (afterOperations platform jose network adapter operations) = (.ok identity, s')) :
    ∃ evidence, Vouched platform jose network adapter
      (afterOperations platform jose network adapter operations).tick s' identity evidence :=
  ((exchange_ready exchange).ok ⟨cached_afterOperations operations, Nat.le_refl _⟩ h).2

end Soundness

end Oidc
