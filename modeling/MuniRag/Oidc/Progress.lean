import MuniRag.Oidc.Exchange

/-!
# What a call adds

Every call of the adapter only adds to what was sent and lets ticks pass, and it is known
how often it asks for a key set: an exchange does so once at most on its own account, and
at most once more after a verification that failed (`exchange_advances`).
-/

namespace Oidc

open Fallible Json Results

section Progress

variable {platform : Platform} {jose : Jose} {network : Network} {adapter : Adapter}

def timesAsked (forceRefresh : Bool) (s : State) : Nat :=
  s.sent.countP (·.purpose = .jwks forceRefresh)

/-- Time goes on, what was sent stays, and at most so many key sets were asked for. -/
structure Advances (first refresh : Nat) (s s' : State) : Prop where
  tick : s.tick ≤ s'.tick
  sent : s.sent <+: s'.sent
  first : timesAsked false s' ≤ timesAsked false s + first
  refresh : timesAsked true s' ≤ timesAsked true s + refresh

variable {first refresh first' refresh' : Nat} {α β : Type}

theorem Advances.refl (s : State) : Advances first refresh s s :=
  ⟨Nat.le_refl _, List.prefix_rfl, Nat.le_add_right _ _, Nat.le_add_right _ _⟩

theorem Advances.trans {s s' s'' : State} (h : Advances first refresh s s')
    (h' : Advances first' refresh' s' s'') :
    Advances (first + first') (refresh + refresh') s s'' where
  tick := h.tick.trans h'.tick
  sent := h.sent.trans h'.sent
  first := by
    have h1 := h.first
    have h2 := h'.first
    omega
  refresh := by
    have h1 := h.refresh
    have h2 := h'.refresh
    omega

theorem Advances.mono {s s' : State} (h : Advances first refresh s s') (hfirst : first ≤ first')
    (hrefresh : refresh ≤ refresh') : Advances first' refresh' s s' where
  tick := h.tick
  sent := h.sent
  first := h.first.trans (Nat.add_le_add_left hfirst _)
  refresh := h.refresh.trans (Nat.add_le_add_left hrefresh _)

/-- A step that asks for no keys comes before the rest. -/
theorem advances_bind {x : Call α} {f : α → Call β} (hx : Moves (Advances 0 0) x)
    (hf : ∀ a, Moves (Advances first refresh) (f a)) : Moves (Advances first refresh) (x >>= f) :=
  moves_bind hx hf (fun _ _ h => h.mono (Nat.zero_le _) (Nat.zero_le _)) fun _ _ _ h h' =>
    (h.trans h').mono (Nat.zero_add _).le (Nat.zero_add _).le

/-- After a step that may ask for keys the rest asks for none. -/
theorem advances_bind_free {x : Call α} {f : α → Call β} (hx : Moves (Advances first refresh) x)
    (hf : ∀ a, Moves (Advances 0 0) (f a)) : Moves (Advances first refresh) (x >>= f) :=
  moves_bind hx hf (fun _ _ h => h) fun _ _ _ h h' => h.trans h'

theorem advances_recover {x : Call α} {handle : Failure → Call α}
    (hx : Moves (Advances first refresh) x)
    (hhandle : ∀ e, Moves (Advances first' refresh') (handle e)) :
    Moves (Advances (first + first') (refresh + refresh')) (recover x handle) :=
  moves_recover hx hhandle (fun _ _ h => h.mono (Nat.le_add_right _ _) (Nat.le_add_right _ _))
    fun _ _ _ h h' => h.trans h'

theorem advances_pure (a : α) : Moves (Advances first refresh) (pure a : Call α) :=
  moves_pure Advances.refl a

theorem advances_fail (e : Failure) : Moves (Advances first refresh) (fail e : Call α) :=
  moves_fail Advances.refl e

theorem advances_lift (y : Except Failure α) : Moves (Advances 0 0) (lift y : Call α) :=
  moves_lift Advances.refl y

theorem advances_now : Moves (Advances 0 0) (now network) :=
  moves_readModify fun _ => ⟨Nat.le_succ _, List.prefix_rfl, Nat.le_refl _, Nat.le_refl _⟩

theorem advances_askNetwork (purpose : Purpose) (asked : Request) :
    Moves (Advances (if purpose = .jwks false then 1 else 0)
      (if purpose = .jwks true then 1 else 0)) (askNetwork network purpose asked) := by
  refine moves_readModify fun s => ⟨Nat.le_succ _, List.prefix_append _ _, ?_, ?_⟩
  · by_cases hpurpose : purpose = .jwks false <;> simp [timesAsked, hpurpose]
  · by_cases hpurpose : purpose = .jwks true <;> simp [timesAsked, hpurpose]

theorem advances_answer (answer : Option Response) : Moves (Advances 0 0) (match answer with
    | some response => (pure response : Call Response)
    | none => fail .unavailable) := by
  cases answer with
  | none => exact advances_fail _
  | some response => exact advances_pure _

/-- What a request adds to the key sets asked for. -/
theorem advances_request (purpose : Purpose) (asked : Request) :
    Moves (Advances (if purpose = .jwks false then 1 else 0)
      (if purpose = .jwks true then 1 else 0)) (request network purpose asked) :=
  advances_bind_free (advances_askNetwork purpose asked) advances_answer

theorem advances_ite {c : Prop} [Decidable c] {x y : Call α}
    (hthen : Moves (Advances first refresh) x) (helse : Moves (Advances first refresh) y) :
    Moves (Advances first refresh) (if c then x else y) := by
  by_cases hc : c
  · rw [if_pos hc]
    exact hthen
  · rw [if_neg hc]
    exact helse

theorem advances_modify {f : State → State} (htick : ∀ s, (f s).tick = s.tick)
    (hsent : ∀ s, (f s).sent = s.sent) : Moves (Advances 0 0) (modify f : Call Unit) := by
  refine moves_readModify fun s => ?_
  refine ⟨(htick s).ge, (hsent s) ▸ List.prefix_rfl, ?_, ?_⟩ <;> simp [timesAsked, hsent s]

theorem fetchDiscovery_advances :
    Moves (Advances 0 0) (fetchDiscovery platform network adapter) := by
  refine advances_bind (advances_lift _) fun url => ?_
  refine advances_bind (advances_request .discovery _) fun response => advances_ite ?_ ?_
  · refine advances_bind (advances_lift _) fun document => ?_
    refine advances_bind (advances_lift _) fun value => ?_
    refine advances_bind advances_now fun stored => ?_
    exact advances_bind (advances_modify (fun _ => rfl) fun _ => rfl) fun _ => advances_pure value
  · exact advances_fail _

theorem loadDiscovery_advances :
    Moves (Advances 0 0) (loadDiscovery platform network adapter) := by
  refine advances_bind (moves_get Advances.refl) fun s => ?_
  cases s.discoveryCache with
  | none => exact fetchDiscovery_advances
  | some cached =>
      exact advances_bind advances_now fun time =>
        advances_ite (advances_pure _) fetchDiscovery_advances

theorem fetchJwks_advances (uri : Url) (forceRefresh : Bool) :
    Moves (Advances (if forceRefresh then 0 else 1) (if forceRefresh then 1 else 0))
      (fetchJwks platform network adapter uri forceRefresh) := by
  have htail : ∀ response : Response, Moves (Advances 0 0) (if response.ok then do
      let document ← lift (readBoundedJson platform response adapter.maxResponseBytes jwksMedia)
      let value ← lift (validateJwks document adapter.allowedSigningAlgorithms)
      let stored ← now network
      modify fun s => { s with
        jwksCache := some ⟨value, uri.href, stored + adapter.jwksCacheTtlMs⟩ }
      pure value
    else (fail .unavailable : Call (List Fields))) := by
    intro response
    refine advances_ite ?_ (advances_fail _)
    refine advances_bind (advances_lift _) fun document => ?_
    refine advances_bind (advances_lift _) fun value => ?_
    refine advances_bind advances_now fun stored => ?_
    exact advances_bind (advances_modify (fun _ => rfl) fun _ => rfl) fun _ => advances_pure value
  cases forceRefresh with
  | true => exact advances_bind_free (advances_request (.jwks true) _) htail
  | false => exact advances_bind_free (advances_request (.jwks false) _) htail

theorem advances_cached (uri : Url) (forceRefresh : Bool) (cache : Option JwksCache) :
    Moves (Advances (if forceRefresh then 0 else 1) (if forceRefresh then 1 else 0))
      (match cache with
        | some cached => do
            if (← now network) < cached.expiresAtMs then pure cached.value
            else fetchJwks platform network adapter uri forceRefresh
        | none => fetchJwks platform network adapter uri forceRefresh) := by
  cases cache with
  | none => exact fetchJwks_advances uri forceRefresh
  | some cached =>
      exact advances_bind advances_now fun time =>
        advances_ite (advances_pure _) (fetchJwks_advances uri forceRefresh)

theorem loadJwks_advances (uri : Url) (forceRefresh : Bool) :
    Moves (Advances (if forceRefresh then 0 else 1) (if forceRefresh then 1 else 0))
      (loadJwks platform network adapter uri forceRefresh) :=
  advances_bind (moves_get Advances.refl) fun s =>
    advances_cached uri forceRefresh (usableCache uri forceRefresh s)

theorem checkPayload_advances (discovery : DiscoveryDocument) (payload : Fields) :
    Moves (Advances 0 0) (checkPayload network adapter discovery payload) := by
  refine advances_ite ?_ (advances_fail _)
  cases claimsOf payload with
  | none => exact advances_fail _
  | some claims =>
      exact advances_bind advances_now fun current =>
        advances_ite (advances_pure _) (advances_fail _)

theorem verifyIdToken_advances (idToken : JsString) (discovery : DiscoveryDocument)
    (forceKeyRefresh : Bool) :
    Moves (Advances (if forceKeyRefresh then 0 else 1) (if forceKeyRefresh then 1 else 0))
      (verifyIdToken platform jose network adapter idToken discovery forceKeyRefresh) := by
  unfold verifyIdToken
  cases jose.decodeProtectedHeader idToken with
  | none => exact advances_fail _
  | some header =>
      refine advances_ite ?_ (advances_fail _)
      refine advances_bind_free (loadJwks_advances discovery.jwksUri forceKeyRefresh) fun keys => ?_
      refine advances_bind advances_now fun currentDate => ?_
      exact advances_bind (advances_lift _) fun payload => checkPayload_advances discovery payload

theorem retryVerification_advances (discovery : DiscoveryDocument) (idToken : JsString)
    (error : Failure) : Moves (Advances 0 1)
      (retryVerification platform jose network adapter discovery idToken error) := by
  have hlast : ∀ retryError : Failure, Moves (Advances 0 0)
      (if retryError = .unavailable then (fail .unavailable : Call ProviderIdentity)
        else fail .authentication) :=
    fun retryError => advances_ite (advances_fail _) (advances_fail _)
  refine advances_ite (advances_fail _) (advances_ite ?_ (advances_fail _))
  exact advances_recover (verifyIdToken_advances idToken discovery true) hlast

theorem verifyRefreshing_advances (discovery : DiscoveryDocument) (idToken : JsString) :
    Moves (Advances 1 1)
      (verifyRefreshing platform jose network adapter discovery idToken) :=
  advances_recover (verifyIdToken_advances idToken discovery false)
    (retryVerification_advances discovery idToken)

theorem readTokenResponse_advances (discovery : DiscoveryDocument) (response : Response) :
    Moves (Advances 1 1)
      (readTokenResponse platform jose network adapter discovery response) := by
  refine advances_ite (advances_fail _) (advances_ite ?_ (advances_fail _))
  refine advances_bind (advances_lift _) fun tokenResponse => ?_
  cases idTokenOf platform tokenResponse with
  | none => exact advances_fail _
  | some idToken => exact verifyRefreshing_advances discovery idToken

/-- **Requests for keys.**  An exchange asks for the keys once at most, and at most once more
after a verification that failed. -/
theorem exchange_advances (exchange : AuthorizationCodeExchange) :
    Moves (Advances 1 1)
      (exchangeAuthorizationCode platform jose network adapter exchange) := by
  refine advances_ite ?_ (advances_fail _)
  refine advances_bind loadDiscovery_advances fun discovery => ?_
  refine advances_bind (advances_lift _) fun redirectUri => ?_
  exact advances_bind (advances_request .token _) (readTokenResponse_advances discovery)

end Progress

end Oidc
