import MuniRag.Lib.Results
import MuniRag.Sources.HtmlAcquisition

/-!
# The fetch stays on its host

A run of `fetchHtml` is a sequence of rounds, each with one request and, where requests are
pinned, one agent that is opened before and closed after it.  Every round begins with
`validateUrl`, so whatever the network answered before, the URL of the round is permitted and
its addresses were resolved for it and are public (`fetchLoop_rounds`, `fetchHtml_governed`).
-/

namespace HtmlAcquisition

open NetworkAddress Results

/-- A URL that goes by https, without credentials, to the host of the inventory URL, which
both the connector and the pack allow. -/
structure Permitted (fetch : Fetch) (publicUrl : JsString) (url : Url) : Prop where
  https : url.protocol = js "https:"
  noUsername : url.username = []
  noPassword : url.password = []
  sameHost : ∃ start, fetch.platform.parse publicUrl = some start ∧ url.hostname = start.hostname
  connectorAllows : url.hostname ∈ fetch.connectorHosts
  packAllows : url.hostname ∈ fetch.packHosts

/-- The page came with status 200 as the chunks of the body, within the limit. -/
structure Delivered (fetch : Fetch) (round : Nat) (fetched : Fetched) : Prop where
  status : fetched.status = 200
  nonempty : 1 ≤ fetched.content.length
  bounded : fetched.content.length ≤ fetch.maxArtifactBytes
  received : ∃ response body, fetch.network.send round fetched.finalUrl = .ok response ∧
    response.status = 200 ∧ response.body = some body ∧ fetched.content = body.chunks.flatten

def isRequest : Event → Bool
  | .requested _ _ => true
  | _ => false

def openedAgent : Event → Option Nat
  | .opened round _ => some round
  | _ => none

def closedAgent : Event → Option Nat
  | .closed round => some round
  | _ => none

/-- What holds of the trace and the result of a fetch. -/
structure Governed (fetch : Fetch) (publicUrl : JsString)
    (run : List Event × Except Thrown Fetched) : Prop where
  permitted : ∀ round url, Event.requested round url ∈ run.1 → Permitted fetch publicUrl url
  throughAgent : fetch.pinned = true → ∀ round url, Event.requested round url ∈ run.1 →
    ∃ addresses, [.opened round addresses, .requested round url].Sublist run.1 ∧
      fetch.network.resolveHost round url.hostname = .ok addresses ∧ addresses ≠ [] ∧
      ∀ all, ∀ entry ∈ pinnedLookup addresses all,
        entry.1 ∈ addresses ∧ isPublicNetworkAddress entry.1 = true
  bounded : run.1.countP isRequest ≤ fetch.maxRedirects + 1
  oneAgent : (run.1.filterMap openedAgent).Nodup
  allClosed : run.1.filterMap closedAgent = run.1.filterMap openedAgent
  closedAfter : ∀ round addresses, Event.opened round addresses ∈ run.1 →
    [.opened round addresses, .closed round].Sublist run.1
  success : ∀ fetched, run.2 = .ok fetched → Permitted fetch publicUrl fetched.finalUrl ∧
    ∃ round, Event.requested round fetched.finalUrl ∈ run.1 ∧ Delivered fetch round fetched

/-! ## One round -/

/-- One pass through the loop. -/
structure Round where
  number : Nat
  url : Url
  addresses : List JsString

def Round.events (pinned : Bool) (round : Round) : List Event :=
  if pinned then [.opened round.number round.addresses, .requested round.number round.url,
    .closed round.number]
  else [.requested round.number round.url]

/-- What `validateUrl` has established when the request of a round is made. -/
structure Round.Sound (fetch : Fetch) (originalHost : JsString) (allowedHosts : List JsString)
    (round : Round) : Prop where
  https : round.url.protocol = js "https:"
  noUsername : round.url.username = []
  noPassword : round.url.password = []
  sameHost : round.url.hostname = originalHost
  allowed : round.url.hostname ∈ allowedHosts
  resolved : fetch.network.resolveHost round.number round.url.hostname = .ok round.addresses
  nonempty : round.addresses ≠ []
  isPublic : ∀ address ∈ round.addresses, isPublicNetworkAddress address = true

theorem validateUrl_ok {network : Network} {round : Nat} {url : Url} {allowedHosts : List JsString}
    {addresses : List JsString} (h : validateUrl network round url allowedHosts = .ok addresses) :
    url.protocol = js "https:" ∧ url.username = [] ∧ url.password = [] ∧
      url.hostname ∈ allowedHosts ∧ network.resolveHost round url.hostname = .ok addresses ∧
      addresses ≠ [] ∧ ∀ address ∈ addresses, isPublicNetworkAddress address = true := by
  unfold validateUrl at h
  split at h
  · cases h
  · rename_i hurl
    split at h
    · cases h
    · rename_i hhost
      split at h
      · cases h
      · rename_i resolved hresolved
        split at h
        · cases h
        · rename_i hsome
          split at h
          · cases h
          · rename_i hpublic
            obtain rfl := Except.ok.inj h
            simp only [not_or, not_not] at hurl hhost
            refine ⟨hurl.1, hurl.2.1, hurl.2.2, hhost, hresolved, ?_, fun address haddress => ?_⟩
            · rintro rfl
              exact hsome (by decide)
            · by_contra hprivate
              exact hpublic (List.any_eq_true.mpr ⟨address, haddress, by simpa using hprivate⟩)

/-- The default resolver answers public addresses only. -/
theorem resolvePublicHost_ok {lookup : Except Thrown (List JsString)} {hostname : JsString}
    {addresses : List JsString} (h : resolvePublicHost lookup hostname = .ok addresses) :
    lookup = .ok addresses ∧ addresses ≠ [] ∧
      ∀ address ∈ addresses, isPublicNetworkAddress address = true := by
  obtain ⟨found, hlookup, h⟩ := then_ok.mp h
  split at h
  · cases h
  · rename_i hsome
    split at h
    · cases h
    · rename_i hpublic
      obtain rfl := Except.ok.inj h
      refine ⟨hlookup, ?_, fun address haddress => ?_⟩
      · rintro rfl
        exact hsome (by decide)
      · by_contra hprivate
        exact hpublic (List.any_eq_true.mpr ⟨address, haddress, by simpa using hprivate⟩)

/-- The events of a round do not depend on what the network answers. -/
theorem request_events (fetch : Fetch) (round : Round) :
    (request fetch round.number round.url round.addresses).1 ++
      closing fetch round.number (request fetch round.number round.url round.addresses).2 =
      round.events fetch.pinned := by
  cases hpinned : fetch.pinned <;> cases hsend : fetch.network.send round.number round.url <;>
    simp [request, pinnedRequest, closing, Round.events, hpinned, hsend]

theorem request_answer (fetch : Fetch) (round : Nat) (url : Url) (addresses : List JsString) :
    (request fetch round url addresses).2 = fetch.network.send round url := by
  unfold request pinnedRequest
  split
  · split
    · rename_i hsend
      exact hsend.symm
    · rename_i hsend
      exact hsend.symm
  · rfl

/-- A redirect is followed on the original host only. -/
theorem handleResponse_next {fetch : Fetch} {originalHost : JsString} {redirects : Nat}
    {current next : Url} {response : Response}
    (h : handleResponse fetch originalHost redirects current response = .ok (.inl next)) :
    next.hostname = originalHost := by
  unfold handleResponse at h
  split at h
  · split at h
    · cases h
    · split at h
      · cases h
      · split at h
        · cases h
        · split at h
          · cases h
          · rename_i hhost
            obtain rfl := Sum.inl.inj (Except.ok.inj h)
            exact not_not.mp hhost
  · split at h
    · cases h
    · dsimp only at h
      split at h
      · cases h
      · obtain ⟨_, -, h⟩ := then_ok.mp h
        obtain ⟨_, -, h⟩ := then_ok.mp h
        cases h

/-- Chunks that fit are put together; empty ones add nothing. -/
theorem readChunks_ok {maximum : Nat} {failure : Option Thrown} {received chunks : List (List UInt8)}
    {content : List UInt8} (hreceived : received.flatten.length ≤ maximum)
    (h : readChunks maximum failure received chunks = .ok content) :
    content = received.flatten ++ chunks.flatten ∧ 1 ≤ content.length ∧
      content.length ≤ maximum := by
  induction chunks generalizing received with
  | nil =>
      simp only [readChunks] at h
      split at h
      · cases h
      · split at h
        · cases h
        · rename_i hsome
          obtain rfl := Except.ok.inj h
          exact ⟨by simp, Nat.le_of_not_lt hsome, hreceived⟩
  | cons chunk chunks ih =>
      rw [readChunks] at h
      split at h
      · rename_i hempty
        obtain ⟨rfl, hlength⟩ := ih hreceived h
        rw [List.flatten_cons, List.length_eq_zero_iff.mp hempty, List.nil_append] at *
        exact ⟨rfl, hlength⟩
      · split at h
        · cases h
        · rename_i hfits
          have hmore : (received ++ [chunk]).flatten.length ≤ maximum := by
            simp only [List.flatten_append, List.flatten_cons, List.flatten_nil, List.append_nil,
              List.length_append]
            omega
          obtain ⟨rfl, hlength⟩ := ih hmore h
          refine ⟨?_, hlength⟩
          simp [List.append_assoc]

theorem handleResponse_page {fetch : Fetch} {originalHost : JsString} {redirects : Nat}
    {current : Url} {response : Response} {fetched : Fetched}
    (hsend : fetch.network.send redirects current = .ok response)
    (h : handleResponse fetch originalHost redirects current response = .ok (.inr fetched)) :
    fetched.finalUrl = current ∧ Delivered fetch redirects fetched := by
  unfold handleResponse at h
  split at h
  · split at h
    · cases h
    · split at h
      · cases h
      · split at h
        · cases h
        · split at h
          · cases h
          · cases h
  · split at h
    · cases h
    · rename_i hstatus
      have hok : response.status = 200 := not_not.mp hstatus
      dsimp only at h
      split at h
      · cases h
      · obtain ⟨content, hcontent, h⟩ := then_ok.mp h
        obtain ⟨charset, -, h⟩ := then_ok.mp h
        obtain rfl := Sum.inr.inj (Except.ok.inj h)
        unfold readBounded at hcontent
        split at hcontent
        · cases hcontent
        · split at hcontent
          · cases hcontent
          · rename_i body hbody
            obtain ⟨hsame, hsome, hbound⟩ := readChunks_ok (Nat.zero_le _) hcontent
            exact ⟨rfl, hok, hsome, hbound, response, body, hsend, hok, hbody, hsame⟩

/-! ## Runs -/

/-- **Every round is sound.**  By induction on the rounds that are left: the URL of the next
round is on the original host, and `validateUrl` checks the rest before the next request. -/
theorem fetchLoop_rounds {fetch : Fetch} {originalHost : JsString} {allowedHosts : List JsString}
    {left redirects : Nat} {current : Url} (hcurrent : current.hostname = originalHost) :
    ∃ rounds : List Round,
      (fetchLoop fetch originalHost allowedHosts left redirects current).1 =
        rounds.flatMap (Round.events fetch.pinned) ∧
      rounds.map (·.number) = List.range' redirects rounds.length ∧ rounds.length ≤ left ∧
      (∀ round ∈ rounds, round.Sound fetch originalHost allowedHosts) ∧
      ∀ fetched, (fetchLoop fetch originalHost allowedHosts left redirects current).2 = .ok fetched →
        ∃ round ∈ rounds, fetched.finalUrl = round.url ∧ Delivered fetch round.number fetched := by
  induction left generalizing redirects current with
  | zero =>
      exact ⟨[], rfl, rfl, Nat.le_refl 0, fun _ hmem => absurd hmem List.not_mem_nil,
        fun _ h => nomatch h⟩
  | succ left ih =>
      cases hvalid : validateUrl fetch.network redirects current allowedHosts with
      | error thrown =>
          refine ⟨[], ?_, rfl, Nat.zero_le _, fun _ hmem => absurd hmem List.not_mem_nil, ?_⟩
          · simp only [fetchLoop, hvalid, List.flatMap_nil]
          · intro fetched h
            simp only [fetchLoop, hvalid] at h
            cases h
      | ok addresses =>
          obtain ⟨hhttps, husername, hpassword, hallowed, hresolved, hsome, hpublic⟩ :=
            validateUrl_ok hvalid
          let round : Round := ⟨redirects, current, addresses⟩
          have hsound : round.Sound fetch originalHost allowedHosts :=
            ⟨hhttps, husername, hpassword, hcurrent, hallowed, hresolved, hsome, hpublic⟩
          have hevents := request_events fetch round
          have hanswer := request_answer fetch redirects current addresses
          have hone : ∀ round' ∈ [round], round'.Sound fetch originalHost allowedHosts :=
            fun round' hmem => List.mem_singleton.mp hmem ▸ hsound
          cases hstep : (request fetch redirects current addresses).2 >>=
              handleResponse fetch originalHost redirects current with
          | error thrown =>
              refine ⟨[round], ?_, rfl, Nat.succ_le_succ (Nat.zero_le left), hone, ?_⟩
              · simp only [fetchLoop, hvalid, hstep, List.flatMap_singleton]
                exact hevents
              · intro fetched h
                simp only [fetchLoop, hvalid, hstep] at h
                cases h
          | ok outcome =>
              obtain ⟨response, hresponse, hhandled⟩ := then_ok.mp hstep
              rw [hanswer] at hresponse
              cases outcome with
              | inr fetched =>
                  obtain ⟨hfinal, hdelivered⟩ := handleResponse_page hresponse hhandled
                  refine ⟨[round], ?_, rfl, Nat.succ_le_succ (Nat.zero_le left), hone, ?_⟩
                  · simp only [fetchLoop, hvalid, hstep, List.flatMap_singleton]
                    exact hevents
                  · intro other h
                    simp only [fetchLoop, hvalid, hstep] at h
                    obtain rfl := Except.ok.inj h
                    exact ⟨round, List.mem_singleton.mpr rfl, hfinal, hdelivered⟩
              | inl next =>
                  obtain ⟨rounds, htrace, hnumbers, hlength, hsounds, hresult⟩ :=
                    @ih (redirects + 1) next (handleResponse_next hhandled)
                  refine ⟨round :: rounds, ?_, ?_, Nat.succ_le_succ hlength,
                    List.forall_mem_cons.mpr ⟨hsound, hsounds⟩, ?_⟩
                  · simp only [fetchLoop, hvalid, hstep, List.flatMap_cons, htrace]
                    exact congrArg (· ++ _) hevents
                  · rw [List.map_cons, hnumbers, List.length_cons, List.range'_succ]
                  · intro fetched h
                    simp only [fetchLoop, hvalid, hstep] at h
                    obtain ⟨last, hlast, hfinal, hdelivered⟩ := hresult fetched h
                    exact ⟨last, List.mem_cons_of_mem _ hlast, hfinal, hdelivered⟩

section Traces

variable {pinned : Bool} {rounds : List Round}

theorem requested_mem {number : Nat} {url : Url}
    (h : Event.requested number url ∈ rounds.flatMap (Round.events pinned)) :
    ∃ round ∈ rounds, round.number = number ∧ round.url = url := by
  obtain ⟨round, hround, hmem⟩ := List.mem_flatMap.mp h
  refine ⟨round, hround, ?_⟩
  cases pinned <;> simp_all [Round.events]

theorem opened_mem {number : Nat} {addresses : List JsString}
    (h : Event.opened number addresses ∈ rounds.flatMap (Round.events pinned)) :
    ∃ round ∈ rounds, pinned = true ∧ round.number = number ∧ round.addresses = addresses := by
  obtain ⟨round, hround, hmem⟩ := List.mem_flatMap.mp h
  refine ⟨round, hround, ?_⟩
  cases pinned <;> simp_all [Round.events]

theorem round_sublist {round : Round} (h : round ∈ rounds) :
    (round.events pinned).Sublist (rounds.flatMap (Round.events pinned)) :=
  List.sublist_flatten_of_mem (List.mem_map_of_mem h)

theorem count_requests : (rounds.flatMap (Round.events pinned)).countP isRequest = rounds.length := by
  induction rounds with
  | nil => rfl
  | cons round rounds ih =>
      rw [List.flatMap_cons, List.countP_append, ih, List.length_cons, Nat.add_comm]
      cases pinned <;> rfl

theorem agents : (rounds.flatMap (Round.events pinned)).filterMap openedAgent =
      (if pinned then rounds.map (·.number) else []) ∧
    (rounds.flatMap (Round.events pinned)).filterMap closedAgent =
      (if pinned then rounds.map (·.number) else []) := by
  induction rounds with
  | nil => cases pinned <;> exact ⟨rfl, rfl⟩
  | cons round rounds ih =>
      rw [List.flatMap_cons, List.filterMap_append, List.filterMap_append, ih.1, ih.2]
      cases pinned <;> exact ⟨rfl, rfl⟩

end Traces

/-- **Governed.**  Whatever the network answers, a fetch stays on its host, uses the public
addresses resolved for each request, closes every agent, and succeeds only with the page. -/
theorem fetchHtml_governed (fetch : Fetch) (publicUrl : JsString) :
    Governed fetch publicUrl (fetchHtml fetch publicUrl) := by
  cases hparse : fetch.platform.parse publicUrl with
  | none =>
      simp only [fetchHtml, hparse]
      exact ⟨fun _ _ h => absurd h List.not_mem_nil, fun _ _ _ h => absurd h List.not_mem_nil,
        Nat.zero_le _, List.nodup_nil, rfl, fun _ _ h => absurd h List.not_mem_nil,
        fun _ h => nomatch h⟩
  | some start =>
      obtain ⟨rounds, htrace, hnumbers, hlength, hsounds, hresult⟩ :=
        @fetchLoop_rounds fetch start.hostname
          (fetch.connectorHosts.filter fun host => fetch.packHosts.contains host)
          (fetch.maxRedirects + 1) 0 start rfl
      have hpermitted : ∀ round ∈ rounds, Permitted fetch publicUrl round.url := by
        intro round hround
        have hsound := hsounds round hround
        obtain ⟨hconnector, hpack⟩ := List.mem_filter.mp hsound.allowed
        exact ⟨hsound.https, hsound.noUsername, hsound.noPassword, ⟨start, hparse, hsound.sameHost⟩,
          hconnector, List.contains_iff_mem.mp hpack⟩
      have hnodup : (rounds.map (·.number)).Nodup := by
        rw [hnumbers]
        exact List.nodup_range'
      have hrun : fetchHtml fetch publicUrl = fetchLoop fetch start.hostname
          (fetch.connectorHosts.filter fun host => fetch.packHosts.contains host)
          (fetch.maxRedirects + 1) 0 start := by
        simp only [fetchHtml, hparse]
      rw [← hrun] at htrace hresult
      obtain ⟨hopened, hclosed⟩ := @agents fetch.pinned rounds
      constructor
      case permitted =>
        intro number url h
        rw [htrace] at h
        obtain ⟨round, hround, -, rfl⟩ := requested_mem h
        exact hpermitted round hround
      case throughAgent =>
        intro hpinned number url h
        rw [htrace] at h
        obtain ⟨round, hround, rfl, rfl⟩ := requested_mem h
        have hsound := hsounds round hround
        have hsub := @round_sublist fetch.pinned rounds round hround
        rw [← htrace, Round.events, if_pos hpinned] at hsub
        refine ⟨round.addresses, ?_, hsound.resolved, hsound.nonempty, fun all entry hentry => ?_⟩
        · exact ((List.nil_sublist _).cons_cons _ |>.cons_cons _).trans hsub
        · have hmem : entry.1 ∈ round.addresses := by
            have hentries : entry ∈ round.addresses.map fun address =>
                (address, if address.contains colon then 6 else 4) := by
              cases all
              · exact List.mem_of_mem_take hentry
              · exact hentry
            obtain ⟨address, haddress, rfl⟩ := List.mem_map.mp hentries
            exact haddress
          exact ⟨hmem, hsound.isPublic _ hmem⟩
      case bounded =>
        rw [htrace, count_requests]
        exact hlength
      case oneAgent =>
        rw [htrace, hopened]
        split
        · exact hnodup
        · exact List.nodup_nil
      case allClosed =>
        rw [htrace, hopened, hclosed]
      case closedAfter =>
        intro number addresses h
        rw [htrace] at h
        obtain ⟨round, hround, hpinned, rfl, rfl⟩ := opened_mem h
        have hsub := @round_sublist fetch.pinned rounds round hround
        rw [← htrace, Round.events, if_pos hpinned] at hsub
        exact (((List.Sublist.refl _).cons _).cons_cons _).trans hsub
      case success =>
        intro fetched h
        obtain ⟨round, hround, hfinal, hdelivered⟩ := hresult fetched h
        rw [hfinal]
        refine ⟨hpermitted round hround, round.number, ?_, hdelivered⟩
        rw [htrace]
        refine List.mem_flatMap.mpr ⟨round, hround, ?_⟩
        cases hpinned : fetch.pinned <;> simp [Round.events]

end HtmlAcquisition
