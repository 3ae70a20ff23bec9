import MuniRag.Sources.NetworkAddress

/-!
# Fetching an official page

`fetchHtml` requests the page of an inventory record and follows redirects.  Names are
resolved and requests are answered by a network that may answer anything, in every round
anew; URL parsing belongs to the platform, and what `detectHtmlCharset` makes of a page is
left open.  A run leaves the trace of what it opened, requested and closed.
-/

namespace HtmlAcquisition

open NetworkAddress

/-- The failure codes of a fetch. -/
inductive FailureCode
  | urlInvalid | hostRejected | dnsUnresolved | dnsPrivateAddress | redirectRejected
  | redirectLimit | networkError | requestTimeout | httpStatus | mediaTypeRejected | bodyEmpty
  | bodyTooLarge | charsetUnsupported
  deriving DecidableEq

/-- What a call throws: an `HtmlAcquisitionError` or any other error. -/
inductive Thrown
  | acquisition (code : FailureCode) (message : JsString)
  | other (message : JsString) (code : Option JsString)
  deriving DecidableEq

/-- A parsed URL; `remainder` is its port, path, query and fragment. -/
structure Url where
  protocol : JsString
  username : JsString
  password : JsString
  hostname : JsString
  remainder : JsString
  deriving DecidableEq

/-- `new URL(text)` and `new URL(text, base)`. -/
structure UrlPlatform where
  parse : JsString → Option Url
  resolve : JsString → Url → Option Url

/-- The chunks that a body yields, and the error that ends it, if one does. -/
structure Body where
  chunks : List (List UInt8)
  failure : Option Thrown

structure Response where
  status : Nat
  location : Option JsString
  contentType : Option JsString
  contentLength : Option JsString
  body : Option Body

/-- The network: what resolving a name and sending a request give in each round. -/
structure Network where
  resolveHost : Nat → JsString → Except Thrown (List JsString)
  send : Nat → Url → Except Thrown Response

structure Fetched where
  content : List UInt8
  finalUrl : Url
  redirects : Nat
  status : Nat
  mediaType : JsString
  charset : JsString

/-- What a fetch does that can be seen from outside; an agent is named by its round. -/
inductive Event
  | opened (round : Nat) (addresses : List JsString)
  | requested (round : Nat) (url : Url)
  | closed (round : Nat)
  deriving DecidableEq

/-- A fetch: the hosts allowed by the connector and by the pack, the limits of the plan, and
whether the request goes through a pinned agent, as it does unless `fetch` is replaced. -/
structure Fetch where
  connectorHosts : List JsString
  packHosts : List JsString
  maxRedirects : Nat
  maxArtifactBytes : Nat
  pinned : Bool
  platform : UrlPlatform
  network : Network
  detectHtmlCharset : Option JsString → List UInt8 → Except Thrown JsString

/-- `resolvePublicHost`, on the addresses that the lookup gave. -/
def resolvePublicHost (lookup : Except Thrown (List JsString)) (hostname : JsString) :
    Except Thrown (List JsString) := do
  let addresses ← lookup
  if addresses.length < 1 then
    .error (.acquisition .dnsUnresolved (js "No DNS address for " ++ hostname ++ js "."))
  else if addresses.any (fun address => !isPublicNetworkAddress address) then
    .error (.acquisition .dnsPrivateAddress (hostname ++ js " resolved to a non-public address."))
  else .ok addresses

/-- The `catch` of `validateUrl`. -/
def asUnresolved (hostname : JsString) : Thrown → Thrown
  | .acquisition code message => .acquisition code message
  | .other _ _ =>
      .acquisition .dnsUnresolved (js "DNS resolution failed for " ++ hostname ++ js ".")

def validateUrl (network : Network) (round : Nat) (url : Url) (allowedHosts : List JsString) :
    Except Thrown (List JsString) :=
  if url.protocol ≠ js "https:" ∨ url.username ≠ [] ∨ url.password ≠ [] then
    .error (.acquisition .urlInvalid (js "URL must use HTTPS without credentials."))
  else if url.hostname ∉ allowedHosts then
    .error (.acquisition .hostRejected
      (js "Host " ++ url.hostname ++ js " is not exactly allowlisted."))
  else
    match network.resolveHost round url.hostname with
    | .error thrown => .error (asUnresolved url.hostname thrown)
    | .ok addresses =>
        if addresses.length < 1 then
          .error (.acquisition .dnsUnresolved
            (js "No DNS address for " ++ url.hostname ++ js "."))
        else if addresses.any (fun address => !isPublicNetworkAddress address) then
          .error (.acquisition .dnsPrivateAddress
            (url.hostname ++ js " resolved to a non-public address."))
        else .ok addresses

/-- What the lookup of a pinned agent answers: addresses with their families. -/
def pinnedLookup (addresses : List JsString) (all : Bool) : List (JsString × Nat) :=
  let entries := addresses.map fun address =>
    (address, if address.contains colon then 6 else 4)
  if all then entries else entries.take 1

def pinnedRequest (network : Network) (round : Nat) (url : Url) (addresses : List JsString) :
    List Event × Except Thrown Response :=
  match network.send round url with
  | .ok response => ([.opened round addresses, .requested round url], .ok response)
  | .error thrown =>
      ([.opened round addresses, .requested round url, .closed round], .error thrown)

/-- The loop of `readBounded` over the chunks that follow. -/
def readChunks (maximum : Nat) (failure : Option Thrown) :
    List (List UInt8) → List (List UInt8) → Except Thrown (List UInt8)
  | received, [] =>
      match failure with
      | some thrown => .error thrown
      | none =>
          if received.flatten.length < 1 then
            .error (.acquisition .bodyEmpty (js "Response body is empty."))
          else .ok received.flatten
  | received, chunk :: rest =>
      if chunk.length = 0 then readChunks maximum failure received rest
      else if received.flatten.length + chunk.length > maximum then
        .error (.acquisition .bodyTooLarge (js "Response body exceeds the configured limit."))
      else readChunks maximum failure (received ++ [chunk]) rest

def readBounded (response : Response) (maximum : Nat) : Except Thrown (List UInt8) :=
  if (response.contentLength.bind decimal).any (fun declared => maximum < declared) then
    .error (.acquisition .bodyTooLarge (js "Content-Length exceeds the configured limit."))
  else
    match response.body with
    | none => .error (.acquisition .bodyEmpty (js "Response body is absent."))
    | some body => readChunks maximum body.failure [] body.chunks

/-- `mediaType`: what stands before the first semicolon. -/
def mediaType (value : Option JsString) : JsString :=
  (trim ((value.getD []).takeWhile (· != 0x3b))).map lowerUnit

/-- What the response to a request leads to: another URL, or the page. -/
def handleResponse (fetch : Fetch) (originalHost : JsString) (redirects : Nat) (current : Url)
    (response : Response) : Except Thrown (Url ⊕ Fetched) :=
  if 300 ≤ response.status ∧ response.status < 400 then
    match response.location.filter (· != []) with
    | none => .error (.acquisition .redirectRejected (js "Redirect omitted Location."))
    | some location =>
        if fetch.maxRedirects ≤ redirects then
          .error (.acquisition .redirectLimit (js "Redirect limit exceeded."))
        else
          match fetch.platform.resolve location current with
          | none => .error (.other (js "Invalid URL") (some (js "ERR_INVALID_URL")))
          | some next =>
              if next.hostname ≠ originalHost then
                .error (.acquisition .redirectRejected
                  (js "Cross-host redirect to " ++ next.hostname ++ js " rejected."))
              else .ok (.inl next)
  else if response.status ≠ 200 then
    .error (.acquisition .httpStatus
      (js "Official endpoint returned HTTP " ++ js (toString response.status) ++ js "."))
  else
    let type := mediaType response.contentType
    if type ≠ js "text/html" ∧ type ≠ js "application/xhtml+xml" then
      .error (.acquisition .mediaTypeRejected
        (js "Response media type " ++ (if type = [] then js "missing" else type) ++
          js " is not HTML."))
    else do
      let content ← readBounded response fetch.maxArtifactBytes
      let charset ← fetch.detectHtmlCharset response.contentType content
      .ok (.inr { content, finalUrl := current, redirects, status := response.status,
                  mediaType := type, charset })

/-! ## The error that comes out -/

/-- The units that `.` does not match. -/
def isLineTerminator (u : UInt16) : Bool := u == 0x0a || u == 0x0d || u == 0x2028 || u == 0x2029

def occurs (word text : JsString) : Bool := text.tails.any word.isPrefixOf

/-- `/max(?:imum)? response size|exceeded.*size/i`. -/
def tellsSize (message : JsString) : Bool :=
  let text := lower message
  occurs (js "max response size") text || occurs (js "maximum response size") text ||
    text.tails.any fun tail => (js "exceeded").isPrefixOf tail &&
      occurs (js "size") ((tail.drop 8).takeWhile fun u => !isLineTerminator u)

/-- `/abort|timeout/i`. -/
def tellsTimeout (message : JsString) : Bool :=
  let text := lower message
  occurs (js "abort") text || occurs (js "timeout") text

/-- The `catch` of `fetchHtml`. -/
def translate : Thrown → Thrown
  | .acquisition code message => .acquisition code message
  | .other message code =>
      if code = some (js "UND_ERR_RES_EXCEEDED_MAX_SIZE") ∨ tellsSize message = true then
        .acquisition .bodyTooLarge (message.take 300)
      else if tellsTimeout message then .acquisition .requestTimeout (message.take 300)
      else .acquisition .networkError (message.take 300)

/-! ## The loop -/

/-- One request: through a pinned agent, or through the replacement of `fetch`. -/
def request (fetch : Fetch) (round : Nat) (url : Url) (addresses : List JsString) :
    List Event × Except Thrown Response :=
  if fetch.pinned then pinnedRequest fetch.network round url addresses
  else ([.requested round url], fetch.network.send round url)

/-- The `close` of the `finally`: it does something once a pinned request was answered. -/
def closing (fetch : Fetch) (round : Nat) : Except Thrown Response → List Event
  | .ok _ => if fetch.pinned then [.closed round] else []
  | .error _ => []

/-- The rounds that are left, from the round `redirects` on. -/
def fetchLoop (fetch : Fetch) (originalHost : JsString) (allowedHosts : List JsString) :
    Nat → Nat → Url → List Event × Except Thrown Fetched
  | 0, _, _ => ([], .error (.acquisition .redirectLimit (js "Redirect limit exceeded.")))
  | left + 1, redirects, current =>
      match validateUrl fetch.network redirects current allowedHosts with
      | .error thrown => ([], .error thrown)
      | .ok addresses =>
          let sent := request fetch redirects current addresses
          let events := sent.1 ++ closing fetch redirects sent.2
          match sent.2 >>= handleResponse fetch originalHost redirects current with
          | .error thrown => (events, .error (translate thrown))
          | .ok (.inr fetched) => (events, .ok fetched)
          | .ok (.inl next) =>
              let later := fetchLoop fetch originalHost allowedHosts left (redirects + 1) next
              (events ++ later.1, later.2)

def fetchHtml (fetch : Fetch) (publicUrl : JsString) : List Event × Except Thrown Fetched :=
  match fetch.platform.parse publicUrl with
  | none => ([], .error (.acquisition .urlInvalid (js "Inventory publicUrl is invalid.")))
  | some start =>
      let allowedHosts := fetch.connectorHosts.filter fun host => fetch.packHosts.contains host
      fetchLoop fetch start.hostname allowedHosts (fetch.maxRedirects + 1) 0 start

end HtmlAcquisition
