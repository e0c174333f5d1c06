import OidFed.Collection.LanguageTags
import OidFed.Http
import OidFed.Jose
import OidFed.Js.Number
import OidFed.Resolve.Ipv6
import OidFed.Schema

/-!
# Requests of a client (`trust-chain/fetch.ts`, `http-response.ts`)

`performFetch` checks a URL, asks the client of the host for it, and reads the body of a response up to a
limit. What it does is the requests that are sent, and its result.

* `validateFetchUrl`: the check of a URL.
* `readResponseBody`: the loop over the chunks of a body, which an abort may end.
* `Guarded`: a URL that may be fetched. Its host is not an address for a special use, and is in none
  of the ranges that the caller blocks.
* `FetchRun.send`: the client of the host, which follows redirects unless its caller handles them.
* `performFetch_guarded`: the URL that is requested first is guarded; further requests are only those that
  a server redirects to, and a text that is returned is the whole body of a response that meets the
  caller's expectations.
* `Delivered`: a response of a handler arrives, in whatever chunks. `performFetch_ok` and
  `performFetch_error` say what is then returned.
-/

namespace OidFed

open Js

/-- A platform with the further functions of the host that a client uses. -/
structure ClientHost extends HttpHost where
  toLowerCase : String → String
  /-- `JSON.parse`, `none` where it throws. -/
  parseJson : String → Option Json
  /-- `error.message` of a schema, by name, on a value that it refuses. -/
  zodMessage : String → Json → String
  /-- The entries of `url.searchParams`. -/
  urlParams : Url → List (String × String)
  /-- The URL with these entries. -/
  withParams : Url → List (String × String) → Url
  /-- `new URL(value, base)`, `none` where it throws. -/
  resolveUrl : String → String → Option Url

/-! ## URLs -/

/-- What the caller allows. -/
structure FetchOptions where
  allowedHosts : Option (List String) := none
  blockedCIDRs : Option (List String) := none
  maxResponseBytes : Option Rat := none

def defaultMaxResponseBytes : Rat := 512 * 1024

def networkError {α : Type} (description : String) : Except FederationError α :=
  .error (internalError .Network description)

/-- Validate a URL for safe federation fetching (HTTPS, no credentials, SSRF protection). -/
def validateFetchUrl (H : ClientHost) (url : String) (options : FetchOptions) :
    Except FederationError Url :=
  if 2048 < utf16Length url then networkError "URL exceeds maximum length of 2048 characters"
  else
    match H.parseUrl url with
    | none => networkError s!"Invalid URL: {url}"
    | some parsed =>
      if parsed.protocol != "https:" then networkError s!"URL must use HTTPS: {url}"
      else if parsed.username != "" || parsed.password != "" then
        networkError s!"URL must not contain credentials: {url}"
      else if options.allowedHosts.any fun hosts => !hosts.contains parsed.hostname then
        networkError s!"Host '{parsed.hostname}' is not in allowed hosts list"
      else if isSpecialUseIP H.toLowerCase parsed.hostname then
        networkError s!"Host '{parsed.hostname}' is a special-use address"
      else if options.blockedCIDRs.any (isBlockedCIDR parsed.hostname) then
        networkError s!"Host '{parsed.hostname}' is in blocked CIDR range"
      else .ok parsed

/-! ## Responses -/

/-- What is thrown while a request is under way. -/
inductive FetchCause where
  | abortError
  | rangeError
  | error (message : String)
  | other
  deriving DecidableEq, Repr

/-- How a body ends after its chunks. -/
inductive StreamEnd where
  | done
  | fails (cause : FetchCause)
  deriving DecidableEq, Repr

structure ReceivedBody where
  chunks : List (List Nat)
  finish : StreamEnd := .done
  deriving DecidableEq

structure ReceivedResponse where
  status : Nat
  headers : Headers
  body : Option ReceivedBody
  deriving DecidableEq

/-- `response.ok`. -/
def ReceivedResponse.ok (response : ReceivedResponse) : Bool :=
  decide (200 ≤ response.status) && decide (response.status < 300)

/-- The loop of the reader, with the bytes received so far. -/
def readReceived (P : Platform) (maxBytes : Rat) (finish : StreamEnd) (received : List Nat) :
    List (List Nat) → Except FetchCause String
  | [] =>
    match finish with
    | .done => .ok (P.decodeUtf8 received)
    | .fails cause => .error cause
  | chunk :: rest =>
    if maxBytes < (received ++ chunk).length then .error .rangeError
    else readReceived P maxBytes finish (received ++ chunk) rest

/-- Internal bounded response reader shared by federation HTTP clients. -/
def readResponseBody (P : Platform) (response : ReceivedResponse) (maxBytes : Rat) :
    Except FetchCause String :=
  match response.body with
  | none => .ok ""
  | some body =>
    let contentLength := (response.headers.get "content-length").filter fun s => s != ""
    if (contentLength.bind parseDecimalPrefix).any fun (n : Int) => decide (maxBytes < n) then
      .error .rangeError
    else readReceived P maxBytes body.finish [] body.chunks

structure ParsedContentTypeHeader where
  raw : String
  mediaType : String
  parameters : List String
  deriving DecidableEq

def parseContentTypeHeader (value : Option String) : Option ParsedContentTypeHeader :=
  let raw := trim (value.getD "")
  if raw = "" then none
  else
    match Json.splitText ';' raw with
    | [] => none
    | mediaType :: parameters =>
      if trim mediaType = "" then none
      else some { raw, mediaType := trim mediaType, parameters := parameters.map trim }

/-! ## Requests -/

structure PerformFetchOptions extends FetchOptions where
  /-- `contentTypePolicy === "media-type"`. -/
  byMediaType : Bool := false
  accept : Option String := none
  /-- `some none` is `null`. -/
  expectedContentType : Option (Option String) := none
  method : Option String := none
  redirect : Option String := none
  body : Option (List (String × String)) := none
  expectedStatus : Option Nat := none
  federationErrors : Bool := false

/-- A request that has been sent. -/
structure SentRequest where
  url : String
  method : String
  redirect : Option String
  accept : String
  /-- The form in the body. -/
  body : Option (List (String × String))
  deriving DecidableEq

/-! ### The client of the host (`fetch`) -/

def isRedirectStatus (status : Nat) : Bool := [301, 302, 303, 307, 308].contains status

/-- The request that a redirect leads to. Only 307 and 308 keep a form that has been posted. -/
def SentRequest.redirected (sent : SentRequest) (status : Nat) (url : String) : SentRequest :=
  if ([301, 302].contains status && sent.method == "POST") ||
      (status == 303 && sent.method != "GET" && sent.method != "HEAD") then
    { sent with url, method := "GET", body := none }
  else { sent with url }

/-- What the client makes of a response: it returns it, follows it, or refuses it. -/
inductive NextHop where
  | returns
  | follows (next : SentRequest)
  | refuses
  deriving DecidableEq

/-- A caller that sets `redirect` to `manual` gets the redirect itself, as on every server runtime. -/
def SentRequest.nextHop (sent : SentRequest) (H : ClientHost) (response : ReceivedResponse) : NextHop :=
  if !isRedirectStatus response.status || sent.redirect == some "manual" then .returns
  else if sent.redirect == some "error" then .refuses
  else
    match response.headers.get "location" with
    | none => .returns
    | some location =>
      match H.resolveUrl location sent.url with
      | none => .refuses
      | some target =>
        if target.protocol == "https:" || target.protocol == "http:" then
          .follows (sent.redirected response.status target.href)
        else .refuses

def maxRedirects : Nat := 20

/-- What a fetch is told while it runs. -/
structure FetchRun where
  /-- The caller's signal is aborted before the request is sent. -/
  abortedBefore : Bool := false
  /-- What a server answers. -/
  respond : SentRequest → Except FetchCause ReceivedResponse
  /-- What the client throws on a redirect that it does not follow. -/
  redirectFailure : FetchCause := .error "fetch failed"
  /-- The signal, or the timer, has aborted the request when an exception is caught. -/
  abortedAfter : Bool := false

/-- The requests that the client sends, and what it returns, with the redirects that are left. -/
def FetchRun.send (run : FetchRun) (H : ClientHost) :
    Nat → SentRequest → List SentRequest × Except FetchCause ReceivedResponse
  | redirects, sent =>
    match run.respond sent with
    | .error cause => ([sent], .error cause)
    | .ok response =>
      match sent.nextHop H response, redirects with
      | .returns, _ => ([sent], .ok response)
      | .follows next, n + 1 => (sent :: (run.send H n next).1, (run.send H n next).2)
      | _, _ => ([sent], .error run.redirectFailure)

namespace PerformFetchOptions

variable (options : PerformFetchOptions)

def acceptType : String := options.accept.getD "application/entity-statement+jwt"

def expectedType : Option String := options.expectedContentType.getD (some options.acceptType)

def maxBytes : Rat := options.maxResponseBytes.getD defaultMaxResponseBytes

def matchesContentType (H : ClientHost) (actual : Option String) (expected : String) : Bool :=
  (parseContentTypeHeader actual).any fun parsed =>
    if options.byMediaType then H.toLowerCase parsed.mediaType == H.toLowerCase expected
    else parsed.parameters.isEmpty && parsed.mediaType == expected

def request (url : String) : SentRequest where
  url := url
  method := options.method.getD "GET"
  redirect := options.redirect
  accept := options.acceptType
  body := options.body

end PerformFetchOptions

def allFederationErrorCodes : List FederationErrorCode :=
  [.InvalidRequest, .InvalidClient, .InvalidIssuer, .InvalidSubject, .InvalidTrustAnchor,
    .InvalidTrustChain, .InvalidMetadata, .NotFound, .ServerError, .TemporarilyUnavailable,
    .UnsupportedParameter, .UnsupportedClaim, .EntityIdNotFound, .PageNotFound]

/-- `parsed?.[name]`, `null` having no members. -/
def jsonMember (parsed : Json) (name : String) : Option Json :=
  match parsed with
  | .obj _ => parsed.get? name
  | _ => none

/-- The error that the JSON body of a response reports. -/
def reportedError (H : ClientHost) (body fallback : String) : Option FederationError := do
  let parsed ← H.parseJson body
  let text ← (jsonMember parsed "error").bind Json.string?
  let code ← allFederationErrorCodes.find? fun c => c.text == text
  return federationError code
    (((jsonMember parsed "error_description").bind Json.string?).getD fallback)

section Fetch

variable (H : ClientHost) (url : String) (options : PerformFetchOptions)

/-- What is made of a response; an exception may be thrown while its body is read. -/
def responseResult (response : ReceivedResponse) :
    Except FetchCause (Except FederationError String) :=
  let httpError := s!"HTTP {response.status} from {url}"
  let contentType := response.headers.get "content-type"
  if !response.ok || options.expectedStatus.any (· != response.status) then
    if options.federationErrors && !response.ok &&
        options.matchesContentType H contentType "application/json" then do
      let body ← readResponseBody H.toPlatform response options.maxBytes
      match reportedError H body httpError with
      | some e => return .error e
      | none => return networkError httpError
    else .ok (networkError httpError)
  else if options.expectedType.any fun expected => !options.matchesContentType H contentType expected then
    let actual := (contentType.map trim).getD ""
    .ok (networkError ("Unexpected Content-Type '" ++ (if actual = "" then "<missing>" else actual) ++
      s!"' from {url}, expected '" ++ options.expectedType.getD "" ++ "'"))
  else if response.body.isNone then .ok (networkError s!"Empty response body from {url}")
  else do
    let body ← readResponseBody H.toPlatform response options.maxBytes
    return .ok body

/-- What is made of an exception. -/
def fetchFailed (abortedAfter : Bool) (cause : FetchCause) : FederationError :=
  if abortedAfter || cause == .abortError then
    internalError .Timeout s!"Request aborted or timed out: {url}"
  else
    match cause with
    | .rangeError => internalError .Network s!"Response too large from {url}"
    | .error message => internalError .Network message
    | _ => internalError .Network s!"Network error fetching {url}"

/-- The requests that are sent, and the result. -/
def performFetch (run : FetchRun) : List SentRequest × Except FederationError String :=
  match validateFetchUrl H url options.toFetchOptions with
  | .error e => ([], .error e)
  | .ok _ =>
    if run.abortedBefore then ([], .error (fetchFailed url true .abortError))
    else
      let sent := run.send H maxRedirects (options.request url)
      (sent.1,
        match sent.2 >>= responseResult H url options with
        | .error cause => .error (fetchFailed url run.abortedAfter cause)
        | .ok result => result)

end Fetch

/-! ## What is requested -/

/-- A host that is not an address for a special use, nor one in a blocked range. -/
structure GuardedHost (hostname : String) (options : FetchOptions) : Prop where
  allowed : ∀ hosts, options.allowedHosts = some hosts → hostname ∈ hosts
  ipv4 : ∀ x, IsAddress hostname x → ∀ block ∈ specialUseBlocks, ¬ AgreeOn block.2 x block.1
  ipv6 : ∀ text x, hostname = "[" ++ text ++ "]" → IsIpv6Address text x →
    ∀ block ∈ specialUseIPv6Blocks, ¬ InBlock x block
  blocked : ∀ x, IsAddress hostname x → ∀ cidrs, options.blockedCIDRs = some cidrs →
    ∀ cidr ∈ cidrs, ∀ y n, IsCidr cidr y n → ¬ AgreeOn n x y

/-- A URL that may be fetched. -/
structure Guarded (H : ClientHost) (url : String) (options : FetchOptions) : Prop where
  length_le : utf16Length url ≤ 2048
  parsed : ∃ u, H.parseUrl url = some u ∧ u.protocol = "https:" ∧ u.username = "" ∧
    u.password = "" ∧ GuardedHost u.hostname options

section Checks

variable {hostname : String}

theorem not_mem_specialUseBlocks {x : BitVec 32} (h : isSpecialUseIPv4 hostname = false)
    (hx : IsAddress hostname x) : ∀ block ∈ specialUseBlocks, ¬ AgreeOn block.2 x block.1 := by
  intro block hblock hagree
  rw [isSpecialUseIPv4, ipv4ToInt_of_isAddress hx, if_neg (by omega), specialUseIPv4Table_eq,
    List.any_map, List.any_eq_false] at h
  exact h block hblock ((contains_blockRange (specialUseBlocks_le block hblock) x block.1).mpr hagree)

theorem not_agreeOn_blocked {cidrs : List String} {x : BitVec 32}
    (h : isBlockedCIDR hostname cidrs = false) (hx : IsAddress hostname x) :
    ∀ cidr ∈ cidrs, ∀ y n, IsCidr cidr y n → ¬ AgreeOn n x y := by
  intro cidr hcidr y n hrange hagree
  rw [isBlockedCIDR, ipv4ToInt_of_isAddress hx, if_neg (by omega), List.any_eq_false] at h
  have hno := h cidr hcidr
  rw [parseCIDR_of_isCidr hrange] at hno
  obtain ⟨-, -, hn⟩ := hrange
  exact hno ((contains_blockRange hn x y).mpr hagree)

/-- The text of an IPv4 address is checked as one. -/
theorem isSpecialUseIP_of_isAddress {toLowerCase : String → String} {x : BitVec 32}
    (hx : IsAddress hostname x) :
    isSpecialUseIP toLowerCase hostname = isSpecialUseIPv4 hostname := by
  have hno : ∀ c : Char, c.isDigit = false → c ≠ '.' → c ∉ hostname.toList := by
    obtain ⟨ha, hb, hc, hd, -, -, -, -⟩ := hx
    intro c hdigit hdot
    rw [String.toList_ofList]
    simp only [List.mem_append, List.mem_cons, not_or]
    exact ⟨ha.not_mem hdigit, hdot, hb.not_mem hdigit, hdot, hc.not_mem hdigit, hdot,
      hd.not_mem hdigit⟩
  have hbracket : '[' ∉ hostname.toList := hno '[' (by decide) (by decide)
  have hcolon : ':' ∉ hostname.toList := hno ':' (by decide) (by decide)
  rw [isSpecialUseIP, if_neg fun h => hbracket (List.mem_of_mem_head? h.1),
    if_neg fun h => hcolon (List.contains_iff_mem.mp h)]

/-- A bracketed IPv6 address is checked as one. -/
theorem isSpecialUseIP_bracketed {toLowerCase : String → String} {text : String} :
    isSpecialUseIP toLowerCase ("[" ++ text ++ "]") = isSpecialUseIPv6 toLowerCase text := by
  have htext : ("[" ++ text ++ "]").toList = '[' :: (text.toList ++ [']']) := by simp
  rw [isSpecialUseIP, htext, if_pos]
  · simp
  · simp [List.getLast?_cons]

/-- What a URL that passes the check is. -/
theorem validateFetchUrl_eq_ok {H : ClientHost} (hlower : LowersAscii H.toLowerCase) {url : String}
    {options : FetchOptions} {u : Url} (h : validateFetchUrl H url options = .ok u) :
    Guarded H url options ∧ H.parseUrl url = some u := by
  unfold validateFetchUrl at h
  split at h
  · cases h
  rename_i hlength
  split at h
  · cases h
  rename_i parsed hparsed
  split at h
  · cases h
  rename_i hprotocol
  split at h
  · cases h
  rename_i hcredentials
  split at h
  · cases h
  rename_i hallowed
  split at h
  · cases h
  rename_i hspecial
  split at h
  · cases h
  rename_i hblocked
  obtain rfl := Except.ok.inj h
  rw [Bool.not_eq_true] at hspecial hallowed hblocked hcredentials
  simp only [Bool.or_eq_false_iff, bne_eq_false_iff_eq] at hcredentials
  refine ⟨⟨not_lt.mp hlength, parsed, hparsed, by simpa using hprotocol, hcredentials.1,
    hcredentials.2, ⟨fun hosts hhosts => ?_, fun x hx => ?_, fun text x htext hx block hblock hin => ?_,
      fun x hx cidrs hcidrs => ?_⟩⟩, hparsed⟩
  · rw [hhosts] at hallowed
    simpa using hallowed
  · rw [isSpecialUseIP_of_isAddress hx] at hspecial
    exact not_mem_specialUseBlocks hspecial hx
  · rw [htext, isSpecialUseIP_bracketed] at hspecial
    have hspecial' := (isSpecialUseIPv6_iff (expandIPv6_eq hlower hx)).mpr ⟨block, hblock, hin⟩
    rw [hspecial] at hspecial'
    cases hspecial'
  · rw [hcidrs] at hblocked
    exact not_agreeOn_blocked (by simpa using hblocked) hx

end Checks

section Received

variable {H : ClientHost} {url : String} {options : PerformFetchOptions}

theorem readReceived_eq_ok {P : Platform} {maxBytes : Rat} {finish : StreamEnd}
    {received : List Nat} {chunks : List (List Nat)} {text : String}
    (h : readReceived P maxBytes finish received chunks = .ok text) :
    finish = .done ∧ text = P.decodeUtf8 (received ++ chunks.flatten) ∧
      (chunks ≠ [] → ((received ++ chunks.flatten).length : Rat) ≤ maxBytes) := by
  induction chunks generalizing received with
  | nil =>
    cases finish with
    | done =>
      refine ⟨rfl, ?_, fun hne => absurd rfl hne⟩
      rw [List.flatten_nil, List.append_nil]
      exact (Except.ok.inj h).symm
    | fails cause => cases h
  | cons chunk rest ih =>
    unfold readReceived at h
    split at h
    · cases h
    rename_i hwithin
    obtain ⟨hdone, htext, hlength⟩ := ih h
    rw [List.flatten_cons, ← List.append_assoc]
    refine ⟨hdone, htext, fun _ => ?_⟩
    by_cases hrest : rest = []
    · rw [hrest, List.flatten_nil, List.append_nil]
      exact not_lt.mp hwithin
    · exact hlength hrest

/-- The body that a text has been read from. -/
structure ReadFrom (H : ClientHost) (options : PerformFetchOptions) (response : ReceivedResponse)
    (text : String) : Prop where
  status : 200 ≤ response.status ∧ response.status < 300
  expectedStatus : ∀ status, options.expectedStatus = some status → response.status = status
  contentType : ∀ expected, options.expectedType = some expected →
    options.matchesContentType H (response.headers.get "content-type") expected = true
  body : ∃ body, response.body = some body ∧ body.finish = .done ∧
    text = H.decodeUtf8 body.chunks.flatten ∧
    (body.chunks ≠ [] → (body.chunks.flatten.length : Rat) ≤ options.maxBytes)

theorem responseResult_eq_ok {response : ReceivedResponse} {text : String}
    (h : responseResult H url options response = .ok (.ok text)) : ReadFrom H options response text := by
  dsimp only [responseResult] at h
  split at h
  · -- an error response gives no text
    split at h
    · obtain ⟨body, -, h⟩ := bind_eq_ok.mp h
      split at h <;> cases h
    · cases h
  rename_i hstatus
  split at h
  · cases h
  rename_i htype
  split at h
  · cases h
  obtain ⟨text', hread, h⟩ := bind_eq_ok.mp h
  obtain rfl := Except.ok.inj (Except.ok.inj h)
  rw [Bool.not_eq_true, Bool.or_eq_false_iff, Bool.not_eq_false'] at hstatus
  obtain ⟨hok, hexpected⟩ := hstatus
  rw [Bool.not_eq_true] at htype
  refine ⟨by simpa [ReceivedResponse.ok] using hok, fun status hs => ?_, fun expected he => ?_, ?_⟩
  · rw [hs] at hexpected
    exact (show status = response.status by simpa using hexpected).symm
  · rw [he] at htype
    simpa using htype
  · rw [readResponseBody] at hread
    cases hbody : response.body with
    | none => simp_all
    | some body =>
      rw [hbody] at hread
      simp only at hread
      split at hread
      · cases hread
      · obtain ⟨hdone, htext, hlength⟩ := readReceived_eq_ok hread
        exact ⟨body, rfl, hdone, by simpa using htext, by simpa using hlength⟩

/-! ### Redirects -/

/-- Requests that follow one another: a server redirects each but the last to the next. -/
inductive Redirected (H : ClientHost) (run : FetchRun) : SentRequest → List SentRequest → Prop
  | last (sent : SentRequest) : Redirected H run sent []
  | hop {sent next : SentRequest} {response : ReceivedResponse} {rest : List SentRequest} :
      run.respond sent = .ok response → sent.nextHop H response = .follows next →
      Redirected H run next rest → Redirected H run sent (next :: rest)

/-- A caller that handles redirects itself is not redirected. -/
theorem Redirected.eq_nil {run : FetchRun} {sent : SentRequest} {rest : List SentRequest}
    (h : Redirected H run sent rest) (hmanual : sent.redirect = some "manual") : rest = [] := by
  cases h with
  | last => rfl
  | hop _ hfollows _ => simp [SentRequest.nextHop, hmanual] at hfollows

/-- The client sends the request that it is given, then those that it is redirected to; a response is
the answer to the last of them. -/
theorem FetchRun.send_spec (run : FetchRun) (H : ClientHost) (redirects : Nat) (sent : SentRequest) :
    ∃ rest, (run.send H redirects sent).1 = sent :: rest ∧ rest.length ≤ redirects ∧
      Redirected H run sent rest ∧ ∀ response, (run.send H redirects sent).2 = .ok response →
        run.respond ((sent :: rest).getLast (List.cons_ne_nil _ _)) = .ok response := by
  induction redirects generalizing sent with
  | zero =>
    unfold FetchRun.send
    cases hrespond : run.respond sent with
    | error cause => exact ⟨[], rfl, le_refl _, .last sent, nofun⟩
    | ok response =>
      dsimp only
      cases sent.nextHop H response with
      | returns => exact ⟨[], rfl, le_refl _, .last sent, fun r hr => by rw [← hr]; exact hrespond⟩
      | _ => exact ⟨[], rfl, le_refl _, .last sent, nofun⟩
  | succ n ih =>
    unfold FetchRun.send
    cases hrespond : run.respond sent with
    | error cause => exact ⟨[], rfl, Nat.zero_le _, .last sent, nofun⟩
    | ok response =>
      dsimp only
      cases hnext : sent.nextHop H response with
      | returns => exact ⟨[], rfl, Nat.zero_le _, .last sent, fun r hr => by rw [← hr]; exact hrespond⟩
      | refuses => exact ⟨[], rfl, Nat.zero_le _, .last sent, nofun⟩
      | follows next =>
        obtain ⟨rest, hsent, hlength, hredirected, hlast⟩ := ih next
        refine ⟨next :: rest, congrArg (sent :: ·) hsent, Nat.succ_le_succ hlength,
          .hop hrespond hnext hredirected, fun r hr => ?_⟩
        rw [List.getLast_cons (List.cons_ne_nil _ _)]
        exact hlast r hr

/-- A response that is no redirect is returned at once. -/
theorem FetchRun.send_eq {run : FetchRun} {redirects : Nat} {sent : SentRequest}
    {response : ReceivedResponse} (hrespond : run.respond sent = .ok response)
    (hstatus : isRedirectStatus response.status = false) :
    run.send H redirects sent = ([sent], .ok response) := by
  unfold FetchRun.send
  have hnext : sent.nextHop H response = .returns := by simp [SentRequest.nextHop, hstatus]
  rw [hrespond]
  simp [hnext]

/-- The URL that is requested first is guarded, and nothing is requested for a caller who has aborted.
Any further request is one that a server has redirected the last one to, which no server does to a caller
that handles redirects itself. A text is the whole body of the response to the last request, within the
limit. -/
theorem performFetch_guarded (hlower : LowersAscii H.toLowerCase)
    (run : FetchRun) :
    ((performFetch H url options run).1 = [] ∨
      run.abortedBefore = false ∧ Guarded H url options.toFetchOptions ∧
        ∃ rest, (performFetch H url options run).1 = options.request url :: rest ∧
          rest.length ≤ maxRedirects ∧ Redirected H run (options.request url) rest ∧
          (options.redirect = some "manual" → rest = [])) ∧
    ∀ text, (performFetch H url options run).2 = .ok text →
      ∃ sent response, (performFetch H url options run).1.getLast? = some sent ∧
        run.respond sent = .ok response ∧ ReadFrom H options response text := by
  unfold performFetch
  cases hvalid : validateFetchUrl H url options.toFetchOptions with
  | error e => exact ⟨.inl rfl, fun text h => by cases h⟩
  | ok u =>
    cases habort : run.abortedBefore with
    | true => exact ⟨.inl rfl, fun text h => by cases h⟩
    | false =>
      obtain ⟨rest, hsent, hlength, hredirected, hlast⟩ :=
        run.send_spec H maxRedirects (options.request url)
      dsimp only
      rw [if_neg Bool.false_ne_true]
      refine ⟨.inr ⟨rfl, (validateFetchUrl_eq_ok hlower hvalid).1, rest, hsent, hlength, hredirected,
        fun hmanual => hredirected.eq_nil hmanual⟩, fun text h => ?_⟩
      split at h
      · cases h
      · rename_i result hresult
        obtain ⟨response, hresponse, hreceive⟩ := bind_eq_ok.mp hresult
        rw [show result = .ok text from h] at hreceive
        refine ⟨_, response, ?_, hlast response hresponse, responseResult_eq_ok hreceive⟩
        dsimp only
        rw [hsent]
        exact List.getLast?_eq_getLast_of_ne_nil _

/-! ## Responses of a handler -/

/-- A text that a body is sent as. -/
def ResponseBody.SentAs (H : ClientHost) : ResponseBody → String → Prop
  | .text value, sent => sent = value
  | .json value, sent => H.parseJson sent = some value

/-- A response of a handler is received whole, in whatever chunks, and is within the limit. -/
structure Delivered (H : ClientHost) (maxBytes : Rat) (response : Response)
    (received : ReceivedResponse) : Prop where
  status : received.status = response.status
  contentType : received.headers.get "content-type" = response.headers.get "content-type"
  body : ∃ body, received.body = some body ∧ body.finish = .done ∧
    response.body.SentAs H (H.decodeUtf8 body.chunks.flatten) ∧
    (body.chunks.flatten.length : Rat) ≤ maxBytes ∧
    ∀ length, received.headers.get "content-length" = some length →
      parseDecimalPrefix length = some (body.chunks.flatten.length : Int)

/-- A request for a URL is sent, and answered with a response of a handler. -/
structure Answered (H : ClientHost) (url : String) (options : PerformFetchOptions) (run : FetchRun)
    (response : Response) : Prop where
  valid : ∃ u, validateFetchUrl H url options.toFetchOptions = .ok u
  notAborted : run.abortedBefore = false
  delivered : ∃ received, run.respond (options.request url) = .ok received ∧
    Delivered H options.maxBytes response received

theorem readReceived_of_le {P : Platform} {maxBytes : Rat} {received : List Nat}
    {chunks : List (List Nat)}
    (h : ((received ++ chunks.flatten).length : Rat) ≤ maxBytes) :
    readReceived P maxBytes .done received chunks = .ok (P.decodeUtf8 (received ++ chunks.flatten)) := by
  induction chunks generalizing received with
  | nil =>
    rw [List.flatten_nil, List.append_nil]
    rfl
  | cons chunk rest ih =>
    rw [List.flatten_cons, ← List.append_assoc] at h ⊢
    unfold readReceived
    rw [if_neg, ih h]
    have hlength : (received ++ chunk).length ≤ (received ++ chunk ++ rest.flatten).length :=
      (List.prefix_append _ _).length_le
    rw [not_lt]
    exact le_trans (by exact_mod_cast hlength) h

/-- The body of a response that is delivered is read. -/
theorem readResponseBody_delivered {maxBytes : Rat} {response : Response}
    {received : ReceivedResponse} (h : Delivered H maxBytes response received) :
    ∃ text, response.body.SentAs H text ∧
      readResponseBody H.toPlatform received maxBytes = .ok text := by
  obtain ⟨body, hbody, hdone, hsent, hle, hlength⟩ := h.body
  refine ⟨_, hsent, ?_⟩
  unfold readResponseBody
  rw [hbody]
  dsimp only
  rw [if_neg, hdone, readReceived_of_le (by simpa using hle), List.nil_append]
  rw [Option.any_eq_true]
  rintro ⟨n, hn, hlt⟩
  obtain ⟨length, hget, hparse⟩ := Option.bind_eq_some_iff.mp hn
  obtain ⟨hget, -⟩ := Option.filter_eq_some_iff.mp hget
  obtain rfl := Option.some.inj ((hlength length hget).symm.trans hparse)
  rw [decide_eq_true_eq] at hlt
  exact absurd hle (not_le.mpr (by exact_mod_cast hlt))

section Performed

variable {run : FetchRun} {response : Response}

theorem isRedirectStatus_eq_false {status : Nat} (h : status < 300 ∨ 400 ≤ status) :
    isRedirectStatus status = false := by
  simp only [isRedirectStatus, List.contains_eq_mem, List.mem_cons, List.not_mem_nil, or_false,
    decide_eq_false_iff_not]
  omega

/-- What is made of a response that has arrived is returned. -/
theorem performFetch_answered (h : Answered H url options run response)
    (hstatus : isRedirectStatus response.status = false) :
    ∃ received, Delivered H options.maxBytes response received ∧
      ∀ result, responseResult H url options received = .ok result →
        performFetch H url options run = ([options.request url], result) := by
  obtain ⟨u, hvalid⟩ := h.valid
  obtain ⟨received, hrespond, hd⟩ := h.delivered
  refine ⟨received, hd, fun result hresult => ?_⟩
  unfold performFetch
  rw [hvalid]
  dsimp only
  rw [h.notAborted, if_neg Bool.false_ne_true, FetchRun.send_eq hrespond (hd.status ▸ hstatus),
    show (Except.ok received >>= responseResult H url options) = .ok result from hresult]

/-- A successful response of the expected kind gives a text that its body is sent as. -/
theorem performFetch_ok (h : Answered H url options run response)
    (hstatus : 200 ≤ response.status ∧ response.status < 300)
    (hexpected : ∀ status, options.expectedStatus = some status → response.status = status)
    (htype : ∀ expected, options.expectedType = some expected →
      options.matchesContentType H (response.headers.get "content-type") expected = true) :
    ∃ text, response.body.SentAs H text ∧
      performFetch H url options run = ([options.request url], .ok text) := by
  obtain ⟨received, hd, hfetch⟩ := performFetch_answered h (isRedirectStatus_eq_false (.inl hstatus.2))
  obtain ⟨text, hsent, hread⟩ := readResponseBody_delivered hd
  refine ⟨text, hsent, hfetch _ ?_⟩
  dsimp only [responseResult]
  rw [if_neg, if_neg, if_neg, hread]
  · rfl
  · obtain ⟨body, hbody, -⟩ := hd.body
    simp [hbody]
  · rw [hd.contentType, Option.any_eq_true]
    rintro ⟨expected, he, hno⟩
    simp [htype expected he] at hno
  · rw [Bool.or_eq_true, not_or]
    refine ⟨by simp [ReceivedResponse.ok, hd.status, hstatus], ?_⟩
    rw [Option.any_eq_true]
    rintro ⟨status, hs, hne⟩
    rw [hd.status, hexpected status hs, bne_self_eq_false] at hne
    cases hne

theorem ok_of_error_status {received : ReceivedResponse} (h : 400 ≤ received.status) :
    received.ok = false := by
  rw [ReceivedResponse.ok, Bool.and_eq_false_iff, decide_eq_false_iff_not, decide_eq_false_iff_not]
  omega

/-- A caller who does not ask for the errors of the federation is told of the status of an error. -/
theorem performFetch_status (h : Answered H url options run response) (hstatus : 400 ≤ response.status)
    (hreports : options.federationErrors = false) :
    performFetch H url options run =
      ([options.request url], networkError s!"HTTP {response.status} from {url}") := by
  obtain ⟨received, hd, hfetch⟩ := performFetch_answered h (isRedirectStatus_eq_false (.inr hstatus))
  refine hfetch _ ?_
  have hok := ok_of_error_status (hd.status ▸ hstatus)
  dsimp only [responseResult]
  rw [hok, if_pos (by simp), hreports, if_neg (by simp), hd.status]

/-- The members of an error that a handler reports. -/
theorem reportedError_of_parse {text fallback : String} {code : FederationErrorCode}
    {description : String} (h : H.parseJson text =
      some (.obj [("error", .str code.text), ("error_description", .str description)])) :
    reportedError H text fallback = some (federationError code description) := by
  have hfind : allFederationErrorCodes.find? (fun c => c.text == code.text) = some code := by
    cases code <;> rfl
  let parsed := Json.obj [("error", .str code.text), ("error_description", .str description)]
  have herror : (jsonMember parsed "error").bind Json.string? = some code.text := rfl
  have hdescription : (jsonMember parsed "error_description").bind Json.string? =
      some description := rfl
  unfold reportedError
  rw [h]
  simp only [Option.bind_eq_bind, Option.bind_some, parsed, herror, hdescription, hfind,
    Option.getD_some]
  rfl

/-- An error that a handler reports is returned to a caller who asks for such errors. -/
theorem performFetch_error {status : Nat} {code : FederationErrorCode} {description : String}
    (h : Answered H url options run (errorResponse status code.text description))
    (hstatus : 400 ≤ status) (hreports : options.federationErrors = true) :
    performFetch H url options run =
      ([options.request url], .error (federationError code description)) := by
  obtain ⟨received, hd, hfetch⟩ := performFetch_answered h (isRedirectStatus_eq_false (.inr hstatus))
  refine hfetch _ ?_
  obtain ⟨text, hsent, hread⟩ := readResponseBody_delivered hd
  have hok : received.ok = false := ok_of_error_status (hd.status ▸ hstatus)
  have htype : options.matchesContentType H (received.headers.get "content-type")
      "application/json" = true := by
    rw [hd.contentType]
    have hparse : parseContentTypeHeader
        ((errorResponse status code.text description).headers.get "content-type") =
          some ⟨"application/json", "application/json", []⟩ := by
      rw [show (errorResponse status code.text description).headers = jsonHeaders from rfl]
      decide +kernel
    rw [PerformFetchOptions.matchesContentType, hparse]
    by_cases hmedia : options.byMediaType = true
    · simp [hmedia]
    · simp [hmedia]
  have hparsed : ∀ fallback, reportedError H text fallback =
      some (federationError code description) := fun _ => reportedError_of_parse hsent
  dsimp only [responseResult]
  rw [hok, if_pos (by simp), htype, hread, hreports, if_pos (by simp)]
  dsimp only [bind, Except.bind]
  rw [hparsed]
  rfl

end Performed

end Received

/-! ## An example -/

/-- A host over a table of JWTs, one of JSON texts, and one of the URLs with parameters. A form has
one field. -/
def tableClientHost (table : List (String × SignedJwt)) (texts : List (String × Json))
    (urls : List (String × List (String × String))) : ClientHost where
  toPlatform := { tablePlatform table with
    decodeUtf8 := fun bytes => String.ofList (bytes.map Char.ofNat) }
  searchParams text := [(String.ofList (text.toList.takeWhile (· != '=')),
    String.ofList ((text.toList.dropWhile (· != '=')).drop 1))]
  formText _ := ""
  urlPathname _ := "/"
  toLowerCase := foldText
  parseJson text := texts.lookup text
  zodMessage _ _ := "Invalid input"
  urlParams u := (urls.lookup u.href).getD []
  withParams u params :=
    match urls.find? fun entry => entry.2 == params with
    | some entry => { u with href := entry.1 }
    | none => u
  resolveUrl value _ := (tablePlatform table).parseUrl value

/-- An ASCII text in two chunks. -/
def inTwoChunks (text : String) : ReceivedBody where
  chunks := [(text.toList.take 3).map Char.toNat, (text.toList.drop 3).map Char.toNat]

/-- A server that redirects to another one, whose address is for a special use. -/
def redirectingRun : FetchRun where
  respond sent :=
    if sent.url = "https://a.example/" then
      .ok { status := 302, headers := [("location", "https://127.0.0.1/")], body := none }
    else .ok
      { status := 200
        headers := [("content-type", "application/entity-statement+jwt")]
        body := some (inTwoChunks "statement") }

/-- The redirect is followed, though its target would be refused as the first URL; a caller that handles
redirects sends one request. -/
theorem redirectingRun_guarded :
    ((performFetch (tableClientHost [] [] []) "https://a.example/" {} redirectingRun).1.map
        SentRequest.url = ["https://a.example/", "https://127.0.0.1/"] ∧
      (validateFetchUrl (tableClientHost [] [] []) "https://127.0.0.1/" {}).toOption = none ∧
      ∃ sent response, redirectingRun.respond sent = .ok response ∧
        ReadFrom (tableClientHost [] [] []) {} response "statement") ∧
    ∃ rest, (performFetch (tableClientHost [] [] []) "https://a.example/"
      { redirect := some "manual" } redirectingRun).1 =
        ({ redirect := some "manual" } : PerformFetchOptions).request "https://a.example/" :: rest ∧
      rest = [] := by
  have hguarded := fun options : PerformFetchOptions =>
    @performFetch_guarded (tableClientHost [] [] []) "https://a.example/" options
      lowersAscii_foldText redirectingRun
  refine ⟨⟨by decide +kernel, by decide +kernel, ?_⟩, ?_⟩
  · obtain ⟨sent, response, -, hresponse, hread⟩ :=
      (hguarded {}).2 "statement" (by decide +kernel)
    exact ⟨sent, response, hresponse, hread⟩
  · rcases (hguarded { redirect := some "manual" }).1 with
        hnone | ⟨-, -, rest, hsent, -, -, hmanual⟩
    · exact absurd hnone (by decide +kernel)
    · exact ⟨rest, hsent, hmanual rfl⟩

end OidFed
