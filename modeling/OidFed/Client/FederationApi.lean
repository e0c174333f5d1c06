import OidFed.Client.Fetch
import OidFed.Keys.Signing

/-!
# The endpoints of a federation, as a client asks them (`federation-api/`, `trust-marks/fetch.ts`)

* `verifySignedResponse`: the check that all signed responses share: `typ`, signature and payload.
  `verifyHistoricalKeysResponse`, `verifySubordinateEventsResponse` and `verifyResolveResponse` are
  its instances.
* `fetchHistoricalKeys`, `fetchSubordinateEvents`, `fetchTrustMark`, `fetchTrustMarkStatus` and
  `fetchTrustMarkList`: a check of the endpoint, a request, and the check of the response. Each gives
  the requests that it has sent, and its result.
* `performFetch_jwt`: a signed response of a handler gives its JWT.
-/

namespace OidFed

open Js MemoryFederationKeyProvider ManagedFederationKeyEntry

namespace JwtTyp

def jwkSet : String := "jwk-set+jwt"

def entityEventsStatement : String := "entity-events-statement+jwt"

def trustMarkStatusResponse : String := "trust-mark-status-response+jwt"

def resolveResponse : String := "resolve-response+jwt"

end JwtTyp

namespace MediaType

def json : String := "application/json"

def entityStatement : String := "application/entity-statement+jwt"

def jwkSet : String := "application/jwk-set+jwt"

def entityEventsStatement : String := "application/entity-events-statement+jwt"

def trustMark : String := "application/trust-mark+jwt"

def trustMarkStatusResponse : String := "application/trust-mark-status-response+jwt"

end MediaType

/-! ## Payloads (`schemas/entity-statement.ts`, `schemas/subordinate-events.ts`) -/

section Schemas

variable (P : Platform)

def historicalKeyEntrySchema : Schema :=
  Schema.looseObject
    [{ name := "kty", schema := Schema.string },
      { name := "kid", schema := Schema.string },
      { name := "use", schema := Schema.string, optional := true },
      { name := "alg", schema := Schema.string, optional := true },
      { name := "key_ops", schema := Schema.array Schema.string, optional := true },
      { name := "exp", schema := Schema.int },
      { name := "iat", schema := Schema.int, optional := true },
      { name := "nbf", schema := Schema.int, optional := true },
      { name := "revoked", optional := true,
        schema := Schema.looseObject
          [{ name := "revoked_at", schema := Schema.int },
            { name := "reason", schema := Schema.string, optional := true }] }]

def historicalKeysPayloadSchema : Schema :=
  Schema.looseObject
    [{ name := "iss", schema := entityIdSchema P },
      { name := "iat", schema := Schema.positiveInt },
      { name := "keys", schema := Schema.array historicalKeyEntrySchema }]

def subordinateEventSchema : Schema :=
  Schema.looseObject
    [{ name := "iat", schema := Schema.number },
      { name := "event", schema := Schema.string },
      { name := "event_description", schema := Schema.string, optional := true },
      { name := "information_uri", schema := urlSchema P, optional := true }]

def subordinateEventsResponseSchema : Schema :=
  Schema.looseObject
    [{ name := "iss", schema := entityIdSchema P },
      { name := "sub", schema := entityIdSchema P },
      { name := "iat", schema := Schema.number },
      { name := "exp", schema := Schema.number, optional := true },
      { name := "federation_registration_events",
        schema := Schema.array (subordinateEventSchema P) }]

end Schemas

/-- What a loose object schema copies of an object. -/
def looseCopy (v : Json) : Payload :=
  Dict.ofEntries ((v.members?.getD []).filter fun p => p.1 != "__proto__")

structure HistoricalKeysPayload where
  iss : String
  iat : Rat
  keys : List Payload
  deriving DecidableEq

structure SubordinateEventsResponse where
  iss : String
  sub : String
  iat : Rat
  exp : Option Rat
  events : List Payload
  deriving DecidableEq

/-- The items of an array of objects. -/
def objectItems (payload : Payload) (name : String) : List Payload :=
  (((payload.get? name).bind Json.items?).getD []).map looseCopy

/-! ## Signed responses -/

section Verify

variable (H : ClientHost) (jwt : String) (issuerJwks : JWKSet) (clockSkew now : Rat)

/-- Verify a signed response, and parse its payload. -/
def verifySignedResponse {α : Type} (typ schemaName invalid : String) (schema : Schema)
    (data : Payload → α) : Except FederationError α := do
  let result ← verifyEntityStatement H.toPlatform jwt issuerJwks clockSkew now typ
  if schema (.obj result.payload.members) then return data result.payload
  else signatureError (invalid ++ H.zodMessage schemaName (.obj result.payload.members))

def historicalKeysData (payload : Payload) : HistoricalKeysPayload where
  iss := (urlOutput H.toPlatform (payload.get? "iss")).getD ""
  iat := (payload.number? "iat").getD 0
  keys := objectItems payload "keys"

def verifyHistoricalKeysResponse : Except FederationError HistoricalKeysPayload :=
  verifySignedResponse H jwt issuerJwks clockSkew now JwtTyp.jwkSet "HistoricalKeysPayload"
    "Invalid historical keys response payload: " (historicalKeysPayloadSchema H.toPlatform)
    (historicalKeysData H)

def subordinateEventsData (payload : Payload) : SubordinateEventsResponse where
  iss := (urlOutput H.toPlatform (payload.get? "iss")).getD ""
  sub := (urlOutput H.toPlatform (payload.get? "sub")).getD ""
  iat := (payload.number? "iat").getD 0
  exp := payload.number? "exp"
  events := objectItems payload "federation_registration_events"

/-- Verify a history with the expected identities. -/
def verifySubordinateEventsResponse (issuer subject : String) :
    Except FederationError SubordinateEventsResponse := do
  let parsed ← verifySignedResponse H jwt issuerJwks clockSkew now JwtTyp.entityEventsStatement
    "SubordinateEventsResponse" "Invalid subordinate events response: "
    (subordinateEventsResponseSchema H.toPlatform) (subordinateEventsData H)
  if parsed.iss != issuer || parsed.sub != subject then
    signatureError "Subordinate events issuer or subject does not match the request"
  else return parsed

end Verify

/-! ## Endpoints -/

/-- The check of an endpoint, with the words of its errors. -/
def checkEndpointUrl (H : ClientHost) (invalid subject endpoint : String) : Except FederationError Url :=
  let refuse (description : String) : Except FederationError Url :=
    .error (federationError .InvalidRequest s!"{description}: {endpoint}")
  match H.parseUrl endpoint with
  | none => refuse invalid
  | some parsed =>
    if parsed.protocol != "https:" then refuse s!"{subject} must use https scheme"
    else if parsed.hash != "" then refuse s!"{subject} must not contain a fragment"
    else .ok parsed

/-- `params.set(name, value)`. -/
def setParam : List (String × String) → String → String → List (String × String)
  | [], name, value => [(name, value)]
  | p :: rest, name, value =>
    if p.1 = name then (name, value) :: removeName rest name else p :: setParam rest name value

/-- `url.searchParams.set(name, value)`. -/
def setSearchParam (H : ClientHost) (u : Url) (name value : String) : Url :=
  H.withParams u (setParam (H.urlParams u) name value)

structure ClientOptions extends FetchOptions where
  clockSkewSeconds : Option Rat := none

def ClientOptions.clockSkew (options : ClientOptions) : Rat :=
  options.clockSkewSeconds.getD defaultClockSkewSeconds

/-- The requests that have been sent, and a result. -/
abbrev Fetched (α : Type) := List SentRequest × Except FederationError α

/-- A response that is fetched is checked. -/
def Fetched.check {α : Type} (fetched : Fetched String) (verify : String → Except FederationError α) :
    Fetched α :=
  (fetched.1, fetched.2 >>= verify)

/-- The request that a server receives. -/
structure Arrives (H : ClientHost) (sent : SentRequest) (request : Request) : Prop where
  method : request.method = sent.method
  params : ∀ u, H.parseUrl sent.url = some u → request.searchParams = H.urlParams u

/-- The text of a URL with other parameters is read as that URL. -/
def ReadsBack (H : ClientHost) (u : Url) (params : List (String × String)) : Prop :=
  ∃ u', H.parseUrl (H.withParams u params).href = some u' ∧ H.urlParams u' = params

theorem valuesOf_setParam_self (params : List (String × String)) (name value : String) :
    valuesOf (setParam params name value) name = [value] := by
  induction params with
  | nil => simp [setParam, valuesOf]
  | cons p rest ih =>
    rw [setParam]
    by_cases hname : p.1 = name
    · rw [if_pos hname]
      have hrest : valuesOf (removeName rest name) name = [] := valuesOf_removeName_self rest name
      simpa [valuesOf] using hrest
    · rw [if_neg hname]
      simpa [valuesOf, hname] using ih

theorem valuesOf_setParam_ne (params : List (String × String)) {name other : String}
    (value : String) (hne : other ≠ name) :
    valuesOf (setParam params name value) other = valuesOf params other := by
  induction params with
  | nil => simp [setParam, valuesOf, hne.symm]
  | cons p rest ih =>
    rw [setParam]
    by_cases hname : p.1 = name
    · have hrest : valuesOf (removeName rest name) other = valuesOf rest other :=
        valuesOf_removeName_ne rest hne
      rw [if_pos hname]
      simpa [valuesOf, hname, hne.symm] using hrest
    · rw [if_neg hname]
      simp only [valuesOf, List.filterMap_cons] at ih ⊢
      rw [ih]

/-- A parameter that a client sets is the only one of its name that the server reads. -/
theorem Arrives.valuesOf {H : ClientHost} {u : Url} {name value : String} {sent : SentRequest}
    {request : Request} (h : Arrives H sent request)
    (hurl : sent.url = (setSearchParam H u name value).href)
    (hreads : ReadsBack H u (setParam (H.urlParams u) name value)) :
    valuesOf request.searchParams name = [value] := by
  obtain ⟨u', hparse, hparams⟩ := hreads
  rw [h.params u' (by rw [hurl]; exact hparse), hparams, valuesOf_setParam_self]

section Fetch

variable (H : ClientHost) (endpoint : String)

/-- The options of a request for one media type. -/
def FetchOptions.expecting (options : FetchOptions) (mediaType : String) : PerformFetchOptions :=
  { options with accept := some mediaType, expectedContentType := some (some mediaType) }

/-- Fetch and verify a Historical Keys JWT from a federation Historical Keys endpoint. -/
def fetchHistoricalKeys (signerJwks : JWKSet) (options : ClientOptions) (run : FetchRun)
    (now : Rat) : Fetched HistoricalKeysPayload :=
  match checkEndpointUrl H "Invalid URL" "URL" endpoint with
  | .error e => ([], .error e)
  | .ok _ =>
    Fetched.check (performFetch H endpoint (options.expecting MediaType.jwkSet) run)
      fun jwt => verifyHistoricalKeysResponse H jwt signerJwks options.clockSkew now

structure FetchSubordinateEventsOptions extends ClientOptions where
  issuerJwks : JWKSet
  issuer : String
  clientAssertion : Option String := none

namespace FetchSubordinateEventsOptions

variable (options : FetchSubordinateEventsOptions) (subject : String)

/-- The form that carries a client assertion. -/
def form (clientAssertion : String) : List (String × String) :=
  [("sub", subject), ("client_assertion", clientAssertion),
    ("client_assertion_type", "urn:ietf:params:oauth:client-assertion-type:jwt-bearer")]

def performOptions : PerformFetchOptions :=
  { options with
    accept := some MediaType.entityEventsStatement
    expectedStatus := some 200
    federationErrors := true
    redirect := some "manual"
    method := options.clientAssertion.map fun _ => "POST"
    body := options.clientAssertion.map (form subject) }

/-- The URL that is requested. -/
def target (H : ClientHost) (url : Url) : Url :=
  if options.clientAssertion.isSome then url else setSearchParam H url "sub" subject

end FetchSubordinateEventsOptions

/-- Fetch and verify an authority's history about one Immediate Subordinate. -/
def fetchSubordinateEvents (subject : String) (options : FetchSubordinateEventsOptions)
    (run : FetchRun) (now : Rat) : Fetched SubordinateEventsResponse :=
  match validateFetchUrl H endpoint options.toFetchOptions with
  | .error e => ([], .error e)
  | .ok url =>
    if url.href.toList.contains '#' || !isValidEntityId H.toPlatform subject ||
        !isValidEntityId H.toPlatform options.issuer then
      ([], networkError "Invalid subordinate events endpoint, issuer, or subject")
    else
      Fetched.check
        (performFetch H (options.target subject H url).href (options.performOptions subject) run)
        fun jwt => verifySubordinateEventsResponse H jwt options.issuerJwks options.clockSkew now
          options.issuer subject

/-- Fetch a Trust Mark JWT from a federation Trust Mark endpoint. -/
def fetchTrustMark (trustMarkType sub : String) (options : FetchOptions) (run : FetchRun) :
    Fetched String :=
  if trustMarkType = "" then
    ([], .error (federationError .InvalidRequest "Missing trust_mark_type parameter"))
  else if sub = "" then ([], .error (federationError .InvalidRequest "Missing sub parameter"))
  else
    match checkEndpointUrl H "Invalid endpoint URL" "Endpoint URL" endpoint with
    | .error e => ([], .error e)
    | .ok parsed =>
      let parsed := setSearchParam H parsed "trust_mark_type" trustMarkType
      let parsed := setSearchParam H parsed "sub" sub
      performFetch H parsed.href (options.expecting MediaType.trustMark) run

/-- The identifiers in a response of the endpoint. -/
def parseTrustMarkList (text : String) : Except FederationError (List String) :=
  match H.parseJson text with
  | none => networkError s!"Trust mark list response is not valid JSON: {endpoint}"
  | some raw =>
    match raw.items?.bind fun items => items.mapM Json.string? with
    | none => networkError s!"Trust mark list response is not a JSON array of strings: {endpoint}"
    | some values =>
      match values.find? fun value => !isValidEntityId H.toPlatform value with
      | some value =>
        networkError s!"Trust mark list response contains invalid Entity Identifier: {value}"
      | none => .ok values

/-- The URL that is requested for the entities with a Trust Mark of a type. -/
def trustMarkListUrl (parsed : Url) (trustMarkType : String) (sub : Option String) : Url :=
  let parsed := setSearchParam H parsed "trust_mark_type" trustMarkType
  match sub.filter (· != "") with
  | none => parsed
  | some sub => setSearchParam H parsed "sub" sub

/-- Fetch a list of Entity Identifiers with active Trust Marks of the given type. -/
def fetchTrustMarkList (trustMarkType : String) (sub : Option String) (options : FetchOptions)
    (run : FetchRun) : Fetched (List String) :=
  if trustMarkType = "" then
    ([], .error (federationError .InvalidRequest "Missing trust_mark_type parameter"))
  else
    match checkEndpointUrl H "Invalid URL" "URL" endpoint with
    | .error e => ([], .error e)
    | .ok parsed =>
      Fetched.check
        (performFetch H (trustMarkListUrl H parsed trustMarkType sub).href
          (options.expecting MediaType.json) run)
        (parseTrustMarkList H endpoint)

structure TrustMarkStatusResult where
  status : Json
  issuer : Json
  issuedAt : Json
  deriving DecidableEq

/-- `response.text()`. -/
def ReceivedResponse.text (P : Platform) (response : ReceivedResponse) : Except FetchCause String :=
  match response.body with
  | none => .ok ""
  | some body =>
    match body.finish with
    | .done => .ok (P.decodeUtf8 body.chunks.flatten)
    | .fails cause => .error cause

/-- The claims that a status response has to have. -/
def trustMarkStatusData (payload : Payload) : Except FederationError TrustMarkStatusResult :=
  match (payload.get? "status").filter Json.truthy, (payload.get? "iss").filter Json.truthy,
      payload.get? "iat" with
  | some status, some issuer, some issuedAt => .ok { status, issuer, issuedAt }
  | _, _, _ => .error (federationError .InvalidRequest
      "Trust mark status response missing required claims")

def trustMarkStatusRequest (trustMarkJwt : String) : SentRequest where
  url := endpoint
  method := "POST"
  redirect := none
  accept := MediaType.trustMarkStatusResponse
  body := some [("trust_mark", trustMarkJwt)]

/-- POST a Trust Mark JWT to a Trust Mark Status endpoint and verify the response. The first error
is an exception of the request. -/
def fetchTrustMarkStatus (trustMarkJwt : String) (signerJwks : JWKSet) (options : ClientOptions)
    (run : FetchRun) (now : Rat) :
    Except FetchCause (Except FederationError TrustMarkStatusResult) :=
  match checkEndpointUrl H "Invalid endpoint URL" "Endpoint URL" endpoint with
  | .error e => .ok (.error e)
  | .ok _ => do
    let response ← (run.send H maxRedirects (trustMarkStatusRequest endpoint trustMarkJwt)).2
    if !response.ok then
      return .error (federationError .InvalidRequest
        s!"HTTP {response.status} from trust mark status endpoint")
    let contentType := response.headers.get "content-type"
    if !({} : PerformFetchOptions).matchesContentType H contentType
        MediaType.trustMarkStatusResponse then
      let actual := (contentType.map trim).getD ""
      return .error (federationError .InvalidRequest ("Unexpected Content-Type '" ++
        (if actual = "" then "<missing>" else actual) ++ "', expected '" ++
        MediaType.trustMarkStatusResponse ++ "'"))
    let jwt ← response.text H.toPlatform
    return (do
      let verified ← verifyEntityStatement H.toPlatform jwt signerJwks options.clockSkew now
        JwtTyp.trustMarkStatusResponse
      trustMarkStatusData verified.payload)

end Fetch

/-! ## Signed responses of a handler -/

/-- A media type without parameters. -/
def IsMediaType (mediaType : String) : Prop :=
  parseContentTypeHeader (some mediaType) = some ⟨mediaType, mediaType, []⟩

instance (mediaType : String) : Decidable (IsMediaType mediaType) :=
  inferInstanceAs (Decidable (_ = _))

theorem IsMediaType.matches {mediaType : String} (h : IsMediaType mediaType) (H : ClientHost)
    (options : PerformFetchOptions) :
    options.matchesContentType H (some mediaType) mediaType = true := by
  rw [PerformFetchOptions.matchesContentType, h]
  by_cases hmedia : options.byMediaType = true
  · simp [hmedia]
  · simp [hmedia]

/-- A signed response of a handler gives its JWT. -/
theorem performFetch_jwt {H : ClientHost} {url mediaType jwt : String}
    {options : PerformFetchOptions} {run : FetchRun} (hmedia : IsMediaType mediaType)
    (hexpected : options.expectedType = some mediaType)
    (hstatus : ∀ status, options.expectedStatus = some status → status = 200)
    (h : Answered H url options run (jwtResponse jwt mediaType)) :
    performFetch H url options run = ([options.request url], .ok jwt) := by
  have htype : ∀ expected, options.expectedType = some expected → options.matchesContentType H
      ((jwtResponse jwt mediaType).headers.get "content-type") expected = true := by
    intro expected he
    rw [hexpected] at he
    obtain rfl := Option.some.inj he
    rw [jwtResponse_contentType]
    exact hmedia.matches H options
  obtain ⟨text, hsent, hfetch⟩ := performFetch_ok h ⟨le_rfl, (by decide : 200 < 300)⟩
    (fun status hs => (hstatus status hs).symm) htype
  obtain rfl : text = jwt := hsent
  exact hfetch

/-- A response verifies and is accepted. -/
theorem verifySignedResponse_eq_ok {H : ClientHost} {jwt : String} {issuerJwks : JWKSet}
    {clockSkew now : Rat} {α : Type} {typ schemaName invalid : String} {schema : Schema}
    {data : Payload → α} {a : α} :
    verifySignedResponse H jwt issuerJwks clockSkew now typ schemaName invalid schema data = .ok a ↔
      ∃ es, verifyEntityStatement H.toPlatform jwt issuerJwks clockSkew now typ = .ok es ∧
        schema (.obj es.payload.members) = true ∧ data es.payload = a := by
  unfold verifySignedResponse
  rw [bind_eq_ok]
  refine exists_congr fun es => and_congr_right fun _ => ?_
  by_cases hschema : schema (.obj es.payload.members) = true
  · rw [if_pos hschema]
    exact ⟨fun h => ⟨hschema, Except.ok.inj h⟩, fun h => congrArg Except.ok h.2⟩
  · rw [if_neg hschema]
    exact ⟨fun h => (by cases h), fun h => absurd h.1 hschema⟩

theorem looseObject_iff {fields : List SchemaField} {p : Payload} :
    Schema.looseObject fields (.obj p.members) = true ↔ ∀ f ∈ fields,
      (∀ v, p.get? f.name = some v → f.schema v = true) ∧
        (p.get? f.name = none → f.optional = true) := by
  rw [Schema.looseObject, List.all_eq_true]
  refine forall₂_congr fun f _ => ?_
  rw [show p.members.lookup f.name = p.get? f.name from rfl]
  cases p.get? f.name with
  | none => simp
  | some v => simp

theorem looseCopy_obj {p : Payload} (h : p.get? "__proto__" = none) :
    looseCopy (.obj p.members) = p := by
  have hall : p.members.filter (fun q => q.1 != "__proto__") = p.members := by
    refine List.filter_eq_self.mpr fun q hq => ?_
    rw [bne_iff_ne]
    intro hname
    rw [Dict.get?_eq_none_iff] at h
    exact h (hname ▸ List.mem_map_of_mem hq)
  rw [looseCopy, Json.members?, Option.getD_some, hall, Dict.ofEntries_members]

/-- An Entity Identifier that the schema leaves as it is. -/
structure CanonicalId (P : Platform) (value : String) : Prop where
  schema : entityIdSchema P (.str value) = true
  output : P.zodUrl value = some value

theorem CanonicalId.isValidEntityId {P : Platform} {value : String} (h : CanonicalId P value) :
    isValidEntityId P value = true := by
  have hschema := h.schema
  rw [entityIdSchema, show urlOutput P (some (.str value)) = P.zodUrl value from rfl, h.output] at hschema
  exact hschema

/-! ## Signed responses of an authority -/

/-- The signers of an application, on the platform of a client. -/
def ClientHost.signing (H : ClientHost)
    (signJwt : JwtSigner → Payload → Payload → Except String String) : SigningPlatform :=
  { H.toPlatform with signJwt }

section Authority

variable {H : ClientHost} {signJwt : JwtSigner → Payload → Payload → Except String String}
  {initial : List FederationSigningKey} {policy : RevocationPolicy} {s s' : KeyRun}
  {signedAt readAt clockSkew now : Rat} {keySet clientKeySet : FederationKeySet}
  {payload : Payload} {typ jwt schemaName invalid : String} {schema : Schema}

/-- A response that an authority has signed is accepted by a client with a later key set exactly
when the provider still keeps the signer's key and the payload fits the schema. -/
theorem verifySignedResponse_iff {α : Type} {data : Payload → α} {a : α}
    (hs : (keyLifecycle initial policy).Reach s)
    (hkeySet : s.provider.getFederationKeySet signedAt = .ok keySet)
    (hsigns : SignsAsPublished (H.signing signJwt) keySet)
    (hjwt : signEntityStatement (H.signing signJwt) payload keySet.signer typ = .ok jwt)
    (hlater : (keyLifecycle initial policy).Later s s')
    (hclient : s'.provider.getFederationKeySet readAt = .ok clientKeySet)
    (htimely : Timely payload clockSkew now) :
    verifySignedResponse H jwt (publishedJwks clientKeySet.jwks) clockSkew now typ schemaName invalid
        schema data = .ok a ↔
      s'.provider.Keeps keySet.signer.kid readAt ∧ schema (.obj payload.members) = true ∧
        data payload = a := by
  rw [verifySignedResponse_eq_ok]
  by_cases hkeeps : s'.provider.Keeps keySet.signer.kid readAt
  · have hverify := verifies_of_keeps hs hkeySet hsigns (fun _ _ => rfl) hjwt hlater hclient htimely
      hkeeps
    constructor
    · rintro ⟨es, hes, hschema, hdata⟩
      obtain rfl := Except.ok.inj (hes.symm.trans hverify)
      exact ⟨hkeeps, hschema, hdata⟩
    · rintro ⟨-, hschema, hdata⟩
      exact ⟨_, hverify, hschema, hdata⟩
  · constructor
    · rintro ⟨es, hes, -⟩
      exact absurd hes (not_verifies_of_gone hs hkeySet hsigns (fun _ _ => rfl) hjwt hlater hclient
        hkeeps es)
    · exact fun h => absurd h.1 hkeeps

/-- The key set with which an authority signs, and that of a client: it is of a later state of the
provider, which still keeps the signer's key. -/
inductive KeyExchange (H : ClientHost)
    (signJwt : JwtSigner → Payload → Payload → Except String String) :
    FederationKeySet → FederationKeySet → Prop
  | mk {initial : List FederationSigningKey} {policy : RevocationPolicy} {s s' : KeyRun}
      {signedAt readAt : Rat} {keySet clientKeySet : FederationKeySet}
      (reached : (keyLifecycle initial policy).Reach s)
      (signer : s.provider.getFederationKeySet signedAt = .ok keySet)
      (signs : SignsAsPublished (H.signing signJwt) keySet)
      (later : (keyLifecycle initial policy).Later s s')
      (client : s'.provider.getFederationKeySet readAt = .ok clientKeySet)
      (keeps : s'.provider.Keeps keySet.signer.kid readAt) : KeyExchange H signJwt keySet clientKeySet

theorem KeyExchange.verifies (h : KeyExchange H signJwt keySet clientKeySet)
    (hjwt : signEntityStatement (H.signing signJwt) payload keySet.signer typ = .ok jwt)
    (htimely : Timely payload clockSkew now) :
    verifyEntityStatement H.toPlatform jwt (publishedJwks clientKeySet.jwks) clockSkew now typ =
      .ok ⟨protectedHeader keySet.signer.alg typ keySet.signer.kid .empty, payload⟩ := by
  obtain ⟨hs, hkeySet, hsigns, hlater, hclient, hkeeps⟩ := h
  exact verifies_of_keeps hs hkeySet hsigns (fun _ _ => rfl) hjwt hlater hclient htimely hkeeps

theorem KeyExchange.verifySignedResponse {α : Type} {data : Payload → α}
    (h : KeyExchange H signJwt keySet clientKeySet)
    (hjwt : signEntityStatement (H.signing signJwt) payload keySet.signer typ = .ok jwt)
    (htimely : Timely payload clockSkew now) (hschema : schema (.obj payload.members) = true) :
    verifySignedResponse H jwt (publishedJwks clientKeySet.jwks) clockSkew now typ schemaName invalid
      schema data = .ok (data payload) :=
  verifySignedResponse_eq_ok.mpr ⟨_, h.verifies hjwt htimely, hschema, rfl⟩

end Authority

/-! ## An example -/

def exampleKeySet : FederationKeySet := ⟨⟨"a", "ES256"⟩, (createdWith "a").publishedKeys 0⟩

theorem exampleKeySet_signs (table : List (String × SignedJwt))
    (hnodup : (table.map Prod.fst).Nodup) (texts : List (String × Json))
    (urls : List (String × List (String × String))) :
    SignsAsPublished ((tableClientHost table texts urls).signing (signingTable table).signJwt)
      exampleKeySet := by
  intro publicJwk hmem _
  have hkeys : exampleKeySet.jwks = [(tableSigningKey "a").publicJwk] := rfl
  rw [hkeys, List.mem_singleton] at hmem
  subst hmem
  have hwith : SignsWith (signingTable table) ⟨"a", "ES256"⟩ (tableSigningKey "a").publicJwk :=
    signingTable_signsWith hnodup rfl
  exact ⟨hwith.decodes, hwith.verifies⟩

theorem exampleKeySet_keeps : (createdWith "a").Keeps "a" 0 :=
  ⟨(added (tableSigningKey "a") 0).activated 0 0, rfl, by decide, fun h => by cases h⟩

theorem exampleKeySet_exchange (table : List (String × SignedJwt))
    (hnodup : (table.map Prod.fst).Nodup) (texts : List (String × Json))
    (urls : List (String × List (String × String))) :
    KeyExchange (tableClientHost table texts urls) (signingTable table).signJwt exampleKeySet
      exampleKeySet := by
  have hkeySet : (createdWith "a").getFederationKeySet 0 = .ok exampleKeySet := rfl
  exact .mk (createdWith_reached "a" rfl) hkeySet (exampleKeySet_signs table hnodup texts urls) .refl
    hkeySet exampleKeySet_keeps

end OidFed
