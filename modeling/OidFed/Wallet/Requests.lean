import OidFed.Registration.Chains
import OidFed.Wallet.Verifiers

/-!
# Requests to a wallet (`wallet/src/request.ts`)

A wallet prepares a request with the chain of its verifier, and completes it with the Request Object.
Between the two, the queries that the metadata of the verifier lack may be pending (`Chain.Staged`).

* `prepareRequest`, `completeRequest`: the two steps. What the network, the clock and the application
  answer is part of a run.
* `AcceptedRequest`: what a wallet may rely on. `completeRequest_accepted`: a request that is completed
  is one.
-/

namespace OidFed

open Js Schema

/-! ## Requests -/

inductive RequestUriMethod where
  | get
  | post
  deriving DecidableEq

structure WalletAuthorizationRequest where
  clientId : String
  requestUri : Option String := none
  requestUriMethod : Option RequestUriMethod := none
  request : Option String := none

/-- What a policy of the application answers about a value: how it ends, and its answer. -/
abbrev Policy (α : Type) := α → OperationEnd × Option Bool

structure QueryContext where
  queries : List Json
  request : Payload
  chain : ValidatedTrustChain

structure TransactionContext where
  data : List Json
  queries : List Json

structure AuthorizationRequestOptions where
  validation : TrustChainValidationOptions := {}
  /-- Preconstructed statements for the target; untrusted until validation succeeds. -/
  trustChain : Option (List String) := none
  /-- Additional supplied chains, keyed by their subjects. -/
  entityChains : Dict String (List String) := .empty
  offline : Bool := false
  maxChainDepth : Nat := 8
  maxResponseBytes : Nat := 512 * 1024
  allowedHosts : Option (List String) := none
  blockedCIDRs : Option (List String) := none
  walletIssuer : String := "https://self-issued.me/v2"
  walletNonce : Option String := none
  queryPolicy : Option (Policy QueryContext) := none
  verifyTransactionData : Option (Policy TransactionContext) := none

/-- The options as they reach the resolution of keys, where nothing allows to fall back. -/
def AuthorizationRequestOptions.entityKeys (options : AuthorizationRequestOptions) :
    ResolveEntityKeysOptions where
  allowedHosts := options.allowedHosts
  blockedCIDRs := options.blockedCIDRs
  maxResponseBytes := some options.maxResponseBytes
  clockSkewSeconds := options.validation.clockSkewSeconds

structure PreparedAuthorizationRequest where
  place : Nat
  verifierId : String
  expiresAt : Rat
  requestUri : Option String

/-- What is kept of a request that has been prepared. -/
structure SavedRequest where
  chain : PreparedTrustChain
  keys : JWKSet
  outer : WalletAuthorizationRequest
  options : AuthorizationRequestOptions

/-- The preparations of a program, of chains and of requests; an object is known by its place. -/
structure WalletState where
  chains : Preparations := []
  requests : List SavedRequest := []

inductive QuerySource where
  | superiorMetadata
  | verifierMetadata
  | metadataPolicy
  | request
  deriving DecidableEq, Repr

structure ValidatedWalletRequest where
  request : Payload
  effectiveQueries : List Json
  querySource : QuerySource
  verifierMetadata : Payload
  trustChain : ValidatedTrustChain

/-- A step that refuses. -/
def walletStop {α : Type} (description : String) : Except Stop α :=
  (walletFailure description).mapError .fail

def walletStopIf (c : Bool) (description : String) : Except Stop Unit :=
  if c then walletStop description else .ok ()

/-- The text is there and is not empty. -/
def given (text : Option String) : Bool := text.any (· != "")

/-- The URI is one of those that the metadata register in a field. -/
def checkEndpoint (metadata : Payload) (field : String) (uri : Option Json) : Except Stop Unit :=
  match uri, metadata.get? field with
  | some (.str uri), some (.arr registered) =>
    walletStopIf (!registered.contains (.str uri)) s!"Endpoint is not registered in {field}"
  | _, _ => walletStop s!"Endpoint is not registered in {field}"

/-! ## Preparation -/

/-- What a preparation gets from outside: the chains that discovery finds and its errors, the readings
of the clock for the chain at an index, and what the requests for keys are told. -/
structure PreparationRun where
  resolved : List (List String) × List FederationError
  clock : Nat → Clock
  keys : EntityKeysRun

section Prepare

variable (H : WalletHost)

/-- The chains to try: one that is supplied, or those that discovery finds, shortest first. -/
def candidates (id : String) (anchors : TrustAnchorSet) (options : AuthorizationRequestOptions)
    (run : PreparationRun) : Except Stop (List (List String)) := do
  walletStopIf (!isValidEntityId H.toPlatform id) "Invalid federation entity identifier"
  walletStopIf anchors.members.isEmpty "Pinned trust anchors are required"
  match options.trustChain.or (options.entityChains.get? id) with
  | some supplied =>
    let bytes := (supplied.map utf16Length).sum
    walletStopIf (supplied.isEmpty || decide (options.maxChainDepth + 2 < supplied.length) ||
      decide (options.maxResponseBytes < bytes)) "Supplied chain exceeds configured limits"
    return [supplied]
  | none =>
    walletStopIf options.offline "Offline operation requires a supplied trust chain"
    if run.resolved.1.isEmpty then
      .error (.fail (run.resolved.2.head?.getD
        (internalError .TrustChainInvalid "No trust chain found")))
    else return run.resolved.1.insertionSort fun a b => a.length ≤ b.length

/-- The first candidate that can be prepared and has metadata of a verifier. The queries of the verifier
may stay pending. -/
def prepareVerifier (id : String) (anchors : TrustAnchorSet) (options : AuthorizationRequestOptions)
    (clock : Nat → Clock) (index : Nat) (last : String) :
    List (List String) → Preparations → Except Stop (PreparedTrustChain × Preparations)
  | [], _ => .error (.fail (internalError .TrustChainInvalid last))
  | path :: rest, preparations =>
    match prepareTrustChainValidation H.toPlatform preparations path anchors
        { options.validation with verboseErrors := true }
        [⟨"openid_credential_verifier", "dcql_queries"⟩] (clock index) with
    | .error (.fail e) => prepareVerifier id anchors options clock (index + 1) e.description rest
        preparations
    | .error stop => .error stop
    | .ok (checked, saved) =>
      match roleMetadata H id checked.entityId checked.resolvedMetadata with
      | .ok _ => .ok (checked, saved)
      | .error e => prepareVerifier id anchors options clock (index + 1) e.description rest saved

/-- The metadata that the keys of the verifier are read from. An effective inline set is authoritative. -/
def keyMetadata (metadata : Payload) : Payload :=
  match metadata.get? "jwks" with
  | some jwks => Dict.ofEntries [("jwks", jwks)]
  | none => metadata

/-- The keys of the verifier for its protocol. -/
def protocolKeys (chain : PreparedTrustChain) (options : AuthorizationRequestOptions)
    (run : PreparationRun) : Except Stop JWKSet :=
  match chain.resolvedMetadata.get? "openid_credential_verifier" with
  | none => walletStop "Missing protocol metadata"
  | some metadata => do
    let selected := keyMetadata metadata
    walletStopIf (options.offline && (selected.get? "jwks").isNone)
      "Offline verification requires locally available protocol keys"
    match (chain.statements[0]?).bind (·.payload.get? "jwks") with
    | none => walletStop "Missing authenticated federation keys"
    | some federationKeys => do
      let resolved ← resolveEntityKeys H.toClientHost selected (jwksOf federationKeys)
        options.entityKeys run.keys
      return resolved.keys

/-- The options with the chain that the header of an inline Request Object supplies. -/
def effectiveOptions (outer : WalletAuthorizationRequest) (options : AuthorizationRequestOptions) :
    Except Stop AuthorizationRequestOptions :=
  match outer.request.filter (· != "") with
  | none => .ok options
  | some jwt => do
    let decoded ← (decodeToken H.toWalletPlatform jwt
      { audience := "", maxResponseBytes := options.maxResponseBytes }).mapError Stop.fail
    match decoded.header.get? "trust_chain" with
    | none => return options
    | some supplied =>
      match textItems supplied with
      | none => walletStop "Invalid Request Object trust_chain"
      | some jwts => return { options with trustChain := some jwts }

/-- An outer `request_uri` is one that the verifier has registered. -/
def checkRequestUri (metadata : Payload) (outer : WalletAuthorizationRequest) : Except Stop Unit :=
  if given outer.requestUri then
    checkEndpoint metadata "request_uris" (outer.requestUri.map .str)
  else .ok ()

def federationPrefix : String := "openid_federation:"

/-- The federation identifier that a client identifier carries. -/
def federationClient (clientId : String) : Option String :=
  if federationPrefix.toList.isPrefixOf clientId.toList then
    some (String.ofList (clientId.toList.drop federationPrefix.toList.length))
  else none

def prepareRequest (state : WalletState) (outer : WalletAuthorizationRequest)
    (anchors : TrustAnchorSet) (options : AuthorizationRequestOptions) (run : PreparationRun) :
    Except Stop (PreparedAuthorizationRequest × WalletState) :=
  match federationClient outer.clientId with
  | none => walletStop "A supported federation client identifier is required"
  | some id => do
    walletStopIf (outer.requestUri.any fun uri => (H.zodUrl uri).isNone)
      "A supported federation client identifier is required"
    walletStopIf ((given outer.request && given outer.requestUri) ||
      (outer.requestUriMethod.isSome && !given outer.requestUri))
      "Invalid request delivery parameters"
    let options ← effectiveOptions H outer options
    let paths ← candidates H id anchors options run
    let (chain, chains) ← prepareVerifier H id anchors options run.clock 0 "No valid verifier chain"
      paths state.chains
    let metadata ← (roleMetadata H id chain.entityId chain.resolvedMetadata).mapError Stop.fail
    checkRequestUri metadata outer
    let keys ← protocolKeys H chain options run
    let prepared : PreparedAuthorizationRequest :=
      { place := state.requests.length
        verifierId := id
        expiresAt := chain.expiresAt
        requestUri := outer.requestUri.filter (· != "") }
    return (prepared, ⟨chains, state.requests ++ [{ chain, keys, outer, options }]⟩)

end Prepare

/-! ## Completion -/

structure AuthorizationRequestContext where
  walletNonce : Option String := none
  /-- Query resolved by the application's configured mapping for the signed scope. -/
  scopeQuery : Option Json := none

/-- What a completion reads of the clock, and where it looks whether it is cancelled. -/
structure CompletionRun where
  startedAt : Rat
  verifiedAt : Rat
  chainAt : Rat
  clock : Clock
  finishedAt : Rat
  aborted : AbortSite → Bool := fun _ => false
  abortedAtStart : Bool := false
  abortedAtEnd : Bool := false

/-- `/^[A-Za-z0-9._~-]+$/`. -/
def unreservedSchema : Schema
  | .str s => s != "" && s.toList.all fun c => c.isAlphanum || ['.', '_', '~', '-'].contains c
  | _ => false

def requestSchema : Schema :=
  looseObject
    ([{ name := "client_id", schema := nonempty },
      { name := "response_type", schema := fun v =>
          v.string?.any fun value => (Json.splitText ' ' value).contains "vp_token" },
      { name := "response_mode", schema := string }, { name := "nonce", schema := unreservedSchema },
      { name := "state", schema := unreservedSchema, optional := true }] ++
      optionalFields string ["wallet_nonce", "redirect_uri", "response_uri", "scope"] ++
      optionalFields anyRecord ["client_metadata"])

/-- `requestSchema.safeParse`. -/
def parseRequest (payload : Payload) : Option Payload :=
  if requestSchema (.obj payload.members) then
    some (membersOf (objectOutput
      (fun name v => if name = "client_metadata" then plainOutput v else v) (.obj payload.members)))
  else none

/-- The Request Object belongs to the prepared request. -/
def checkRequest (saved : SavedRequest) (context : AuthorizationRequestContext) (request : Payload) :
    Except Stop Unit := do
  walletStopIf (request.get? "client_id" != some (.str saved.outer.clientId))
    "Request Object client_id does not match the full outer identifier"
  walletStopIf (saved.options.walletNonce.any fun nonce => context.walletNonce.any (· != nonce))
    "Expected wallet nonce changed during retrieval"
  walletStopIf ((saved.options.walletNonce.or context.walletNonce).any fun nonce =>
    request.get? "wallet_nonce" != some (.str nonce)) "Request Object wallet_nonce does not match"
  walletStopIf ((request.get? "scope").isNone == (request.get? "dcql_query").isNone)
    "Exactly one DCQL query or scope is required"

/-- The query of the client metadata, for queries that are pending. -/
def contextualQueries (pending : List ContextualMetadataClaim) (request : Payload) :
    Except Stop Json :=
  let supplied := (request.get? "client_metadata").bind (·.get? "dcql_query")
  if pending.isEmpty || supplied.isNone then .ok (.obj [])
  else
    match parseDcqlQuery supplied with
    | none => walletStop "Invalid contextual DCQL query"
    | some query =>
      .ok (.obj [("openid_credential_verifier", .obj [("dcql_queries", .arr [query])])])

def isDirectPost (request : Payload) : Bool :=
  request.get? "response_mode" == some (.str "direct_post") ||
    request.get? "response_mode" == some (.str "direct_post.jwt")

/-- The endpoint that the response mode asks for. -/
def checkResponseMode (metadata request : Payload) : Except Stop Unit :=
  if isDirectPost request then do
    walletStopIf (request.get? "redirect_uri").isSome
      "direct_post requests cannot include redirect_uri"
    checkEndpoint metadata "response_uris" (request.get? "response_uri")
  else if (request.get? "redirect_uri").isSome then
    checkEndpoint metadata "redirect_uris" (request.get? "redirect_uri")
  else walletStopIf (request.get? "response_mode" == some (.str "fragment"))
    "fragment response mode requires redirect_uri"

/-- The endpoints of a Request Object, each with the list that registers it. -/
def endpointsOfRequest : List (String × String) :=
  [("request_uri", "request_uris"), ("response_uri", "response_uris"),
    ("redirect_uri", "redirect_uris")]

def checkSuppliedEndpoints (metadata request : Payload) : Except Stop Unit :=
  endpointsOfRequest.forM fun e =>
    if (request.get? e.1).isSome then checkEndpoint metadata e.2 (request.get? e.1) else .ok ()

/-- The queries that an immediate superior states for the verifier. -/
def superiorQueries (statements : List ParsedEntityStatement) : Option Json :=
  (statements[1]?).bind fun superior =>
    if superior.payload.get? "iss" != superior.payload.get? "sub" then
      (((superior.payload.get? "metadata").bind (·.get? "openid_credential_verifier")).bind
        (·.get? "dcql_queries"))
    else none

/-- The query of the request, or the one that the application has for its scope. -/
def requestedQueries (context : AuthorizationRequestContext) (request : Payload) :
    Except Stop (List Json) :=
  match request.get? "dcql_query" with
  | some query =>
    match parseDcqlQuery (some query) with
    | none => walletStop "Invalid DCQL query"
    | some query => .ok [query]
  | none =>
    match parseDcqlQuery context.scopeQuery with
    | none => walletStop "Scope-to-DCQL mapping must be provided by the application"
    | some query => .ok [query]

/-- The queries of the metadata; the schema of a verifier lets nothing but an array through. -/
def registeredQueries (metadata : Payload) : Option (List Json) :=
  (metadata.get? "dcql_queries").bind Json.items?

/-- The queries of the request, which are not read where a superior states some. -/
def queriesUnless (superior : Option Json) (context : AuthorizationRequestContext) (request : Payload) :
    Except Stop (Option (List Json)) :=
  if superior.isNone then (requestedQueries context request).map some else .ok none

/-- The queries of the request, where they are read, and the queries in effect. -/
def activeQueries (superior : Option Json) (metadata : Payload) (context : AuthorizationRequestContext)
    (request : Payload) : Except Stop (Option (List Json) × List Json) := do
  let requested ← queriesUnless superior context request
  match (registeredQueries metadata).or requested with
  | none => walletStop "Superior DCQL metadata did not produce an effective query"
  | some queries => return (requested, queries)

section Complete

variable (H : WalletHost)

/-- Transaction data that are bound to some credentials of the queries. -/
def transactionData (ids : List Json) (encoded : Json) : Option Json :=
  ((encoded.string?.bind H.decodeJson).filter (looseObject
    [{ name := "type", schema := string },
      { name := "credential_ids", schema := fun v =>
          stringsSchema v && ((v.items?).getD []).all ids.contains }])).map plainOutput

def checkTransactionData (options : AuthorizationRequestOptions) (request : Payload)
    (queries : List Json) : Except Stop Unit :=
  match request.get? "transaction_data", options.verifyTransactionData with
  | none, _ => .ok ()
  | some (.arr (item :: items)), some policy =>
    match (item :: items).mapM (transactionData H (queries.flatMap credentialIds)) with
    | none => walletStop "Malformed or unbound transaction data"
    | some data =>
      let answer := policy { data, queries }
      (invokePolicy answer.1 answer.2).mapError .fail
  | some _, _ => walletStop "Unsupported transaction_data"

/-- The request without the metadata it supplies. Only where a superior states the queries is the
requested query to be ignored (Wallet §7.1.1). -/
def safeRequest (superior : Option Json) (request : Payload) : Payload :=
  let request := (request.erase "client_metadata").erase "iss"
  if superior.isSome then (request.erase "dcql_query").erase "scope" else request

/-- The queries that the verifier publishes itself. -/
def publishedQueries (statements : List ParsedEntityStatement) : Option Json :=
  (((statements[0]?).bind (·.payload.get? "metadata")).bind
    (·.get? "openid_credential_verifier")).bind (·.get? "dcql_queries")

def querySourceOf (statements : List ParsedEntityStatement) (metadata : Payload) : QuerySource :=
  if (superiorQueries statements).isSome then .superiorMetadata
  else if (metadata.get? "dcql_queries").isSome then
    if (publishedQueries statements).isSome then .verifierMetadata else .metadataPolicy
  else .request

def checkQueryPolicy (options : AuthorizationRequestOptions) (context : QueryContext) :
    Except Stop Unit :=
  match options.queryPolicy with
  | none => .ok ()
  | some policy =>
    let answer := policy context
    (invokePolicy answer.1 answer.2).mapError .fail

/-- The Request Object, verified under the keys of the verifier. -/
def verifyRequestObject (saved : SavedRequest) (jwt : String) (run : CompletionRun) :
    Except Stop Payload :=
  (verifyToken H.toWalletPlatform jwt saved.keys "oauth-authz-req+jwt"
    -- of a call, only its options, its cancellation and its clock are read here
    { popJwt := jwt
      attestation := walletFailure ""
      options :=
        { audience := saved.options.walletIssuer
          clockSkewSeconds := saved.options.validation.clockSkew
          maxResponseBytes := saved.options.maxResponseBytes }
      aborted := run.aborted
      clock := fun _ => run.verifiedAt }
    (some saved.options.walletIssuer)).mapError .fail

/-- The preparation of a request, where it is known and neither expired nor cancelled. -/
def savedRequest (state : WalletState) (prepared : PreparedAuthorizationRequest)
    (run : CompletionRun) : Except Stop SavedRequest :=
  match state.requests[prepared.place]? with
  | none => walletStop "Unknown, expired, or cancelled request preparation"
  | some saved =>
    if prepared.expiresAt ≤ run.startedAt || run.abortedAtStart then
      walletStop "Unknown, expired, or cancelled request preparation"
    else .ok saved

def completeRequest (state : WalletState) (prepared : PreparedAuthorizationRequest) (jwt : String)
    (context : AuthorizationRequestContext) (run : CompletionRun) :
    Except Stop ValidatedWalletRequest := do
  let saved ← savedRequest state prepared run
  walletStopIf (given saved.outer.request && saved.outer.request != some jwt)
    "Request Object differs from the inline prepared request"
  let payload ← verifyRequestObject H saved jwt run
  match parseRequest payload with
  | none => walletStop "Invalid OpenID4VP Request Object parameters"
  | some request => do
    checkRequest saved context request
    let contextual ← contextualQueries saved.chain.pendingClaims request
    let completed ← completeTrustChainValidation H.toPlatform state.chains saved.chain contextual
      run.chainAt run.clock
    let metadata ← (roleMetadata H prepared.verifierId completed.entityId
      completed.resolvedMetadata).mapError Stop.fail
    checkResponseMode metadata request
    checkSuppliedEndpoints metadata request
    let superior := superiorQueries saved.chain.statements
    let (requested, queries) ← activeQueries superior metadata context request
    checkTransactionData H saved.options request (requested.getD queries)
    let safe := safeRequest superior request
    checkQueryPolicy saved.options { queries, request := safe, chain := completed }
    walletStopIf (run.abortedAtEnd || decide (completed.expiresAt ≤ run.finishedAt))
      "Request validation expired or was cancelled"
    return { request := safe
             effectiveQueries := queries
             querySource := querySourceOf saved.chain.statements metadata
             verifierMetadata := metadata
             trustChain := completed }

end Complete

/-! ## What the checks establish -/

@[simp] theorem walletStop_ne_ok {α : Type} {description : String} {a : α} :
    walletStop description ≠ .ok a := nofun

@[simp] theorem walletStopIf_eq_ok {c : Bool} {description : String} {u : Unit} :
    walletStopIf c description = .ok u ↔ c = false := by
  cases c <;> simp [walletStopIf]

theorem checkEndpoint_eq_ok {metadata : Payload} {field : String} {uri : Option Json} {u : Unit}
    (h : checkEndpoint metadata field uri = .ok u) : ∃ text registered, uri = some (.str text) ∧
      metadata.get? field = some (.arr registered) ∧ .str text ∈ registered := by
  unfold checkEndpoint at h
  split at h
  · rename_i text registered hregistered
    exact ⟨text, registered, rfl, hregistered, by simpa using h⟩
  · cases h

/-- A URI that the resolved metadata of a verifier register in a field, as the schema gives it. -/
def RegisteredIn (P : Platform) (resolvedMetadata : FederationMetadata) (field : String)
    (uri : Option Json) : Prop :=
  ∃ text registered, uri = some (.str text) ∧
    metadataParameter resolvedMetadata "openid_credential_verifier" field = some (.arr registered) ∧
    ∃ raw ∈ registered, urlOutput P (some raw) = some text

section Checks

variable {H : WalletHost} {id entityId : String} {resolvedMetadata : FederationMetadata}
  {metadata request : Payload} {u : Unit}

theorem checkEndpoint_registered (hrole : roleMetadata H id entityId resolvedMetadata = .ok metadata)
    {field : String} (hfield : field ∈ endpointFields) {uri : Option Json}
    (h : checkEndpoint metadata field uri = .ok u) :
    RegisteredIn H.toPlatform resolvedMetadata field uri := by
  obtain ⟨text, registered, huri, hregistered, hmem⟩ := checkEndpoint_eq_ok h
  obtain ⟨raws, hraws, hraw⟩ := roleMetadata_endpoint hrole hfield hregistered hmem
  exact ⟨text, raws, huri, hraws, hraw⟩

theorem checkResponseMode_eq_ok (hrole : roleMetadata H id entityId resolvedMetadata = .ok metadata)
    (h : checkResponseMode metadata request = .ok u) :
    (isDirectPost request = true → request.get? "redirect_uri" = none ∧
      RegisteredIn H.toPlatform resolvedMetadata "response_uris" (request.get? "response_uri")) ∧
    (request.get? "response_mode" = some (.str "fragment") →
      RegisteredIn H.toPlatform resolvedMetadata "redirect_uris" (request.get? "redirect_uri")) := by
  unfold checkResponseMode at h
  split at h
  · rename_i hdirect
    obtain ⟨⟨⟩, hredirect, h⟩ := bind_eq_ok.mp h
    refine ⟨fun _ => ⟨by simpa using hredirect, checkEndpoint_registered hrole (by decide) h⟩,
      fun hfragment => ?_⟩
    simp [isDirectPost, hfragment] at hdirect
  · rename_i hdirect
    refine ⟨fun hpost => absurd hpost hdirect, fun hfragment => ?_⟩
    split at h
    · exact checkEndpoint_registered hrole (by decide) h
    · simp [hfragment] at h

theorem checkSuppliedEndpoints_eq_ok
    (hrole : roleMetadata H id entityId resolvedMetadata = .ok metadata)
    (h : checkSuppliedEndpoints metadata request = .ok u) :
    ∀ e ∈ endpointsOfRequest, ∀ v, request.get? e.1 = some v →
      RegisteredIn H.toPlatform resolvedMetadata e.2 (some v) := by
  have hloop : ∀ l : List (String × String), (∀ e ∈ l, e.2 ∈ endpointFields) →
      (l.forM fun e =>
        if (request.get? e.1).isSome then checkEndpoint metadata e.2 (request.get? e.1)
        else .ok ()) = .ok u →
      ∀ e ∈ l, ∀ v, request.get? e.1 = some v →
        RegisteredIn H.toPlatform resolvedMetadata e.2 (some v) := by
    intro l
    induction l with
    | nil => nofun
    | cons e rest ih =>
      intro hfields h
      obtain ⟨hfield, hrest⟩ := List.forall_mem_cons.mp hfields
      obtain ⟨⟨⟩, hfirst, h⟩ := bind_eq_ok.mp h
      refine List.forall_mem_cons.mpr ⟨fun v hv => ?_, ih hrest h⟩
      simp only [hv, Option.isSome_some, if_true] at hfirst
      exact checkEndpoint_registered hrole hfield hfirst
  exact hloop endpointsOfRequest (by decide) h

theorem checkRequest_eq_ok {saved : SavedRequest} {context : AuthorizationRequestContext}
    (h : checkRequest saved context request = .ok u) :
    request.get? "client_id" = some (.str saved.outer.clientId) ∧
      ((request.get? "scope").isNone = true ↔ (request.get? "dcql_query").isSome = true) := by
  obtain ⟨⟨⟩, hclient, h⟩ := bind_eq_ok.mp h
  obtain ⟨⟨⟩, -, h⟩ := bind_eq_ok.mp h
  obtain ⟨⟨⟩, -, hone⟩ := bind_eq_ok.mp h
  refine ⟨by simpa using hclient, ?_⟩
  rw [walletStopIf_eq_ok, beq_eq_false_iff_ne] at hone
  cases hscope : request.get? "scope" <;> cases hquery : request.get? "dcql_query" <;>
    simp_all

end Checks

section Queries

variable {superior : Option Json} {metadata request : Payload}
  {context : AuthorizationRequestContext} {requested : Option (List Json)} {queries : List Json}

/-- The query of the request, or that of the application for its scope, as the schema gives it. -/
def requestQuery (context : AuthorizationRequestContext) (request : Payload) : Option Json :=
  parseDcqlQuery ((request.get? "dcql_query").or context.scopeQuery)

theorem requestedQueries_eq_ok (h : requestedQueries context request = .ok queries) :
    ∃ query, requestQuery context request = some query ∧ queries = [query] := by
  unfold requestedQueries at h
  unfold requestQuery
  cases hquery : request.get? "dcql_query" with
  | some query =>
    rw [hquery] at h
    simp only at h
    split at h
    · cases h
    · rename_i query' hparsed
      obtain rfl := Except.ok.inj h
      exact ⟨query', hparsed, rfl⟩
  | none =>
    rw [hquery] at h
    simp only at h
    split at h
    · cases h
    · rename_i query' hparsed
      obtain rfl := Except.ok.inj h
      exact ⟨query', hparsed, rfl⟩

/-- The queries in effect: those of the metadata, or that of the request where they have none. -/
theorem activeQueries_eq_ok
    (h : activeQueries superior metadata context request = .ok (requested, queries)) :
    (∀ registered, registeredQueries metadata = some registered → queries = registered) ∧
      (registeredQueries metadata = none →
        ∃ query, requestQuery context request = some query ∧ queries = [query]) := by
  obtain ⟨requested', hrequested, h⟩ := bind_eq_ok.mp h
  cases hregistered : registeredQueries metadata with
  | some registered =>
    rw [hregistered, Option.some_or] at h
    obtain ⟨-, rfl⟩ := Prod.mk.inj (Except.ok.inj h)
    exact ⟨fun _ h => Option.some.inj h, nofun⟩
  | none =>
    rw [hregistered, Option.none_or] at h
    refine ⟨nofun, fun _ => ?_⟩
    cases hsuperior : superior with
    | some stated =>
      rw [hsuperior] at hrequested
      obtain rfl := Except.ok.inj hrequested
      cases h
    | none =>
      rw [hsuperior] at hrequested
      obtain ⟨parsed, hparsed, rfl⟩ := map_eq_ok hrequested
      obtain ⟨-, rfl⟩ := Prod.mk.inj (Except.ok.inj h)
      exact requestedQueries_eq_ok hparsed

/-- So they are those of the resolved metadata, or that of the request where these have none. -/
theorem activeQueries_resolved {H : WalletHost} {id entityId : String}
    {resolvedMetadata : FederationMetadata}
    (hrole : roleMetadata H id entityId resolvedMetadata = .ok metadata)
    (h : activeQueries superior metadata context request = .ok (requested, queries)) :
    (∀ v, metadataParameter resolvedMetadata "openid_credential_verifier" "dcql_queries" = some v →
      ∃ registered, v = .arr registered ∧ queries = registered.map dcqlQueryOutput) ∧
    (metadataParameter resolvedMetadata "openid_credential_verifier" "dcql_queries" = none →
      ∃ query, requestQuery context request = some query ∧ queries = [query]) := by
  obtain ⟨hregistered, hrequested⟩ := activeQueries_eq_ok h
  have hget := roleMetadata_get? hrole (show "dcql_queries" ≠ "__proto__" by decide)
  constructor
  · intro v hv
    rw [hv, Option.map_some] at hget
    obtain ⟨registered, hraw, houtput⟩ := roleMetadata_queries hrole hget
    refine ⟨registered, Option.some.inj (hv.symm.trans hraw), hregistered _ ?_⟩
    rw [registeredQueries, hget, houtput]
    rfl
  · intro hnone
    rw [hnone, Option.map_none] at hget
    exact hrequested (by rw [registeredQueries, hget]; rfl)

theorem safeRequest_get? (name : String) :
    (safeRequest superior request).get? name =
      if name = "client_metadata" ∨ name = "iss" ∨
        (superior.isSome = true ∧ (name = "dcql_query" ∨ name = "scope")) then none
      else request.get? name := by
  unfold safeRequest
  cases superior with
  | none =>
    simp only [Option.isSome_none, Bool.false_eq_true, if_false, false_and, or_false,
      Dict.get?_erase]
    by_cases hiss : name = "iss" <;> by_cases hmeta : name = "client_metadata" <;> simp [hiss, hmeta]
  | some stated =>
    simp only [Option.isSome_some, if_true, true_and, Dict.get?_erase]
    by_cases hiss : name = "iss" <;> by_cases hmeta : name = "client_metadata" <;>
      by_cases hscope : name = "scope" <;> by_cases hquery : name = "dcql_query" <;>
      simp [hiss, hmeta, hscope, hquery]

end Queries

section Verified

variable {P : WalletPlatform} {jwt typ : String} {keys : JWKSet} {call : WalletCall}
  {audience : Option String} {payload : Payload}

/-- A JWT verifies under some key of a set, with a type, an audience, a tolerance and a time. -/
def VerifiesFor (P : WalletPlatform) (jwt typ : String) (audience : Option String) (keys : JWKSet)
    (clockSkew now : Rat) (payload : Payload) : Prop :=
  ∃ key ∈ keys, ∃ alg ∈ supportedAlgorithms,
    P.jwtVerifyFor jwt key alg typ audience clockSkew now = .ok payload

theorem verifyToken_eq_ok (h : verifyToken P jwt keys typ call audience = .ok payload) :
    VerifiesFor P jwt typ audience keys call.options.clockSkewSeconds (call.clock .proofKeys)
      payload := by
  obtain ⟨decoded, -, h⟩ := bind_eq_ok.mp h
  split at h
  · cases h
  · split at h
    · cases h
    · rename_i hheader
      rw [Bool.not_eq_true, Bool.or_eq_false_iff, Bool.not_eq_false'] at hheader
      obtain ⟨alg, halg, hget⟩ := isValidAlgorithm_eq_true.mp hheader.2
      have hstring : decoded.header.string? "alg" = some alg := Payload.string?_eq_some.mpr hget
      split at h
      · cases h
      · simp only [hstring, Option.getD_some] at h
        split at h
        · cases h
        · rename_i verified hfound
          obtain ⟨key, hkey, hverified⟩ := List.exists_of_findSome?_eq_some hfound
          split at h
          · cases h
          · obtain rfl := Except.ok.inj h
            exact ⟨key, (List.mem_filter.mp hkey).1, alg, halg, toOption_eq_some.mp hverified⟩

end Verified

/-! ## Accepted requests -/

section Prepared

variable {H : WalletHost} {id : String} {anchors : TrustAnchorSet}
  {options : AuthorizationRequestOptions}

/-- What a wallet lets stay pending. -/
def pendingQueries : List ContextualMetadataClaim := [⟨"openid_credential_verifier", "dcql_queries"⟩]

/-- A chain that has been prepared for a request, and the preparations after that. -/
def PreparedChain (H : WalletHost) (anchors : TrustAnchorSet) (validation : TrustChainValidationOptions)
    (chain : PreparedTrustChain) (chains : Preparations) : Prop :=
  ∃ preparations path clock, prepareTrustChainValidation H.toPlatform preparations path anchors
    validation pendingQueries clock = .ok (chain, chains)

theorem prepareVerifier_eq_ok {clock : Nat → Clock} {index : Nat} {last : String}
    {paths : List (List String)} {preparations chains : Preparations} {chain : PreparedTrustChain}
    (h : prepareVerifier H id anchors options clock index last paths preparations =
      .ok (chain, chains)) :
    PreparedChain H anchors { options.validation with verboseErrors := true } chain chains := by
  induction paths generalizing index last preparations with
  | nil => cases h
  | cons path rest ih =>
    unfold prepareVerifier at h
    split at h
    · exact ih h
    · cases h
    · rename_i checked saved hprepared
      split at h
      · obtain ⟨rfl, rfl⟩ := Prod.mk.inj (Except.ok.inj h)
        exact ⟨preparations, path, clock index, hprepared⟩
      · exact ih h

theorem effectiveOptions_eq_ok {outer : WalletAuthorizationRequest}
    {effective : AuthorizationRequestOptions}
    (h : effectiveOptions H outer options = .ok effective) :
    ∃ trustChain, effective = { options with trustChain } := by
  unfold effectiveOptions at h
  split at h
  · obtain rfl := Except.ok.inj h
    exact ⟨options.trustChain, rfl⟩
  · obtain ⟨decoded, -, h⟩ := bind_eq_ok.mp h
    split at h
    · obtain rfl := Except.ok.inj h
      exact ⟨options.trustChain, rfl⟩
    · split at h
      · cases h
      · obtain rfl := Except.ok.inj h
        exact ⟨_, rfl⟩

theorem federationClient_eq_some {clientId : String} (h : federationClient clientId = some id) :
    clientId = federationPrefix ++ id := by
  unfold federationClient at h
  split at h
  · rename_i hprefix
    obtain rfl := Option.some.inj h
    obtain ⟨rest, hrest⟩ := List.isPrefixOf_iff_prefix.mp hprefix
    rw [← hrest, List.drop_left, ← String.toList_inj, String.toList_append, String.toList_ofList,
      hrest]
  · cases h

/-- Keys that the metadata of a verifier in a prepared chain lead to: those that are stated inline, else
those at a URL that is stated; a signed set there verifies under the federation keys of the verifier. -/
def VerifierKeys (H : WalletHost) (options : AuthorizationRequestOptions) (chain : PreparedTrustChain)
    (keys : JWKSet) : Prop :=
  ∃ metadata, chain.resolvedMetadata.get? "openid_credential_verifier" = some metadata ∧
    (∀ jwks, metadata.get? "jwks" = some jwks → jwkSetSchema jwks = true ∧ keys = jwkSetKeys jwks) ∧
    (metadata.get? "jwks" = none → ∃ federationKeys run source,
      (chain.statements[0]?).bind (·.payload.get? "jwks") = some federationKeys ∧
        KeysFrom H.toClientHost metadata (jwksOf federationKeys) options.entityKeys run
          ⟨keys, source⟩)

theorem protocolKeys_eq_ok {chain : PreparedTrustChain} {run : PreparationRun} {keys : JWKSet}
    (h : protocolKeys H chain options run = .ok keys) : VerifierKeys H options chain keys := by
  unfold protocolKeys at h
  split at h
  · cases h
  · rename_i metadata hmetadata
    obtain ⟨⟨⟩, -, h⟩ := bind_eq_ok.mp h
    split at h
    · cases h
    · rename_i federationKeys hfederation
      obtain ⟨resolved, hresolved, h⟩ := bind_eq_ok.mp h
      obtain rfl := Except.ok.inj h
      refine ⟨metadata, hmetadata, fun jwks hjwks => ?_, fun hnone => ?_⟩
      · rw [keyMetadata, hjwks] at hresolved
        obtain ⟨hschema, rfl⟩ := resolveEntityKeys_inline
          (show (Dict.ofEntries [("jwks", jwks)]).get? "jwks" = some jwks from rfl) rfl rfl hresolved
        exact ⟨hschema, rfl⟩
      · rw [keyMetadata, hnone] at hresolved
        exact ⟨federationKeys, run.keys, resolved.source, hfederation,
          (resolveEntityKeys_eq_ok hresolved).1⟩

/-- What a preparation keeps of a request. -/
structure PreparedFor (H : WalletHost) (outer : WalletAuthorizationRequest) (anchors : TrustAnchorSet)
    (options : AuthorizationRequestOptions) (prepared : PreparedAuthorizationRequest)
    (state state' : WalletState) (saved : SavedRequest) : Prop where
  requests : state'.requests = state.requests ++ [saved]
  place : prepared.place = state.requests.length
  ofOuter : saved.outer = outer
  client : outer.clientId = federationPrefix ++ prepared.verifierId
  ofOptions : ∃ trustChain, saved.options = { options with trustChain }
  chain : PreparedChain H anchors { saved.options.validation with verboseErrors := true } saved.chain
    state'.chains
  keys : VerifierKeys H saved.options saved.chain saved.keys

theorem prepareRequest_eq_ok {outer : WalletAuthorizationRequest} {state state' : WalletState}
    {prepared : PreparedAuthorizationRequest} {run : PreparationRun}
    (h : prepareRequest H state outer anchors options run = .ok (prepared, state')) :
    ∃ saved, PreparedFor H outer anchors options prepared state state' saved := by
  unfold prepareRequest at h
  cases hid : federationClient outer.clientId with
  | none =>
    rw [hid] at h
    cases h
  | some id =>
    rw [hid] at h
    obtain ⟨⟨⟩, -, h⟩ := bind_eq_ok.mp h
    obtain ⟨⟨⟩, -, h⟩ := bind_eq_ok.mp h
    obtain ⟨effective, heffective, h⟩ := bind_eq_ok.mp h
    obtain ⟨paths, -, h⟩ := bind_eq_ok.mp h
    obtain ⟨⟨chain, chains⟩, hchain, h⟩ := bind_eq_ok.mp h
    obtain ⟨metadata, -, h⟩ := bind_eq_ok.mp h
    obtain ⟨⟨⟩, -, h⟩ := bind_eq_ok.mp h
    obtain ⟨keys, hkeys, h⟩ := bind_eq_ok.mp h
    obtain ⟨rfl, rfl⟩ := Prod.mk.inj (Except.ok.inj h)
    exact ⟨⟨chain, keys, outer, effective⟩, rfl, rfl, rfl, federationClient_eq_some hid,
      effectiveOptions_eq_ok heffective, prepareVerifier_eq_ok hchain, protocolKeys_eq_ok hkeys⟩

end Prepared

/-- What a wallet may rely on of a request that it has completed. -/
structure AcceptedRequest (H : WalletHost) (saved : SavedRequest)
    (prepared : PreparedAuthorizationRequest) (context : AuthorizationRequestContext)
    (request : Payload) (result : ValidatedWalletRequest) : Prop where
  client : request.get? "client_id" = some (.str saved.outer.clientId)
  /-- The metadata are those of the whole policy, with the queries of the request where the verifier
  publishes none. -/
  resolved : ∃ contextual, contextualQueries saved.chain.pendingClaims request = .ok contextual ∧
    Contextual H.toPlatform saved.options.validation saved.chain contextual
      result.trustChain.resolvedMetadata
  metadata : roleMetadata H prepared.verifierId result.trustChain.entityId
    result.trustChain.resolvedMetadata = .ok result.verifierMetadata
  endpoints : ∀ e ∈ endpointsOfRequest, ∀ v, request.get? e.1 = some v →
    RegisteredIn H.toPlatform result.trustChain.resolvedMetadata e.2 (some v)
  directPost : isDirectPost request = true → request.get? "redirect_uri" = none ∧
    RegisteredIn H.toPlatform result.trustChain.resolvedMetadata "response_uris"
      (request.get? "response_uri")
  fragment : request.get? "response_mode" = some (.str "fragment") →
    RegisteredIn H.toPlatform result.trustChain.resolvedMetadata "redirect_uris"
      (request.get? "redirect_uri")
  registered : ∀ v, metadataParameter result.trustChain.resolvedMetadata
      "openid_credential_verifier" "dcql_queries" = some v →
    ∃ queries, v = .arr queries ∧ result.effectiveQueries = queries.map dcqlQueryOutput
  requested : metadataParameter result.trustChain.resolvedMetadata
      "openid_credential_verifier" "dcql_queries" = none →
    ∃ query, requestQuery context request = some query ∧ result.effectiveQueries = [query]
  members : ∀ name v, result.request.get? name = some v → request.get? name = some v
  noMetadata : result.request.get? "client_metadata" = none
  noQueries : (superiorQueries result.trustChain.statements).isSome = true →
    result.request.get? "dcql_query" = none ∧ result.request.get? "scope" = none

/-- A request that a wallet prepares and completes is accepted under the keys of its verifier. -/
theorem completeRequest_accepted {H : WalletHost} {outer : WalletAuthorizationRequest}
    {anchors : TrustAnchorSet} {options : AuthorizationRequestOptions} {run : PreparationRun}
    {state state' later : WalletState} {prepared : PreparedAuthorizationRequest} {jwt : String}
    {context : AuthorizationRequestContext} {completion : CompletionRun}
    {result : ValidatedWalletRequest}
    (hprepare : prepareRequest H state outer anchors options run = .ok (prepared, state'))
    (hchains : state'.chains <+: later.chains) (hrequests : state'.requests <+: later.requests)
    (h : completeRequest H later prepared jwt context completion = .ok result) :
    ∃ saved payload request, PreparedFor H outer anchors options prepared state state' saved ∧
      VerifiesFor H.toWalletPlatform jwt "oauth-authz-req+jwt" (some options.walletIssuer) saved.keys
        options.validation.clockSkew completion.verifiedAt payload ∧
      parseRequest payload = some request ∧
      AcceptedRequest H saved prepared context request result := by
  obtain ⟨saved, hprepared⟩ := prepareRequest_eq_ok hprepare
  obtain ⟨trustChain, hoptions⟩ := hprepared.ofOptions
  have hsaved : later.requests[prepared.place]? = some saved := by
    obtain ⟨rest, hrest⟩ := hrequests
    rw [← hrest, hprepared.requests, hprepared.place]
    simp
  obtain ⟨kept, hkept, h⟩ := bind_eq_ok.mp h
  obtain rfl : saved = kept := by
    unfold savedRequest at hkept
    rw [hsaved] at hkept
    simp only at hkept
    split at hkept
    · cases hkept
    · exact Except.ok.inj hkept
  obtain ⟨⟨⟩, -, h⟩ := bind_eq_ok.mp h
  obtain ⟨payload, hpayload, h⟩ := bind_eq_ok.mp h
  have hverified := verifyToken_eq_ok (mapError_eq_ok.mp hpayload)
  simp only [hoptions] at hverified
  split at h
  · cases h
  · rename_i request hrequest
    obtain ⟨⟨⟩, hbelongs, h⟩ := bind_eq_ok.mp h
    obtain ⟨contextual, hcontextual, h⟩ := bind_eq_ok.mp h
    obtain ⟨completed, hcompleted, h⟩ := bind_eq_ok.mp h
    obtain ⟨metadata, hmetadata, h⟩ := bind_eq_ok.mp h
    obtain ⟨⟨⟩, hmode, h⟩ := bind_eq_ok.mp h
    obtain ⟨⟨⟩, hendpoints, h⟩ := bind_eq_ok.mp h
    obtain ⟨⟨requested, queries⟩, hqueries, h⟩ := bind_eq_ok.mp h
    obtain ⟨⟨⟩, -, h⟩ := bind_eq_ok.mp h
    obtain ⟨⟨⟩, -, h⟩ := bind_eq_ok.mp h
    obtain ⟨⟨⟩, -, h⟩ := bind_eq_ok.mp h
    obtain rfl := Except.ok.inj h
    obtain ⟨preparations, path, clock, hchain⟩ := hprepared.chain
    have hstatements := completed_statements hchain hchains hcompleted
    have hrole := mapError_eq_ok.mp hmetadata
    obtain ⟨hregistered, hrequested⟩ := activeQueries_resolved hrole hqueries
    refine ⟨saved, payload, request, hprepared, hverified, hrequest, ?_⟩
    exact
      { client := (checkRequest_eq_ok hbelongs).1
        resolved := ⟨contextual, hcontextual,
          completeTrustChainValidation_contextual hchain hchains hcompleted
            (by unfold pendingQueries OwnClaim; decide)⟩
        metadata := hrole
        endpoints := checkSuppliedEndpoints_eq_ok hrole hendpoints
        directPost := (checkResponseMode_eq_ok hrole hmode).1
        fragment := (checkResponseMode_eq_ok hrole hmode).2
        registered := hregistered
        requested := hrequested
        members := fun name v hv => by
          rw [safeRequest_get?] at hv
          split at hv
          · cases hv
          · exact hv
        noMetadata := by rw [safeRequest_get?]; simp
        noQueries := fun hsuperior => by
          rw [hstatements] at hsuperior
          simp only [safeRequest_get?]
          simp [hsuperior] }

/-! ## An example -/

def walletQuery : Json :=
  .obj [("credentials", .arr [.obj [("id", .str "pid"), ("format", .str "jwt"), ("meta", .obj [])]])]

/-- A verifier that publishes no queries under an anchor that demands some, and its Request Object. -/
def walletRequests : List (String × SignedJwt) :=
  [("verifier", signedJwt JwtTyp.entityStatement "verifier-key"
      (statementClaims "https://verifier.example" "https://verifier.example" "verifier-key"
        [("authority_hints", .arr [.str "https://ta.example"]),
          ("metadata", .obj [("openid_credential_verifier",
            .obj [("vp_formats_supported", .obj []),
              ("response_uris", .arr [.str "https://verifier.example/response"]),
              ("jwks", .obj [("keys", .arr [tableKey "request-key"])])])])])),
    ("ta-about-verifier", signedJwt JwtTyp.entityStatement "ta-key"
      (statementClaims "https://ta.example" "https://verifier.example" "verifier-key"
        [("metadata_policy", .obj [("openid_credential_verifier",
          .obj [("dcql_queries", .obj [("essential", .bool true)])])])])),
    ("request", signedJwt "oauth-authz-req+jwt" "request-key"
      [("client_id", .str "openid_federation:https://verifier.example"),
        ("aud", .str "https://self-issued.me/v2"), ("response_type", .str "vp_token"),
        ("response_mode", .str "direct_post"), ("nonce", .str "n"),
        ("response_uri", .str "https://verifier.example/response"), ("dcql_query", walletQuery),
        ("client_metadata", .obj [("dcql_query", walletQuery)])])]

def walletHost : WalletHost :=
  let P := tableClientHost walletRequests [] []
  { P with
    jwtVerifyFor := fun jwt key alg _ _ tolerance now => P.jwtVerify jwt key alg tolerance now
    roleMessage := fun _ => "Invalid input"
    decodeJson := fun _ => none }

def walletOuter : WalletAuthorizationRequest where
  clientId := "openid_federation:https://verifier.example"

def walletPreparation : PreparationRun where
  resolved := ([["verifier", "ta-about-verifier"]], [])
  clock _ _ := 1500
  keys := .unreached 1500

def walletCompletion : CompletionRun where
  startedAt := 1500
  verifiedAt := 1500
  chainAt := 1500
  clock _ := 1500
  finishedAt := 1500

/-- The request of the verifier is accepted with the queries of its client metadata. -/
theorem walletRequest_accepted : ∃ prepared state result saved payload request,
    prepareRequest walletHost {} walletOuter exampleAnchors {} walletPreparation =
        .ok (prepared, state) ∧
      completeRequest walletHost state prepared "request" {} walletCompletion = .ok result ∧
      result.effectiveQueries = [walletQuery] ∧
      VerifiesFor walletHost.toWalletPlatform "request" "oauth-authz-req+jwt"
        (some "https://self-issued.me/v2") saved.keys 60 1500 payload ∧
      parseRequest payload = some request ∧
      AcceptedRequest walletHost saved prepared {} request result := by
  have hrun : (do
      let (prepared, state) ← prepareRequest walletHost {} walletOuter exampleAnchors {}
        walletPreparation
      completeRequest walletHost state prepared "request" {} walletCompletion).toOption.map
        ValidatedWalletRequest.effectiveQueries = some [walletQuery] := by decide +kernel
  obtain ⟨result, hresult, hqueries⟩ := Option.map_eq_some_iff.mp hrun
  obtain ⟨⟨prepared, state⟩, hprepared, hcomplete⟩ := bind_eq_ok.mp (toOption_eq_some.mp hresult)
  obtain ⟨saved, payload, request, -, hverified, hrequest, haccepted⟩ :=
    completeRequest_accepted hprepared (List.prefix_refl _) (List.prefix_refl _) hcomplete
  exact ⟨prepared, state, result, saved, payload, request, hprepared, hcomplete, hqueries, hverified,
    hrequest, haccepted⟩

end OidFed
