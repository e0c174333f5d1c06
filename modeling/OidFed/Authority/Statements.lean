import OidFed.Authority.ExtendedClaims
import OidFed.Chain.Honest
import OidFed.Client.FederationApi

/-!
# The statements that an authority serves (`authority/src/endpoints/entity-configuration.ts`, `fetch.ts`)

* `createEntityConfigurationHandler`, `createFetchHandler`: the two endpoints that a chain is fetched
  from. `fetchEntityConfiguration`, `fetchSubordinateStatement`: how a client asks them.
* `fetchEntityConfiguration_eq_ok`, `fetchSubordinateStatement_eq_ok`: what the client gets is what the
  authority builds.
* `buildEntityConfiguration_signed`, `buildSubordinateStatement_signed`: that is a signed statement, of
  the two kinds of an honest chain.
-/

namespace OidFed

open Js

/-! ## The endpoints -/

/-- A role that an entity has. -/
structure EntityRole where
  type : String
  /-- It may throw. -/
  validateMetadata : Option (Json → Except String Unit) := none

/-- Validate detached metadata after all roles and host metadata have been composed. -/
def validateRoleMetadata (roles : List EntityRole) (metadata : Json) : Except String Unit :=
  roles.forM fun role =>
    match role.validateMetadata with
    | none => .ok ()
    | some validateMetadata =>
      match (metadata.get? role.type).filter Json.isObject with
      | none => .error s!"Metadata for role '{role.type}' must be an object"
      | some block => validateMetadata block

/-- What the endpoints of statements use of a handler's context. -/
structure StatementContext where
  roles : List EntityRole := []
  entityId : String
  metadata : Json
  authorityHints : Option (List String) := none
  trustAnchorHints : Option (List String) := none
  trustMarks : Option (List Json) := none
  trustMarkIssuers : Option (Dict String (List String)) := none
  trustMarkOwners : Option (Dict String Json) := none
  entityConfigurationTtlSeconds : Option Rat := none
  subordinateStatementTtlSeconds : Option Rat := none

/-- What an answer reads: the keys, the clock, and a record of the storage. -/
structure StatementRun where
  keySet : Except String FederationKeySet
  now : Rat
  /-- `storage.subordinates.get`. -/
  get : String → Except StorageError (Option ListedRecord) := fun _ => .ok none

section Handlers

variable (S : SigningPlatform) (ctx : StatementContext) (run : StatementRun)

/-- What an authority states of itself. -/
def configurationOptions (jwks : List Payload) : BuildEntityConfigurationPayloadOptions :=
  let isTrustAnchor := (ctx.authorityHints.getD []).isEmpty
  { now := run.now
    issuedAt := some run.now
    ttlSeconds := some (ctx.entityConfigurationTtlSeconds.getD defaultEntityStatementTtlSeconds)
    entityId := ctx.entityId
    jwks := jwkSetOf jwks
    metadata := ctx.metadata
    authorityHints := ctx.authorityHints.filter fun hints => !hints.isEmpty
    trustAnchorHints := ctx.trustAnchorHints.filter fun hints => !hints.isEmpty
    trustMarks := ctx.trustMarks.filter fun marks => !marks.isEmpty
    trustMarkIssuers := if isTrustAnchor then ctx.trustMarkIssuers else none
    trustMarkOwners := if isTrustAnchor then ctx.trustMarkOwners else none }

/-- Builds and signs the Entity Configuration JWT from the current context. -/
def buildEntityConfiguration : Except String String := do
  validateRoleMetadata ctx.roles ctx.metadata
  let keySet ← run.keySet
  let payload ← buildEntityConfigurationPayload S.toPlatform (configurationOptions ctx run keySet.jwks)
  signEntityStatement S payload keySet.signer

/-- Returns the authority's Entity Configuration as a signed JWT. -/
def createEntityConfigurationHandler (request : Request) : Response :=
  match requireMethod request "GET" with
  | some methodError => methodError
  | none =>
    match buildEntityConfiguration S ctx run with
    | .ok jwt => jwtResponse jwt MediaType.entityStatement
    | .error _ => errorResponse 500 "server_error" "Failed to build entity configuration"

/-- A handler's context, with the signer of the current keys. -/
def claimContext : ClaimContext where
  entityId := ctx.entityId
  subordinateStatementTtlSeconds := ctx.subordinateStatementTtlSeconds
  signEntityStatement payload := do
    let keySet ← run.keySet
    OidFed.signEntityStatement S payload keySet.signer

/-- Handles fetch endpoint requests to return a subordinate statement. -/
def createFetchHandler (request : Request) : Response :=
  match requireMethod request "GET" with
  | some methodError => methodError
  | none =>
    let sub := (queryParam request "sub").getD ""
    if sub = "" || !isValidEntityId S.toPlatform sub then
      errorResponse 400 FederationErrorCode.InvalidRequest.text "Missing or invalid 'sub' parameter"
    else if sub = ctx.entityId then
      errorResponse 400 FederationErrorCode.InvalidRequest.text
        "Use the Entity Configuration endpoint to fetch the issuer's own configuration"
    else
      match run.get sub with
      | .error _ => errorResponse 500 "server_error" "Failed to build statement"
      | .ok none => errorResponse 404 FederationErrorCode.NotFound.text "Entity not found"
      | .ok (some record) =>
        match buildSubordinateStatement S.toPlatform (claimContext S ctx run) record run.now with
        | .ok jwt => jwtResponse jwt MediaType.entityStatement
        | .error _ => errorResponse 500 "server_error" "Failed to build statement"

end Handlers

/-! ## The requests (`core/src/trust-chain/fetch.ts`), without a cache -/

def wellKnownOpenidFederation : String := "/.well-known/openid-federation"

/-- The URL of an Entity Configuration. -/
def entityConfigurationUrl (entityId : String) : String :=
  let base := if entityId.toList.getLast? = some '/' then String.ofList entityId.toList.dropLast
    else entityId
  base ++ wellKnownOpenidFederation

section Requests

variable (H : ClientHost)

/-- Fetch an Entity Configuration. -/
def fetchEntityConfiguration (entityId : String) (options : FetchOptions) (run : FetchRun) :
    Fetched String :=
  performFetch H (entityConfigurationUrl entityId) { options with } run

/-- Fetch a Subordinate Statement about a subject from a superior's fetch endpoint. -/
def fetchSubordinateStatement (fetchEndpoint subject : String) (options : FetchOptions)
    (run : FetchRun) : Except JsError (Fetched String) :=
  match H.parseUrl fetchEndpoint with
  | none => .error .typeError
  | some url => .ok (performFetch H (setSearchParam H url "sub" subject).href { options with } run)

end Requests

/-! ## What the client gets -/

section Received

variable {H : ClientHost} {S : SigningPlatform} {ctx : StatementContext} {run : StatementRun}
  {options : FetchOptions} {fetchRun : FetchRun} {request : Request} {jwt : String}

/-- The JWT of a response is received. -/
theorem performFetch_jwtResponse {url : String}
    (h : Answered H url { options with } fetchRun (jwtResponse jwt MediaType.entityStatement)) :
    (performFetch H url { options with } fetchRun).2 = .ok jwt := by
  rw [performFetch_jwt (by decide +kernel : IsMediaType MediaType.entityStatement) rfl
    (fun _ hs => by cases hs) h]

/-- Of an error nothing is received. -/
theorem performFetch_errorStatus {url : String} {response : Response}
    (h : Answered H url { options with } fetchRun response) (hstatus : 400 ≤ response.status) :
    (performFetch H url { options with } fetchRun).2 ≠ .ok jwt := by
  rw [performFetch_status h hstatus rfl]
  intro hjwt
  cases hjwt

/-- A client gets the Entity Configuration that the authority builds. -/
theorem fetchEntityConfiguration_eq_ok {entityId : String} (hmethod : request.method = "GET")
    (h : Answered H (entityConfigurationUrl entityId) { options with } fetchRun
      (createEntityConfigurationHandler S ctx run request)) :
    (fetchEntityConfiguration H entityId options fetchRun).2 = .ok jwt ↔
      buildEntityConfiguration S ctx run = .ok jwt := by
  unfold createEntityConfigurationHandler at h
  rw [requireMethod_of_method hmethod] at h
  unfold fetchEntityConfiguration
  cases hbuild : buildEntityConfiguration S ctx run with
  | ok built =>
    rw [hbuild] at h
    rw [performFetch_jwtResponse h, Except.ok.injEq, Except.ok.injEq]
  | error e =>
    rw [hbuild] at h
    exact iff_of_false (performFetch_errorStatus h (by decide : 400 ≤ 500)) (fun hjwt => by cases hjwt)

/-- What the fetch endpoint serves of a subject. -/
structure Attests (S : SigningPlatform) (ctx : StatementContext) (run : StatementRun)
    (subject jwt : String) : Prop where
  valid : isValidEntityId S.toPlatform subject = true
  nonempty : subject ≠ ""
  other : subject ≠ ctx.entityId
  built : ∃ record, run.get subject = .ok (some record) ∧
    buildSubordinateStatement S.toPlatform (claimContext S ctx run) record run.now = .ok jwt

/-- The endpoint serves a statement, or answers with an error. -/
theorem createFetchHandler_cases {subject : String} (hmethod : request.method = "GET")
    (hsub : queryParam request "sub" = some subject) :
    (∃ jwt, Attests S ctx run subject jwt ∧
      createFetchHandler S ctx run request = jwtResponse jwt MediaType.entityStatement) ∨
    ((∀ jwt, ¬ Attests S ctx run subject jwt) ∧
      400 ≤ (createFetchHandler S ctx run request).status) := by
  unfold createFetchHandler
  rw [requireMethod_of_method hmethod, hsub]
  dsimp only [Option.getD_some]
  split
  · rename_i hinvalid
    refine .inr ⟨fun jwt h => ?_, (by decide : 400 ≤ 400)⟩
    simp [h.valid, h.nonempty] at hinvalid
  rename_i hvalid
  obtain ⟨hnonempty, hvalid⟩ : subject ≠ "" ∧ isValidEntityId S.toPlatform subject = true := by
    simpa using hvalid
  split
  · rename_i hown
    exact .inr ⟨fun jwt h => h.other hown, (by decide : 400 ≤ 400)⟩
  rename_i hother
  cases hget : run.get subject with
  | error e =>
    refine .inr ⟨fun jwt h => ?_, (by decide : 400 ≤ 500)⟩
    obtain ⟨record, hrecord, -⟩ := h.built
    cases hget.symm.trans hrecord
  | ok stored =>
    cases stored with
    | none =>
      refine .inr ⟨fun jwt h => ?_, (by decide : 400 ≤ 404)⟩
      obtain ⟨record, hrecord, -⟩ := h.built
      cases hget.symm.trans hrecord
    | some record =>
      dsimp only
      cases hbuild : buildSubordinateStatement S.toPlatform (claimContext S ctx run) record run.now with
      | ok jwt => exact .inl ⟨jwt, ⟨hvalid, hnonempty, hother, record, hget, hbuild⟩, rfl⟩
      | error e =>
        refine .inr ⟨fun jwt h => ?_, (by decide : 400 ≤ 500)⟩
        obtain ⟨record', hrecord, hjwt⟩ := h.built
        obtain rfl := Option.some.inj (Except.ok.inj (hget.symm.trans hrecord))
        cases hbuild.symm.trans hjwt

/-- A client gets the statement that the authority serves of the subject. -/
theorem fetchSubordinateStatement_eq_ok {fetchEndpoint subject : String} {url : Url}
    (hurl : H.parseUrl fetchEndpoint = some url)
    (hreads : ReadsBack H url (setParam (H.urlParams url) "sub" subject))
    (harrives : Arrives H (({ options with } : PerformFetchOptions).request
      (setSearchParam H url "sub" subject).href) request)
    (h : Answered H (setSearchParam H url "sub" subject).href { options with } fetchRun
      (createFetchHandler S ctx run request)) :
    ∃ fetched, fetchSubordinateStatement H fetchEndpoint subject options fetchRun = .ok fetched ∧
      (fetched.2 = .ok jwt ↔ Attests S ctx run subject jwt) := by
  have hsub : queryParam request "sub" = some subject := by
    rw [queryParam, harrives.valuesOf rfl hreads, List.head?_cons]
  refine ⟨_, by rw [fetchSubordinateStatement, hurl], ?_⟩
  rcases @createFetchHandler_cases S ctx run request subject harrives.method hsub with
    ⟨served, hattests, hresponse⟩ | ⟨hnone, hstatus⟩
  · rw [hresponse] at h
    rw [performFetch_jwtResponse h]
    constructor
    · intro hjwt
      exact Except.ok.inj hjwt ▸ hattests
    · intro hjwt
      obtain ⟨record, hrecord, hbuilt⟩ := hattests.built
      obtain ⟨record', hrecord', hbuilt'⟩ := hjwt.built
      obtain rfl := Option.some.inj (Except.ok.inj (hrecord.symm.trans hrecord'))
      rw [Except.ok.inj (hbuilt.symm.trans hbuilt')]
  · exact iff_of_false (performFetch_errorStatus h hstatus) (hnone jwt)

end Received

/-! ## What the authority signs -/

section Signed

variable {S : SigningPlatform} {ctx : StatementContext} {run : StatementRun} {jwt : String}

/-- What an authority states of itself is a statement of its own. -/
theorem buildEntityConfiguration_signed {keySet : FederationKeySet} (hkeys : run.keySet = .ok keySet)
    (hmetadata : MetadataFits S.toPlatform ctx.entityId (some ctx.metadata))
    (hmarks : ∀ marks, ctx.trustMarks = some marks → ∀ ref ∈ marks, MarkFits S.toPlatform ref)
    (h : buildEntityConfiguration S ctx run = .ok jwt) :
    ∃ s : SignedStatement, s.jwt = jwt ∧ s.issuer = ctx.entityId ∧ s.jwks = keySet.jwks ∧
      s.signer = keySet.signer ∧ signEntityStatement S s.payload s.signer = .ok s.jwt ∧
      OwnStatement S.toPlatform s (configurationOptions ctx run keySet.jwks) := by
  unfold buildEntityConfiguration at h
  obtain ⟨-, -, h⟩ := bind_eq_ok.mp h
  rw [hkeys] at h
  obtain ⟨_, hkeySet, h⟩ := bind_eq_ok.mp h
  obtain rfl := Except.ok.inj hkeySet
  obtain ⟨payload, hpayload, hsigned⟩ := bind_eq_ok.mp h
  refine ⟨⟨ctx.entityId, ctx.entityId, payload, keySet.jwks, keySet.signer, jwt⟩, rfl, rfl, rfl, rfl,
    hsigned, hpayload, rfl, rfl, rfl, hmetadata, fun marks hm => ?_⟩
  obtain ⟨hm, -⟩ := Option.filter_eq_some_iff.mp hm
  exact hmarks marks hm

/-- A record of an entity, as its superior has registered it. -/
structure Registered (P : Platform) (understood : List String) (subject : String)
    (jwks : List Payload) (record : ListedRecord) : Prop where
  entityId : record.entityId = subject
  jwks : record.jwks = jwkSetOf jwks
  metadata : MetadataFits P subject (sanitizeSubordinateMetadata record.metadata)
  crit : ∀ crit, record.crit = some crit → ∀ claim ∈ crit, claim ∈ understood

/-- What an authority states of a subordinate is a statement of a superior. -/
theorem buildSubordinateStatement_signed {keySet : FederationKeySet} {understood : List String}
    {subject : String} {jwks : List Payload} {record : ListedRecord} {now : Rat}
    (hkeys : run.keySet = .ok keySet)
    (hrecord : Registered S.toPlatform understood subject jwks record)
    (h : buildSubordinateStatement S.toPlatform (claimContext S ctx run) record now = .ok jwt) :
    ∃ s : SignedStatement, s.jwt = jwt ∧ s.issuer = ctx.entityId ∧ s.subject = subject ∧
      s.jwks = jwks ∧ s.signer = keySet.signer ∧
      signEntityStatement S s.payload s.signer = .ok s.jwt ∧
      ∃ options, SuperiorStatement S.toPlatform understood s options := by
  unfold buildSubordinateStatement at h
  obtain ⟨payload, hpayload, h⟩ := bind_eq_ok.mp h
  dsimp only [claimContext] at h
  rw [hkeys] at h
  obtain ⟨_, hkeySet, hsigned⟩ := bind_eq_ok.mp h
  obtain rfl := Except.ok.inj hkeySet
  refine ⟨⟨ctx.entityId, subject, payload, jwks, keySet.signer, jwt⟩, rfl, rfl, rfl, rfl, rfl, hsigned,
    _, hpayload, rfl, hrecord.entityId.symm, hrecord.jwks, ?_, fun crit hcrit => ?_⟩
  · rw [hrecord.entityId]
    exact hrecord.metadata
  · obtain ⟨hcrit, -⟩ := Option.filter_eq_some_iff.mp hcrit
    exact hrecord.crit crit hcrit

end Signed

/-! ## Keys -/

section Keys

open MemoryFederationKeyProvider

variable {H : ClientHost} {signJwt : JwtSigner → Payload → Payload → Except String String}
  {keySet later : FederationKeySet}

/-- A key set that a provider hands out vouches for the signer of an earlier one, as long as the
provider keeps its key. -/
theorem KeyExchange.vouches (h : KeyExchange H signJwt keySet later) :
    Vouches (H.signing signJwt) later.jwks keySet.signer := by
  obtain ⟨hs, hkeySet, hsigns, hlater, hclient, hkeeps⟩ := h
  obtain ⟨e, he, haccepted, hwith, hpublished⟩ := signer_entry hs hkeySet hsigns hlater
  obtain ⟨selected, -, rfl⟩ := currentKeySet_eq_ok hclient
  exact ⟨⟨_, mem_publishedKeys.mpr ⟨_, e, he, (hpublished _).mp hkeeps, rfl⟩, haccepted, hwith⟩,
    (keyLifecycle_sound (hs.later hlater)).publishedKids _⟩

end Keys

end OidFed
