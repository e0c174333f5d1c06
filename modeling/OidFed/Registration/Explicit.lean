import OidFed.Http
import OidFed.Js.Number
import OidFed.Keys.Provider
import OidFed.Registration.Chains
import OidFed.Registration.Schemas

/-!
# The explicit registration endpoint (`oidc/src/registration/handler.ts`)

`createExplicitRegistrationHandler` reads a request, selects a Trust Chain of the relying party, and
signs what it registers.

* `readRegistrationRequest`: the body, its Entity Configuration and its own keys.
* `selectRegistrationChain`: the chain of the body, of the header, or one that is resolved.
* `registrationMetadata`, `registrationPayload`: what is registered and signed.
-/

namespace OidFed

open Js

/-- How a registration stops: the handler has answered, or the promise is rejected. -/
inductive RegistrationStop where
  | answered (response : Response)
  | thrown (e : JsError)

/-- Answer with an error. -/
def refuseRequest {α : Type} (status : Nat) (code description : String) : Except RegistrationStop α :=
  .error (.answered (errorResponse status code description))

def refuseRequestIf (c : Bool) (status : Nat) (code description : String) : Except RegistrationStop Unit :=
  if c then refuseRequest status code description else .ok ()

/-- Answer with a response, if there is one. -/
def answerWith : Option Response → Except RegistrationStop Unit
  | some response => .error (.answered response)
  | none => .ok ()

/-- Await a promise. -/
def awaited {α : Type} : Except JsError α → Except RegistrationStop α
  | .ok a => .ok a
  | .error e => .error (.thrown e)

structure RegistrationProtocolAdapter where
  /-- The metadata of a request, with what a peer chain says of the OP. -/
  validateClientMetadata : Payload → Option Payload →
    Except JsError (Except FederationError Payload)
  enrichResponseMetadata : Json → ValidatedTrustChain → Option Payload → Except JsError Payload

/-- A call of `onRegistration`. -/
structure Registration where
  sub : String
  clientMetadata : Payload
  clientSecret : Option String

structure ExplicitRegistrationHandlerConfig where
  opEntityId : String
  trustAnchors : TrustAnchorSet
  registrationResponseTtlSeconds : Option Rat := none
  registrationProtocolAdapter : Option RegistrationProtocolAdapter := none
  generateClientSecret : Option (String → Except JsError (Option String)) := none
  onRegistrationInvalidation : Option (String → Except JsError Unit) := none
  onRegistration : Option (Registration → Except JsError Unit) := none
  options : TrustChainValidationOptions := {}

/-- What the handler is told while it runs. -/
structure RegistrationRun where
  /-- The time at which the request is verified. -/
  verifiedAt : Rat
  /-- The chains of the relying party. -/
  resolved : Except JsError ResolvedChains
  /-- The readings of the clock in the validation of a chain of the relying party that was supplied. -/
  chainClock : Clock
  chainResumed : ResumedEvidence := .error .typeError
  /-- The same for the chain of the OP. -/
  peerClock : Clock
  peerResumed : ResumedEvidence := .error .typeError
  keySet : Except JsError FederationKeySet
  now : Rat
  /-- `signEntityStatement` with a signer, of a payload. -/
  signEntityStatement : JwtSigner → Payload → Except JsError String

/-- What a handler has done: its response, and the call of `onRegistration` if it was reached. -/
structure RegistrationOutcome where
  response : Response
  registered : Option Registration := none

/-- A request that has been verified under its own keys. -/
structure RegistrationRequest where
  ecJwt : String
  suppliedBodyTrustChain : Option (List String)
  header : Payload
  /-- The output of the schema for the payload. -/
  sub : String
  jwks : JWKSet
  metadata : Payload

/-! ## The request -/

/-- A `Content-Type` of a media type without parameters. -/
def isExactContentType (value : Option String) (mediaType : String) : Bool :=
  value.any fun v => trim v == mediaType

/-- `value.length > 0`. -/
def hasEntries (P : Platform) : Json → Bool
  | .arr items => !items.isEmpty
  | .str text => text != ""
  | .obj members => (members.lookup "length").any fun n =>
      match n with
      | .num q => decide (0 < q)
      | n => (P.toNumber n).any fun q => decide (0 < q)
  | _ => false

/-- `value[0]`. -/
def firstEntry : Json → Option Json
  | .arr items => items.head?
  | .str text => text.toList.head?.map fun c => .str (String.singleton c)
  | .obj members => members.lookup "0"
  | _ => none

/-- `value[value.length - 1]`. -/
def lastEntry (P : Platform) : Json → Option Json
  | .arr items => items.getLast?
  | .str text => text.toList.getLast?.map fun c => .str (String.singleton c)
  | .obj members => match members.lookup "length" with
    | some (.num q) => members.lookup (P.numberText (q - 1))
    | _ => none
  | _ => none

section Request

variable (H : ClientHost) (config : ExplicitRegistrationHandlerConfig)

/-- The Entity Configuration of a body, and the chain that the body may be. -/
def readRegistrationBody (request : Request) :
    Except RegistrationStop (String × Option (List String)) := do
  answerWith (requireMethod request "POST")
  let contentType := request.headers.get "content-type"
  let isTrustChainBody := isExactContentType contentType "application/trust-chain+json"
  refuseRequestIf (!isExactContentType contentType "application/entity-statement+jwt" && !isTrustChainBody)
    400 "invalid_request"
    ("Content-Type must be exactly application/entity-statement+jwt or " ++
      "application/trust-chain+json")
  match ← awaited (readBodyWithLimit H.toPlatform request defaultMaxRequestBodyBytes) with
  | none => refuseRequest 413 "invalid_request" "Request body too large"
  | some body => do
    refuseRequestIf (body == "") 400 "invalid_request" "Missing request body"
    if isTrustChainBody then
      match parseTrustChainJsonBody H body with
      | .error e => refuseRequest 400 e.code.text e.description
      | .ok chain => return (chain.headD "", some chain)
    else return (body, none)

/-- Decode an entry of a chain in a header. -/
def decodeEntry (entry : Option Json) : Option ParsedEntityStatement :=
  (entry.bind Json.string?).bind fun jwt => (decodeEntityStatement H.toPlatform jwt).toOption

/-- The first entry of a chain in a header is the Entity Configuration of its subject. -/
def checkFirstEntry (value : Json) (label owner subject : String) : Except RegistrationStop Unit :=
  match decodeEntry H (firstEntry value) with
  | none => refuseRequest 400 FederationErrorCode.InvalidTrustChain.text
      s!"Failed to decode first entry of {label} header"
  | some first =>
    refuseRequestIf (first.payload.get? "iss" != some (.str subject) ||
        first.payload.get? "sub" != some (.str subject))
      400 FederationErrorCode.InvalidTrustChain.text
      s!"First entry of {label} header MUST be the {owner}'s Entity Configuration"

/-- The chains of two headers end at one anchor. -/
def checkSameAnchor (rpHeader peerHeader : Json) : Except RegistrationStop Unit :=
  match decodeEntry H (lastEntry H.toPlatform rpHeader),
    decodeEntry H (lastEntry H.toPlatform peerHeader) with
  | some rpLast, some peerLast =>
    let rpHeaderTaId := rpLast.payload.get? "iss"
    let peerHeaderTaId := peerLast.payload.get? "iss"
    if Json.strictEq rpHeaderTaId peerHeaderTaId then .ok ()
    else
      match H.text peerHeaderTaId, H.text rpHeaderTaId with
      | some peerText, some rpText => refuseRequest 400 FederationErrorCode.InvalidTrustChain.text
          (s!"peer_trust_chain Trust Anchor ('{peerText}') does not match trust_chain Trust Anchor " ++
            s!"('{rpText}')")
      | _, _ => .error (.thrown .typeError)
  | _, _ => refuseRequest 400 FederationErrorCode.InvalidTrustChain.text
      "Failed to decode last entry of trust_chain or peer_trust_chain header"

/-- A value of a header that is truthy and has entries. -/
def chainHeader (header : Payload) (name : String) : Option Json :=
  (header.get? name).filter fun v => hasEntries H.toPlatform v

/-- A check of a header, where the header is there. -/
def checkHeader (value : Option Json) (check : Json → Except RegistrationStop Unit) :
    Except RegistrationStop Unit :=
  match value with
  | none => .ok ()
  | some v => check v

/-- The checks of the chains in the headers, before any of them is validated. -/
def checkTrustChainHeaders (isTrustChainBody : Bool) (header : Payload) (sub : String) :
    Except RegistrationStop Unit := do
  let trustChainHeader := chainHeader H header "trust_chain"
  checkHeader trustChainHeader fun value => checkFirstEntry H value "trust_chain" "subject" sub
  refuseRequestIf (isTrustChainBody && (header.get? "peer_trust_chain").isSome) 400
    "invalid_request" "peer_trust_chain MUST NOT be used when the request body is a Trust Chain"
  checkHeader (chainHeader H header "peer_trust_chain") fun peer => do
    checkFirstEntry H peer "peer_trust_chain" "OP" config.opEntityId
    checkHeader trustChainHeader fun value => checkSameAnchor H value peer

/-- Read a request, and verify it under its own keys. -/
def readRegistrationRequest (request : Request) (verifiedAt : Rat) :
    Except RegistrationStop RegistrationRequest := do
  let (ecJwt, suppliedBodyTrustChain) ← readRegistrationBody H request
  match decodeEntityStatement H.toPlatform ecJwt with
  | .error _ => refuseRequest 400 "invalid_request" "Failed to decode request JWT"
  | .ok decoded => do
    let payload : Json := .obj decoded.payload.members
    refuseRequestIf (decoded.header.get? "typ" != some (.str JwtTyp.entityStatement)) 400 "invalid_request"
      s!"Invalid typ header: expected '{JwtTyp.entityStatement}'"
    refuseRequestIf (!explicitRegistrationRequestPayloadSchema H.toPlatform payload) 400 "invalid_request"
      "Invalid registration request payload"
    let sub := (urlOutput H.toPlatform (payload.get? "sub")).getD ""
    let jwks := ((payload.get? "jwks").map jwksOf).getD []
    let metadata := membersOf
      (((payload.get? "metadata").map (requestMetadataOutput H.toPlatform)).getD (.obj []))
    refuseRequestIf (!(metadata.get? "openid_relying_party").any
        (openIDRelyingPartyMetadataSchema H.toPlatform))
      400 FederationErrorCode.InvalidMetadata.text
      "RP metadata does not comply with the OpenID Connect Relying Party metadata schema"
    refuseRequestIf (payload.get? "aud" != some (.str config.opEntityId)) 400 "invalid_request"
      "aud MUST match the OP's Entity ID"
    match verifyEntityStatement H.toPlatform ecJwt jwks config.options.clockSkew verifiedAt with
    | .error _ => refuseRequest 400 "invalid_request" "Request JWT self-signature verification failed"
    | .ok _ => do
      refuseRequestIf (some sub != urlOutput H.toPlatform (payload.get? "iss")) 400 "invalid_request"
        "RP Entity Configuration iss MUST equal sub"
      checkTrustChainHeaders H config suppliedBodyTrustChain.isSome decoded.header sub
      return { ecJwt, suppliedBodyTrustChain, header := decoded.header, sub, jwks, metadata }

end Request

/-! ## The chain -/

section Select

variable (H : ClientHost) (config : ExplicitRegistrationHandlerConfig)
  (trustAnchors : TrustAnchorSet) (run : RegistrationRun) (req : RegistrationRequest)

/-- The value of a `Result`, or an answer with its error. -/
def valueOr {α : Type} (status : Nat) : Except FederationError α → Except RegistrationStop α
  | .ok a => .ok a
  | .error e => refuseRequest status e.code.text e.description

/-- The chain of the relying party: that of the body, that of the header, or one that is resolved. -/
def selectRegistrationChain : Except RegistrationStop ValidatedTrustChain :=
  match req.suppliedBodyTrustChain, req.header.get? "trust_chain" with
  | some chain, _ => do
    let validation ← awaited (validateSuppliedTrustChain H.toPlatform trustAnchors config.options
      (some (.arr (chain.map .str))) req.sub "trust-chain+json" (some config.opEntityId)
      run.chainClock run.chainResumed)
    valueOr 400 validation
  | none, some value => do
    let validation ← awaited (validateSuppliedTrustChain H.toPlatform trustAnchors config.options
      (some value) req.sub "trust_chain" (some config.opEntityId) run.chainClock run.chainResumed)
    valueOr 400 validation
  | none, none => do
    let resolved ← awaited run.resolved
    let chainResult ← awaited (resolveAndValidateBestChain H.toPlatform trustAnchors config.options
      resolved)
    valueOr 403 chainResult

/-- What the chain of a peer says of the OP, where there is one; it ends at the same anchor. -/
def peerResolvedOpMetadata (bestChain : ValidatedTrustChain) :
    Except RegistrationStop (Option Payload) :=
  match chainHeader H req.header "peer_trust_chain" with
  | none => .ok none
  | some peer => do
    let validation ← awaited (validateSuppliedTrustChain H.toPlatform trustAnchors config.options
      (some peer) config.opEntityId "peer_trust_chain" none run.peerClock run.peerResumed)
    match validation with
    | .error e => refuseRequest 400 FederationErrorCode.InvalidTrustChain.text e.description
    | .ok chain => do
      refuseRequestIf (chain.trustAnchorId != bestChain.trustAnchorId) 400
        FederationErrorCode.InvalidTrustChain.text
        (s!"peer_trust_chain Trust Anchor ('{chain.trustAnchorId}') does not match selected RP Trust " ++
          s!"Anchor ('{bestChain.trustAnchorId}')")
      return some ((chain.resolvedMetadata.get? "openid_provider").getD .empty)

end Select

/-! ## The metadata -/

/-- OIDC default values applied when the RP omits standard fields. -/
def oidcMetadataDefaults : List (String × Json) :=
  [("response_types", .arr [.str "code"]), ("grant_types", .arr [.str "authorization_code"]),
    ("token_endpoint_auth_method", .str "client_secret_basic")]

def registrationManagementMetadataFields : List String :=
  ["registration_access_token", "registration_client_uri"]

/-- Set what a client leaves out. -/
def withDefaults (rpMeta : Payload) : Payload :=
  oidcMetadataDefaults.foldl (fun m d => if (m.get? d.1).isSome then m else m.set d.1 d.2) rpMeta

def withClientId (sub : String) (rpMeta : Payload) : Payload :=
  if Json.truthy? (rpMeta.get? "client_id") then rpMeta else rpMeta.set "client_id" (.str sub)

def withSecret (secret : Option String) (rpMeta : Payload) : Payload :=
  match secret with
  | none => rpMeta
  | some secret => rpMeta.set "client_secret" (.str secret)

def stripRegistrationManagementFields (rpMeta : Payload) : Payload :=
  registrationManagementMetadataFields.foldl Dict.erase rpMeta

section Metadata

variable (H : ClientHost) (config : ExplicitRegistrationHandlerConfig)
  (run : RegistrationRun) (req : RegistrationRequest) (bestChain : ValidatedTrustChain)

/-- The metadata of the request, as the adapter validates it. -/
def validatedClientMetadata (adapterContext : Option Payload) : Except RegistrationStop Payload :=
  match config.registrationProtocolAdapter with
  | none => .ok req.metadata
  | some adapter => do
    let validation ← awaited (adapter.validateClientMetadata req.metadata adapterContext)
    valueOr 400 validation

/-- The metadata of the client, before the handler adds anything to it. -/
def enrichedClientMetadata (metadata : Payload) (adapterContext : Option Payload) :
    Except RegistrationStop Payload :=
  let source := ((metadata.get? "openid_relying_party").filter (· != .null)).getD (.obj [])
  match config.registrationProtocolAdapter with
  | none => .ok (membersOf source)
  | some adapter => awaited (adapter.enrichResponseMetadata source bestChain adapterContext)

/-- The secret of the client, where one is generated. -/
def generatedSecret : Except RegistrationStop (Option String) :=
  match config.generateClientSecret with
  | none => .ok none
  | some generate => do
    let secret ← awaited (generate req.sub)
    return secret.filter fun s => s != ""

/-- The metadata of the client that is registered. -/
def registeredClientMetadata (enriched : Payload) (secret : Option String) : Payload :=
  stripRegistrationManagementFields (withSecret secret (withDefaults (withClientId req.sub enriched)))

/-- The expiration of a response, capped to that of the chain. -/
def registrationExp : Rat :=
  let registrationExp := run.now + config.registrationResponseTtlSeconds.getD 86400
  if bestChain.expiresAt < registrationExp then bestChain.expiresAt else registrationExp

/-- The issuer of the second statement. -/
def rpImmediateSuperior : Option Json :=
  (bestChain.statements[1]?).bind fun s => s.payload.get? "iss"

/-- What is signed. -/
def registrationPayload (metadata rpMeta : Payload) : Payload :=
  let superior := rpImmediateSuperior bestChain
  Dict.ofEntries
    [("iss", .str config.opEntityId), ("sub", .str req.sub), ("aud", .str req.sub),
      ("iat", .num run.now), ("exp", .num (registrationExp config run bestChain)),
      ("trust_anchor", .str bestChain.trustAnchorId),
      ("authority_hints", .arr [if Json.truthy? superior then superior.getD .null
        else .str bestChain.trustAnchorId]),
      ("metadata", .obj (metadata.set "openid_relying_party" (.obj rpMeta.members)).members)]

/-- Run a hook of the application. -/
def runHook {α : Type} (hook : Option (α → Except JsError Unit)) (value : α) : Bool :=
  match hook with
  | none => true
  | some f => match f value with
    | .ok _ => true
    | .error _ => false

def hookFailed : Response :=
  errorResponse 500 FederationErrorCode.ServerError.text "Registration hook failed"

/-- The call of `onRegistration` with the metadata of a client. -/
def registrationOf (rpMeta : Payload) : Registration where
  sub := req.sub
  clientMetadata := rpMeta
  clientSecret := (rpMeta.get? "client_secret").bind Json.string?

/-- Sign a registration, and hand it over. -/
def completeRegistration (keySet : FederationKeySet) (metadata rpMeta : Payload) :
    Except RegistrationStop RegistrationOutcome := do
  let payload := registrationPayload config run req bestChain metadata rpMeta
  refuseRequestIf (!explicitRegistrationResponsePayloadSchema H.toPlatform (.obj payload.members)) 500
    FederationErrorCode.ServerError.text "Registration response metadata preparation failed"
  let responseJwt ← awaited (run.signEntityStatement keySet.signer payload)
  let registration := registrationOf req rpMeta
  let response := jwtResponse responseJwt "application/explicit-registration-response+jwt"
  if !runHook config.onRegistrationInvalidation req.sub then return { response := hookFailed }
  else
    match config.onRegistration with
    | none => return { response }
    | some _ =>
      return { registered := some registration
               response := if runHook config.onRegistration registration then response
                 else hookFailed }

end Metadata

/-! ## The handler -/

section Handler

variable (H : ClientHost) (config : ExplicitRegistrationHandlerConfig)

/-- The steps of the handler. -/
def handleRegistration (trustAnchors : TrustAnchorSet) (request : Request) (run : RegistrationRun) :
    Except RegistrationStop RegistrationOutcome := do
  let req ← readRegistrationRequest H config request run.verifiedAt
  let bestChain ← selectRegistrationChain H config trustAnchors run req
  let adapterContext ← peerResolvedOpMetadata H config trustAnchors run req bestChain
  let metadata ← validatedClientMetadata config req adapterContext
  let keySet ← awaited run.keySet
  let enriched ← enrichedClientMetadata config bestChain metadata adapterContext
  let secret ← generatedSecret config req
  completeRegistration H config run req bestChain keySet metadata
    (registeredClientMetadata req enriched secret)

/-- Build the handler of the registration endpoint of an OP; it throws where the Trust Anchors cannot be
used. -/
def createExplicitRegistrationHandler :
    Except FederationError (Request → RegistrationRun → Except JsError RegistrationOutcome) :=
  (requireNonEmptyTrustAnchors H.toPlatform config.trustAnchors).map fun trustAnchors request run =>
    match handleRegistration H config trustAnchors request run with
    | .ok outcome => .ok outcome
    | .error (.answered response) => .ok { response }
    | .error (.thrown e) => .error e

end Handler

/-! ## When the handler registers -/

@[simp] theorem refuseRequestIf_eq_ok {c : Bool} {status : Nat} {code description : String}
    {u : Unit} : refuseRequestIf c status code description = .ok u ↔ c = false := by
  cases c <;> simp [refuseRequestIf, refuseRequest]

@[simp] theorem awaited_eq_ok {α : Type} {x : Except JsError α} {a : α} :
    awaited x = .ok a ↔ x = .ok a := by
  cases x <;> simp [awaited]

@[simp] theorem valueOr_eq_ok {α : Type} {status : Nat} {x : Except FederationError α} {a : α} :
    valueOr status x = .ok a ↔ x = .ok a := by
  cases x <;> simp [valueOr, refuseRequest]

/-- Every answer that ends a computation early is an error. -/
def Refuses {α : Type} (x : Except RegistrationStop α) : Prop :=
  ∀ response, x = .error (.answered response) → 400 ≤ response.status

section Refuses

variable {α β : Type}

theorem Refuses.ok (a : α) : Refuses (.ok a) := nofun

theorem Refuses.bind {x : Except RegistrationStop α} {f : α → Except RegistrationStop β}
    (hx : Refuses x) (hf : ∀ a, Refuses (f a)) : Refuses (x >>= f) := by
  intro response h
  cases x with
  | error stop =>
    obtain rfl := Except.error.inj h
    exact hx response rfl
  | ok a => exact hf a response h

theorem Refuses.refuseRequest {status : Nat} (h : 400 ≤ status) (code description : String) :
    Refuses (refuseRequest status code description : Except RegistrationStop α) := by
  intro response heq
  obtain rfl := RegistrationStop.answered.inj (Except.error.inj heq)
  exact h

theorem Refuses.refuseRequestIf {status : Nat} (h : 400 ≤ status) (c : Bool)
    (code description : String) : Refuses (refuseRequestIf c status code description) := by
  cases c with
  | false => exact .ok ()
  | true => exact .refuseRequest h code description

theorem Refuses.awaited (x : Except JsError α) : Refuses (awaited x) := by
  intro response h
  cases x <;> simp [OidFed.awaited] at h

theorem Refuses.valueOr {status : Nat} (h : 400 ≤ status) (x : Except FederationError α) :
    Refuses (valueOr status x) := by
  cases x with
  | ok a => exact .ok a
  | error e => exact .refuseRequest h _ _

end Refuses

section Register

variable {H : ClientHost} {config : ExplicitRegistrationHandlerConfig}
  {trustAnchors : TrustAnchorSet} {request : Request} {run : RegistrationRun}
  {req : RegistrationRequest} {bestChain : ValidatedTrustChain}

theorem requireMethod_status {method : String} {response : Response}
    (h : requireMethod request method = some response) : response.status = 405 := by
  unfold requireMethod requireMethods at h
  split at h
  · cases h
  · exact congrArg Response.status (Option.some.inj h).symm

theorem Refuses.checkHeader {value : Option Json} {check : Json → Except RegistrationStop Unit}
    (h : ∀ v, Refuses (check v)) : Refuses (checkHeader value check) := by
  cases value with
  | none => exact .ok ()
  | some v => exact h v

theorem readRegistrationBody_refuses : Refuses (readRegistrationBody H request) := by
  refine .bind (fun response h => ?_) fun _ => .bind (.refuseRequestIf (by decide) _ _ _) fun _ =>
    .bind (.awaited _) fun body => ?_
  · cases hmethod : requireMethod request "POST" with
    | none =>
      rw [hmethod] at h
      cases h
    | some r =>
      rw [hmethod] at h
      obtain rfl := RegistrationStop.answered.inj (Except.error.inj h)
      rw [requireMethod_status hmethod]
      decide
  · cases body with
    | none => exact .refuseRequest (by decide) _ _
    | some text =>
      refine .bind (.refuseRequestIf (by decide) _ _ _) fun _ => ?_
      split
      · split
        · exact .refuseRequest (by decide) _ _
        · exact .ok _
      · exact .ok _

theorem checkFirstEntry_refuses {value : Json} {label owner subject : String} :
    Refuses (checkFirstEntry H value label owner subject) := by
  unfold checkFirstEntry
  split
  · exact .refuseRequest (by decide) _ _
  · exact .refuseRequestIf (by decide) _ _ _

theorem checkSameAnchor_refuses {rpHeader peerHeader : Json} :
    Refuses (checkSameAnchor H rpHeader peerHeader) := by
  unfold checkSameAnchor
  split
  · simp only
    split
    · exact .ok ()
    · split
      · exact .refuseRequest (by decide) _ _
      · nofun
  · exact .refuseRequest (by decide) _ _

theorem checkTrustChainHeaders_refuses {isTrustChainBody : Bool} {header : Payload} {sub : String} :
    Refuses (checkTrustChainHeaders H config isTrustChainBody header sub) :=
  .bind (.checkHeader fun _ => checkFirstEntry_refuses) fun _ =>
    .bind (.refuseRequestIf (by decide) _ _ _) fun _ => .checkHeader fun _ =>
      .bind checkFirstEntry_refuses fun _ => .checkHeader fun _ => checkSameAnchor_refuses

theorem readRegistrationRequest_refuses {verifiedAt : Rat} :
    Refuses (readRegistrationRequest H config request verifiedAt) := by
  refine .bind readRegistrationBody_refuses fun body => ?_
  simp only
  split
  · exact .refuseRequest (by decide) _ _
  · refine .bind (.refuseRequestIf (by decide) _ _ _) fun _ =>
      .bind (.refuseRequestIf (by decide) _ _ _) fun _ =>
      .bind (.refuseRequestIf (by decide) _ _ _) fun _ =>
      .bind (.refuseRequestIf (by decide) _ _ _) fun _ => ?_
    split
    · exact .refuseRequest (by decide) _ _
    · exact .bind (.refuseRequestIf (by decide) _ _ _) fun _ =>
        .bind checkTrustChainHeaders_refuses fun _ => .ok _

theorem selectRegistrationChain_refuses :
    Refuses (selectRegistrationChain H config trustAnchors run req) := by
  unfold selectRegistrationChain
  split
  · exact .bind (.awaited _) fun _ => .valueOr (by decide) _
  · exact .bind (.awaited _) fun _ => .valueOr (by decide) _
  · exact .bind (.awaited _) fun _ => .bind (.awaited _) fun _ => .valueOr (by decide) _

theorem peerResolvedOpMetadata_refuses :
    Refuses (peerResolvedOpMetadata H config trustAnchors run req bestChain) := by
  unfold peerResolvedOpMetadata
  split
  · exact .ok none
  · refine .bind (.awaited _) fun validation => ?_
    split
    · exact .refuseRequest (by decide) _ _
    · exact .bind (.refuseRequestIf (by decide) _ _ _) fun _ => .ok _

/-- A registration is prepared: the request is read, a chain selected, and a payload signed. -/
structure Registers (H : ClientHost) (config : ExplicitRegistrationHandlerConfig)
    (trustAnchors : TrustAnchorSet) (request : Request) (run : RegistrationRun)
    (req : RegistrationRequest) (bestChain : ValidatedTrustChain) (metadata rpMeta : Payload)
    (responseJwt : String) : Prop where
  read : readRegistrationRequest H config request run.verifiedAt = .ok req
  chain : selectRegistrationChain H config trustAnchors run req = .ok bestChain
  prepared : ∃ adapterContext enriched secret,
    validatedClientMetadata config req adapterContext = .ok metadata ∧
    enrichedClientMetadata config bestChain metadata adapterContext = .ok enriched ∧
    rpMeta = registeredClientMetadata req enriched secret
  schema : explicitRegistrationResponsePayloadSchema H.toPlatform
    (.obj (registrationPayload config run req bestChain metadata rpMeta).members) = true
  signed : ∃ keySet, run.keySet = .ok keySet ∧ run.signEntityStatement keySet.signer
    (registrationPayload config run req bestChain metadata rpMeta) = .ok responseJwt

/-- What a handler has done that has prepared a registration. -/
structure Completes (req : RegistrationRequest) (rpMeta : Payload) (responseJwt : String)
    (outcome : RegistrationOutcome) : Prop where
  response : outcome.response = hookFailed ∨ outcome.response =
    jwtResponse responseJwt "application/explicit-registration-response+jwt"
  registered : ∀ registration, outcome.registered = some registration →
    registration = registrationOf req rpMeta

theorem completeRegistration_eq_ok {keySet : FederationKeySet} {metadata rpMeta : Payload}
    {outcome : RegistrationOutcome}
    (h : completeRegistration H config run req bestChain keySet metadata rpMeta = .ok outcome) :
    ∃ responseJwt,
      explicitRegistrationResponsePayloadSchema H.toPlatform
        (.obj (registrationPayload config run req bestChain metadata rpMeta).members) = true ∧
      run.signEntityStatement keySet.signer
        (registrationPayload config run req bestChain metadata rpMeta) = .ok responseJwt ∧
      Completes req rpMeta responseJwt outcome := by
  obtain ⟨⟨⟩, hschema, h⟩ := bind_eq_ok.mp h
  obtain ⟨responseJwt, hsigned, h⟩ := bind_eq_ok.mp h
  refine ⟨responseJwt, by simpa using hschema, awaited_eq_ok.mp hsigned, ?_⟩
  split at h
  · obtain rfl := Except.ok.inj h
    exact ⟨.inl rfl, nofun⟩
  · split at h
    · obtain rfl := Except.ok.inj h
      exact ⟨.inr rfl, nofun⟩
    · obtain rfl := Except.ok.inj h
      refine ⟨?_, fun registration hr => (Option.some.inj hr).symm⟩
      simp only
      split
      · exact .inr rfl
      · exact .inl rfl

/-- A handler that has not stopped early has prepared a registration. -/
theorem handleRegistration_eq_ok {outcome : RegistrationOutcome}
    (h : handleRegistration H config trustAnchors request run = .ok outcome) :
    ∃ req bestChain metadata rpMeta responseJwt,
      Registers H config trustAnchors request run req bestChain metadata rpMeta responseJwt ∧
        Completes req rpMeta responseJwt outcome := by
  obtain ⟨req, hread, h⟩ := bind_eq_ok.mp h
  obtain ⟨bestChain, hchain, h⟩ := bind_eq_ok.mp h
  obtain ⟨adapterContext, -, h⟩ := bind_eq_ok.mp h
  obtain ⟨metadata, hmetadata, h⟩ := bind_eq_ok.mp h
  obtain ⟨keySet, hkeys, h⟩ := bind_eq_ok.mp h
  obtain ⟨enriched, henriched, h⟩ := bind_eq_ok.mp h
  obtain ⟨secret, -, h⟩ := bind_eq_ok.mp h
  obtain ⟨responseJwt, hschema, hsigned, hcompletes⟩ := completeRegistration_eq_ok h
  exact ⟨req, bestChain, metadata, _, responseJwt,
    ⟨hread, hchain, ⟨adapterContext, enriched, secret, hmetadata, henriched, rfl⟩, hschema,
      keySet, awaited_eq_ok.mp hkeys, hsigned⟩, hcompletes⟩

theorem handleRegistration_refuses :
    Refuses (handleRegistration H config trustAnchors request run) := by
  refine .bind readRegistrationRequest_refuses fun req => .bind selectRegistrationChain_refuses
    fun bestChain => .bind peerResolvedOpMetadata_refuses fun ctx => .bind ?_ fun metadata =>
    .bind (.awaited _) fun keySet => .bind ?_ fun enriched => .bind ?_ fun secret => ?_
  · unfold validatedClientMetadata
    split
    · exact .ok _
    · exact .bind (.awaited _) fun _ => .valueOr (by decide) _
  · unfold enrichedClientMetadata
    simp only
    split
    · exact .ok _
    · exact .awaited _
  · unfold generatedSecret
    split
    · exact .ok none
    · exact .bind (.awaited _) fun _ => .ok _
  · refine .bind (.refuseRequestIf (by decide) _ _ _) fun _ => .bind (.awaited _) fun _ => ?_
    split
    · exact .ok _
    · split <;> exact .ok _

/-- A handler that answers 200, or that reaches `onRegistration`, has prepared a registration. -/
theorem createExplicitRegistrationHandler_registers
    {handler : Request → RegistrationRun → Except JsError RegistrationOutcome}
    (hhandler : createExplicitRegistrationHandler H config = .ok handler)
    {outcome : RegistrationOutcome} (h : handler request run = .ok outcome)
    (haccepts : outcome.response.status = 200 ∨ outcome.registered.isSome = true) :
    ∃ trustAnchors, requireNonEmptyTrustAnchors H.toPlatform config.trustAnchors =
        .ok trustAnchors ∧
      ∃ req bestChain metadata rpMeta responseJwt,
        Registers H config trustAnchors request run req bestChain metadata rpMeta responseJwt ∧
          Completes req rpMeta responseJwt outcome := by
  unfold createExplicitRegistrationHandler at hhandler
  cases hanchors : requireNonEmptyTrustAnchors H.toPlatform config.trustAnchors with
  | error e =>
    rw [hanchors] at hhandler
    cases hhandler
  | ok trustAnchors =>
    rw [hanchors] at hhandler
    obtain rfl := Except.ok.inj hhandler
    refine ⟨trustAnchors, rfl, ?_⟩
    cases hrun : handleRegistration H config trustAnchors request run with
    | ok outcome' =>
      simp only [hrun] at h
      obtain rfl := Except.ok.inj h
      exact handleRegistration_eq_ok hrun
    | error stop =>
      cases stop with
      | thrown e => simp [hrun] at h
      | answered response =>
        simp only [hrun] at h
        obtain rfl := Except.ok.inj h
        have hstatus := handleRegistration_refuses response hrun
        rcases haccepts with h200 | hnone
        · simp only at h200
          omega
        · cases hnone

end Register

end OidFed
