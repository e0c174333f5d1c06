import OidFed.Chain.Staged
import OidFed.Registration.Explicit
import OidFed.Replay.Store

/-!
# Automatic registration (`oidc/src/registration/process-automatic.ts`, `validate-request-object.ts`)

An OP accepts a Request Object of a relying party whose chain is valid, and claims its identifier at the
replay store until the Request Object expires. It accepts a Request Object for some seconds after that,
the tolerance for the clock.

* `validateAutomaticRegistrationRequest`, `processAutomaticRegistration`: the claims of a Request
  Object, and the whole of a call, cut at its use of the store.
* `acceptedOnce_of_presentedBeforeExpiry`: over calls that share a store, a Request Object is accepted
  at most once if it is not presented again after its expiry; `requestObject_accepted_twice`.
-/

namespace OidFed

open Js

def requestObjectTyp : String := "oauth-authz-req+jwt"

structure ValidatedRequestObject where
  rpEntityId : String
  exp : Json
  jti : Json
  trustChainHeader : Option Json
  peerTrustChainHeader : Option Json
  deriving DecidableEq

structure ProcessedRegistration where
  rpEntityId : String
  resolvedRpMetadata : Payload
  trustChain : ValidatedTrustChain
  peerResolvedOpMetadata : Option Payload

structure ProcessAutomaticRegistrationOptions where
  /-- The OP's own Entity Identifier. -/
  opEntityId : String
  validation : TrustChainValidationOptions := {}
  fetch : FetchOptions := {}

/-- The options as they reach the resolution of keys, where nothing allows to fall back. -/
def ProcessAutomaticRegistrationOptions.entityKeys (options : ProcessAutomaticRegistrationOptions) :
    ResolveEntityKeysOptions :=
  { options.fetch with clockSkewSeconds := options.validation.clockSkewSeconds }

/-- A call, with what it gets from the network and the clock while it runs. -/
structure AutomaticCall where
  requestObjectJwt : String
  trustAnchors : TrustAnchorSet
  options : ProcessAutomaticRegistrationOptions
  /-- When the claims are checked. -/
  now : Rat
  resolved : Except JsError ResolvedChains
  chainClock : Clock
  chainResumed : ResumedEvidence := .error .typeError
  keys : EntityKeysRun
  verifiedAt : Rat
  peerClock : Clock
  peerResumed : ResumedEvidence := .error .typeError
  /-- When the store is asked. -/
  storeAt : Rat

/-- An error with a code of the federation, whose description may convert values. -/
def refuseWith {α : Type} (code : FederationErrorCode) (description : Option String) :
    Except Stop α :=
  match description with
  | some description => .error (.fail (federationError code description))
  | none => .error .throws

def refuseIf (c : Bool) (code : FederationErrorCode) (description : Option String) :
    Except Stop Unit :=
  if c then refuseWith code description else .ok ()

/-- The result of a helper that may throw. -/
def settle {α : Type} : Except JsError (Except FederationError α) → Except Stop α
  | .error _ => .error .throws
  | .ok (.error e) => .error (.fail e)
  | .ok (.ok a) => .ok a

section Validate

variable (H : ClientHost) (opEntityId : String)

/-- `now - clockSkew >= exp`. A value that is no number is converted, and compares to none as `NaN`. -/
def requestObjectExpired (now clockSkew : Rat) (exp : Json) : Bool :=
  match exp with
  | .num q => decide (q ≤ now - clockSkew)
  | v => (H.toNumber v).any fun q => decide (q ≤ now - clockSkew)

/-- The subject and the issuer of the first entry of a chain in a header are an entity. -/
def checkFirstStatement (value : Option Json) (label owner subject : String) : Except Stop Unit :=
  match value with
  | none => .ok ()
  | some value =>
    match decodeEntry H (firstEntry value) with
    | none => refuseWith .InvalidTrustChain (some s!"Failed to decode first entry of {label} header")
    | some first =>
      refuseIf (first.payload.get? "iss" != some (.str subject) ||
          first.payload.get? "sub" != some (.str subject)) .InvalidTrustChain
        (some s!"First entry of {label} header MUST be the {owner}'s Entity Configuration")

/-- The chains of two headers, where both are there, end at one anchor. -/
def checkSharedAnchor (rpHeader peerHeader : Option Json) : Except Stop Unit :=
  match rpHeader, peerHeader with
  | some rpHeader, some peerHeader =>
    match decodeEntry H (lastEntry H.toPlatform rpHeader),
      decodeEntry H (lastEntry H.toPlatform peerHeader) with
    | some rpLast, some peerLast =>
      let rpTaId := rpLast.payload.get? "iss"
      let peerTaId := peerLast.payload.get? "iss"
      refuseIf (!Json.strictEq rpTaId peerTaId) .InvalidTrustChain (do
        let peerText ← H.text peerTaId
        let rpText ← H.text rpTaId
        return s!"peer_trust_chain Trust Anchor ('{peerText}') does not match trust_chain Trust Anchor " ++
          s!"('{rpText}')")
    | _, _ => refuseWith .InvalidTrustChain
        (some "Failed to decode last entry of trust_chain or peer_trust_chain header")
  | _, _ => .ok ()

/-- The claims of a Request Object that name its parties. An array for a `client_id` is refused here; in
the source the comparison with `iss` refuses it. -/
def requestObjectClient (claims : Payload) : Except Stop String := do
  refuseIf (claims.get? "sub").isSome .InvalidRequest
    (some "Request Object MUST NOT contain 'sub' claim")
  match claims.get? "client_id" with
  | some (.str clientId) =>
    refuseIf (clientId == "") .InvalidRequest
      (some "Request Object missing required 'client_id' claim")
    refuseIf (!isValidEntityId H.toPlatform clientId) .InvalidRequest
      (some "Request Object 'client_id' MUST be an Entity Identifier")
    refuseIf (claims.get? "iss" != some (.str clientId)) .InvalidRequest
      ((H.text (claims.get? "iss")).map fun iss =>
        s!"Request Object 'iss' ('{iss}') MUST equal 'client_id' ('{clientId}')")
    let aud := claims.get? "aud"
    refuseIf (aud.any Json.isArray) .InvalidRequest
      (some "Request Object 'aud' MUST be a single string, not an array")
    refuseIf (aud != some (.str opEntityId)) .InvalidRequest
      ((H.text aud).map fun aud =>
        s!"Request Object 'aud' ('{aud}') does not match OP Entity Identifier ('{opEntityId}')")
    return clientId
  | clientId =>
    if Json.truthy? clientId then
      refuseWith .InvalidRequest (some "Request Object 'client_id' MUST be an Entity Identifier")
    else refuseWith .InvalidRequest (some "Request Object missing required 'client_id' claim")

/-- The expiry and the identifier of a Request Object. -/
def requestObjectOnce (claims : Payload) (now clockSkew : Rat) : Except Stop (Json × Json) :=
  match claims.get? "exp" with
  | none => refuseWith .InvalidRequest (some "Request Object missing required 'exp' claim")
  | some exp => do
    refuseIf (requestObjectExpired H now clockSkew exp) .InvalidRequest
      (some "Request Object has expired")
    match claims.get? "jti" with
    | none => refuseWith .InvalidRequest (some "Request Object missing required 'jti' claim")
    | some jti => do
      refuseIf (!jti.truthy) .InvalidRequest (some "Request Object missing required 'jti' claim")
      refuseIf (claims.get? "registration").isSome .InvalidRequest
        (some "Request Object MUST NOT contain 'registration' claim")
      return (exp, jti)

/-- Check a Request Object without its signature. -/
def validateAutomaticRegistrationRequest (requestObjectJwt : String) (now clockSkew : Rat) :
    Except Stop ValidatedRequestObject :=
  match decodeEntityStatement H.toPlatform requestObjectJwt with
  | .error e => refuseWith .InvalidRequest
      (some s!"Failed to decode Request Object: {e.description}")
  | .ok decoded => do
    let typ := decoded.header.get? "typ"
    refuseIf (typ != some (.str requestObjectTyp)) .InvalidRequest ((H.text typ).map fun typ =>
      s!"Invalid typ header: expected '{requestObjectTyp}', got '{typ}'")
    let clientId ← requestObjectClient H opEntityId decoded.payload
    let (exp, jti) ← requestObjectOnce H decoded.payload now clockSkew
    let rpChain := chainHeader H decoded.header "trust_chain"
    let peerChain := chainHeader H decoded.header "peer_trust_chain"
    checkFirstStatement H rpChain "trust_chain" "subject" clientId
    checkFirstStatement H peerChain "peer_trust_chain" "OP" opEntityId
    checkSharedAnchor H rpChain peerChain
    return { rpEntityId := clientId
             exp, jti
             trustChainHeader := (decoded.header.get? "trust_chain").filter Json.truthy
             peerTrustChainHeader := peerChain }

end Validate

section Process

variable (H : ClientHost) (call : AutomaticCall) (trustAnchors : TrustAnchorSet)

/-- The chain of the relying party: the one of the header, or the shortest valid one. -/
def automaticChain (validated : ValidatedRequestObject) : Except Stop ValidatedTrustChain :=
  match validated.trustChainHeader with
  | some header => settle (validateSuppliedTrustChain H.toPlatform trustAnchors
      call.options.validation (some header) validated.rpEntityId "trust_chain" none call.chainClock
      call.chainResumed)
  | none => do
    let resolved ← call.resolved.mapError fun _ => Stop.throws
    settle (resolveAndValidateBestChain H.toPlatform trustAnchors call.options.validation resolved)

/-- The Request Object verifies under the protocol keys of the relying party. -/
def verifyRequestSignature (bestChain : ValidatedTrustChain) (rpMetadata : Payload) :
    Except Stop Unit := do
  let federationJwks := ((((bestChain.statements[0]?).bind fun s =>
    s.payload.get? "jwks")).map jwksOf).getD []
  let resolved ← resolveEntityKeys H rpMetadata federationJwks call.options.entityKeys call.keys
  match verifyEntityStatement H.toPlatform call.requestObjectJwt resolved.keys
      call.options.validation.clockSkew call.verifiedAt requestObjectTyp with
  | .error _ => .error (.fail (internalError .SignatureInvalid
      "Request Object signature verification failed"))
  | .ok _ => .ok ()

/-- What the chain of a peer says of the OP, where there is one. -/
def automaticPeer (validated : ValidatedRequestObject) (bestChain : ValidatedTrustChain) :
    Except Stop (Option Payload) :=
  match validated.peerTrustChainHeader with
  | none => .ok none
  | some peer => do
    let chain ← settle (validateSuppliedTrustChain H.toPlatform trustAnchors
      call.options.validation (some peer) call.options.opEntityId "peer_trust_chain" none
      call.peerClock call.peerResumed)
    refuseIf (chain.trustAnchorId != bestChain.trustAnchorId) .InvalidTrustChain
      (some (s!"peer_trust_chain Trust Anchor ('{chain.trustAnchorId}') does not match selected RP " ++
        s!"Trust Anchor ('{bestChain.trustAnchorId}')"))
    return some ((chain.resolvedMetadata.get? "openid_provider").getD .empty)

/-- All that is checked before the store is asked. -/
def checkRequestObject : Except Stop (ValidatedRequestObject × ProcessedRegistration) := do
  let trustAnchors ← (requireNonEmptyTrustAnchors H.toPlatform call.trustAnchors).mapError Stop.fail
  let validated ← validateAutomaticRegistrationRequest H call.options.opEntityId
    call.requestObjectJwt call.now call.options.validation.clockSkew
  let bestChain ← automaticChain H call trustAnchors validated
  let rpMetadata := (bestChain.resolvedMetadata.get? "openid_relying_party").getD .empty
  verifyRequestSignature H call bestChain rpMetadata
  refuseIf (!rpMetadata.members.isEmpty &&
      !openIDRelyingPartyMetadataSchema H.toPlatform (.obj rpMetadata.members)) .InvalidMetadata
    (some "RP metadata does not comply with the OpenID Connect Relying Party metadata schema")
  let peerResolvedOpMetadata ← automaticPeer H call trustAnchors validated bestChain
  return (validated,
    { rpEntityId := validated.rpEntityId
      resolvedRpMetadata := rpMetadata
      trustChain := bestChain
      peerResolvedOpMetadata })

end Process

/-- The claim of a Request Object: it expires with it. -/
def requestObjectClaim (call : AutomaticCall) (validated : ValidatedRequestObject) :
    JtiReplayClaim where
  issuer := .str validated.rpEntityId
  audience := .str call.options.opEntityId
  jti := validated.jti
  expiresAt := validated.exp

/-- Process a Request Object, cut at its use of the replay store. -/
def processAutomaticRegistration (H : ClientHost) :
    ReplayProtected AutomaticCall (Except Stop ProcessedRegistration) where
  before call :=
    match checkRequestObject H call with
    | .error stop => .error (.error stop)
    | .ok (validated, _) => .ok (requestObjectClaim call validated, call.storeAt)
  after call answer :=
    match answer with
    | .ok true => (checkRequestObject H call).map (·.2)
    | .ok false => refuseWith .InvalidRequest
        (some "Request Object JTI has already been used (replay detected)")
    | .error _ => refuseWith .ServerError
        (some "Request Object replay protection is unavailable")

/-! ## Accepted once -/

section Once

variable (H : ClientHost)

/-- Two presentations of one Request Object to one OP. -/
structure SameRequestObject (c d : AutomaticCall) (v w : ValidatedRequestObject) : Prop where
  client : v.rpEntityId = w.rpEntityId
  audience : c.options.opEntityId = d.options.opEntityId
  jti : v.jti = w.jti
  exp : v.exp = w.exp

/-- No Request Object is accepted twice. -/
def RequestObjectAcceptedOnce (results : List (AutomaticCall × Except Stop ProcessedRegistration)) :
    Prop :=
  results.Pairwise fun p q => ∀ r s, p.2 = .ok r → q.2 = .ok s → ∀ v w,
    checkRequestObject H p.1 = .ok (v, r) → checkRequestObject H q.1 = .ok (w, s) →
      ¬ SameRequestObject p.1 q.1 v w

/-- Calls that share a replay store, in the order in which they reach it, by a clock that does not go
back. -/
structure SharedAutomaticRun (calls : List AutomaticCall) : Prop where
  within : ∀ c ∈ calls, c.now ≤ c.verifiedAt ∧ c.verifiedAt ≤ c.storeAt
  across : calls.Pairwise fun c d => c.storeAt ≤ d.storeAt

/-- When a Request Object passes the checks again, the store is asked before it expires. -/
def PresentedBeforeExpiry (calls : List AutomaticCall) : Prop :=
  calls.Pairwise fun c d => ∀ v w r s, checkRequestObject H c = .ok (v, r) →
    checkRequestObject H d = .ok (w, s) → SameRequestObject c d v w →
      ∀ exp, v.exp = .num exp → d.storeAt < exp

variable {H}

theorem processAutomaticRegistration_before {call : AutomaticCall} {v : ValidatedRequestObject}
    {r : ProcessedRegistration} (h : checkRequestObject H call = .ok (v, r)) :
    (processAutomaticRegistration H).before call = .ok (requestObjectClaim call v, call.storeAt) := by
  simp [processAutomaticRegistration, h]

theorem processAutomaticRegistration_clock {call : AutomaticCall} {p : JtiReplayClaim × Rat}
    (h : p ∈ ((processAutomaticRegistration H).before call).toOption) : p.2 = call.storeAt := by
  have hb := toOption_eq_some.mp h
  simp only [processAutomaticRegistration] at hb
  cases hv : checkRequestObject H call with
  | error stop =>
    rw [hv] at hb
    cases hb
  | ok checked =>
    rw [hv] at hb
    exact (congrArg Prod.snd (Except.ok.inj hb)).symm

theorem refuseWith_ne_ok {α : Type} {code : FederationErrorCode} {description : Option String}
    {a : α} : refuseWith code description ≠ .ok a := by
  cases description <;> exact nofun

/-- Only a claim that is granted leads to a registration. -/
theorem processAutomaticRegistration_after {call : AutomaticCall} {answer : Except ReplayError Bool}
    {r : ProcessedRegistration} (h : (processAutomaticRegistration H).after call answer = .ok r) :
    answer = .ok true ∧ ∃ v, checkRequestObject H call = .ok (v, r) := by
  simp only [processAutomaticRegistration] at h
  split at h
  · obtain ⟨⟨v, r'⟩, hchecked, rfl⟩ := map_eq_ok h
    exact ⟨rfl, v, hchecked⟩
  · exact absurd h refuseWith_ne_ok
  · exact absurd h refuseWith_ne_ok

/-- An accepted call has passed the checks, and the store has granted its claim. -/
theorem processAutomaticRegistration_accepted {store : MemoryReplayStore} {calls : List AutomaticCall}
    {p : AutomaticCall × Except Stop ProcessedRegistration} {r : ProcessedRegistration}
    (hp : p ∈ (processAutomaticRegistration H).runAll store calls) (hr : p.2 = .ok r)
    {v : ValidatedRequestObject} (hv : checkRequestObject H p.1 = .ok (v, r)) :
    (processAutomaticRegistration H).before p.1 = .ok (requestObjectClaim p.1 v, p.1.storeAt) ∧
      (processAutomaticRegistration H).Granted p ∧ ∃ exp, v.exp = .num exp := by
  have hbefore := processAutomaticRegistration_before hv
  have hgranted : (processAutomaticRegistration H).Granted p := fun answer hanswer =>
    (processAutomaticRegistration_after (hanswer.symm.trans hr)).1
  obtain ⟨exp, hexp⟩ := (processAutomaticRegistration H).granted_expiry hp hgranted hbefore
  refine ⟨hbefore, hgranted, exp, ?_⟩
  have hnumber : v.exp.number? = some exp := hexp
  cases hv : v.exp with
  | num q =>
    rw [hv] at hnumber
    rw [Option.some.inj hnumber]
  | _ =>
    rw [hv] at hnumber
    cases hnumber

/-- A call that registers has passed the checks. -/
theorem processAutomaticRegistration_run {store : MemoryReplayStore} {call : AutomaticCall}
    {r : ProcessedRegistration} (h : ((processAutomaticRegistration H).run store call).1 = .ok r) :
    ∃ v, checkRequestObject H call = .ok (v, r) := by
  unfold ReplayProtected.run at h
  cases hb : (processAutomaticRegistration H).before call with
  | ok asked =>
    rw [hb] at h
    exact (processAutomaticRegistration_after h).2
  | error result =>
    rw [hb] at h
    simp only at h
    subst h
    simp only [processAutomaticRegistration] at hb
    split at hb <;> cases hb

theorem SharedAutomaticRun.storeClock {calls : List AutomaticCall} (h : SharedAutomaticRun calls) :
    (processAutomaticRegistration H).StoreClockNondecreasing calls := by
  refine h.across.imp fun {c d} hcd => ?_
  intro a ha b hb
  rw [processAutomaticRegistration_clock ha, processAutomaticRegistration_clock hb]
  exact hcd

/-- A Request Object is accepted at most once, if it is not presented again after its expiry. -/
theorem acceptedOnce_of_presentedBeforeExpiry {calls : List AutomaticCall}
    (hrun : SharedAutomaticRun calls) (hbefore : PresentedBeforeExpiry H calls)
    (store : MemoryReplayStore) :
    RequestObjectAcceptedOnce H ((processAutomaticRegistration H).runAll store calls) := by
  have hagain := (processAutomaticRegistration H).granted_again store hrun.storeClock
  have hpairs : ((processAutomaticRegistration H).runAll store calls).Pairwise fun p q =>
      ∀ v w r s, checkRequestObject H p.1 = .ok (v, r) → checkRequestObject H q.1 = .ok (w, s) →
        SameRequestObject p.1 q.1 v w → ∀ exp, v.exp = .num exp → q.1.storeAt < exp := by
    rw [PresentedBeforeExpiry, ← (processAutomaticRegistration H).runAll_calls store calls] at hbefore
    exact List.pairwise_map.mp hbefore
  refine (hagain.and hpairs).imp_of_mem fun {p q} hp hq ⟨hpq, ht⟩ r s hr hs v w hv hw hsame => ?_
  obtain ⟨hpb, hpg, exp, hexp⟩ := processAutomaticRegistration_accepted hp hr hv
  obtain ⟨hqb, hqg, -⟩ := processAutomaticRegistration_accepted hq hs hw
  have hkey : MemoryReplayStore.keyOf (requestObjectClaim p.1 v) =
      MemoryReplayStore.keyOf (requestObjectClaim q.1 w) := by
    simp [MemoryReplayStore.keyOf, requestObjectClaim, hsame.client, hsame.audience, hsame.jti]
  have hexpired := hpq hpg hqg _ _ _ _ hpb hqb hkey
  simp only [requestObjectClaim, hexp, Json.number?, Option.getD_some] at hexpired
  exact absurd (ht v w r s hv hw hsame exp hexp) (not_lt.mpr hexpired)

end Once

/-! ## Within the tolerance -/

/-- A relying party under an anchor, with a key of its own for the protocol, and a Request Object that
expires at 2000. -/
def automaticJwts : List (String × SignedJwt) :=
  [("rp", signedJwt JwtTyp.entityStatement "rp-key" (statementClaims "https://rp.example"
      "https://rp.example" "rp-key" [("authority_hints", .arr [.str "https://ta.example"]),
        ("metadata", .obj [("openid_relying_party", .obj [("client_name", .str "RP"),
          ("jwks", .obj [("keys", .arr [tableKey "client-key"])])])])])),
    ("ta-about-rp", signedJwt JwtTyp.entityStatement "ta-key" (statementClaims "https://ta.example"
      "https://rp.example" "rp-key" [])),
    ("request-object",
      { header := Dict.ofEntries [("typ", .str requestObjectTyp), ("alg", .str "ES256"),
          ("kid", .str "client-key"), ("trust_chain", .arr [.str "rp", .str "ta-about-rp"])]
        payload := Dict.ofEntries [("iss", .str "https://rp.example"),
          ("client_id", .str "https://rp.example"), ("aud", .str "https://op.example"),
          ("exp", .num 2000), ("jti", .str "1")]
        key := "client-key" })]

def automaticHost : ClientHost := tableClientHost automaticJwts [] []

/-- A presentation of the Request Object at a time, with a tolerance of a minute. -/
def presentRequestObject (now : Rat) : AutomaticCall where
  requestObjectJwt := "request-object"
  trustAnchors := exampleAnchors
  options := { opEntityId := "https://op.example" }
  now := now
  resolved := .error .typeError
  chainClock := fun _ => now
  keys := .unreached now
  verifiedAt := now
  peerClock := fun _ => now
  storeAt := now

def checkedRequestObject : ValidatedRequestObject where
  rpEntityId := "https://rp.example"
  exp := .num 2000
  jti := .str "1"
  trustChainHeader := some (.arr [.str "rp", .str "ta-about-rp"])
  peerTrustChainHeader := none

theorem requestObject_acceptedOnce : RequestObjectAcceptedOnce automaticHost
    ((processAutomaticRegistration automaticHost).runAll .empty
      [presentRequestObject 1500, presentRequestObject 1990]) := by
  refine acceptedOnce_of_presentedBeforeExpiry ⟨by decide +kernel, by decide +kernel⟩ ?_ _
  refine List.pairwise_pair.mpr ?_
  intro v w r s hv _ _ exp hexp
  have hchecked : (checkRequestObject automaticHost (presentRequestObject 1500)).toOption.map
      (·.1) = some checkedRequestObject := by decide +kernel
  rw [hv] at hchecked
  obtain rfl : v = checkedRequestObject := Option.some.inj hchecked
  obtain rfl := Json.num.inj hexp
  decide +kernel

/-- The record of the first presentation ends at 2000; the second one, at 2010, is within the
tolerance. -/
theorem requestObject_accepted_twice : ∃ calls, SharedAutomaticRun calls ∧
    ¬ RequestObjectAcceptedOnce automaticHost
      ((processAutomaticRegistration automaticHost).runAll .empty calls) := by
  refine ⟨[presentRequestObject 1990, presentRequestObject 2010],
    ⟨by decide +kernel, by decide +kernel⟩, fun honce => ?_⟩
  rw [ReplayProtected.runAll_pair] at honce
  have hfirst : ((processAutomaticRegistration automaticHost).run .empty
      (presentRequestObject 1990)).1.toOption.isSome = true := by decide +kernel
  have hsecond : ((processAutomaticRegistration automaticHost).run
      ((processAutomaticRegistration automaticHost).run .empty (presentRequestObject 1990)).2
      (presentRequestObject 2010)).1.toOption.isSome = true := by decide +kernel
  have hchecked : ∀ now ∈ [(1990 : Rat), 2010],
      (checkRequestObject automaticHost (presentRequestObject now)).toOption.map (·.1) =
        some checkedRequestObject := by decide +kernel
  obtain ⟨r, hr⟩ := Option.isSome_iff_exists.mp hfirst
  obtain ⟨s, hs⟩ := Option.isSome_iff_exists.mp hsecond
  obtain ⟨v, hv⟩ := processAutomaticRegistration_run (toOption_eq_some.mp hr)
  obtain ⟨w, hw⟩ := processAutomaticRegistration_run (toOption_eq_some.mp hs)
  have hsame : v = checkedRequestObject ∧ w = checkedRequestObject := by
    have hfst := hchecked 1990 (by simp)
    have hsnd := hchecked 2010 (by simp)
    rw [hv] at hfst
    rw [hw] at hsnd
    exact ⟨Option.some.inj hfst, Option.some.inj hsnd⟩
  obtain ⟨rfl, rfl⟩ := hsame
  exact List.pairwise_pair.mp honce r s (toOption_eq_some.mp hr) (toOption_eq_some.mp hs) _ _ hv hw
    ⟨rfl, rfl, rfl, rfl⟩

end OidFed
