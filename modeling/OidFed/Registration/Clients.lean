import OidFed.Chain.Authentic
import OidFed.Policy.Scope
import OidFed.Registration.Explicit

/-!
# What an explicit registration attests (`oidc/src/registration/handler.ts`)

The handler verifies the JWT of a request under the keys of its own payload. The chain says which keys
and which metadata the relying party has; the handler selects a chain, and asks it for the names of its
ends.

* `AttestedJwt`: the JWT verifies under keys of the chain. `registers_attested_iff`: for which requests
  it does.
* `ResolvedClient`: the client is registered with the metadata of the chain.
  `registers_resolved_iff`: for which requests it is.
-/

namespace OidFed

open Js

/-! ## Requests that have been read -/

section Read

variable {H : ClientHost} {config : ExplicitRegistrationHandlerConfig} {request : Request}
  {run : RegistrationRun} {req : RegistrationRequest} {trustAnchors : TrustAnchorSet}
  {bestChain : ValidatedTrustChain}

theorem textItems_map (jwts : List String) : textItems (.arr (jwts.map .str)) = some jwts := by
  have h : ∀ l : List String, (l.map Json.str).mapM Json.string? = some l := by
    intro l
    induction l with
    | nil => rfl
    | cons jwt rest ih =>
      rw [List.map_cons, List.mapM_cons, ih]
      rfl
  exact h jwts

/-- The Entity Configuration of a body that is a Trust Chain is its first statement. -/
theorem readRegistrationBody_chain {ecJwt : String} {chain : List String}
    (h : readRegistrationBody H request = .ok (ecJwt, some chain)) :
    chain.head? = some ecJwt := by
  obtain ⟨⟨⟩, -, h⟩ := bind_eq_ok.mp h
  obtain ⟨⟨⟩, -, h⟩ := bind_eq_ok.mp h
  obtain ⟨body, -, h⟩ := bind_eq_ok.mp h
  cases body with
  | none => cases h
  | some text =>
    obtain ⟨⟨⟩, -, h⟩ := bind_eq_ok.mp h
    split at h
    · cases hparsed : parseTrustChainJsonBody H text with
      | error e =>
        rw [hparsed] at h
        cases h
      | ok jwts =>
        rw [hparsed] at h
        obtain ⟨rfl, hjwts⟩ := Prod.mk.inj (Except.ok.inj h)
        obtain rfl := Option.some.inj hjwts
        unfold parseTrustChainJsonBody at hparsed
        split at hparsed
        · cases hparsed
        · split at hparsed
          · obtain rfl := Except.ok.inj hparsed
            rfl
          · cases hparsed
    · cases (Prod.mk.inj (Except.ok.inj h)).2

/-- A request that has been read: its JWT verifies under its own keys, and its metadata are those of a
relying party. -/
structure ReadRequest (H : ClientHost) (config : ExplicitRegistrationHandlerConfig)
    (verifiedAt : Rat) (req : RegistrationRequest) : Prop where
  chain : ∀ jwts, req.suppliedBodyTrustChain = some jwts → jwts.head? = some req.ecJwt
  verified : ∃ es, verifyEntityStatement H.toPlatform req.ecJwt req.jwks config.options.clockSkew
    verifiedAt = .ok es
  client : ∃ rp, req.metadata.get? "openid_relying_party" = some rp ∧
    openIDRelyingPartyMetadataSchema H.toPlatform rp = true

theorem readRegistrationRequest_eq_ok {verifiedAt : Rat}
    (h : readRegistrationRequest H config request verifiedAt = .ok req) :
    ReadRequest H config verifiedAt req := by
  obtain ⟨⟨ecJwt, supplied⟩, hbody, h⟩ := bind_eq_ok.mp h
  simp only at h
  split at h
  · cases h
  · obtain ⟨⟨⟩, -, h⟩ := bind_eq_ok.mp h
    obtain ⟨⟨⟩, -, h⟩ := bind_eq_ok.mp h
    obtain ⟨⟨⟩, hclient, h⟩ := bind_eq_ok.mp h
    obtain ⟨⟨⟩, -, h⟩ := bind_eq_ok.mp h
    split at h
    · cases h
    · rename_i es hverified
      obtain ⟨⟨⟩, -, h⟩ := bind_eq_ok.mp h
      obtain ⟨⟨⟩, -, h⟩ := bind_eq_ok.mp h
      obtain rfl := Except.ok.inj h
      refine ⟨fun jwts hjwts => ?_, ⟨es, hverified⟩, ?_⟩
      · simp only at hjwts
        subst hjwts
        exact readRegistrationBody_chain hbody
      · rw [refuseRequestIf_eq_ok, Bool.not_eq_false'] at hclient
        exact (Option.any_eq_true _ _).mp hclient

theorem ValidationResult.resume_eq_ok {resumed : ResumedEvidence} {result : ValidationResult}
    {v : ValidatedTrustChain} (h : result.resume resumed = .ok (.ok v)) :
    result.chain? = some v.toAuthenticatedChain := by
  cases result with
  | invalid errors => cases h
  | valid chain pending =>
    obtain rfl := Except.ok.inj (Except.ok.inj h)
    rfl
  | outside chain =>
    cases resumed with
    | error e => cases h
    | ok evidence =>
      cases evidence with
      | error errors => cases h
      | ok e =>
        obtain rfl := Except.ok.inj (Except.ok.inj h)
        rfl

/-- A supplied chain is authentic. -/
theorem validateSuppliedTrustChain_authentic {P : Platform}
    {options : TrustChainValidationOptions} {chain : Option Json} {expectedSubject label : String}
    {audience : Option String} {clock : Clock} {resumed : ResumedEvidence} {v : ValidatedTrustChain}
    (h : validateSuppliedTrustChain P trustAnchors options chain expectedSubject label audience clock
      resumed = .ok (.ok v)) :
    ∃ jwts options', chain.bind textItems = some jwts ∧
      Authentic P trustAnchors options' clock jwts v.toAuthenticatedChain := by
  unfold validateSuppliedTrustChain at h
  split at h
  · rename_i jwt rest hitems
    obtain ⟨result, hresult, h⟩ := bind_eq_ok.mp h
    obtain ⟨outcome, houtcome, h⟩ := bind_eq_ok.mp h
    cases outcome with
    | error errors => cases h
    | ok validated =>
      simp only at h
      split at h
      · cases h
      · obtain rfl := Except.ok.inj (Except.ok.inj h)
        exact ⟨_, _, hitems, validateTrustChain_authentic hresult
          (ValidationResult.resume_eq_ok houtcome)⟩
  · cases h

end Read

/-! ## The keys of the client -/

section Keys

variable (H : ClientHost) (trustAnchors : TrustAnchorSet) (req : RegistrationRequest)
  (bestChain : ValidatedTrustChain)

/-- The keys that a chain attests for its subject: those of the second statement, or those that are
configured for the anchor. -/
def attestedKeys : JWKSet :=
  match bestChain.statements[1]? with
  | some s => ((s.payload.get? "jwks").map jwksOf).getD []
  | none => (trustAnchors.get? bestChain.trustAnchorId).getD []

/-- The JWT of the request verifies under the keys that the chain attests. -/
def AttestedJwt : Prop := Verifies H.toPlatform req.ecJwt (attestedKeys trustAnchors bestChain)

/-- The key that a set holds for the header of a JWT. -/
def keyForJwt (P : Platform) (jwt : String) (jwks : JWKSet) : Option Json :=
  (P.decodeProtectedHeader jwt).toOption.bind fun header =>
    selectVerificationKey (header.string? "kid") (header.string? "alg") jwks

/-- The JWT verifies with a key, at some time and tolerance. -/
def VerifiesWith (P : Platform) (jwt : String) (key : Json) : Prop :=
  ∃ header alg clockSkew now payload, P.decodeProtectedHeader jwt = .ok header ∧
    header.get? "alg" = some (.str alg) ∧ P.jwtVerify jwt key alg clockSkew now = .ok payload

/-- A signature is made with one key: what verifies with a JWK is an importable public key's, and
verifies with those JWKs that import to the same public key, and with no other. `importJWK` is that of
`jose`. -/
def SignedByOneKey {PublicKey : Type} (P : Platform) (importJWK : Json → Option PublicKey) : Prop :=
  ∀ jwt key, VerifiesWith P jwt key → ∃ publicKey, importJWK key = some publicKey ∧
    ∀ key', VerifiesWith P jwt key' ↔ importJWK key' = some publicKey

/-- For the header of the request, the attested keys hold the public key that the request's own keys
hold, under which the handler has verified it. -/
def AttestedKey {PublicKey : Type} (importJWK : Json → Option PublicKey) : Prop :=
  ∃ key own publicKey,
    keyForJwt H.toPlatform req.ecJwt (attestedKeys trustAnchors bestChain) = some key ∧
    keyForJwt H.toPlatform req.ecJwt req.jwks = some own ∧
    importJWK own = some publicKey ∧ importJWK key = some publicKey

end Keys

section Keys

variable {P : Platform} {jwt : String} {jwks : JWKSet} {clockSkew now : Rat}
  {es : ParsedEntityStatement}

/-- A JWT that verifies is verified with the key that is held for it. -/
theorem verifyEntityStatement_key (h : verifyEntityStatement P jwt jwks clockSkew now = .ok es) :
    ∃ key, keyForJwt P jwt jwks = some key ∧ VerifiesWith P jwt key := by
  obtain ⟨hheader, -, kid, alg, key, hkid, halg, -, -, hkey, hverify⟩ :=
    verifyEntityStatement_eq_ok h
  refine ⟨key, ?_, es.header, alg, clockSkew, now, es.payload, hheader, halg, hverify⟩
  rw [keyForJwt, hheader, Except.toOption, Option.bind_some, Payload.string?_eq_some.mpr hkid,
    Payload.string?_eq_some.mpr halg, hkey]

/-- A JWT that verifies under some set does so under any that holds a key for it that verifies it. -/
theorem verifies_of_key (h : verifyEntityStatement P jwt jwks clockSkew now = .ok es)
    {jwks' : JWKSet} {key : Json} (hkey : keyForJwt P jwt jwks' = some key)
    (hverifies : VerifiesWith P jwt key) : Verifies P jwt jwks' := by
  obtain ⟨hheader, htyp, kid, alg, -, hkid, halg, hne, hsupported, -⟩ :=
    verifyEntityStatement_eq_ok h
  obtain ⟨header, alg', clockSkew', now', payload', hheader', halg'', hverify⟩ := hverifies
  obtain rfl := Except.ok.inj (hheader.symm.trans hheader')
  obtain rfl := Json.str.inj (Option.some.inj (halg.symm.trans halg''))
  have hkid' : es.header.string? "kid" = some kid := Payload.string?_eq_some.mpr hkid
  have halg' : es.header.string? "alg" = some alg := Payload.string?_eq_some.mpr halg
  rw [keyForJwt, hheader, Except.toOption, Option.bind_some, hkid', halg'] at hkey
  have hvalid : isValidAlgorithm (some (.str alg)) = true :=
    isValidAlgorithm_eq_true.mpr ⟨alg, by simpa using hsupported, rfl⟩
  refine ⟨clockSkew', now', { header := es.header, payload := payload' }, ?_⟩
  simp [verifyEntityStatement, hheader, htyp, halg, hvalid, hkid', halg', hne, hkey, hverify]

end Keys

section Keys

variable {H : ClientHost} {config : ExplicitRegistrationHandlerConfig}
  {trustAnchors : TrustAnchorSet} {request : Request} {run : RegistrationRun}
  {req : RegistrationRequest} {bestChain : ValidatedTrustChain} {metadata rpMeta : Payload}
  {responseJwt : String}

/-- The first statement of an authentic chain verifies under the attested keys. -/
theorem Authentic.attested {P : Platform} {options : TrustChainValidationOptions} {clock : Clock}
    {jwts : List String} (h : Authentic P trustAnchors options clock jwts bestChain.toAuthenticatedChain)
    {jwt : String} (hfirst : jwts.head? = some jwt) :
    Verifies P jwt (attestedKeys trustAnchors bestChain) := by
  have hjwt : jwts[0]? = some jwt := by rw [← List.head?_eq_getElem?, hfirst]
  obtain ⟨-, s₀, -, -, hs₀, -⟩ := h.leaf
  unfold attestedKeys
  cases hs₁ : bestChain.statements[1]? with
  | some s₁ =>
    obtain ⟨-, jwks, es, hjwks, hverified⟩ := h.link 0 jwt s₀ s₁ hjwt hs₀ hs₁
    simp only [hjwks, Option.map_some, Option.getD_some]
    exact ⟨_, _, es, hverified⟩
  | none =>
    obtain ⟨jwt', -, iss, jwks, es, hlast, -, -, hanchor, hverified, hid⟩ := h.anchor
    have hlength : jwts.length ≤ 1 := by
      have := List.getElem?_eq_none_iff.mp hs₁
      rwa [h.length] at this
    obtain ⟨rest, rfl⟩ := List.head?_eq_some_iff.mp hfirst
    obtain rfl : rest = [] := List.length_eq_zero_iff.mp (by simpa using hlength)
    obtain rfl : jwt = jwt' := by simpa using hlast
    simp only [hid, hanchor, Option.getD_some]
    exact ⟨_, _, es, hverified⟩

/-- The chain of a body is selected, and its first statement is the JWT of the request. -/
theorem selectRegistrationChain_body {jwts : List String}
    (hbody : req.suppliedBodyTrustChain = some jwts) (hfirst : jwts.head? = some req.ecJwt)
    (h : selectRegistrationChain H config trustAnchors run req = .ok bestChain) :
    AttestedJwt H trustAnchors req bestChain := by
  rw [selectRegistrationChain, hbody] at h
  obtain ⟨validation, hvalidation, h⟩ := bind_eq_ok.mp h
  obtain rfl := valueOr_eq_ok.mp h
  obtain ⟨jwts', options, hitems, hauthentic⟩ :=
    validateSuppliedTrustChain_authentic (awaited_eq_ok.mp hvalidation)
  rw [Option.bind_some, textItems_map] at hitems
  obtain rfl := Option.some.inj hitems
  exact hauthentic.attested hfirst

/-- The JWT of a request that is registered verifies under the keys of the chain exactly where the body
is a Trust Chain or the chain attests the key of the request. -/
theorem registers_attested_iff {PublicKey : Type} {importJWK : Json → Option PublicKey}
    (hsigned : SignedByOneKey H.toPlatform importJWK)
    (h : Registers H config trustAnchors request run req bestChain metadata rpMeta responseJwt) :
    AttestedJwt H trustAnchors req bestChain ↔
      req.suppliedBodyTrustChain.isSome = true ∨
        AttestedKey H trustAnchors req bestChain importJWK := by
  have hread := readRegistrationRequest_eq_ok h.read
  obtain ⟨es, hverified⟩ := hread.verified
  -- the key under which the handler has verified the request
  obtain ⟨own, hown, hverifies⟩ := verifyEntityStatement_key hverified
  obtain ⟨publicKey, himport, hsame⟩ := hsigned _ _ hverifies
  constructor
  · rintro ⟨clockSkew, now, es', hes'⟩
    obtain ⟨key, hkey, hverifies'⟩ := verifyEntityStatement_key hes'
    exact .inr ⟨key, own, publicKey, hkey, hown, himport, (hsame key).mp hverifies'⟩
  · rintro (hbody | ⟨key, own', publicKey', hkey, hown', himport', hkey'⟩)
    · obtain ⟨jwts, hjwts⟩ := Option.isSome_iff_exists.mp hbody
      exact selectRegistrationChain_body hjwts (hread.chain jwts hjwts) h.chain
    · obtain rfl := Option.some.inj (hown.symm.trans hown')
      obtain rfl := Option.some.inj (himport.symm.trans himport')
      exact verifies_of_key hverified hkey ((hsame key).mpr hkey')

end Keys

/-! ## The metadata of the client -/

section Metadata

/-- The adapter of OpenID Connect: it checks the metadata of a relying party, and leaves them as they
are. `zodMessage` is the message of the schema for metadata that it refuses. -/
def oidcRegistrationAdapter (P : Platform) (zodMessage : Json → String) :
    RegistrationProtocolAdapter where
  validateClientMetadata raw _ :=
    match raw.get? "openid_relying_party" with
    -- other entities may not carry metadata of a relying party
    | none => .ok (.ok raw)
    | some rpMeta =>
      if !isObjectLike (some rpMeta) || openIDRelyingPartyMetadataSchema P rpMeta then .ok (.ok raw)
      else .ok (.error (federationError .InvalidMetadata
        ("Invalid openid_relying_party metadata: " ++ zodMessage rpMeta)))
  enrichResponseMetadata rpMeta trustChain _ :=
    .ok (withClientId trustChain.entityId (membersOf rpMeta))

/-- The handler has no adapter, or that of OpenID Connect. -/
def PlainAdapter (P : Platform) (config : ExplicitRegistrationHandlerConfig) : Prop :=
  config.registrationProtocolAdapter = none ∨
    ∃ zodMessage, config.registrationProtocolAdapter = some (oidcRegistrationAdapter P zodMessage)

/-- The parameters that the handler adds or strips. -/
def handlerFields : List String :=
  ["client_id", "client_secret"] ++ registrationManagementMetadataFields

/-- A parameter of a client, or the default of OpenID Connect for it. -/
def parameterOf (client : Payload) (name : String) : Option Json :=
  (client.get? name).or (oidcMetadataDefaults.lookup name)

variable (req : RegistrationRequest) (bestChain : ValidatedTrustChain)

/-- The metadata of the relying party in the request. -/
def requestedClient : Payload :=
  membersOf ((req.metadata.get? "openid_relying_party").getD (.obj []))

/-- The metadata of the relying party that the chain resolves. -/
def resolvedRpMetadata : Payload :=
  (bestChain.resolvedMetadata.get? "openid_relying_party").getD .empty

/-- Parameters meet every operator that the policies of the chain state for a relying party. `scope` meets
one as it stands, or as the array of its tokens, on which the operators work. -/
def MeetsPolicies (parameters : String → Option Json) : Prop :=
  ∀ ss ∈ subordinateStatements bestChain.statements, ∀ name ∉ handlerFields, ∀ stated,
    (policyStatement ss).parameterPolicy "openid_relying_party" name = some stated →
    ∀ (op : PolicyOperator) v, stated.get? op.text = some v →
      op.Satisfies v (parameters name) ∨
        name = "scope" ∧ op.Satisfies v (normalizedScope (parameters name))

/-- A client has the parameters that the chain resolves, with defaults for those that it leaves out, and
they meet the policies of the chain. -/
structure ResolvedClient (rpMeta : Payload) : Prop where
  agrees : ∀ name ∉ handlerFields,
    rpMeta.get? name = parameterOf (resolvedRpMetadata bestChain) name
  meets : MeetsPolicies bestChain rpMeta.get?

end Metadata

section Metadata

variable {H : ClientHost} {config : ExplicitRegistrationHandlerConfig}
  {trustAnchors : TrustAnchorSet} {request : Request} {run : RegistrationRun}
  {req : RegistrationRequest} {bestChain : ValidatedTrustChain} {metadata rpMeta : Payload}
  {responseJwt : String}

theorem foldl_defaults_get? (defaults : List (String × Json)) (client : Payload) (name : String) :
    (defaults.foldl (fun m d => if (m.get? d.1).isSome then m else m.set d.1 d.2) client).get? name =
      (client.get? name).or (defaults.lookup name) := by
  induction defaults generalizing client with
  | nil => exact Option.or_none.symm
  | cons d rest ih =>
    rw [List.foldl_cons, ih, List.lookup_cons]
    by_cases hname : name = d.1
    · subst hname
      cases hd : client.get? d.1 with
      | none => simp
      | some v => simp [hd]
    · have hother : (if (client.get? d.1).isSome then client else client.set d.1 d.2).get? name =
          client.get? name := by
        split
        · rfl
        · rw [Dict.get?_set, if_neg hname]
      rw [hother, beq_eq_false_iff_ne.mpr hname]

theorem withDefaults_get? (client : Payload) (name : String) :
    (withDefaults client).get? name = parameterOf client name :=
  foldl_defaults_get? oidcMetadataDefaults client name

theorem stripRegistrationManagementFields_get? (client : Payload) {name : String}
    (h : name ∉ registrationManagementMetadataFields) :
    (stripRegistrationManagementFields client).get? name = client.get? name := by
  unfold stripRegistrationManagementFields registrationManagementMetadataFields at *
  simp only [List.mem_cons, List.not_mem_nil, or_false, not_or] at h
  simp only [List.foldl_cons, List.foldl_nil, Dict.get?_erase, if_neg h.1, if_neg h.2]

/-- Past what the handler adds or strips, a client is registered with the metadata it starts from and
the defaults. -/
theorem registeredClientMetadata_get? (enriched : Payload) (secret : Option String) {name : String}
    (h : name ∉ handlerFields) :
    (registeredClientMetadata req enriched secret).get? name = parameterOf enriched name := by
  rw [handlerFields, List.mem_append, not_or] at h
  obtain ⟨hadded, hstripped⟩ := h
  simp only [List.mem_cons, List.not_mem_nil, or_false, not_or] at hadded
  have hsecret : ∀ m : Payload, (withSecret secret m).get? name = m.get? name := by
    intro m
    cases secret with
    | none => rfl
    | some s => rw [withSecret, Dict.get?_set, if_neg hadded.2]
  have hid : (withClientId req.sub enriched).get? name = enriched.get? name := by
    unfold withClientId
    split
    · rfl
    · rw [Dict.get?_set, if_neg hadded.1]
  rw [registeredClientMetadata, stripRegistrationManagementFields_get? _ hstripped, hsecret,
    withDefaults_get?, parameterOf, hid, parameterOf]

/-- Without an adapter of its own, the handler starts from the metadata of the request. -/
theorem plainAdapter_enriched (hplain : PlainAdapter H.toPlatform config)
    {rp : Json} (hrp : req.metadata.get? "openid_relying_party" = some rp) (hnull : rp ≠ .null)
    {adapterContext : Option Payload} {enriched : Payload}
    (hmetadata : validatedClientMetadata config req adapterContext = .ok metadata)
    (henriched : enrichedClientMetadata config bestChain metadata adapterContext = .ok enriched)
    {name : String} (hname : name ≠ "client_id") :
    enriched.get? name = (requestedClient req).get? name := by
  have hsource : ((req.metadata.get? "openid_relying_party").filter (· != .null)).getD (.obj []) =
      rp := by
    simp [hrp, Option.filter, hnull]
  have hclient : requestedClient req = membersOf rp := by
    rw [requestedClient, hrp, Option.getD_some]
  unfold validatedClientMetadata at hmetadata
  unfold enrichedClientMetadata at henriched
  rcases hplain with hnone | ⟨zodMessage, hoidc⟩
  · rw [hnone] at hmetadata henriched
    obtain rfl := Except.ok.inj hmetadata
    obtain rfl := Except.ok.inj henriched
    rw [hsource, hclient]
  · rw [hoidc] at hmetadata henriched
    obtain ⟨validation, hvalidation, hvalue⟩ := bind_eq_ok.mp hmetadata
    obtain rfl := valueOr_eq_ok.mp hvalue
    have hraw : metadata = req.metadata := by
      have hok := awaited_eq_ok.mp hvalidation
      simp only [oidcRegistrationAdapter, hrp] at hok
      split at hok
      · exact (Except.ok.inj (Except.ok.inj hok)).symm
      · cases hok
    subst hraw
    have hok := awaited_eq_ok.mp henriched
    simp only [oidcRegistrationAdapter, hsource] at hok
    obtain rfl := Except.ok.inj hok
    rw [hclient, withClientId]
    split
    · rfl
    · rw [Dict.get?_set, if_neg hname]

theorem openIDRelyingPartyMetadataSchema_ne_null {P : Platform} {rp : Json}
    (h : openIDRelyingPartyMetadataSchema P rp = true) : rp ≠ .null := by
  rintro rfl
  simp [openIDRelyingPartyMetadataSchema, Schema.looseObject] at h

/-- Past what the handler adds or strips, a client is registered with the parameters of its request. -/
theorem registers_requested (hplain : PlainAdapter H.toPlatform config)
    (h : Registers H config trustAnchors request run req bestChain metadata rpMeta responseJwt)
    {name : String} (hname : name ∉ handlerFields) :
    rpMeta.get? name = parameterOf (requestedClient req) name := by
  obtain ⟨rp, hrp, hschema⟩ := (readRegistrationRequest_eq_ok h.read).client
  obtain ⟨adapterContext, enriched, secret, hmetadata, henriched, rfl⟩ := h.prepared
  have hid : name ≠ "client_id" := by
    rintro rfl
    exact hname (by simp [handlerFields])
  rw [registeredClientMetadata_get? enriched secret hname, parameterOf,
    plainAdapter_enriched hplain hrp (openIDRelyingPartyMetadataSchema_ne_null hschema) hmetadata
      henriched hid, parameterOf]

/-- The policies of a chain are met by parameters as they are by others that are the same past what the
handler adds or strips. -/
theorem meetsPolicies_congr {parameters parameters' : String → Option Json}
    (h : ∀ name ∉ handlerFields, parameters name = parameters' name) :
    MeetsPolicies bestChain parameters ↔ MeetsPolicies bestChain parameters' := by
  unfold MeetsPolicies
  refine forall₂_congr fun ss _ => forall₂_congr fun name hname => ?_
  rw [h name hname]

/-- A client is registered with the metadata of its chain exactly where the request asks for the same,
and for what the policies demand. -/
theorem registers_resolved_iff (hplain : PlainAdapter H.toPlatform config)
    (h : Registers H config trustAnchors request run req bestChain metadata rpMeta responseJwt) :
    ResolvedClient bestChain rpMeta ↔
      (∀ name ∉ handlerFields, parameterOf (requestedClient req) name =
        parameterOf (resolvedRpMetadata bestChain) name) ∧
      MeetsPolicies bestChain (parameterOf (requestedClient req)) := by
  have hrequested : ∀ name ∉ handlerFields, rpMeta.get? name =
      parameterOf (requestedClient req) name := fun _ hname => registers_requested hplain h hname
  rw [← meetsPolicies_congr hrequested]
  constructor
  · rintro ⟨hagrees, hmeets⟩
    exact ⟨fun name hname => hrequested name hname ▸ hagrees name hname, hmeets⟩
  · rintro ⟨hagrees, hmeets⟩
    exact ⟨fun name hname => (hrequested name hname).trans (hagrees name hname), hmeets⟩

/-- The metadata that is signed is that of the client. -/
theorem registrationPayload_client :
    ((registrationPayload config run req bestChain metadata rpMeta).get? "metadata").bind
      (·.get? "openid_relying_party") = some (.obj rpMeta.members) := by
  have hmetadata : (registrationPayload config run req bestChain metadata rpMeta).get? "metadata" =
      some (.obj (metadata.set "openid_relying_party" (.obj rpMeta.members)).members) := by
    simp [registrationPayload, Dict.ofEntries]
  rw [hmetadata, Option.bind_some]
  exact Dict.get?_set_self metadata "openid_relying_party" _

end Metadata

/-! ## The handler -/

section Handler

variable {H : ClientHost} {config : ExplicitRegistrationHandlerConfig} {request : Request}
  {run : RegistrationRun} {outcome : RegistrationOutcome}
  {handler : Request → RegistrationRun → Except JsError RegistrationOutcome}

end Handler

/-! ## An example -/

/-- A relying party under an anchor that makes its clients authenticate with keys, and three requests
with its chain: one for what the anchor asks, one that leaves it out, and one that somebody else has
made. -/
def clientRequests : List (String × SignedJwt) :=
  let client (rest : List (String × Json)) := ("metadata",
    Json.obj [("openid_relying_party", .obj (("client_name", .str "RP") :: rest))])
  let hints := ("authority_hints", Json.arr [.str "https://ta.example"])
  let method := ("token_endpoint_auth_method", Json.str "private_key_jwt")
  let request (key : String) (rest : List (String × Json)) : SignedJwt :=
    let jwt := signedJwt JwtTyp.entityStatement key (statementClaims "https://rp.example"
      "https://rp.example" key [("aud", .str "https://op.example"), hints, client rest])
    { jwt with
      header := jwt.header.set "trust_chain" (.arr [.str "rp", .str "ta-about-rp", .str "ta"]) }
  [("rp", signedJwt JwtTyp.entityStatement "rp-key" (statementClaims "https://rp.example"
      "https://rp.example" "rp-key" [hints, client []])),
    ("ta-about-rp", signedJwt JwtTyp.entityStatement "ta-key" (statementClaims "https://ta.example"
      "https://rp.example" "rp-key" [("metadata_policy", .obj [("openid_relying_party",
        .obj [("token_endpoint_auth_method", .obj [("value", .str "private_key_jwt")])])])])),
    ("ta", signedJwt JwtTyp.entityStatement "ta-key" (statementClaims "https://ta.example"
      "https://ta.example" "ta-key" [])),
    ("request", request "rp-key" [method]), ("loose-request", request "rp-key" []),
    ("forged-request", request "evil-key" [method])]

def clientHost : ClientHost := tableClientHost clientRequests [] []

def clientConfig : ExplicitRegistrationHandlerConfig where
  opEntityId := "https://op.example"
  trustAnchors := Dict.ofEntries [("https://ta.example", [tableKey "ta-key"])]
  onRegistration := some fun _ => .ok ()

def clientRequest (jwt : String) : Request where
  method := "POST"
  pathname := "/register"
  headers := [("content-type", "application/entity-statement+jwt")]
  body := some (.text jwt)

def clientRun : RegistrationRun where
  verifiedAt := 1500
  resolved := .error .typeError
  chainClock := fun _ => 1500
  peerClock := fun _ => 1500
  keySet := .ok ⟨⟨"op-key", "ES256"⟩, []⟩
  now := 1500
  signEntityStatement _ _ := .ok "signed"

/-- A run of the example: the request is accepted, and what its Entity Configuration and the selected
chain satisfy. -/
structure ClientRun (jwt : String) (p : RegistrationRequest → ValidatedTrustChain → Bool)
    (handler : Request → RegistrationRun → Except JsError RegistrationOutcome)
    (outcome : RegistrationOutcome) : Prop where
  created : createExplicitRegistrationHandler clientHost clientConfig = .ok handler
  ran : handler (clientRequest jwt) clientRun = .ok outcome
  accepted : outcome.response.status = 200 ∧ outcome.registered.isSome = true
  facts : ∀ trustAnchors req bestChain metadata rpMeta responseJwt,
    requireNonEmptyTrustAnchors clientHost.toPlatform clientConfig.trustAnchors =
      .ok trustAnchors →
    Registers clientHost clientConfig trustAnchors (clientRequest jwt) clientRun req bestChain
      metadata rpMeta responseJwt → trustAnchors = clientConfig.trustAnchors ∧
        p req bestChain = true

theorem exists_clientRun (jwt : String) {p : RegistrationRequest → ValidatedTrustChain → Bool}
    (haccepted : (handleRegistration clientHost clientConfig clientConfig.trustAnchors
      (clientRequest jwt) clientRun).toOption.any
        (fun o => o.response.status == 200 && o.registered.isSome) = true)
    (hp : (readRegistrationRequest clientHost clientConfig (clientRequest jwt) 1500).toOption.all
      (fun req => (selectRegistrationChain clientHost clientConfig clientConfig.trustAnchors
        clientRun req).toOption.all (p req)) = true) :
    ∃ handler outcome, ClientRun jwt p handler outcome := by
  have hanchors : requireNonEmptyTrustAnchors clientHost.toPlatform clientConfig.trustAnchors =
      .ok clientConfig.trustAnchors := rfl
  obtain ⟨outcome, houtcome, haccepts⟩ := (Option.any_eq_true _ _).mp haccepted
  rw [Bool.and_eq_true, beq_iff_eq] at haccepts
  obtain ⟨handler, hcreated⟩ : ∃ handler,
      createExplicitRegistrationHandler clientHost clientConfig = .ok handler := ⟨_, rfl⟩
  refine ⟨handler, outcome, ⟨hcreated, ?_, haccepts, ?_⟩⟩
  · rw [createExplicitRegistrationHandler, hanchors] at hcreated
    obtain rfl := Except.ok.inj hcreated
    simp only [toOption_eq_some.mp houtcome]
  · intro trustAnchors req bestChain metadata rpMeta responseJwt hnormalized h
    obtain rfl := Except.ok.inj (hanchors.symm.trans hnormalized)
    have hread : readRegistrationRequest clientHost clientConfig (clientRequest jwt) 1500 = .ok req :=
      h.read
    rw [hread] at hp
    simp only [Except.toOption, Option.all_some, h.chain] at hp
    exact ⟨rfl, hp⟩

theorem ClientRun.registers {jwt : String} {p : RegistrationRequest → ValidatedTrustChain → Bool}
    {handler : Request → RegistrationRun → Except JsError RegistrationOutcome}
    {outcome : RegistrationOutcome} (h : ClientRun jwt p handler outcome) :
    ∃ req bestChain metadata rpMeta responseJwt,
      Registers clientHost clientConfig clientConfig.trustAnchors (clientRequest jwt) clientRun req
        bestChain metadata rpMeta responseJwt ∧ p req bestChain = true := by
  obtain ⟨trustAnchors, hanchors, req, bestChain, metadata, rpMeta, responseJwt, hregisters, -⟩ :=
    createExplicitRegistrationHandler_registers h.created h.ran (.inl h.accepted.1)
  obtain ⟨rfl, hp⟩ := h.facts _ _ _ _ _ _ hanchors hregisters
  exact ⟨req, bestChain, metadata, rpMeta, responseJwt, hregisters, hp⟩

/-- The public key of a JWK of the example. -/
def clientPublicKey (key : Json) : Option Json := key.get? "x"

theorem clientHost_signedByOneKey : SignedByOneKey clientHost.toPlatform clientPublicKey := by
  rintro jwt key ⟨header, alg, clockSkew, now, payload, hheader, halg, hverify⟩
  have htable : ∀ key' alg', clientHost.jwtVerify jwt key' alg' clockSkew now =
      (tablePlatform clientRequests).jwtVerify jwt key' alg' clockSkew now := fun _ _ => rfl
  rw [htable] at hverify
  cases hjwt : clientRequests.lookup jwt with
  | none => simp [tablePlatform, hjwt] at hverify
  | some signed =>
    simp only [tablePlatform, hjwt] at hverify
    split at hverify
    · cases hverify
    · rename_i hkey
      have himport : key.get? "x" = some (.str signed.key) := by simpa using hkey
      refine ⟨.str signed.key, himport, fun key' => ⟨?_, fun himport' => ?_⟩⟩
      · rintro ⟨header', alg', clockSkew', now', payload', -, -, hverify'⟩
        change (tablePlatform clientRequests).jwtVerify jwt key' alg' clockSkew' now' = _ at hverify'
        simp only [tablePlatform, hjwt] at hverify'
        split at hverify'
        · cases hverify'
        · rename_i hkey'
          have himport' : key'.get? "x" = some (.str signed.key) := by simpa using hkey'
          exact himport'
      · have hread : key'.get? "x" = some (.str signed.key) := himport'
        refine ⟨header, alg, clockSkew, now, payload, hheader, halg, ?_⟩
        rw [htable]
        simp only [tablePlatform, hjwt, hread, bne_self_eq_false, Bool.false_eq_true, if_false]
        exact hverify

/-- A policy of the example demands one method of authentication and nothing else. -/
def demandsMethod (policy : ResolvedMetadataPolicy) : Bool :=
  (policy.get? "openid_relying_party").all fun params => params.members.all fun p =>
    p.1 == "token_endpoint_auth_method" && p.2.members == [("value", .str "private_key_jwt")]

end OidFed
