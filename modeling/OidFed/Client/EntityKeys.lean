import OidFed.Chain.Shape
import OidFed.Client.FederationApi

/-!
# The keys of an entity (`jwks/resolve.ts`, `jwks/jwks-uri.ts`, `jwks/signed-jwks-uri.ts`)

The metadata of an entity type state its keys inline, at a URL, or at the URL of a set that is signed with
a Federation Entity Key.

* `fetchJwkSet`, `fetchSignedJwkSet`: the keys at a URL. `resolveEntityKeys`: those of the metadata; the
  first representation that is there decides, unless the caller allows to fall back on the next.
* `KeysFrom`: where keys may come from. `resolveEntityKeys_eq_ok`: they come from nowhere else.
* `resolveEntityKeys_inline`: metadata with nothing but an inline set have its keys.
-/

namespace OidFed

open Js

inductive EntityKeysSource where
  | jwks
  | jwksUri
  | signedJwksUri
  deriving DecidableEq, Repr

def EntityKeysSource.text : EntityKeysSource → String
  | jwks => "jwks"
  | jwksUri => "jwks_uri"
  | signedJwksUri => "signed_jwks_uri"

structure ResolveEntityKeysOptions extends ClientOptions where
  /-- When true, falls through to the next-priority representation on failure. -/
  allowFallback : Bool := false

structure ResolvedEntityKeys where
  keys : JWKSet
  source : EntityKeysSource
  deriving DecidableEq

/-- What the requests for the two kinds of sets are told, and when a signed set is verified. -/
structure EntityKeysRun where
  signed : FetchRun
  plain : FetchRun
  verifiedAt : Rat

/-- A run that reaches no server. -/
def EntityKeysRun.unreached (now : Rat) : EntityKeysRun where
  signed := { respond := fun _ => .error .other }
  plain := { respond := fun _ => .error .other }
  verifiedAt := now

/-- The keys that the schemas read of a set. -/
def jwkSetKeys (v : Json) : JWKSet := publishedJwks ((jwksOf v).map looseCopy)

/-- Signed JWK Set payload. -/
def signedJwkSetPayloadSchema (P : Platform) : Schema :=
  Schema.looseObject
    [{ name := "iss", schema := entityIdSchema P },
      { name := "sub", schema := entityIdSchema P },
      { name := "keys", schema := Schema.nonEmptyArray jwkSchema },
      { name := "iat", schema := Schema.positiveInt, optional := true },
      { name := "exp", schema := Schema.positiveInt, optional := true }]

def metadataStop {α : Type} (description : String) : Except Stop α :=
  .error (.fail (federationError .InvalidMetadata description))

/-- The keys of a set that has a `use` on every key where it must. -/
def requireUse (P : Platform) (keys : JWKSet) : Except Stop JWKSet :=
  match validateJwkSetUseRequirement P keys with
  | .error _ => .error .throws
  | .ok (some e) => .error (.fail e)
  | .ok none => .ok keys

section Fetch

variable (H : ClientHost)

/-- The check of an endpoint, with another code. -/
def checkJwksUrl (url : String) : Except Stop Unit :=
  match checkEndpointUrl H "Invalid URL" "URL" url with
  | .error e => metadataStop e.description
  | .ok _ => .ok ()

/-- Fetch and parse a plain JWK Set from `jwks_uri`. -/
def fetchJwkSet (url : String) (options : FetchOptions) (run : FetchRun) : Except Stop JWKSet := do
  checkJwksUrl H url
  let text ← (performFetch H url
    { options with accept := some MediaType.json, expectedContentType := some none } run).2.mapError
      Stop.fail
  match H.parseJson text with
  | none => metadataStop s!"jwks_uri response is not valid JSON: {url}"
  | some raw =>
    if jwkSetSchema raw then requireUse H.toPlatform (jwkSetKeys raw)
    else metadataStop ("jwks_uri response is not a valid JWK Set: " ++ H.zodMessage "JWKSet" raw)

/-- Verify and validate a Signed JWK Set JWT. -/
def verifySignedJwkSet (jwt : String) (signerJwks : JWKSet) (clockSkew now : Rat) :
    Except Stop JWKSet := do
  let keys ← (verifySignedResponse H jwt signerJwks clockSkew now JwtTyp.jwkSet "SignedJwkSetPayload"
    "Invalid signed JWK Set payload: " (signedJwkSetPayloadSchema H.toPlatform) fun payload =>
      jwkSetKeys (.obj payload.members)).mapError Stop.fail
  requireUse H.toPlatform keys

/-- Fetch and verify a Signed JWK Set from `signed_jwks_uri`. -/
def fetchSignedJwkSet (url : String) (signerJwks : JWKSet) (options : ClientOptions) (run : FetchRun)
    (now : Rat) : Except Stop JWKSet := do
  checkJwksUrl H url
  let jwt ← (performFetch H url (options.expecting MediaType.jwkSet) run).2.mapError Stop.fail
  verifySignedJwkSet H jwt signerJwks options.clockSkew now

end Fetch

section Resolve

variable (H : ClientHost) (entityMetadata : Payload) (federationEntityKeys : JWKSet)
  (options : ResolveEntityKeysOptions) (run : EntityKeysRun)

/-- The representations that are there, the preferred ones first. -/
def presentSources : List EntityKeysSource :=
  (if (entityMetadata.string? "signed_jwks_uri").any (· != "") then [.signedJwksUri] else []) ++
  (if Json.truthy? (entityMetadata.get? "jwks") then [.jwks] else []) ++
  (if (entityMetadata.string? "jwks_uri").any (· != "") then [.jwksUri] else [])

def tryResolveSource : EntityKeysSource → Except Stop JWKSet
  | .signedJwksUri => do
    let keys ← fetchSignedJwkSet H ((entityMetadata.string? "signed_jwks_uri").getD "")
      federationEntityKeys options.toClientOptions run.signed run.verifiedAt
    requireUse H.toPlatform keys
  | .jwks =>
    let inlineJwks := (entityMetadata.get? "jwks").getD .null
    if jwkSetSchema inlineJwks then requireUse H.toPlatform (jwkSetKeys inlineJwks)
    else metadataStop ("Inline 'jwks' is not a valid JWK Set: " ++ H.zodMessage "JWKSet" inlineJwks)
  | .jwksUri =>
    fetchJwkSet H ((entityMetadata.string? "jwks_uri").getD "") options.toFetchOptions run.plain

/-- The loop over the representations, with the errors so far. -/
def resolveSources : List (EntityKeysSource × FederationError) → List EntityKeysSource →
    Except Stop ResolvedEntityKeys
  | errors, [] =>
    metadataStop ("All JWK Set representations failed to resolve: " ++
      "; ".intercalate (errors.map fun e => s!"[{e.1.text}] {e.2.description}"))
  | errors, source :: rest =>
    match tryResolveSource H entityMetadata federationEntityKeys options run source with
    | .ok keys => .ok { keys, source }
    | .error (.fail e) =>
      if options.allowFallback then resolveSources (errors ++ [(source, e)]) rest
      else .error (.fail e)
    | .error stop => .error stop

/-- Resolve an entity's public keys from its entity-type metadata. -/
def resolveEntityKeys : Except Stop ResolvedEntityKeys :=
  match presentSources entityMetadata with
  | [] => metadataStop
      "Entity metadata contains no JWK Set representation (signed_jwks_uri, jwks, or jwks_uri)"
  | sources => resolveSources H entityMetadata federationEntityKeys options run [] sources

/-! ## Where keys come from -/

/-- The keys that the metadata of an entity lead to: they are stated inline, or are fetched from the URL
that is stated. A signed set verifies under the Federation Entity Keys. -/
inductive KeysFrom : ResolvedEntityKeys → Prop
  | inline {jwks : Json} : entityMetadata.get? "jwks" = some jwks → jwkSetSchema jwks = true →
      KeysFrom ⟨jwkSetKeys jwks, .jwks⟩
  | signed {url jwt : String} {es : ParsedEntityStatement} :
      entityMetadata.get? "signed_jwks_uri" = some (.str url) →
      (performFetch H url (options.expecting MediaType.jwkSet) run.signed).2 = .ok jwt →
      verifyEntityStatement H.toPlatform jwt federationEntityKeys options.clockSkew run.verifiedAt
        JwtTyp.jwkSet = .ok es →
      KeysFrom ⟨jwkSetKeys (.obj es.payload.members), .signedJwksUri⟩
  | plain {url text : String} {raw : Json} : entityMetadata.get? "jwks_uri" = some (.str url) →
      (performFetch H url { options with
        accept := some MediaType.json, expectedContentType := some none } run.plain).2 = .ok text →
      H.parseJson text = some raw → jwkSetSchema raw = true → KeysFrom ⟨jwkSetKeys raw, .jwksUri⟩

end Resolve

section Resolved

variable {H : ClientHost} {entityMetadata : Payload} {federationEntityKeys : JWKSet}
  {options : ResolveEntityKeysOptions} {run : EntityKeysRun} {keys keys' : JWKSet}

theorem requireUse_eq_ok {P : Platform} (h : requireUse P keys = .ok keys') :
    keys' = keys ∧ validateJwkSetUseRequirement P keys = .ok none := by
  unfold requireUse at h
  split at h
  · cases h
  · cases h
  · rename_i huse
    exact ⟨(Except.ok.inj h).symm, huse⟩

theorem mapError_eq_ok {ε ε' α : Type} {x : Except ε α} {f : ε → ε'} {a : α} :
    x.mapError f = .ok a ↔ x = .ok a := by
  cases x <;> simp [Except.mapError]

theorem fetchJwkSet_eq_ok {url : String} {fetchOptions : FetchOptions} {fetch : FetchRun}
    (h : fetchJwkSet H url fetchOptions fetch = .ok keys) :
    ∃ text raw, (performFetch H url { fetchOptions with
        accept := some MediaType.json, expectedContentType := some none } fetch).2 = .ok text ∧
      H.parseJson text = some raw ∧ jwkSetSchema raw = true ∧ keys = jwkSetKeys raw ∧
      validateJwkSetUseRequirement H.toPlatform keys = .ok none := by
  obtain ⟨⟨⟩, -, h⟩ := bind_eq_ok.mp h
  obtain ⟨text, hfetch, h⟩ := bind_eq_ok.mp h
  split at h
  · cases h
  · rename_i raw hparse
    split at h
    · rename_i hschema
      obtain ⟨rfl, huse⟩ := requireUse_eq_ok h
      exact ⟨text, raw, mapError_eq_ok.mp hfetch, hparse, hschema, rfl, huse⟩
    · cases h

theorem fetchSignedJwkSet_eq_ok {url : String} {clientOptions : ClientOptions} {fetch : FetchRun}
    {now : Rat}
    (h : fetchSignedJwkSet H url federationEntityKeys clientOptions fetch now = .ok keys) :
    ∃ jwt es, (performFetch H url (clientOptions.expecting MediaType.jwkSet) fetch).2 = .ok jwt ∧
      verifyEntityStatement H.toPlatform jwt federationEntityKeys clientOptions.clockSkew now
        JwtTyp.jwkSet = .ok es ∧ keys = jwkSetKeys (.obj es.payload.members) := by
  obtain ⟨⟨⟩, -, h⟩ := bind_eq_ok.mp h
  obtain ⟨jwt, hfetch, h⟩ := bind_eq_ok.mp h
  obtain ⟨verified, hverified, h⟩ := bind_eq_ok.mp h
  obtain ⟨es, hes, hdata⟩ := bind_eq_ok.mp (mapError_eq_ok.mp hverified)
  split at hdata
  · obtain rfl := Except.ok.inj hdata
    exact ⟨jwt, es, mapError_eq_ok.mp hfetch, hes, (requireUse_eq_ok h).1⟩
  · cases hdata

theorem string_of_present (name : String)
    (h : (entityMetadata.string? name).any (· != "") = true) :
    entityMetadata.get? name = some (.str ((entityMetadata.string? name).getD "")) := by
  cases hs : entityMetadata.string? name with
  | none => simp [hs] at h
  | some s => exact Payload.string?_eq_some.mp hs

theorem tryResolveSource_eq_ok {source : EntityKeysSource}
    (hpresent : source ∈ presentSources entityMetadata)
    (h : tryResolveSource H entityMetadata federationEntityKeys options run source = .ok keys) :
    KeysFrom H entityMetadata federationEntityKeys options run ⟨keys, source⟩ ∧
      validateJwkSetUseRequirement H.toPlatform keys = .ok none := by
  cases source with
  | signedJwksUri =>
    have hurl := string_of_present "signed_jwks_uri"
      (by simpa [presentSources] using hpresent)
    obtain ⟨fetched, hfetched, h⟩ := bind_eq_ok.mp h
    obtain ⟨rfl, huse⟩ := requireUse_eq_ok h
    obtain ⟨jwt, es, hfetch, hverified, rfl⟩ := fetchSignedJwkSet_eq_ok hfetched
    exact ⟨.signed hurl hfetch hverified, huse⟩
  | jwks =>
    have htruthy : Json.truthy? (entityMetadata.get? "jwks") = true := by
      simpa [presentSources] using hpresent
    dsimp only [tryResolveSource] at h
    split at h
    · rename_i hschema
      obtain ⟨rfl, huse⟩ := requireUse_eq_ok h
      cases hjwks : entityMetadata.get? "jwks" with
      | none =>
        rw [hjwks] at htruthy
        cases htruthy
      | some jwks =>
        rw [hjwks] at hschema huse
        exact ⟨.inline hjwks hschema, huse⟩
    · cases h
  | jwksUri =>
    have hurl := string_of_present "jwks_uri" (by simpa [presentSources] using hpresent)
    obtain ⟨text, raw, hfetch, hparse, hschema, rfl, huse⟩ := fetchJwkSet_eq_ok h
    exact ⟨.plain hurl hfetch hparse hschema, huse⟩

/-- The loop returns the keys of a representation that it has tried. -/
theorem resolveSources_eq_ok {errors : List (EntityKeysSource × FederationError)}
    {sources : List EntityKeysSource} {resolved : ResolvedEntityKeys}
    (h : resolveSources H entityMetadata federationEntityKeys options run errors sources =
      .ok resolved) : resolved.source ∈ sources ∧
    tryResolveSource H entityMetadata federationEntityKeys options run resolved.source =
      .ok resolved.keys := by
  induction sources generalizing errors with
  | nil => cases h
  | cons source rest ih =>
    unfold resolveSources at h
    split at h
    · rename_i keys hkeys
      obtain rfl := Except.ok.inj h
      exact ⟨List.mem_cons_self, hkeys⟩
    · split at h
      · obtain ⟨hmem, htried⟩ := ih h
        exact ⟨List.mem_cons_of_mem _ hmem, htried⟩
      · cases h
    · cases h

/-- Keys come from the metadata, and have a `use` where they must. -/
theorem resolveEntityKeys_eq_ok {resolved : ResolvedEntityKeys}
    (h : resolveEntityKeys H entityMetadata federationEntityKeys options run = .ok resolved) :
    KeysFrom H entityMetadata federationEntityKeys options run resolved ∧
      validateJwkSetUseRequirement H.toPlatform resolved.keys = .ok none := by
  unfold resolveEntityKeys at h
  split at h
  · cases h
  · obtain ⟨hmem, htried⟩ := resolveSources_eq_ok h
    exact tryResolveSource_eq_ok hmem htried

/-- Where no representation but an inline set is there, its keys are those of the entity. -/
theorem resolveEntityKeys_inline {jwks : Json} (hjwks : entityMetadata.get? "jwks" = some jwks)
    (hsigned : entityMetadata.get? "signed_jwks_uri" = none)
    (hplain : entityMetadata.get? "jwks_uri" = none) {resolved : ResolvedEntityKeys}
    (h : resolveEntityKeys H entityMetadata federationEntityKeys options run = .ok resolved) :
    jwkSetSchema jwks = true ∧ resolved = ⟨jwkSetKeys jwks, .jwks⟩ := by
  obtain ⟨hfrom, -⟩ := resolveEntityKeys_eq_ok h
  cases hfrom with
  | inline hget hschema =>
    obtain rfl := Option.some.inj (hjwks.symm.trans hget)
    exact ⟨hschema, rfl⟩
  | signed hget _ _ =>
    rw [hsigned] at hget
    cases hget
  | plain hget _ _ _ =>
    rw [hplain] at hget
    cases hget

end Resolved

end OidFed
