import OidFed.Chain.Staged
import OidFed.Client.EntityKeys
import OidFed.Registration.Schemas
import OidFed.Replay.Wallet

/-!
# Metadata of credential verifiers (`wallet/src/metadata.ts`, `wallet/src/trust.ts`)

* `dcqlQuerySchema`, `dcqlQueryOutput`: DCQL queries, and what the schema makes of them.
* `credentialVerifierMetadataSchema`: the metadata of a verifier, with the endpoints and the queries
  that it has registered.
* `roleMetadata`: what a wallet reads of the resolved metadata of a chain.
-/

namespace OidFed

open Js Schema

/-! ## Queries -/

/-- Every item of an array, changed. -/
def arrayOutput (f : Json → Json) : Json → Json
  | .arr l => .arr (l.map f)
  | v => v

/-- The output of an object whose members are left as they are. -/
def plainOutput : Json → Json := objectOutput fun _ v => v

def integerSchema : Schema
  | .num q => Json.isSafeInteger q
  | _ => false

/-- `/^[A-Za-z0-9_-]+$/`. -/
def identifierSchema : Schema
  | .str s => s != "" && s.toList.all fun c => c.isAlphanum || c == '_' || c == '-'
  | _ => false

def stringsSchema : Schema := nonEmptyArray string

def algorithmSchema : Schema := fun v => string v || integerSchema v

def claimPathSchema : Schema :=
  nonEmptyArray fun v => string v || v.isNull || nonnegativeInt v

def claimQuerySchema : Schema :=
  looseObject
    [{ name := "id", schema := identifierSchema, optional := true },
      { name := "path", schema := claimPathSchema },
      { name := "values", optional := true,
        schema := nonEmptyArray fun v => string v || integerSchema v || booleanSchema v }]

/-- The items under a name, none where there is no array. -/
def itemsAt (v : Json) (name : String) : List Json := ((v.get? name).bind Json.items?).getD []

/-- The identifiers of the claims of a query are distinct, and so are their paths. -/
def distinctClaims (query : Json) : Bool :=
  decide ((itemsAt query "claims").filterMap (·.get? "id")).Nodup &&
    decide ((itemsAt query "claims").map (·.get? "path")).Nodup

/-- Claim sets reference named claims. -/
def claimSetsNamed (query : Json) : Bool :=
  let claims := itemsAt query "claims"
  let ids := claims.filterMap (·.get? "id")
  (query.get? "claim_sets").isNone ||
    ((query.get? "claims").isSome && claims.all (fun claim => (claim.get? "id").isSome) &&
      (itemsAt query "claim_sets").all fun set => ((set.items?).getD []).all ids.contains)

def isPairOfNames (path : Json) : Bool :=
  match path with
  | .arr [.str _, .str _] => true
  | _ => false

/-- What a query says about credentials of its format. -/
def formatMeta (query : Json) : Bool :=
  let metaOf (name : String) := (query.get? "meta").bind (·.get? name)
  match query.get? "format" with
  | some (.str "mso_mdoc") =>
    (metaOf "doctype_value").any string &&
      (itemsAt query "claims").all fun claim => (claim.get? "path").any isPairOfNames
  | some (.str "dc+sd-jwt") => (metaOf "vct_values").any stringsSchema
  | some (.str format) =>
    if ["jwt_vc_json", "jwt_vc_json-ld", "ldp_vc"].contains format then
      (metaOf "type_values").any (nonEmptyArray stringsSchema)
    else true
  | _ => true

def credentialQuerySchema : Schema := fun v =>
  looseObject
    [{ name := "id", schema := identifierSchema }, { name := "format", schema := string },
      { name := "meta", schema := anyRecord },
      { name := "multiple", schema := booleanSchema, optional := true },
      { name := "trusted_authorities", optional := true,
        schema := nonEmptyArray (looseObject
          [{ name := "type", schema := string }, { name := "values", schema := stringsSchema }]) },
      { name := "require_cryptographic_holder_binding", schema := booleanSchema, optional := true },
      { name := "claims", schema := nonEmptyArray claimQuerySchema, optional := true },
      { name := "claim_sets", schema := nonEmptyArray (array identifierSchema), optional := true }] v &&
    distinctClaims v && claimSetsNamed v && formatMeta v

/-- The identifiers of the credentials of a query. -/
def credentialIds (query : Json) : List Json := (itemsAt query "credentials").filterMap (·.get? "id")

def dcqlQuerySchema : Schema := fun v =>
  looseObject
    [{ name := "credentials", schema := nonEmptyArray credentialQuerySchema },
      { name := "credential_sets", optional := true,
        schema := nonEmptyArray (looseObject
          [{ name := "options", schema := nonEmptyArray stringsSchema },
            { name := "required", schema := booleanSchema, optional := true }]) }] v &&
    decide (credentialIds v).Nodup &&
    (itemsAt v "credential_sets").all fun set =>
      (itemsAt set "options").all fun option => ((option.items?).getD []).all (credentialIds v).contains

/-- The output of a query: an object or a record at any level is without a member `__proto__`. -/
def dcqlQueryOutput : Json → Json :=
  objectOutput fun name v =>
    if name = "credentials" then
      arrayOutput (objectOutput fun name v =>
        if name = "meta" then plainOutput v
        else if name = "trusted_authorities" ∨ name = "claims" then arrayOutput plainOutput v
        else v) v
    else if name = "credential_sets" then arrayOutput plainOutput v
    else v

/-- `DcqlQuerySchema.safeParse`. -/
def parseDcqlQuery (v : Option Json) : Option Json :=
  (v.filter dcqlQuerySchema).map dcqlQueryOutput

/-! ## Verifiers -/

section Metadata

variable (P : Platform)

def httpsSchema : Schema := fun v =>
  ((urlOutput P (some v)).bind P.parseUrl).any fun u => u.protocol == "https:"

def formatCapabilitiesSchema : Schema :=
  record (looseObject
    (optionalFields stringsSchema ["alg_values", "proof_type_values", "cryptosuite_values",
        "sd-jwt_alg_values", "kb-jwt_alg_values"] ++
      optionalFields (nonEmptyArray algorithmSchema)
        ["issuerauth_alg_values", "deviceauth_alg_values"]))

/-- The lists of endpoints of a verifier. -/
def endpointFields : List String := ["request_uris", "response_uris", "redirect_uris"]

def credentialVerifierMetadataSchema : Schema :=
  looseObject
    ({ name := "vp_formats_supported", schema := formatCapabilitiesSchema } ::
      optionalFields jwkSetSchema ["jwks"] ++
      optionalFields (httpsSchema P) ["jwks_uri", "signed_jwks_uri"] ++
      optionalFields (nonEmptyArray (httpsSchema P)) endpointFields ++
      optionalFields (nonEmptyArray dcqlQuerySchema) ["dcql_queries"])

/-- The output of a parameter of a verifier. -/
def verifierParameter (name : String) (v : Json) : Json :=
  if name = "vp_formats_supported" then objectOutput (fun _ => plainOutput) v
  else if name = "jwks" then
    objectOutput (fun name v => if name = "keys" then arrayOutput plainOutput v else v) v
  else if name = "jwks_uri" ∨ name = "signed_jwks_uri" then urlValue P v
  else if endpointFields.contains name then arrayOutput (urlValue P) v
  else if name = "dcql_queries" then arrayOutput dcqlQueryOutput v
  else v

end Metadata

/-- What the wallet package runs on, beside `jose`. -/
structure WalletHost extends WalletPlatform, ClientHost where
  /-- The message of a schema for the metadata of a role that it refuses. -/
  roleMessage : Option Json → String
  /-- The JSON value that a text encodes in base64url, `none` where decoding or parsing throws. -/
  decodeJson : String → Option Json

/-- The metadata of the subject of a chain as a credential verifier. -/
def roleMetadata (H : WalletHost) (id entityId : String) (resolvedMetadata : FederationMetadata) :
    Except FederationError Payload :=
  if entityId != id then
    walletFailure "Trust chain subject does not match the requested entity"
  else
    let raw := (resolvedMetadata.get? "openid_credential_verifier").map fun params =>
      Json.obj params.members
    match raw.filter (credentialVerifierMetadataSchema H.toPlatform) with
    | none => .error (federationError .InvalidMetadata (H.roleMessage raw))
    | some v => .ok (membersOf (objectOutput (verifierParameter H.toPlatform) v))

/-! ## What a wallet reads -/

section Role

variable {H : WalletHost} {id entityId : String} {resolvedMetadata : FederationMetadata}
  {metadata : Payload}

theorem roleMetadata_eq_ok (h : roleMetadata H id entityId resolvedMetadata = .ok metadata) :
    entityId = id ∧ ∃ params : EntityMetadata,
      resolvedMetadata.get? "openid_credential_verifier" = some params ∧
      credentialVerifierMetadataSchema H.toPlatform (.obj params.members) = true ∧
      metadata = membersOf (objectOutput (verifierParameter H.toPlatform) (.obj params.members)) := by
  unfold roleMetadata at h
  split at h
  · cases h
  · rename_i hid
    refine ⟨by simpa using hid, ?_⟩
    simp only at h
    split at h
    · cases h
    · rename_i v hv
      obtain ⟨hraw, hschema⟩ := Option.filter_eq_some_iff.mp hv
      obtain ⟨params, hparams, rfl⟩ := Option.map_eq_some_iff.mp hraw
      exact ⟨params, hparams, hschema, (Except.ok.inj h).symm⟩

/-- A parameter that a wallet reads is the resolved one, as the schema gives it. -/
theorem roleMetadata_get? (h : roleMetadata H id entityId resolvedMetadata = .ok metadata)
    {name : String} (hname : name ≠ "__proto__") :
    metadata.get? name =
      (metadataParameter resolvedMetadata "openid_credential_verifier" name).map
        (verifierParameter H.toPlatform name) := by
  obtain ⟨-, params, hparams, -, rfl⟩ := roleMetadata_eq_ok h
  have hnodup : (((params.members.filter fun p => p.1 != "__proto__").map fun p =>
      (p.1, verifierParameter H.toPlatform p.1 p.2)).map Prod.fst).Nodup := by
    rw [List.map_map]
    exact params.nodup.sublist (List.filter_sublist.map _)
  rw [metadataParameter, hparams, Option.bind_some]
  exact (Dict.get?_ofEntries hnodup name).trans (objectOutput_get? hname)

/-- The queries that a wallet reads are those of the resolved metadata. -/
theorem roleMetadata_queries (h : roleMetadata H id entityId resolvedMetadata = .ok metadata)
    {v : Json} (hv : metadata.get? "dcql_queries" = some v) :
    ∃ queries, metadataParameter resolvedMetadata "openid_credential_verifier" "dcql_queries" =
      some (.arr queries) ∧ v = .arr (queries.map dcqlQueryOutput) := by
  rw [roleMetadata_get? h (by decide)] at hv
  obtain ⟨raw, hraw, rfl⟩ := Option.map_eq_some_iff.mp hv
  obtain ⟨-, params, hparams, hschema, -⟩ := roleMetadata_eq_ok h
  have hfield := looseObject_field hschema
    (f := { name := "dcql_queries", schema := nonEmptyArray dcqlQuerySchema, optional := true })
    (by simp [optionalFields, endpointFields])
  rw [metadataParameter, hparams, Option.bind_some] at hraw
  simp only [hraw] at hfield
  cases raw with
  | arr queries => exact ⟨queries, by rw [metadataParameter, hparams]; exact hraw, rfl⟩
  | _ => cases hfield

/-- An endpoint that a wallet reads is one of the resolved metadata, trimmed. -/
theorem roleMetadata_endpoint (h : roleMetadata H id entityId resolvedMetadata = .ok metadata)
    {field : String} (hfield : field ∈ endpointFields) {registered : List Json}
    (hregistered : metadata.get? field = some (.arr registered)) {text : String}
    (hmem : .str text ∈ registered) :
    ∃ raws, metadataParameter resolvedMetadata "openid_credential_verifier" field =
      some (.arr raws) ∧ ∃ raw ∈ raws, urlOutput H.toPlatform (some raw) = some text := by
  have hfields : ∀ name ∈ endpointFields, name ≠ "__proto__" ∧
      verifierParameter H.toPlatform name = arrayOutput (urlValue H.toPlatform) := by
    intro name hname
    simp only [endpointFields, List.mem_cons, List.not_mem_nil, or_false] at hname
    rcases hname with rfl | rfl | rfl <;> exact ⟨by decide, rfl⟩
  obtain ⟨hproto, hparameter⟩ := hfields field hfield
  rw [roleMetadata_get? h hproto, hparameter] at hregistered
  obtain ⟨value, hvalue, harray⟩ := Option.map_eq_some_iff.mp hregistered
  obtain ⟨-, params, hparams, hschema, -⟩ := roleMetadata_eq_ok h
  have hlist := looseObject_field hschema
    (f := { name := field, schema := nonEmptyArray (httpsSchema H.toPlatform), optional := true })
    (by simp [optionalFields, hfield])
  have hget : params.get? field = some value := by
    rw [metadataParameter, hparams, Option.bind_some] at hvalue
    exact hvalue
  simp only [hget] at hlist
  cases value with
  | arr raws =>
    obtain rfl := Json.arr.inj harray
    obtain ⟨raw, hraw, hurl⟩ := List.mem_map.mp hmem
    have hhttps := List.all_eq_true.mp (Bool.and_eq_true_iff.mp hlist).2 raw hraw
    obtain ⟨u, hu, -⟩ := (Option.any_eq_true _ _).mp hhttps
    obtain ⟨output, houtput, -⟩ := Option.bind_eq_some_iff.mp hu
    refine ⟨raws, hvalue, raw, hraw, ?_⟩
    rw [urlValue, houtput] at hurl
    rw [houtput, Json.str.inj hurl]
  | _ => cases hlist

end Role

end OidFed
