import OidFed.Platform

/-!
# Schemas (`schemas/*.ts`)

A `Schema` says whether `zod` accepts a value. Objects are loose: members that a schema does not
name are accepted, and `zod` passes over a member called `__proto__` of a record.

Two refinements compare the output of `z.url()`, which is the trimmed text, and not the text
itself: see `urlOutput`.
-/

namespace OidFed

open Js

abbrev Schema := Json → Bool

/-- A member that an object schema names. -/
structure SchemaField where
  name : String
  schema : Schema
  optional : Bool := false

namespace Schema

def string : Schema := Json.isString

def positiveInt : Schema
  | .num q => Json.isSafeInteger q && decide (0 < q)
  | _ => false

/-- `z.number().int()`. -/
def int : Schema
  | .num q => Json.isSafeInteger q
  | _ => false

def number : Schema
  | .num _ => true
  | _ => false

def array (s : Schema) : Schema
  | .arr l => l.all s
  | _ => false

def nonEmptyArray (s : Schema) : Schema
  | .arr l => !l.isEmpty && l.all s
  | _ => false

def record (s : Schema) : Schema
  | .obj l => l.all fun p => p.1 == "__proto__" || s p.2
  | _ => false

def anyRecord : Schema := record fun _ => true

def enum (values : List String) : Schema
  | .str s => values.contains s
  | _ => false

def looseObject (fields : List SchemaField) : Schema
  | .obj l => fields.all fun f =>
    match l.lookup f.name with
    | none => f.optional
    | some v => f.schema v
  | _ => false

end Schema

open Schema

/-- A named member of an accepted object has been accepted. -/
theorem looseObject_field {fields : List SchemaField} {p : Payload}
    (h : looseObject fields (.obj p.members) = true) {f : SchemaField} (hf : f ∈ fields) :
    match p.get? f.name with
    | none => f.optional = true
    | some v => f.schema v = true := by
  have hfield := List.all_eq_true.mp h f hf
  unfold Dict.get?
  cases hl : p.members.lookup f.name with
  | none => simpa [hl] using hfield
  | some v => simpa [hl] using hfield

/-- `s.length`, in UTF-16 units. -/
def utf16Length (s : String) : Nat :=
  (s.toList.map fun c => if 0x10000 ≤ c.toNat then 2 else 1).sum

section Schemas

variable (P : Platform)

/-- The output of `z.url()` on a value. -/
def urlOutput (v : Option Json) : Option String := (v.bind Json.string?).bind P.zodUrl

def urlSchema : Schema := fun v => (urlOutput P (some v)).isSome

def entityIdSchema : Schema := fun v =>
  match urlOutput P (some v) with
  | none => false
  | some text =>
    decide (utf16Length text ≤ 2048) &&
      match P.parseUrl text with
      | none => false
      | some u => u.protocol == "https:" && u.username == "" && u.password == "" &&
          u.search == "" && u.hash == ""

/-- Whether a string is an Entity Identifier, without the schema. -/
def isValidEntityId (value : String) : Bool :=
  decide (utf16Length value ≤ 2048) &&
    match P.parseUrl value with
    | none => false
    | some u => u.protocol == "https:" && u.username == "" && u.password == "" &&
        u.search == "" && u.hash == ""

def privateKeyFields : List String := ["d", "p", "q", "dp", "dq", "qi", "oth", "k"]

def jwkSchema : Schema := fun v =>
  looseObject
    [{ name := "kty", schema := enum ["RSA", "EC", "OKP"] },
      { name := "kid", schema := fun v => v.isString && v != .str "", optional := true },
      { name := "use", schema := enum ["sig", "enc"], optional := true },
      { name := "alg", schema := string, optional := true },
      { name := "key_ops", optional := true,
        schema := array (enum ["sign", "verify", "encrypt", "decrypt", "wrapKey", "unwrapKey",
          "deriveKey", "deriveBits"]) },
      { name := "n", schema := string, optional := true },
      { name := "e", schema := string, optional := true },
      { name := "crv", schema := string, optional := true },
      { name := "x", schema := string, optional := true },
      { name := "y", schema := string, optional := true }] v &&
    privateKeyFields.all fun f => (v.get? f).isNone

/-- Every key of a set has a `kid` of its own. -/
def jwkSetSchema : Schema := fun v =>
  looseObject [{ name := "keys", schema := nonEmptyArray jwkSchema }] v &&
    (jwksOf v).all (fun k => match k.get? "kid" with | some (.str s) => s != "" | _ => false) &&
    decide ((jwksOf v).map fun k => k.get? "kid").Nodup

def domainPattern : Schema
  | .str s => s != "" && !s.toList.contains '*' && !s.toList.contains '?'
  | _ => false

def namingConstraintsSchema : Schema :=
  looseObject
    [{ name := "permitted", schema := array domainPattern, optional := true },
      { name := "excluded", schema := array domainPattern, optional := true }]

def maxPathLengthSchema : Schema
  | .num q => Json.isSafeInteger q && decide (0 ≤ q) && decide (q ≤ 100)
  | _ => false

def trustChainConstraintsSchema : Schema :=
  looseObject
    [{ name := "max_path_length", schema := maxPathLengthSchema, optional := true },
      { name := "naming_constraints", schema := namingConstraintsSchema, optional := true },
      { name := "allowed_entity_types", optional := true,
        schema := array (enum ["openid_relying_party", "openid_provider",
          "oauth_authorization_server", "oauth_client", "oauth_resource", "openid_wallet_provider",
          "openid_credential_issuer", "openid_credential_verifier"]) }]

def trustMarkRefSchema : Schema :=
  looseObject
    [{ name := "trust_mark_type", schema := string }, { name := "trust_mark", schema := string }]

def trustMarkOwnerSchema : Schema :=
  looseObject
    [{ name := "sub", schema := entityIdSchema P }, { name := "jwks", schema := jwkSetSchema }]

/-- URL with the `https` scheme and without a fragment. -/
def httpsUrlNoFragment : Schema := fun v =>
  match urlOutput P (some v) with
  | none => false
  | some text =>
    match P.parseUrl text with
    | none => false
    | some u => u.protocol == "https:" && !u.href.toList.contains '#'

def federationEntityMetadataSchema : Schema :=
  looseObject
    ((["federation_fetch_endpoint", "federation_list_endpoint", "federation_extended_list_endpoint",
        "federation_subordinate_events_endpoint", "federation_resolve_endpoint",
        "federation_collection_endpoint", "federation_trust_mark_status_endpoint",
        "federation_trust_mark_list_endpoint", "federation_trust_mark_endpoint",
        "federation_historical_keys_endpoint"].map fun name =>
        { name, schema := httpsUrlNoFragment P, optional := true }) ++
      (["federation_fetch_endpoint_auth_methods", "federation_list_endpoint_auth_methods",
        "federation_extended_list_endpoint_auth_methods",
        "federation_subordinate_events_endpoint_auth_methods",
        "federation_resolve_endpoint_auth_methods", "federation_collection_endpoint_auth_methods",
        "federation_trust_mark_status_endpoint_auth_methods",
        "federation_trust_mark_list_endpoint_auth_methods",
        "federation_trust_mark_endpoint_auth_methods",
        "federation_historical_keys_endpoint_auth_methods"].map fun name =>
        { name, schema := array string, optional := true }) ++
      [{ name := "endpoint_auth_signing_alg_values_supported", optional := true,
          schema := array fun v => v.isString && v != .str "none" },
        { name := "organization_name", schema := string, optional := true },
        { name := "display_name", schema := string, optional := true },
        { name := "description", schema := string, optional := true },
        { name := "keywords", schema := nonEmptyArray string, optional := true },
        { name := "contacts", schema := nonEmptyArray string, optional := true },
        { name := "logo_uri", schema := urlSchema P, optional := true },
        { name := "policy_uri", schema := urlSchema P, optional := true },
        { name := "information_uri", schema := urlSchema P, optional := true },
        { name := "organization_uri", schema := urlSchema P, optional := true }])

def federationMetadataSchema : Schema := fun v =>
  looseObject
    ({ name := "federation_entity", schema := federationEntityMetadataSchema P, optional := true } ::
      ["openid_relying_party", "openid_provider", "oauth_authorization_server", "oauth_client",
        "oauth_resource", "openid_wallet_provider", "openid_credential_issuer",
        "openid_credential_verifier"].map fun name =>
        { name, schema := anyRecord, optional := true }) v &&
    match v with
    | .obj l => (l.any fun p => p.1 != "__proto__") &&
        l.all fun p => p.1 == "__proto__" || p.2.isObject
    | _ => false

/-! ## Entity Statements -/

def audSchema : Schema := fun v => v.isString || array string v

/-- The claims that every Entity Statement schema checks, `jwks` and `metadata` apart. -/
def baseEntityStatementFields : List SchemaField :=
  [{ name := "iss", schema := entityIdSchema P },
    { name := "sub", schema := entityIdSchema P },
    { name := "iat", schema := positiveInt },
    { name := "exp", schema := positiveInt },
    { name := "metadata_policy", schema := record anyRecord, optional := true },
    { name := "constraints", schema := trustChainConstraintsSchema, optional := true },
    { name := "crit", schema := nonEmptyArray string, optional := true },
    { name := "metadata_policy_crit", schema := nonEmptyArray string, optional := true },
    { name := "trust_marks", schema := array trustMarkRefSchema, optional := true },
    { name := "trust_mark_issuers", schema := record (array (entityIdSchema P)), optional := true },
    { name := "trust_mark_owners", schema := record (trustMarkOwnerSchema P), optional := true },
    { name := "aud", schema := audSchema, optional := true }]

/-- `obj.exp > obj.iat`. -/
def expAfterIat (v : Json) : Bool :=
  match v.get? "iat", v.get? "exp" with
  | some (.num iat), some (.num exp) => decide (iat < exp)
  | _, _ => false

def hintFields : List SchemaField :=
  [{ name := "authority_hints", schema := array (entityIdSchema P), optional := true },
    { name := "trust_anchor_hints", schema := nonEmptyArray (entityIdSchema P), optional := true }]

def sourceFields : List SchemaField :=
  [{ name := "source_endpoint", schema := urlSchema P, optional := true },
    { name := "trust_anchor", schema := urlSchema P, optional := true }]

def metadataRecordField : SchemaField :=
  { name := "metadata", schema := record anyRecord, optional := true }

/-- Self-signed Entity Configuration. -/
def entityConfigurationSchema : Schema := fun v =>
  looseObject
    ({ name := "jwks", schema := jwkSetSchema } ::
      { name := "metadata", schema := federationMetadataSchema P, optional := true } ::
      (baseEntityStatementFields P ++ hintFields P)) v &&
    expAfterIat v && urlOutput P (v.get? "iss") == urlOutput P (v.get? "sub")

/-- Subordinate Statement issued by a superior about a subordinate entity. -/
def subordinateStatementSchema : Schema := fun v =>
  looseObject
    ({ name := "jwks", schema := jwkSetSchema } :: metadataRecordField ::
      (baseEntityStatementFields P ++ sourceFields P)) v &&
    expAfterIat v && urlOutput P (v.get? "iss") != urlOutput P (v.get? "sub")

def trustMarkPayloadSchema : Schema :=
  looseObject
    [{ name := "iss", schema := entityIdSchema P },
      { name := "sub", schema := entityIdSchema P },
      { name := "trust_mark_type", schema := string },
      { name := "iat", schema := positiveInt },
      { name := "exp", schema := positiveInt, optional := true },
      { name := "logo_uri", schema := urlSchema P, optional := true },
      { name := "ref", schema := urlSchema P, optional := true },
      { name := "delegation", schema := string, optional := true }]

def trustMarkDelegationPayloadSchema : Schema :=
  looseObject
    [{ name := "iss", schema := entityIdSchema P },
      { name := "sub", schema := entityIdSchema P },
      { name := "trust_mark_type", schema := string },
      { name := "iat", schema := positiveInt },
      { name := "exp", schema := positiveInt, optional := true },
      { name := "ref", schema := urlSchema P, optional := true }]

end Schemas

/-! ## Accepted values -/

section Accepted

variable {P : Platform} {p : Payload}

theorem entityIdSchema_string {v : Json} (h : entityIdSchema P v = true) : ∃ s, v = .str s := by
  unfold entityIdSchema urlOutput at h
  cases v with
  | str s => exact ⟨s, rfl⟩
  | _ => simp [Json.string?] at h

theorem positiveInt_number {v : Json} (h : Schema.positiveInt v = true) : ∃ q, v = .num q := by
  cases v with
  | num q => exact ⟨q, rfl⟩
  | _ => simp [Schema.positiveInt] at h

/-- A member that an object schema requires. -/
theorem looseObject_member {fields : List SchemaField} {v : Json}
    (h : Schema.looseObject fields v = true) {f : SchemaField} (hf : f ∈ fields)
    (hr : f.optional = false) : ∃ w, v.get? f.name = some w ∧ f.schema w = true := by
  cases v with
  | obj l =>
    have hfield := List.all_eq_true.mp h f hf
    rw [Json.get?_obj]
    cases hl : l.lookup f.name with
    | none => simp [hl, hr] at hfield
    | some w => exact ⟨w, rfl, by simpa [hl] using hfield⟩
  | _ => simp [Schema.looseObject] at h

/-- A claim that an object schema requires. -/
theorem looseObject_required {fields : List SchemaField}
    (h : Schema.looseObject fields (.obj p.members) = true) {f : SchemaField} (hf : f ∈ fields)
    (hr : f.optional = false) : ∃ v, p.get? f.name = some v ∧ f.schema v = true :=
  looseObject_member h hf hr

/-- The output for an accepted identifier. -/
theorem entityIdSchema_output {v : Json} (h : entityIdSchema P v = true) :
    ∃ text, urlOutput P (some v) = some text := by
  unfold entityIdSchema at h
  cases hu : urlOutput P (some v) with
  | none => simp [hu] at h
  | some text => exact ⟨text, rfl⟩

theorem string_eq_str {v : Json} (h : Schema.string v = true) : ∃ s, v = .str s := by
  cases v with
  | str s => exact ⟨s, rfl⟩
  | _ => simp [Schema.string, Json.isString] at h

end Accepted

end OidFed
