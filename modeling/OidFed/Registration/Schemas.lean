import OidFed.Collection.Evidence

/-!
# Schemas of registration (`oidc/src/schemas/*.ts`)

The metadata of a relying party, in requests and in responses, and the payloads of Explicit
Registration.
-/

namespace OidFed

open Js Schema

def nonnegativeInt : Schema
  | .num q => Json.isSafeInteger q && decide (0 ≤ q)
  | _ => false

def booleanSchema : Schema
  | .bool _ => true
  | _ => false

/-- Members of one schema that may be left out. -/
def optionalFields (schema : Schema) (names : List String) : List SchemaField :=
  names.map fun name => { name, schema, optional := true }

section Schemas

variable (P : Platform)

/-- URL that must use the `https` scheme and must not contain a fragment. A trailing `#` has none. -/
def httpsUrlWithoutHash : Schema := fun v =>
  match (urlOutput P (some v)).bind P.parseUrl with
  | none => false
  | some u => u.protocol == "https:" && u.hash == ""

def commonInformationalMetadataShape : List SchemaField :=
  optionalFields string ["organization_name", "display_name", "description"] ++
    optionalFields (nonEmptyArray string) ["keywords", "contacts"] ++
    optionalFields (urlSchema P) ["logo_uri", "policy_uri", "information_uri", "organization_uri"]

def openIDRelyingPartyMetadataShape : List SchemaField :=
  optionalFields (array (urlSchema P)) ["redirect_uris", "post_logout_redirect_uris"] ++
    optionalFields (array string) ["response_types", "grant_types", "default_acr_values",
      "client_registration_types"] ++
    optionalFields (enum ["web", "native"]) ["application_type"] ++
    optionalFields (enum ["public", "pairwise"]) ["subject_type"] ++
    optionalFields (urlSchema P) ["client_uri", "tos_uri", "sector_identifier_uri",
      "initiate_login_uri", "backchannel_client_notification_endpoint"] ++
    commonInformationalMetadataShape P ++
    optionalFields (httpsUrlWithoutHash P) ["jwks_uri", "signed_jwks_uri"] ++
    optionalFields jwkSetSchema ["jwks"] ++
    optionalFields string ["client_name", "id_token_signed_response_alg",
      "id_token_encrypted_response_alg", "id_token_encrypted_response_enc",
      "userinfo_signed_response_alg", "userinfo_encrypted_response_alg",
      "userinfo_encrypted_response_enc", "request_object_signing_alg",
      "request_object_encryption_alg", "request_object_encryption_enc",
      "token_endpoint_auth_method", "token_endpoint_auth_signing_alg",
      "backchannel_token_delivery_mode", "backchannel_authentication_request_signing_alg",
      "organization_identifier", "scope"] ++
    optionalFields nonnegativeInt ["default_max_age"] ++
    optionalFields booleanSchema ["require_auth_time", "backchannel_user_code_parameter"]

def openidRpRegistrationResponseFields : List String :=
  ["client_id", "client_secret", "client_id_issued_at", "client_secret_expires_at"]

def openIDRelyingPartyMetadataSchema : Schema := fun v =>
  looseObject (openIDRelyingPartyMetadataShape P) v &&
    openidRpRegistrationResponseFields.all fun field => (v.get? field).isNone

/-- The metadata of a relying party in an Explicit Registration Response. -/
def openIDRelyingPartyRegistrationResponseMetadataSchema : Schema :=
  looseObject (openIDRelyingPartyMetadataShape P ++
    { name := "client_id", schema := string } ::
    optionalFields string ["client_secret"] ++
    optionalFields nonnegativeInt ["client_id_issued_at", "client_secret_expires_at"])

def explicitRegistrationRequestPayloadSchema : Schema := fun v =>
  looseObject
    [{ name := "iss", schema := entityIdSchema P }, { name := "sub", schema := entityIdSchema P },
      { name := "aud", schema := string }, { name := "iat", schema := positiveInt },
      { name := "exp", schema := positiveInt }, { name := "jwks", schema := jwkSetSchema },
      { name := "authority_hints", schema := nonEmptyArray (entityIdSchema P) },
      { name := "metadata", schema := federationMetadataSchema P },
      { name := "trust_marks", schema := array trustMarkRefSchema, optional := true }] v &&
    expAfterIat v && urlOutput P (v.get? "iss") == urlOutput P (v.get? "sub") &&
    ((v.get? "metadata").bind (·.get? "openid_relying_party")).isSome

def explicitRegistrationResponseMetadataSchema : Schema := fun v =>
  record anyRecord v &&
    ((v.get? "openid_relying_party").any fun rp =>
      openIDRelyingPartyRegistrationResponseMetadataSchema P rp)

/-- A client secret does not expire before the response. -/
def secretOutlivesResponse (v : Json) : Bool :=
  let rpMetadata := (v.get? "metadata").bind (·.get? "openid_relying_party")
  match rpMetadata.bind (·.get? "client_secret"), rpMetadata.bind (·.get? "client_secret_expires_at"),
    v.get? "exp" with
  | some (.str _), some (.num expires), some (.num exp) => decide (exp ≤ expires)
  | _, _, _ => true

def explicitRegistrationResponsePayloadSchema : Schema := fun v =>
  looseObject
    [{ name := "iss", schema := entityIdSchema P }, { name := "sub", schema := entityIdSchema P },
      { name := "aud", schema := string }, { name := "iat", schema := positiveInt },
      { name := "exp", schema := positiveInt },
      { name := "metadata", schema := explicitRegistrationResponseMetadataSchema P },
      { name := "trust_anchor", schema := entityIdSchema P },
      { name := "authority_hints",
        schema := fun v => array (entityIdSchema P) v && (v.items?.map List.length) == some 1 }] v &&
    expAfterIat v && (v.get? "client_secret").isNone && secretOutlivesResponse v

/-- The members of entity types that are records of their own, with `__proto__` passed over. -/
def recordEntityTypes : List String :=
  ["openid_relying_party", "openid_provider", "oauth_authorization_server", "oauth_client",
    "oauth_resource", "openid_wallet_provider", "openid_credential_issuer",
    "openid_credential_verifier"]

/-- The output of the metadata of a request. -/
def requestMetadataOutput : Json → Json :=
  objectOutput fun type values =>
    if type = "federation_entity" then
      objectOutput (fun name v => if federationEntityUrls.contains name then urlValue P v else v) values
    else if recordEntityTypes.contains type then objectOutput (fun _ v => v) values
    else values

end Schemas

end OidFed
