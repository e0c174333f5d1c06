import OidFed.Chain.DuplicateMembers
import OidFed.Jose
import OidFed.MetadataValues
import OidFed.Schema

/-!
# The checks on a single statement (`trust-chain/validate.ts`, the first loop)

* `Check`: the errors that a check adds, or an exception; `runChecks`: checks one after the other.
  `runChecks_eq_nil` reads a run without errors check by check.
* `rawStatementShape`: the schemas and the shapes they leave open.
* `statementChecks`: everything that the first loop checks of the statement at an index.
-/

namespace OidFed

open Js

structure ValidationError where
  code : InternalErrorCode
  message : String
  statementIndex : Option Nat := none
  field : Option String := none
  checkNumber : Option Nat := none
  deriving DecidableEq, Repr

/-- The errors that a check adds, or the exception it ends with. -/
abbrev Check := Except JsError (List ValidationError)

/-- Add `e` where `cond` holds. -/
def check (cond : Bool) (e : ValidationError) : Check := .ok (if cond then [e] else [])

/-- Add an error whose message quotes a value, where `cond` holds. -/
def checkText (cond : Bool) (text : Option String) (e : String → ValidationError) : Check :=
  if cond then
    match text with
    | some t => .ok [e t]
    | none => .error .typeError
  else .ok []

def runChecks : List Check → Check
  | [] => .ok []
  | c :: rest => do return (← c) ++ (← runChecks rest)

theorem check_eq_nil {cond : Bool} {e : ValidationError} :
    check cond e = .ok [] ↔ cond = false := by
  cases cond <;> simp [check]

theorem checkText_eq_nil {cond : Bool} {text : Option String} {e : String → ValidationError} :
    checkText cond text e = .ok [] ↔ cond = false := by
  cases cond <;> cases text <;> simp [checkText]

/-- A run adds no error exactly when no check does. -/
theorem runChecks_eq_nil {l : List Check} : runChecks l = .ok [] ↔ ∀ c ∈ l, c = .ok [] := by
  induction l with
  | nil => simp [runChecks]
  | cons c rest ih =>
    rw [runChecks, List.forall_mem_cons, ← ih]
    cases c with
    | error e => simp [bind, Except.bind]
    | ok errors =>
      cases runChecks rest with
      | error e => simp [bind, Except.bind]
      | ok errors' => simp [bind, Except.bind, pure, Except.pure]

/-- An error of the chain at a statement. -/
def chainError (statementIndex : Nat) (field : String) (checkNumber : Nat) (message : String) :
    ValidationError :=
  { code := .TrustChainInvalid, message, statementIndex := some statementIndex, field := some field
    checkNumber := some checkNumber }

/-! ## JWK Sets inside metadata (`jwks/use-requirement.ts`) -/

def jwsAlgs : List String :=
  ["HS256", "HS384", "HS512", "RS256", "RS384", "RS512", "ES256", "ES384", "ES512", "ES256K",
    "PS256", "PS384", "PS512", "EdDSA"]

def jweAlgs : List String :=
  ["RSA1_5", "RSA-OAEP", "RSA-OAEP-256", "A128KW", "A192KW", "A256KW", "dir", "ECDH-ES",
    "ECDH-ES+A128KW", "ECDH-ES+A192KW", "ECDH-ES+A256KW", "A128GCMKW", "A192GCMKW", "A256GCMKW",
    "PBES2-HS256+A128KW", "PBES2-HS384+A192KW", "PBES2-HS512+A256KW"]

def encKeyOps : List String :=
  ["encrypt", "decrypt", "wrapKey", "unwrapKey", "deriveKey", "deriveBits"]

/-- `jwk.key_ops?.some(..)`, which throws on a value that is no array. -/
def someKeyOp (jwk : Json) (ops : List String) : Except JsError Bool :=
  match jwk.get? "key_ops" with
  | none => .ok false
  | some .null => .ok false
  | some (.arr l) => .ok (l.any fun op => ops.any fun o => op == .str o)
  | some _ => .error .typeError

def isAlgIn (jwk : Json) (algs : List String) : Bool :=
  match jwk.get? "alg" with
  | some (.str a) => algs.contains a
  | _ => false

/-- A key for one purpose: its own `use`, else its operations, else its algorithm. -/
def isLikely (own other : String) (ops algs : List String) (jwk : Json) : Except JsError Bool :=
  match jwk with
  | .null => .error .typeError
  | _ =>
    if jwk.get? "use" = some (.str own) then .ok true
    else if jwk.get? "use" = some (.str other) then .ok false
    else do return (← someKeyOp jwk ops) || isAlgIn jwk algs

def isLikelySigning (jwk : Json) : Except JsError Bool :=
  isLikely "sig" "enc" ["sign", "verify"] jwsAlgs jwk

def isLikelyEncryption (jwk : Json) : Except JsError Bool :=
  isLikely "enc" "sig" encKeyOps jweAlgs jwk

/-- `keys.some(f)`. -/
def someM (f : Json → Except JsError Bool) : List Json → Except JsError Bool
  | [] => .ok false
  | k :: rest => do if ← f k then return true else someM f rest

/-- A set with signing and encryption keys has a `use` on every key. -/
def validateJwkSetUseRequirement (P : Platform) (jwks : List Json) :
    Except JsError (Option FederationError) := do
  let hasSigning ← someM isLikelySigning jwks
  let hasEncryption ← someM isLikelyEncryption jwks
  if !hasSigning || !hasEncryption then return none
  match jwks.find? fun jwk =>
      jwk.get? "use" != some (.str "sig") && jwk.get? "use" != some (.str "enc") with
  | none => return none
  | some jwk =>
    let kid := match jwk.get? "kid" with
      | none => some "<no kid>"
      | some .null => some "<no kid>"
      | kid => P.text kid
    match kid with
    | none => .error .typeError
    | some kid =>
      return some (federationError .InvalidMetadata
        s!"JWK Set contains both signing and encryption keys; every key MUST carry the 'use' parameter (key '{kid}' is missing 'use')")

/-! ## Options -/

structure TrustChainValidationOptions where
  clockSkewSeconds : Option Rat := none
  understoodCriticalClaims : List String := []
  customPolicyOperators : List PolicyOperatorDefinition := []
  verboseErrors : Bool := false
  explicitRegistrationAudience : Option String := none
  /-- Independently trusted keys for issuers resolved outside this chain. -/
  trustMarkIssuerKeys : Dict String JWKSet := .empty

def TrustChainValidationOptions.clockSkew (options : TrustChainValidationOptions) : Rat :=
  options.clockSkewSeconds.getD defaultClockSkewSeconds

/-! ## The checks of the first loop -/

section Statement

variable (P : Platform)

/-- Issues of a schema as errors, one for each. -/
def schemaIssueErrors (issues : Issue × List Issue) (j : Nat) (defaultField : String) :
    List ValidationError :=
  (issues.1 :: issues.2).map fun issue =>
    let field := match issue.path with
      | [] => defaultField
      | name :: _ => if name = "" then defaultField else name
    let path := if issue.path.isEmpty then defaultField else ".".intercalate issue.path
    chainError j field 1 s!"Invalid {path} at statement {j}: {issue.message}"

/-- The Entity Configuration schema for the subject's and a trailing Trust Anchor's statement, the
Subordinate Statement schema for every other. -/
def statementSchema (last j : Nat) (p : Payload) : Schema :=
  if j = 0 ∨ (j = last ∧ Json.strictEq (p.get? "iss") (p.get? "sub") = true) then
    entityConfigurationSchema P
  else subordinateStatementSchema P

def schemaCheck (last j : Nat) (p : Payload) : Check :=
  .ok (if statementSchema P last j p (.obj p.members) then []
    else schemaIssueErrors (P.zodIssues "EntityStatement" (.obj p.members)) j "payload")

/-- `metadata` is an object of objects without null values. -/
def metadataShapeErrors (j : Nat) (metadata : Option Json) : List ValidationError :=
  match metadata with
  | none => []
  | some (.obj members) =>
    (members.filter fun t => !t.2.isObject).map (fun t =>
      chainError j "metadata" 16 s!"metadata.{t.1} MUST be a JSON object at statement {j}") ++
    (findInvalidMetadataNullPaths (.obj members)).map fun path =>
      let text := ".".intercalate (path.map PathItem.text)
      chainError j "metadata" 16
        s!"Metadata value 'metadata.{text}' MUST NOT be null at statement {j}"
  | some _ => [chainError j "metadata" 16 s!"metadata MUST be a JSON object at statement {j}"]

/-- `metadata_policy` is an object of objects of objects. -/
def metadataPolicyShapeErrors (j : Nat) (policy : Option Json) : List ValidationError :=
  match policy with
  | none => []
  | some (.obj members) => members.flatMap fun t =>
    match t.2 with
    | .obj params => (params.filter fun p => !p.2.isObject).map fun p =>
        chainError j "metadata_policy" 19
          s!"metadata_policy.{t.1}.{p.1} MUST be a JSON object at statement {j}"
    | _ => [chainError j "metadata_policy" 19
        s!"metadata_policy.{t.1} MUST be a JSON object at statement {j}"]
  | some _ =>
    [chainError j "metadata_policy" 19 s!"metadata_policy MUST be a JSON object at statement {j}"]

/-- A published Trust Mark is a JWT of the type under which it is published. -/
def trustMarkReferenceErrors (j : Nat) (trustMarks : Option Json) : List ValidationError :=
  ((trustMarks.bind Json.items?).getD []).flatMap fun ref =>
    match ref.get? "trust_mark_type", ref.get? "trust_mark" with
    | some (.str trustMarkType), some (.str trustMarkJwt) =>
      match decodeEntityStatement P trustMarkJwt with
      | .error _ => [chainError j "trust_marks" 16
          s!"Invalid trust_marks entry at statement {j}: trust_mark is not a signed JWT"]
      | .ok decoded =>
        if decoded.payload.get? "trust_mark_type" != some (.str trustMarkType) then
          [chainError j "trust_marks" 16
            s!"Invalid trust_marks entry at statement {j}: trust_mark_type does not match embedded Trust Mark"]
        else []
    | _, _ => []

def policyCritErrors (j : Nat) (crit : Option Json) : List ValidationError :=
  (((crit.bind stringItemsOf?).getD []).filter standardOperatorNames.contains).map fun op =>
    chainError j "metadata_policy_crit" 19
      s!"metadata_policy_crit MUST NOT list standard operator '{op}' at statement {j}"
where
  stringItemsOf? (v : Json) : Option (List String) :=
    v.items?.map fun l => l.filterMap Json.string?

/-- `validateRawStatementShape`. -/
def rawStatementShape (last j : Nat) (p : Payload) : List Check :=
  [schemaCheck P last j p,
    .ok (metadataShapeErrors j (p.get? "metadata")),
    .ok (metadataPolicyShapeErrors j (p.get? "metadata_policy")),
    .ok (trustMarkReferenceErrors P j (p.get? "trust_marks")),
    .ok (policyCritErrors j (p.get? "metadata_policy_crit"))]

/-- A claim of the payload is there. -/
def presenceCheck (j : Nat) (p : Payload) (claim : String) (checkNumber : Nat) : Check :=
  check (!Json.truthy? (p.get? claim))
    (chainError j claim checkNumber s!"Missing '{claim}' at statement {j}")

def iatCheck (j : Nat) (p : Payload) (now clockSkew : Rat) : Check :=
  match p.get? "iat" with
  | some (.num iat) =>
    if !Json.isSafeInteger iat then
      .ok [chainError j "iat" 4 s!"'iat' is not a safe integer at statement {j}"]
    else check (decide (now + clockSkew < iat))
      (chainError j "iat" 4 s!"'iat' is in the future at statement {j}")
  | _ => .ok []

def expCheck (j : Nat) (p : Payload) (now clockSkew : Rat) : Check :=
  match p.get? "exp" with
  | some (.num exp) =>
    if !Json.isSafeInteger exp then
      .ok [chainError j "exp" 5 s!"'exp' is not a safe integer at statement {j}"]
    else check (decide (exp < now - clockSkew))
      { chainError j "exp" 5 s!"Statement at index {j} has expired" with code := .Expired }
  | _ => .ok []

def typCheck (j : Nat) (h : Payload) : Check :=
  checkText (h.get? "typ" != some (.str JwtTyp.entityStatement)) (P.text (h.get? "typ")) fun typ =>
    chainError j "typ" 7 s!"Invalid typ header at statement {j}: '{typ}'"

def algCheck (j : Nat) (h : Payload) : Check :=
  checkText (!isValidAlgorithm (h.get? "alg")) (P.text (h.get? "alg")) fun alg =>
    { chainError j "alg" 7 s!"Unsupported algorithm at statement {j}: '{alg}'" with
      code := .UnsupportedAlg }

/-- The members of an object or array, and none of any other value. -/
def objectEntries (v : Option Json) : List (String × Json) := (v.map Json.fields).getD []

/-- No parameter of an entity type is null. -/
def nullParameterErrors (j : Nat) (metadata : Option Json) : List ValidationError :=
  (objectEntries metadata).flatMap fun t => (t.2.fields.filter fun p => p.2.isNull).map fun p =>
    chainError j "metadata" 16 s!"Metadata value '{t.1}.{p.1}' MUST NOT be null at statement {j}"

/-- An object or array. -/
def isObjectLike : Option Json → Bool
  | some (.obj _) => true
  | some (.arr _) => true
  | _ => false

/-- Metadata of an entity type as the source reads it. -/
def entityMetadataOf (metadata : Option Json) (entityType : String) : Option Json :=
  metadata.bind fun m => m.get? entityType

def federationEntityKeysErrors (j : Nat) (metadata : Option Json) : List ValidationError :=
  let fedEntity := entityMetadataOf metadata "federation_entity"
  (["jwks", "jwks_uri", "signed_jwks_uri"].filter fun forbidden =>
      isObjectLike fedEntity && (fedEntity.bind fun m => m.get? forbidden).isSome).map
    fun forbidden => chainError j "metadata" 16
      s!"'{forbidden}' MUST NOT be used in federation_entity metadata at statement {j}"

/-- `issuer` of an entity type, where stated, is the subject of the statement. -/
def issuerCheck (j : Nat) (p : Payload) (entityType : String) : Check :=
  let issuer := (entityMetadataOf (p.get? "metadata") entityType).bind fun m => m.get? "issuer"
  checkText (issuer.isSome && !Json.strictEq issuer (p.get? "sub"))
    (do
      let issuerText ← P.text issuer
      let subject ← P.text (p.get? "sub")
      return s!"{issuerText}' MUST match entity identifier '{subject}")
    fun texts => chainError j "metadata" 16 s!"{entityType}.issuer '{texts}' at statement {j}"

/-- The rule on `use` for the JWK Set that an entity type's metadata carries inline. -/
def inlineJwksCheck (j : Nat) (t : String × Json) : Check :=
  if t.1 = "federation_entity" then .ok []
  else
    match (t.2.get? "jwks").bind fun jwks => jwks.get? "keys" with
    | some (.arr keys) => do
      match ← validateJwkSetUseRequirement P keys with
      | none => return []
      | some e => return [chainError j "metadata" 16 e.description]
    | _ => .ok []

/-- Repeated entries of `crit`. A `Set` tells arrays and objects apart even where they are equal. -/
def duplicateCritChecks (j : Nat) : List Json → List Json → List Check
  | _, [] => []
  | seen, claim :: rest =>
    checkText (!isObjectLike (some claim) && seen.contains claim) (P.text (some claim))
      (fun text => chainError j "crit" 13 s!"Duplicate claim '{text}' in crit at statement {j}") ::
      duplicateCritChecks j (claim :: seen) rest

/-- An entry of `crit` is no standard claim, and is understood. -/
def critClaimCheck (j : Nat) (understood : List String) (claim : Json) : Check :=
  let text := P.text (some claim)
  if claim.string?.any standardEntityStatementClaims.contains then
    checkText true text fun claim => chainError j "crit" 13
      s!"Standard claim '{claim}' MUST NOT appear in crit at statement {j}"
  else checkText (!claim.string?.any understood.contains) text fun claim =>
    chainError j "crit" 13 s!"Unknown critical claim '{claim}' at statement {j}"

/-- `claim in payload`, which converts an entry that is no string. -/
def critMemberCheck (j : Nat) (p : Payload) (claim : Json) : Check :=
  match P.text (some claim) with
  | none => .error .typeError
  | some name => check (!p.hasMember name) (chainError j "crit" 13
      s!"Claim '{name}' listed in crit does not exist in JWT payload at statement {j}")

def critChecks (j : Nat) (p : Payload) (understood : List String) : List Check :=
  let claims := ((p.get? "crit").bind Json.items?).getD []
  duplicateCritChecks P j [] claims ++
    claims.flatMap fun claim => [critClaimCheck P j understood claim, critMemberCheck P j p claim]

def ecOnlyClaims : List String :=
  ["authority_hints", "trust_anchor_hints", "trust_marks", "trust_mark_issuers",
    "trust_mark_owners"]

def ssOnlyClaims : List String :=
  ["metadata_policy", "metadata_policy_crit", "constraints", "source_endpoint"]

/-- The statement is an Entity Configuration. -/
def isEC (p : Payload) : Bool := Json.strictEq (p.get? "iss") (p.get? "sub")

def ecOnlyCheck (j : Nat) (p : Payload) (claim : String) : Check :=
  check ((p.get? claim).isSome && !isEC p) (chainError j claim 14
    s!"'{claim}' MUST only appear in Entity Configurations (iss===sub) at statement {j}")

def ssOnlyCheck (j : Nat) (p : Payload) (claim : String) : Check :=
  check ((p.get? claim).isSome && isEC p) (chainError j claim 17
    s!"'{claim}' MUST only appear in Subordinate Statements at statement {j}")

def emptyHintsCheck (j : Nat) (p : Payload) : Check :=
  check (p.get? "authority_hints" == some (.arr []))
    (chainError j "authority_hints" 14 s!"'authority_hints' MUST NOT be empty array at statement {j}")

/-- `aud` is for the statement of a registration request only. -/
def audCheck (j : Nat) (p : Payload) (audience : Option String) : Check :=
  let allowed := j == 0 && audience.isSome && p.get? "aud" == audience.map .str
  check ((p.get? "aud").isSome && !allowed) (chainError j "aud" 26
    s!"'aud' MUST NOT appear in non-registration entity statements at statement {j}")

def trustAnchorClaimCheck (j : Nat) (p : Payload) : Check :=
  check (p.get? "trust_anchor").isSome (chainError j "trust_anchor" 27
    s!"'trust_anchor' MUST NOT appear in non-registration entity statements at statement {j}")

def chainHeaderCheck (j : Nat) (h : Payload) (name : String) (checkNumber : Nat) : Check :=
  check (h.get? name).isSome (chainError j name checkNumber
    s!"Entity Statements MUST NOT contain {name} header at statement {j}")

def kidCheck (j : Nat) (h : Payload) : Check :=
  check ((h.string? "kid").getD "" == "")
    (chainError j "kid" 8 s!"Missing or invalid 'kid' header at statement {j}")

/-- All that the first loop checks of the statement at index `j`. -/
def statementChecks (options : TrustChainValidationOptions) (now : Rat) (last j : Nat)
    (es : ParsedEntityStatement) : List Check :=
  let p := es.payload
  let h := es.header
  rawStatementShape P last j p ++
  [presenceCheck j p "iss" 1, presenceCheck j p "sub" 1, presenceCheck j p "iat" 1,
    presenceCheck j p "exp" 1, iatCheck j p now options.clockSkew, expCheck j p now options.clockSkew,
    typCheck P j h, algCheck P j h, presenceCheck j p "jwks" 9,
    .ok (nullParameterErrors j (p.get? "metadata")),
    .ok (federationEntityKeysErrors j (p.get? "metadata")),
    issuerCheck P j p "openid_provider", issuerCheck P j p "oauth_authorization_server"] ++
  (objectEntries (p.get? "metadata")).map (inlineJwksCheck P j) ++
  critChecks P j p options.understoodCriticalClaims ++
  ecOnlyClaims.map (ecOnlyCheck j p) ++
  ssOnlyClaims.map (ssOnlyCheck j p) ++
  [emptyHintsCheck j p, audCheck j p options.explicitRegistrationAudience,
    trustAnchorClaimCheck j p, chainHeaderCheck j h "trust_chain" 24,
    chainHeaderCheck j h "peer_trust_chain" 25, kidCheck j h]

/-- The errors of repeated policy members, found while a JWT is decoded. -/
def duplicateMemberErrors (j : Nat) (jwt : String) : List ValidationError :=
  match decodeJwtPayloadJson P jwt with
  | none => []
  | some payloadJson =>
    if payloadJson = "" then []
    else (findDuplicateMetadataPolicyMembers payloadJson).map fun path =>
      chainError j "metadata_policy" 19
        s!"Duplicate metadata_policy member '{path}' at statement {j}"

end Statement

end OidFed
