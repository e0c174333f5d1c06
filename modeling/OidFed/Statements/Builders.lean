import OidFed.Chain.Shape

/-!
# Builders of statements (`core/src/statement-builders.ts`)

* `buildEntityConfigurationPayload`, `buildSubordinateStatementPayload`: the payload of a
  statement from its options, or the message of the exception.
* `validateEntityStatementClaims`: what a builder checks of the payload before it returns it. The
  checks are its own, apart from the schemas: `trust-chain/validate.ts` has another set.
* `ClaimsBuilt`: what is known of a payload that has passed them.
-/

namespace OidFed

open Js

/-! ## Checks of the claims -/

inductive EntityStatementKind where
  | entityConfiguration
  | subordinateStatement
  deriving DecidableEq

section Claims

variable (P : Platform)

/-- `entityId(value)`, which returns the value itself. -/
def entityId (value : String) : Except String String :=
  if 2048 < utf16Length value then .error "Entity ID must not exceed 2048 characters"
  else
    match P.parseUrl value with
    | none => .error "Invalid URL"
    | some url => do
      throwIf (url.protocol != "https:") "Entity ID must be HTTPS"
      throwIf (url.username != "" || url.password != "") "Entity ID must not contain credentials"
      throwIf (url.search != "" || url.hash != "")
        "Entity ID must not contain query parameters or fragments"
      return value

def schemaMessages (kind : EntityStatementKind) (payload : Payload) : List String :=
  let schema := match kind with
    | .entityConfiguration => entityConfigurationSchema P
    | .subordinateStatement => subordinateStatementSchema P
  if schema (.obj payload.members) then []
  else
    let issues := P.zodIssues "EntityStatement" (.obj payload.members)
    (issues.1 :: issues.2).map fun issue =>
      (if issue.path.isEmpty then "payload" else ".".intercalate issue.path) ++ ": " ++
        issue.message

def normalStatementForbiddenClaims : List String := ["aud", "trust_anchor"]

def forbidClaims (payload : Payload) (claims : List String) (kind : String) : List String :=
  (claims.filter fun claim => (payload.get? claim).isSome).map fun claim =>
    s!"{kind} cannot contain '{claim}'"

/-- The loop of `validateCrit`, with the claims seen so far. -/
def critMessages (payload : Payload) : List String → List Json → List String
  | _, [] => []
  | seen, .str claim :: rest =>
    if seen.contains claim then
      s!"crit contains duplicate claim '{claim}'" :: critMessages payload seen rest
    else
      (if standardEntityStatementClaims.contains claim then
        [s!"crit cannot list standard Entity Statement claim '{claim}'"]
      -- `payload[claim] === undefined`: a member that every object inherits is there
      else if !payload.hasMember claim then [s!"crit references missing claim '{claim}'"]
      else []) ++ critMessages payload (claim :: seen) rest
  | seen, _ :: rest => "crit entries must be strings" :: critMessages payload seen rest

def validateCrit (payload : Payload) : List String :=
  match payload.get? "crit" with
  | none => []
  | some (.arr []) => ["crit must not be empty"]
  | some (.arr crit) => critMessages payload [] crit
  | some _ => ["crit must be an array of strings"]

/-- The loop of `validateMetadataPolicyCrit`, with the operators seen so far. -/
def policyCritMessages : List String → List Json → List String
  | _, [] => []
  | seen, .str operator :: rest =>
    if seen.contains operator then
      s!"metadata_policy_crit contains duplicate operator '{operator}'" ::
        policyCritMessages seen rest
    else
      (if standardOperatorNames.contains operator then
        [s!"metadata_policy_crit cannot list standard operator '{operator}'"]
      else []) ++ policyCritMessages (operator :: seen) rest
  | seen, _ :: rest =>
    "metadata_policy_crit entries must be strings" :: policyCritMessages seen rest

def validateMetadataPolicyCrit (payload : Payload) : List String :=
  match payload.get? "metadata_policy_crit" with
  | none => []
  | some (.arr []) => ["metadata_policy_crit must not be empty"]
  | some (.arr crit) => policyCritMessages [] crit
  | some _ => ["metadata_policy_crit must be an array of strings"]

def validateMetadataPolicyShape (payload : Payload) : List String :=
  match payload.get? "metadata_policy" with
  | none => []
  | some (.obj members) => members.flatMap fun t =>
    match t.2 with
    | .obj params => (params.filter fun p => !p.2.isObject).map fun p =>
        s!"metadata_policy.{t.1}.{p.1} must be a JSON object"
    | _ => [s!"metadata_policy.{t.1} must be a JSON object"]
  | some _ => ["metadata_policy must be a JSON object"]

def validateMetadataValues : Option Json → List String
  | none => []
  | some (.obj members) =>
    (members.filter fun t => !t.2.isNull && !t.2.isArray && !t.2.isObject).map (fun t =>
      s!"metadata.{t.1} must be a JSON object") ++
    (findInvalidMetadataNullPaths (.obj members)).map fun path =>
      "metadata." ++ ".".intercalate (path.map PathItem.text) ++ " must not be null"
  | some _ => ["metadata must be a JSON object"]

def validateTrustMarkIssuers : Option Json → List String
  | none => []
  | some (.obj members) => members.flatMap fun t =>
    match t.2 with
    | .arr issuers => issuers.flatMap fun
      | .str issuer =>
        match entityId P issuer with
        | .ok _ => []
        | .error _ => [s!"trust_mark_issuers.{t.1} entries must be Entity Identifiers"]
      | _ => [s!"trust_mark_issuers.{t.1} entries must be strings"]
    | _ => [s!"trust_mark_issuers.{t.1} must be an array"]
  | some _ => ["trust_mark_issuers must be a JSON object"]

/-- The messages of `validateEntityStatementClaims`. -/
def claimMessages (kind : EntityStatementKind) (payload : Payload) : List String :=
  schemaMessages P kind payload ++
  (match kind with
    | .entityConfiguration => forbidClaims payload ssOnlyClaims "Entity Configuration"
    | .subordinateStatement => forbidClaims payload ecOnlyClaims "Subordinate Statement") ++
  forbidClaims payload normalStatementForbiddenClaims "normal Entity Statement" ++
  validateCrit payload ++ validateMetadataPolicyCrit payload ++
  validateMetadataPolicyShape payload ++ validateMetadataValues (payload.get? "metadata") ++
  validateTrustMarkIssuers P (payload.get? "trust_mark_issuers")

def validateEntityStatementClaims (kind : EntityStatementKind) (payload : Payload) :
    Except FederationError Unit :=
  let errors := claimMessages P kind payload
  if errors.isEmpty then .ok ()
  else .error (internalError .TrustChainInvalid
    ("Invalid Entity Statement claims: " ++ "; ".intercalate errors))

def assertValidEntityStatementClaims (payload : Payload) (kind : EntityStatementKind) :
    Except String Unit :=
  match validateEntityStatementClaims P kind payload with
  | .ok () => .ok ()
  | .error e => .error e.description

end Claims

/-! ## Options -/

def defaultEntityStatementTtlSeconds : Rat := 86400

structure StatementTimeOptions where
  /-- What the clock shows. -/
  now : Rat
  issuedAt : Option Rat := none
  ttlSeconds : Option Rat := none

structure BuildEntityConfigurationPayloadOptions extends StatementTimeOptions where
  entityId : String
  jwks : Json
  metadata : Json
  authorityHints : Option (List String) := none
  trustAnchorHints : Option (List String) := none
  trustMarks : Option (List Json) := none
  trustMarkIssuers : Option (Dict String (List String)) := none
  trustMarkOwners : Option (Dict String Json) := none

structure BuildSubordinateStatementPayloadOptions extends StatementTimeOptions where
  issuer : String
  subject : String
  jwks : Json
  metadata : Option Json := none
  metadataPolicy : Option Json := none
  constraints : Option Json := none
  sourceEndpoint : Option String := none
  crit : Option (List String) := none
  metadataPolicyCrit : Option (List String) := none

/-! ## The builders -/

/-- The times of issue and expiry. -/
def resolveStatementTime (options : StatementTimeOptions) : Except String (Rat × Rat) := do
  let iat := options.issuedAt.getD options.now
  let ttlSeconds := options.ttlSeconds.getD defaultEntityStatementTtlSeconds
  throwIf (!Json.isSafeInteger iat || decide (iat ≤ 0))
    "issuedAt must be a positive safe integer NumericDate"
  throwIf (!Json.isSafeInteger ttlSeconds || decide (ttlSeconds ≤ 0))
    "ttlSeconds must be a positive safe integer"
  let exp := iat + ttlSeconds
  throwIf (!Json.isSafeInteger exp || decide (exp ≤ iat)) "expiration must be after issued-at"
  return (iat, exp)

def stringArray (l : List String) : Json := .arr (l.map .str)

/-- A list that is not empty, as an array. -/
def nonEmptyStrings (l : Option (List String)) : Option Json :=
  (l.filter fun l => !l.isEmpty).map stringArray

section Build

variable (P : Platform)

def copyEntityIdArray (values : Option (List String)) (field : String) :
    Except String (Option Json) :=
  match values with
  | none => .ok none
  | some [] => .error s!"{field} must not be empty"
  | some values => do
    let ids ← values.mapM (entityId P)
    return some (stringArray ids)

def copyTrustMarkIssuers (issuers : Option (Dict String (List String))) :
    Except String (Option Json) :=
  match issuers with
  | none => .ok none
  | some issuers => do
    let members ← issuers.members.mapM fun t => do return (t.1, stringArray (← t.2.mapM (entityId P)))
    -- an array written to `__proto__` becomes the prototype: no plain object for the schema
    throwIf (issuers.keys.contains "__proto__") "Invalid Entity Statement claims: trust_mark_issuers"
    return some (.obj members)

def buildEntityConfigurationPayload (options : BuildEntityConfigurationPayloadOptions) :
    Except String Payload := do
  let eid ← entityId P options.entityId
  let (iat, exp) ← resolveStatementTime options.toStatementTimeOptions
  let authorityHints ← copyEntityIdArray P options.authorityHints "authority_hints"
  let trustAnchorHints ← copyEntityIdArray P options.trustAnchorHints "trust_anchor_hints"
  let trustMarkIssuers ← copyTrustMarkIssuers P options.trustMarkIssuers
  let payload := Dict.ofEntries [("iss", .str eid), ("sub", .str eid), ("iat", .num iat),
    ("exp", .num exp), ("jwks", options.jwks), ("metadata", options.metadata)]
  let payload := payload.put "authority_hints" authorityHints
  let payload := payload.put "trust_anchor_hints" trustAnchorHints
  let payload := payload.put "trust_marks"
    ((options.trustMarks.filter fun marks => !marks.isEmpty).map .arr)
  let payload := payload.put "trust_mark_issuers" trustMarkIssuers
  let payload := payload.put "trust_mark_owners" (options.trustMarkOwners.map fun o => .obj o.members)
  assertValidEntityStatementClaims P payload .entityConfiguration
  return payload

def buildSubordinateStatementPayload (options : BuildSubordinateStatementPayloadOptions) :
    Except String Payload := do
  let issuer ← entityId P options.issuer
  let subject ← entityId P options.subject
  let (iat, exp) ← resolveStatementTime options.toStatementTimeOptions
  let payload := Dict.ofEntries [("iss", .str issuer), ("sub", .str subject), ("iat", .num iat),
    ("exp", .num exp), ("jwks", options.jwks)]
  let payload := payload.put "metadata" options.metadata
  let payload := payload.put "metadata_policy" options.metadataPolicy
  let payload := payload.put "constraints" options.constraints
  let payload := payload.put "source_endpoint" (options.sourceEndpoint.map .str)
  let payload := payload.put "crit" (nonEmptyStrings options.crit)
  let payload := payload.put "metadata_policy_crit" (nonEmptyStrings options.metadataPolicyCrit)
  assertValidEntityStatementClaims P payload .subordinateStatement
  return payload

end Build

/-! ## What the checks leave -/

section Built

variable {P : Platform} {payload : Payload}

/-- The schema of a kind of statement. -/
def EntityStatementKind.schema (P : Platform) : EntityStatementKind → Schema
  | .entityConfiguration => entityConfigurationSchema P
  | .subordinateStatement => subordinateStatementSchema P

/-- The claims that a kind of statement cannot contain. -/
def EntityStatementKind.forbidden : EntityStatementKind → List String
  | .entityConfiguration => ssOnlyClaims
  | .subordinateStatement => ecOnlyClaims

/-- A payload that has passed the checks of its builder. -/
structure ClaimsBuilt (P : Platform) (kind : EntityStatementKind) (payload : Payload) : Prop where
  schema : kind.schema P (.obj payload.members) = true
  forbidden : ∀ claim ∈ kind.forbidden, payload.get? claim = none
  normal : ∀ claim ∈ normalStatementForbiddenClaims, payload.get? claim = none
  crit : validateCrit payload = []
  policyCrit : validateMetadataPolicyCrit payload = []
  policyShape : validateMetadataPolicyShape payload = []
  metadata : validateMetadataValues (payload.get? "metadata") = []

theorem forbidClaims_eq_nil {claims : List String} {kind : String} :
    forbidClaims payload claims kind = [] ↔ ∀ claim ∈ claims, payload.get? claim = none := by
  simp [forbidClaims, List.filter_eq_nil_iff]

theorem schemaMessages_eq_nil {kind : EntityStatementKind}
    (h : schemaMessages P kind payload = []) : kind.schema P (.obj payload.members) = true := by
  unfold schemaMessages at h
  cases kind <;>
  · simp only [ite_eq_left_iff] at h
    by_contra hschema
    exact absurd (h hschema) (by simp)

theorem claimsBuilt_of_assert {kind : EntityStatementKind}
    (h : assertValidEntityStatementClaims P payload kind = .ok ()) : ClaimsBuilt P kind payload := by
  have hmessages : claimMessages P kind payload = [] := by
    unfold assertValidEntityStatementClaims validateEntityStatementClaims at h
    by_contra hne
    rw [if_neg (by simpa using hne)] at h
    cases h
  simp only [claimMessages, List.append_eq_nil_iff] at hmessages
  obtain ⟨⟨⟨⟨⟨⟨⟨hschema, hkind⟩, hnormal⟩, hcrit⟩, hpolicyCrit⟩, hshape⟩, hmetadata⟩, -⟩ := hmessages
  refine ⟨schemaMessages_eq_nil hschema, ?_, forbidClaims_eq_nil.mp hnormal, hcrit, hpolicyCrit,
    hshape, hmetadata⟩
  cases kind with
  | entityConfiguration => exact forbidClaims_eq_nil.mp hkind
  | subordinateStatement => exact forbidClaims_eq_nil.mp hkind

theorem entityId_eq_ok {value id : String} (h : entityId P value = .ok id) :
    id = value ∧ (P.parseUrl value).isSome = true := by
  unfold entityId at h
  split at h
  · cases h
  cases hurl : P.parseUrl value with
  | none =>
    rw [hurl] at h
    cases h
  | some url =>
    rw [hurl] at h
    obtain ⟨_, -, h⟩ := bind_eq_ok.mp h
    obtain ⟨_, -, h⟩ := bind_eq_ok.mp h
    obtain ⟨_, -, h⟩ := bind_eq_ok.mp h
    exact ⟨(Except.ok.inj h).symm, rfl⟩

theorem copyEntityIdArray_ne_empty {values : Option (List String)} {field : String}
    {copied : Option Json} (h : copyEntityIdArray P values field = .ok copied) :
    copied ≠ some (.arr []) := by
  unfold copyEntityIdArray at h
  split at h
  · obtain rfl := Except.ok.inj h
    simp
  · cases h
  · rename_i values hne
    obtain ⟨ids, hids, h⟩ := bind_eq_ok.mp h
    obtain rfl := Except.ok.inj h
    obtain ⟨v, rest, rfl⟩ := List.exists_cons_of_ne_nil (by simpa using hne)
    intro hempty
    rw [List.mapM_cons] at hids
    obtain ⟨id, -, hids⟩ := bind_eq_ok.mp hids
    obtain ⟨ids', -, hids⟩ := bind_eq_ok.mp hids
    obtain rfl := Except.ok.inj hids
    simp [stringArray] at hempty

/-- What an Entity Configuration takes from its options. -/
theorem buildEntityConfigurationPayload_eq_ok {options : BuildEntityConfigurationPayloadOptions}
    (h : buildEntityConfigurationPayload P options = .ok payload) :
    ClaimsBuilt P .entityConfiguration payload ∧
      (P.parseUrl options.entityId).isSome = true ∧
      payload.get? "iss" = some (.str options.entityId) ∧
      payload.get? "sub" = some (.str options.entityId) ∧
      payload.get? "metadata" = some options.metadata ∧
      payload.get? "crit" = none ∧
      payload.get? "trust_marks" =
        (options.trustMarks.filter fun marks => !marks.isEmpty).map .arr ∧
      payload.get? "authority_hints" ≠ some (.arr []) := by
  obtain ⟨eid, heid, h⟩ := bind_eq_ok.mp h
  obtain ⟨rfl, hurl⟩ := entityId_eq_ok heid
  obtain ⟨⟨iat, exp⟩, -, h⟩ := bind_eq_ok.mp h
  obtain ⟨hints, hhints, h⟩ := bind_eq_ok.mp h
  obtain ⟨anchorHints, -, h⟩ := bind_eq_ok.mp h
  obtain ⟨issuers, -, h⟩ := bind_eq_ok.mp h
  obtain ⟨⟨⟩, hassert, h⟩ := bind_eq_ok.mp h
  have hbuilt := claimsBuilt_of_assert hassert
  obtain rfl := Except.ok.inj h
  refine ⟨hbuilt, hurl, ?_, ?_, ?_, ?_, ?_, ?_⟩
  · simp [Dict.ofEntries, Dict.get?_put, Dict.get?_set]
  · simp [Dict.ofEntries, Dict.get?_put, Dict.get?_set]
  · simp [Dict.ofEntries, Dict.get?_put]
  · simp [Dict.ofEntries, Dict.get?_put, Dict.get?_set]
  · simp [Dict.get?_put]
  · simpa [Dict.get?_put] using copyEntityIdArray_ne_empty hhints

/-- What a Subordinate Statement takes from its options. -/
theorem buildSubordinateStatementPayload_eq_ok
    {options : BuildSubordinateStatementPayloadOptions}
    (h : buildSubordinateStatementPayload P options = .ok payload) :
    ClaimsBuilt P .subordinateStatement payload ∧
      (P.parseUrl options.issuer).isSome = true ∧ (P.parseUrl options.subject).isSome = true ∧
      payload.get? "iss" = some (.str options.issuer) ∧
      payload.get? "sub" = some (.str options.subject) ∧
      payload.get? "metadata" = options.metadata ∧
      payload.get? "crit" = nonEmptyStrings options.crit := by
  obtain ⟨issuer, hissuer, h⟩ := bind_eq_ok.mp h
  obtain ⟨rfl, hissuerUrl⟩ := entityId_eq_ok hissuer
  obtain ⟨subject, hsubject, h⟩ := bind_eq_ok.mp h
  obtain ⟨rfl, hsubjectUrl⟩ := entityId_eq_ok hsubject
  obtain ⟨⟨iat, exp⟩, -, h⟩ := bind_eq_ok.mp h
  obtain ⟨⟨⟩, hassert, h⟩ := bind_eq_ok.mp h
  have hbuilt := claimsBuilt_of_assert hassert
  obtain rfl := Except.ok.inj h
  refine ⟨hbuilt, hissuerUrl, hsubjectUrl, ?_, ?_, ?_, ?_⟩ <;>
    simp [Dict.ofEntries, Dict.get?_put, Dict.get?_set]

end Built

end OidFed
