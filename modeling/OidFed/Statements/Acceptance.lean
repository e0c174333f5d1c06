import OidFed.Statements.Builders

/-!
# What is built is accepted (`statement-builders.ts`, `trust-chain/validate.ts`)

The builders check a payload with their own rules; a peer checks the decoded statement in the first
loop of `validateTrustChainImpl` with another set.

* `MetadataFits`: what only the peer checks of metadata. `CritUnderstood`: the critical claims are
  among those the peer understands.
* `statementChecks_iff`: on a payload that a builder returns, the peer's checks raise no error
  exactly when these two hold.
* `builtStatements_accepted_iff`: in terms of the options of either builder.
-/

namespace OidFed

open Js

/-! ## What only the validator checks -/

/-- The `issuer` of either server is the subject, the `federation_entity` has no keys, the inline
key sets state their `use`, and no array goes by the name of the prototype. -/
structure MetadataFits (P : Platform) (subject : String) (metadata : Option Json) : Prop where
  prototypeMember : ∀ t ∈ objectEntries metadata, t.1 = "__proto__" → t.2.isObject = true
  federationKeys : ∀ forbidden ∈ ["jwks", "jwks_uri", "signed_jwks_uri"],
    (entityMetadataOf metadata "federation_entity").bind (·.get? forbidden) = none
  issuers : ∀ entityType ∈ ["openid_provider", "oauth_authorization_server"], ∀ issuer,
    (entityMetadataOf metadata entityType).bind (·.get? "issuer") = some issuer →
      issuer = .str subject
  inlineJwks : ∀ t ∈ objectEntries metadata, t.1 ≠ "federation_entity" → ∀ keys,
    (t.2.get? "jwks").bind (·.get? "keys") = some (.arr keys) →
      validateJwkSetUseRequirement P keys = .ok none

/-- The critical claims of a payload are understood. -/
def CritUnderstood (understood : List String) (payload : Payload) : Prop :=
  ∀ claims, payload.get? "crit" = some (.arr claims) → ∀ claim, .str claim ∈ claims →
    claim ∈ understood

/-- The header of a statement, as the library signs it. -/
structure HeaderFits (h : Payload) : Prop where
  typ : h.get? "typ" = some (.str JwtTyp.entityStatement)
  alg : ∃ alg ∈ supportedAlgorithms, h.get? "alg" = some (.str alg)
  kid : ∃ kid, kid ≠ "" ∧ h.get? "kid" = some (.str kid)
  trustChain : h.get? "trust_chain" = none
  peerTrustChain : h.get? "peer_trust_chain" = none

/-- The clock is within the life of the statement. -/
def ClockFits (options : TrustChainValidationOptions) (now : Rat) (payload : Payload) : Prop :=
  (∀ iat, payload.get? "iat" = some (.num iat) → iat ≤ now + options.clockSkew) ∧
    ∀ exp, payload.get? "exp" = some (.num exp) → now - options.clockSkew ≤ exp

/-- An embedded Trust Mark decodes, and is of its stated type. -/
def MarkFits (P : Platform) (ref : Json) : Prop :=
  ∀ trustMarkType jwt, ref.get? "trust_mark_type" = some (.str trustMarkType) →
    ref.get? "trust_mark" = some (.str jwt) →
    ∃ decoded, decodeEntityStatement P jwt = .ok decoded ∧
      decoded.payload.get? "trust_mark_type" = some (.str trustMarkType)

section Checks

variable {P : Platform} {kind : EntityStatementKind} {payload : Payload} {j last : Nat}

/-! ### The shape of metadata -/

theorem nullPathsMembers_eq_nil {path : List PathItem} {l : List (String × Json)} :
    nullPathsMembers path l = [] ↔ ∀ t ∈ l, nullPaths (path ++ [.name t.1]) t.2 = [] := by
  induction l with
  | nil => simp [nullPathsMembers]
  | cons t rest ih =>
    rw [nullPathsMembers, List.append_eq_nil_iff, ih, List.forall_mem_cons]

/-- Metadata that a builder has checked: objects, but for the name that the schemas pass over. -/
theorem ClaimsBuilt.metadata_members (h : ClaimsBuilt P kind payload) {metadata : Json}
    (hm : payload.get? "metadata" = some metadata) :
    ∃ members, metadata = .obj members ∧
      (∀ t ∈ members, t.1 = "__proto__" ∨ t.2.isObject = true) ∧
      nullPathsMembers [] members = [] := by
  have hvalues := h.metadata
  rw [hm] at hvalues
  cases metadata with
  | obj members =>
    simp only [validateMetadataValues, List.append_eq_nil_iff, List.map_eq_nil_iff] at hvalues
    refine ⟨members, rfl, ?_, hvalues.2⟩
    have hschema := h.schema
    cases kind with
    | entityConfiguration =>
      obtain ⟨⟨hloose, -⟩, -⟩ : (_ ∧ _) ∧ _ := by
        simpa only [EntityStatementKind.schema, entityConfigurationSchema, Bool.and_eq_true]
          using hschema
      have hfield := looseObject_field hloose
        (f := { name := "metadata", schema := federationMetadataSchema P, optional := true })
        (by simp)
      simp only [hm, federationMetadataSchema, Bool.and_eq_true, List.all_eq_true,
        Bool.or_eq_true, beq_iff_eq] at hfield
      exact hfield.2.2
    | subordinateStatement =>
      obtain ⟨⟨hloose, -⟩, -⟩ : (_ ∧ _) ∧ _ := by
        simpa only [EntityStatementKind.schema, subordinateStatementSchema, Bool.and_eq_true]
          using hschema
      have hfield := looseObject_field hloose (f := metadataRecordField) (by simp)
      rw [show metadataRecordField.name = "metadata" from rfl, hm] at hfield
      simp only [metadataRecordField, Schema.record, List.all_eq_true, Bool.or_eq_true,
        beq_iff_eq] at hfield
      intro t ht
      refine (hfield t ht).imp id fun hrecord => ?_
      cases ht2 : t.2 <;> rw [ht2] at hrecord <;> simp_all [Schema.anyRecord, Schema.record,
        Json.isObject]
  | _ => simp [validateMetadataValues] at hvalues

theorem metadataShapeErrors_eq_nil (h : ClaimsBuilt P kind payload) :
    metadataShapeErrors j (payload.get? "metadata") = [] ↔
      ∀ t ∈ objectEntries (payload.get? "metadata"), t.1 = "__proto__" → t.2.isObject = true := by
  cases hm : payload.get? "metadata" with
  | none => simp [metadataShapeErrors, objectEntries]
  | some metadata =>
    obtain ⟨members, rfl, hmembers, hnull⟩ := h.metadata_members hm
    have hnull' : findInvalidMetadataNullPaths (.obj members) = [] := hnull
    simp only [metadataShapeErrors, hnull', List.map_nil, List.append_nil, List.map_eq_nil_iff,
      List.filter_eq_nil_iff, Bool.not_eq_true', Bool.not_eq_false, objectEntries,
      Option.map_some, Option.getD_some, Json.fields]
    exact ⟨fun hall t ht _ => hall t ht,
      fun hproto t ht => (hmembers t ht).elim (hproto t ht) id⟩

/-- No member of an entity type is null, also under the name that the schemas pass over. -/
theorem nullParameterErrors_eq_nil (h : ClaimsBuilt P kind payload)
    (hproto : ∀ t ∈ objectEntries (payload.get? "metadata"), t.1 = "__proto__" →
      t.2.isObject = true) :
    nullParameterErrors j (payload.get? "metadata") = [] := by
  cases hm : payload.get? "metadata" with
  | none => simp [nullParameterErrors, objectEntries]
  | some metadata =>
    obtain ⟨members, rfl, hmembers, hnull⟩ := h.metadata_members hm
    rw [hm] at hproto
    refine List.flatMap_eq_nil_iff.mpr fun t ht => ?_
    refine List.map_eq_nil_iff.mpr (List.filter_eq_nil_iff.mpr fun p hp => ?_)
    have hobject : t.2.isObject = true := (hmembers t ht).elim (hproto t ht) id
    have hpaths := nullPathsMembers_eq_nil.mp hnull t ht
    cases ht2 : t.2 with
    | obj params =>
      rw [ht2] at hp hpaths
      have hparam := nullPathsMembers_eq_nil.mp hpaths p hp
      cases hp2 : p.2 with
      | null =>
        rw [hp2] at hparam
        simp [nullPaths] at hparam
      | _ => simp [Json.isNull]
    | _ =>
      rw [ht2] at hobject
      simp [Json.isObject] at hobject

/-! ### The other shapes -/

theorem metadataPolicyShapeErrors_eq_nil (h : validateMetadataPolicyShape payload = []) :
    metadataPolicyShapeErrors j (payload.get? "metadata_policy") = [] := by
  unfold validateMetadataPolicyShape at h
  cases hp : payload.get? "metadata_policy" with
  | none => rfl
  | some policy =>
    rw [hp] at h
    cases policy with
    | obj members =>
      refine List.flatMap_eq_nil_iff.mpr fun t ht => ?_
      have hmember := List.flatMap_eq_nil_iff.mp h t ht
      cases ht2 : t.2 with
      | obj params =>
        simp only [ht2, List.map_eq_nil_iff] at hmember ⊢
        exact hmember
      | _ => simp [ht2] at hmember
    | _ => simp at h

theorem trustMarkReferenceErrors_eq_nil {marks : List Json} (h : ∀ ref ∈ marks, MarkFits P ref) :
    trustMarkReferenceErrors P j (some (.arr marks)) = [] := by
  refine List.flatMap_eq_nil_iff.mpr fun ref href => ?_
  split
  · rename_i trustMarkType jwt htype hmark
    obtain ⟨decoded, hdecoded, hembedded⟩ := h ref href trustMarkType jwt htype hmark
    simp [hdecoded, hembedded]
  · rfl

theorem policyCritMessages_eq_nil (seen : List String) {l : List Json}
    (h : policyCritMessages seen l = []) :
    ∀ operator, .str operator ∈ l → operator ∉ standardOperatorNames := by
  induction l generalizing seen with
  | nil => simp
  | cons v rest ih =>
    intro operator hmem
    cases v with
    | str op =>
      rw [policyCritMessages] at h
      split at h
      · cases h
      obtain ⟨hstandard, hrest⟩ := List.append_eq_nil_iff.mp h
      rcases List.mem_cons.mp hmem with heq | hmem
      · obtain rfl := Json.str.inj heq
        intro hstd
        rw [if_pos (by simpa using hstd)] at hstandard
        cases hstandard
      · exact ih _ hrest operator hmem
    | _ => simp [policyCritMessages] at h

theorem policyCritErrors_eq_nil (h : validateMetadataPolicyCrit payload = []) :
    policyCritErrors j (payload.get? "metadata_policy_crit") = [] := by
  unfold policyCritErrors
  refine List.map_eq_nil_iff.mpr (List.filter_eq_nil_iff.mpr fun operator hmem => ?_)
  unfold validateMetadataPolicyCrit at h
  cases hp : payload.get? "metadata_policy_crit" with
  | none => simp [hp] at hmem
  | some crit =>
    rw [hp] at h hmem
    cases crit with
    | arr l =>
      have hstr : .str operator ∈ l := by
        simp only [Option.bind_some, policyCritErrors.stringItemsOf?, Json.items?, Option.map_some,
          Option.getD_some, List.mem_filterMap] at hmem
        obtain ⟨v, hv, hs⟩ := hmem
        cases v <;> simp [Json.string?] at hs
        exact hs ▸ hv
      cases l with
      | nil => simp at h
      | cons v rest =>
        have := policyCritMessages_eq_nil [] h operator hstr
        simpa using this
    | _ => simp at h

/-- The claims of a `crit` without errors: strings, distinct, not standard, and there. -/
theorem critMessages_eq_nil {seen : List String} {l : List Json}
    (h : critMessages payload seen l = []) :
    (∀ c ∈ duplicateCritChecks P j (seen.map .str) l, c = .ok []) ∧
      ∀ v ∈ l, ∃ claim, v = .str claim ∧ claim ∉ standardEntityStatementClaims ∧
        payload.hasMember claim = true := by
  induction l generalizing seen with
  | nil => simp [duplicateCritChecks]
  | cons v rest ih =>
    cases v with
    | str claim =>
      rw [critMessages] at h
      split at h
      · cases h
      rename_i hseen
      obtain ⟨hclaim, hrest⟩ := List.append_eq_nil_iff.mp h
      obtain ⟨hdup, hall⟩ := ih hrest
      have hfresh : (seen.map Json.str).contains (.str claim) = false := by simpa using hseen
      rw [duplicateCritChecks, List.forall_mem_cons, List.forall_mem_cons, checkText_eq_nil, hfresh,
        Bool.and_false]
      refine ⟨⟨rfl, hdup⟩, ⟨claim, rfl, ?_⟩, hall⟩
      split at hclaim
      · cases hclaim
      rename_i hstandard
      split at hclaim
      · cases hclaim
      rename_i hmember
      exact ⟨by simpa using hstandard, by simpa using hmember⟩
    | _ => simp [critMessages] at h

theorem critChecks_eq_nil (h : validateCrit payload = []) {understood : List String} :
    (∀ c ∈ critChecks P j payload understood, c = .ok []) ↔ CritUnderstood understood payload := by
  unfold validateCrit at h
  cases hp : payload.get? "crit" with
  | none => simp [critChecks, hp, CritUnderstood, duplicateCritChecks]
  | some crit =>
    rw [hp] at h
    cases crit with
    | arr l =>
      have hl : critMessages payload [] l = [] := by
        cases l with
        | nil => simp at h
        | cons v rest => exact h
      obtain ⟨hdup, hall⟩ := critMessages_eq_nil (P := P) (j := j) hl
      rw [List.map_nil] at hdup
      have hone : ∀ v ∈ l, (∀ c ∈ [critClaimCheck P j understood v, critMemberCheck P j payload v],
          c = .ok []) ↔ ∀ claim, v = .str claim → claim ∈ understood := by
        intro v hv
        obtain ⟨claim, rfl, hstandard, hmember⟩ := hall v hv
        have hmemberCheck : critMemberCheck P j payload (.str claim) = .ok [] := by
          simp [critMemberCheck, Platform.text, Json.toText, check_eq_nil, hmember]
        simp [critClaimCheck, Json.string?, hstandard, hmemberCheck, checkText_eq_nil]
      rw [critChecks, hp]
      simp only [Option.bind_some, Json.items?, Option.getD_some, List.forall_mem_append,
        List.forall_mem_flatMap]
      rw [and_iff_right hdup]
      constructor
      · intro hnil claims hclaims claim hclaim
        rw [hp] at hclaims
        obtain rfl := Json.arr.inj (Option.some.inj hclaims)
        exact (hone _ hclaim).mp (hnil _ hclaim) claim rfl
      · exact fun hunderstood v hv => (hone v hv).mpr fun claim hclaim =>
          hunderstood l hp claim (hclaim ▸ hv)
    | _ => simp at h

/-! ### Claims and headers -/

theorem presenceCheck_eq_nil {claim : String} {v : Json} (checkNumber : Nat)
    (h : payload.get? claim = some v) (hv : v.truthy = true) :
    presenceCheck j payload claim checkNumber = .ok [] := by
  rw [presenceCheck, check_eq_nil, h]
  simp [Json.truthy?, hv]

theorem positiveInt_truthy {v : Json} (h : Schema.positiveInt v = true) :
    ∃ q, v = .num q ∧ Json.isSafeInteger q = true ∧ v.truthy = true := by
  obtain ⟨q, rfl⟩ := positiveInt_number h
  simp only [Schema.positiveInt, Bool.and_eq_true, decide_eq_true_eq] at h
  exact ⟨q, rfl, h.1, by simpa [Json.truthy] using h.2.ne'⟩

theorem jwkSetSchema_truthy {v : Json} (h : jwkSetSchema v = true) : v.truthy = true := by
  cases v with
  | obj l => rfl
  | _ => simp [jwkSetSchema, Schema.looseObject] at h

/-- The required claims that a schema has checked. -/
structure RequiredClaims (payload : Payload) : Prop where
  iat : ∃ v, payload.get? "iat" = some v ∧ Schema.positiveInt v = true
  exp : ∃ v, payload.get? "exp" = some v ∧ Schema.positiveInt v = true
  jwks : ∃ v, payload.get? "jwks" = some v ∧ jwkSetSchema v = true

theorem ClaimsBuilt.required (h : ClaimsBuilt P kind payload) : RequiredClaims payload := by
  have hfields : ∃ fields, Schema.looseObject fields (.obj payload.members) = true ∧
      { name := "iat", schema := Schema.positiveInt } ∈ fields ∧
      { name := "exp", schema := Schema.positiveInt } ∈ fields ∧
      { name := "jwks", schema := jwkSetSchema } ∈ fields := by
    have hschema := h.schema
    cases kind with
    | entityConfiguration =>
      simp only [EntityStatementKind.schema, entityConfigurationSchema, Bool.and_eq_true] at hschema
      exact ⟨_, hschema.1.1, by simp [baseEntityStatementFields],
        by simp [baseEntityStatementFields], by simp⟩
    | subordinateStatement =>
      simp only [EntityStatementKind.schema, subordinateStatementSchema, Bool.and_eq_true]
        at hschema
      exact ⟨_, hschema.1.1, by simp [baseEntityStatementFields],
        by simp [baseEntityStatementFields], by simp⟩
  obtain ⟨fields, hloose, hiat, hexp, hjwks⟩ := hfields
  exact ⟨looseObject_required hloose hiat rfl, looseObject_required hloose hexp rfl,
    looseObject_required hloose hjwks rfl⟩

variable {options : TrustChainValidationOptions} {now : Rat}

theorem timeChecks_eq_nil (h : RequiredClaims payload) (hclock : ClockFits options now payload) :
    presenceCheck j payload "iat" 1 = .ok [] ∧ presenceCheck j payload "exp" 1 = .ok [] ∧
      iatCheck j payload now options.clockSkew = .ok [] ∧
      expCheck j payload now options.clockSkew = .ok [] := by
  obtain ⟨v, hiat, hv⟩ := h.iat
  obtain ⟨iat, rfl, hiatSafe, hiatTruthy⟩ := positiveInt_truthy hv
  obtain ⟨w, hexp, hw⟩ := h.exp
  obtain ⟨exp, rfl, hexpSafe, hexpTruthy⟩ := positiveInt_truthy hw
  refine ⟨presenceCheck_eq_nil _ hiat hiatTruthy, presenceCheck_eq_nil _ hexp hexpTruthy, ?_, ?_⟩
  · simp [iatCheck, hiat, hiatSafe, check_eq_nil, hclock.1 iat hiat]
  · simp [expCheck, hexp, hexpSafe, check_eq_nil, hclock.2 exp hexp]

theorem headerChecks_eq_nil {header : Payload} (h : HeaderFits header) :
    typCheck P j header = .ok [] ∧ algCheck P j header = .ok [] ∧ kidCheck j header = .ok [] ∧
      chainHeaderCheck j header "trust_chain" 24 = .ok [] ∧
      chainHeaderCheck j header "peer_trust_chain" 25 = .ok [] := by
  obtain ⟨alg, hsupported, halg⟩ := h.alg
  obtain ⟨kid, hkid, hget⟩ := h.kid
  refine ⟨?_, ?_, ?_, ?_, ?_⟩
  · rw [typCheck, checkText_eq_nil, h.typ]
    simp
  · rw [algCheck, checkText_eq_nil, isValidAlgorithm_eq_true.mpr ⟨alg, hsupported, halg⟩]
    rfl
  · rw [kidCheck, check_eq_nil, Payload.string?_eq_some.mpr hget]
    simpa using hkid
  · rw [chainHeaderCheck, check_eq_nil, h.trustChain]
    rfl
  · rw [chainHeaderCheck, check_eq_nil, h.peerTrustChain]
    rfl

/-! ### Metadata -/

theorem federationEntityKeysErrors_eq_nil {metadata : Option Json} :
    federationEntityKeysErrors j metadata = [] ↔
      ∀ forbidden ∈ ["jwks", "jwks_uri", "signed_jwks_uri"],
        (entityMetadataOf metadata "federation_entity").bind (·.get? forbidden) = none := by
  have hlike : ∀ (fedEntity : Option Json) forbidden,
      (isObjectLike fedEntity && (fedEntity.bind (·.get? forbidden)).isSome) =
        (fedEntity.bind (·.get? forbidden)).isSome := by
    intro fedEntity forbidden
    cases fedEntity with
    | none => rfl
    | some v => cases v <;> simp [isObjectLike, Json.get?]
  unfold federationEntityKeysErrors
  rw [List.map_eq_nil_iff, List.filter_eq_nil_iff]
  refine forall_congr' fun forbidden => imp_congr_right fun _ => ?_
  rw [hlike]
  simp

theorem issuerCheck_eq_nil {subject entityType : String}
    (hsub : payload.get? "sub" = some (.str subject)) :
    issuerCheck P j payload entityType = .ok [] ↔
      ∀ issuer, (entityMetadataOf (payload.get? "metadata") entityType).bind (·.get? "issuer") =
        some issuer → issuer = .str subject := by
  unfold issuerCheck
  rw [checkText_eq_nil, hsub]
  cases (entityMetadataOf (payload.get? "metadata") entityType).bind (·.get? "issuer") with
  | none => simp
  | some issuer => simp [← Bool.not_eq_true]

theorem inlineJwksCheck_eq_nil {t : String × Json} :
    inlineJwksCheck P j t = .ok [] ↔ (t.1 ≠ "federation_entity" → ∀ keys,
      (t.2.get? "jwks").bind (·.get? "keys") = some (.arr keys) →
        validateJwkSetUseRequirement P keys = .ok none) := by
  unfold inlineJwksCheck
  by_cases hname : t.1 = "federation_entity"
  · simp [hname]
  rw [if_neg hname]
  cases hkeys : (t.2.get? "jwks").bind (·.get? "keys") with
  | none => simp
  | some v =>
    cases v with
    | arr keys =>
      simp only [ne_eq, hname, not_false_eq_true, Option.some.injEq, Json.arr.injEq, forall_const,
        forall_eq']
      cases validateJwkSetUseRequirement P keys with
      | error e => simp [bind, Except.bind]
      | ok result => cases result <;> simp [bind, Except.bind, pure, Except.pure]
    | _ => simp

/-! ### All checks -/

/-- A payload as a builder makes it, at a position of a chain for its kind. -/
structure Placed (P : Platform) (kind : EntityStatementKind) (payload : Payload) (subject : String)
    (last j : Nat) : Prop where
  built : ClaimsBuilt P kind payload
  schema : statementSchema P last j payload = kind.schema P
  isEC : isEC payload = decide (kind = .entityConfiguration)
  iss : ∃ iss, iss ≠ "" ∧ payload.get? "iss" = some (.str iss)
  sub : subject ≠ "" ∧ payload.get? "sub" = some (.str subject)
  hints : payload.get? "authority_hints" ≠ some (.arr [])

theorem Placed.claimChecks_eq_nil {subject : String} (h : Placed P kind payload subject last j)
    (options : TrustChainValidationOptions) :
    (∀ claim ∈ ecOnlyClaims, ecOnlyCheck j payload claim = .ok []) ∧
      (∀ claim ∈ ssOnlyClaims, ssOnlyCheck j payload claim = .ok []) ∧
      emptyHintsCheck j payload = .ok [] ∧
      audCheck j payload options.explicitRegistrationAudience = .ok [] ∧
      trustAnchorClaimCheck j payload = .ok [] := by
  have hkind := h.isEC
  have hforbidden := h.built.forbidden
  refine ⟨fun claim hc => ?_, fun claim hc => ?_, ?_, ?_, ?_⟩
  · rw [ecOnlyCheck, check_eq_nil, hkind]
    cases kind with
    | entityConfiguration => simp
    | subordinateStatement => simp [hforbidden claim hc]
  · rw [ssOnlyCheck, check_eq_nil, hkind]
    cases kind with
    | entityConfiguration => simp [hforbidden claim hc]
    | subordinateStatement => simp
  · rw [emptyHintsCheck, check_eq_nil]
    simpa using h.hints
  · rw [audCheck, check_eq_nil, h.built.normal "aud" (by decide)]
    rfl
  · rw [trustAnchorClaimCheck, check_eq_nil, h.built.normal "trust_anchor" (by decide)]
    rfl

/-- The checks of the first loop, on a payload that a builder returns. -/
theorem statementChecks_iff {subject : String} (h : Placed P kind payload subject last j)
    {header : Payload} (hheader : HeaderFits header) (hclock : ClockFits options now payload)
    (hmarks : trustMarkReferenceErrors P j (payload.get? "trust_marks") = []) :
    runChecks (statementChecks P options now last j ⟨header, payload⟩) = .ok [] ↔
      MetadataFits P subject (payload.get? "metadata") ∧
        CritUnderstood options.understoodCriticalClaims payload := by
  have hschema : schemaCheck P last j payload = .ok [] := by
    rw [schemaCheck, h.schema, if_pos h.built.schema]
  obtain ⟨iss, hissne, hiss⟩ := h.iss
  obtain ⟨hsubne, hsub⟩ := h.sub
  have hissCheck := presenceCheck_eq_nil (j := j) 1 hiss
    (by simpa [Json.truthy] using hissne)
  have hsubCheck := presenceCheck_eq_nil (j := j) 1 hsub
    (by simpa [Json.truthy] using hsubne)
  obtain ⟨hiat, hexp, hiatCheck, hexpCheck⟩ := timeChecks_eq_nil (j := j) h.built.required hclock
  obtain ⟨v, hjwks, hv⟩ := h.built.required.jwks
  have hjwksCheck := presenceCheck_eq_nil (j := j) 9 hjwks
    (jwkSetSchema_truthy hv)
  obtain ⟨htyp, halg, hkid, hchain, hpeer⟩ := headerChecks_eq_nil (P := P) (j := j) hheader
  obtain ⟨hec, hss, hhints, haud, hanchor⟩ := h.claimChecks_eq_nil options
  rw [runChecks_eq_nil]
  simp only [statementChecks, rawStatementShape, List.forall_mem_append, List.forall_mem_cons,
    List.forall_mem_map, List.not_mem_nil, IsEmpty.forall_iff, implies_true, and_true,
    Except.ok.injEq, hschema, hmarks, hissCheck, hsubCheck, hiat, hexp, hiatCheck, hexpCheck, htyp,
    halg, hjwksCheck, hkid, hchain, hpeer, hhints, haud, hanchor, true_and,
    metadataPolicyShapeErrors_eq_nil h.built.policyShape, policyCritErrors_eq_nil h.built.policyCrit,
    federationEntityKeysErrors_eq_nil, issuerCheck_eq_nil hsub, inlineJwksCheck_eq_nil,
    critChecks_eq_nil h.built.crit]
  constructor
  · rintro ⟨⟨⟨⟨⟨hshape, -, ⟨hkeys, huri, hsigned⟩, hop, has⟩, hinline⟩, hcrit⟩, -⟩, -⟩
    refine ⟨⟨(metadataShapeErrors_eq_nil h.built).mp hshape, ?_, ?_, hinline⟩, hcrit⟩
    · simp only [List.forall_mem_cons, List.not_mem_nil, IsEmpty.forall_iff, implies_true, and_true]
      exact ⟨hkeys, huri, hsigned⟩
    · simp only [List.forall_mem_cons, List.not_mem_nil, IsEmpty.forall_iff, implies_true, and_true]
      exact ⟨hop, has⟩
  · rintro ⟨hfits, hcrit⟩
    have hkeys := hfits.federationKeys
    have hissuers := hfits.issuers
    simp only [List.forall_mem_cons, List.not_mem_nil, IsEmpty.forall_iff, implies_true,
      and_true] at hkeys hissuers
    exact ⟨⟨⟨⟨⟨(metadataShapeErrors_eq_nil h.built).mpr hfits.prototypeMember,
      nullParameterErrors_eq_nil h.built hfits.prototypeMember, hkeys, hissuers⟩,
      hfits.inlineJwks⟩, hcrit⟩, hec⟩, hss⟩

/-! ### The builders -/

theorem entityConfiguration_placed {options : BuildEntityConfigurationPayloadOptions}
    (hurl : P.parseUrl "" = none) (h : buildEntityConfigurationPayload P options = .ok payload) :
    Placed P .entityConfiguration payload options.entityId last 0 := by
  obtain ⟨hbuilt, hid, hiss, hsub, -, -, -, hhints⟩ := buildEntityConfigurationPayload_eq_ok h
  have hne : options.entityId ≠ "" := by
    intro he
    rw [he, hurl] at hid
    cases hid
  refine ⟨hbuilt, if_pos (.inl rfl), ?_, ⟨_, hne, hiss⟩, ⟨hne, hsub⟩, hhints⟩
  simp [isEC, hiss, hsub]

theorem subordinateStatement_placed {options : BuildSubordinateStatementPayloadOptions}
    (hurl : P.parseUrl "" = none) (h : buildSubordinateStatementPayload P options = .ok payload)
    (hj : 0 < j) : Placed P .subordinateStatement payload options.subject last j := by
  obtain ⟨hbuilt, hissuer, hsubject, hiss, hsub, -, -⟩ :=
    buildSubordinateStatementPayload_eq_ok h
  have hne : ∀ id, (P.parseUrl id).isSome = true → id ≠ "" := by
    rintro _ hid rfl
    rw [hurl] at hid
    cases hid
  have hschema := hbuilt.schema
  simp only [EntityStatementKind.schema, subordinateStatementSchema, Bool.and_eq_true,
    bne_iff_ne] at hschema
  have hstrict : isEC payload = false := by
    rw [← Bool.not_eq_true]
    exact fun hec => hschema.2 (congrArg (urlOutput P) (Json.eq_of_strictEq hec))
  have hposition : ¬ (j = 0 ∨ (j = last ∧ isEC payload = true)) := by
    rw [hstrict]
    simp [hj.ne']
  refine ⟨hbuilt, if_neg hposition, by simpa using hstrict, ⟨_, hne _ hissuer, hiss⟩,
    ⟨hne _ hsubject, hsub⟩, ?_⟩
  rw [hbuilt.forbidden "authority_hints" (by decide)]
  simp

/-- Of every payload that a builder returns, the checks of the first loop raise no error exactly
when its metadata fits and its critical claims are understood. -/
theorem builtStatements_accepted_iff (P : Platform) (hurl : P.parseUrl "" = none) :
    (∀ options payload, buildEntityConfigurationPayload P options = .ok payload →
      ∀ header validation now last, HeaderFits header → ClockFits validation now payload →
      (∀ marks, options.trustMarks = some marks → ∀ ref ∈ marks, MarkFits P ref) →
      (runChecks (statementChecks P validation now last 0 ⟨header, payload⟩) = .ok [] ↔
        MetadataFits P options.entityId (some options.metadata))) ∧
    ∀ options payload, buildSubordinateStatementPayload P options = .ok payload →
      ∀ header validation now last j, 0 < j → HeaderFits header →
      ClockFits validation now payload →
      (runChecks (statementChecks P validation now last j ⟨header, payload⟩) = .ok [] ↔
        MetadataFits P options.subject options.metadata ∧ ∀ crit, options.crit = some crit →
          ∀ claim ∈ crit, claim ∈ validation.understoodCriticalClaims) := by
  refine ⟨?_, ?_⟩
  · intro options payload h header validation now last hheader hclock hfit
    obtain ⟨-, -, -, -, hmetadata, hcrit, htrust, -⟩ := buildEntityConfigurationPayload_eq_ok h
    have hmarks : trustMarkReferenceErrors P 0 (payload.get? "trust_marks") = [] := by
      rw [htrust]
      cases hm : options.trustMarks with
      | none => rfl
      | some marks =>
        cases marks with
        | nil => rfl
        | cons ref rest => exact trustMarkReferenceErrors_eq_nil (hfit _ hm)
    have hplaced : Placed P .entityConfiguration payload options.entityId last 0 :=
      entityConfiguration_placed hurl h
    rw [statementChecks_iff hplaced hheader hclock hmarks, hmetadata, and_iff_left]
    intro claims hclaims
    rw [hcrit] at hclaims
    cases hclaims
  · intro options payload h header validation now last j hj hheader hclock
    obtain ⟨hbuilt, -, -, -, -, hmetadata, hcrit⟩ := buildSubordinateStatementPayload_eq_ok h
    have hmarks : trustMarkReferenceErrors P j (payload.get? "trust_marks") = [] := by
      rw [hbuilt.forbidden "trust_marks" (by decide)]
      rfl
    have hplaced : Placed P .subordinateStatement payload options.subject last j :=
      subordinateStatement_placed hurl h hj
    rw [statementChecks_iff hplaced hheader hclock hmarks, hmetadata]
    refine and_congr_right fun _ => ?_
    unfold CritUnderstood
    rw [hcrit]
    cases hc : options.crit with
    | none => simp [nonEmptyStrings]
    | some crit =>
      cases crit with
      | nil => simp [nonEmptyStrings]
      | cons claim rest => simp [nonEmptyStrings, stringArray]

end Checks

/-! ## Examples -/

/-- A provider whose metadata states an issuer. -/
def exampleOptions (issuer : String) : BuildEntityConfigurationPayloadOptions where
  now := 1000
  entityId := "https://op.example"
  jwks := .obj [("keys", .arr [tableKey "op"])]
  metadata := .obj [("openid_provider", .obj [("issuer", .str issuer)])]

def examplePayload (issuer : String) : Payload :=
  Dict.ofEntries [("iss", .str "https://op.example"), ("sub", .str "https://op.example"),
    ("iat", .num 1000), ("exp", .num 87400), ("jwks", (exampleOptions issuer).jwks),
    ("metadata", (exampleOptions issuer).metadata)]

def exampleHeader : Payload :=
  Dict.ofEntries [("alg", .str "ES256"), ("typ", .str JwtTyp.entityStatement), ("kid", .str "op")]

theorem exampleHeader_fits : HeaderFits exampleHeader :=
  ⟨rfl, ⟨"ES256", by decide, rfl⟩, ⟨"op", by decide, rfl⟩, rfl, rfl⟩

theorem examplePayload_clock (issuer : String) : ClockFits {} 1000 (examplePayload issuer) := by
  refine ⟨fun iat h => ?_, fun exp h => ?_⟩
  · obtain rfl := Json.num.inj (Option.some.inj h)
    decide +kernel
  · obtain rfl := Json.num.inj (Option.some.inj h)
    decide +kernel

theorem exampleMetadata_fits :
    MetadataFits (tablePlatform []) "https://op.example"
      (some (exampleOptions "https://op.example").metadata) := by
  have hmember : ∀ t ∈ objectEntries (some (exampleOptions "https://op.example").metadata),
      t = ("openid_provider", .obj [("issuer", .str "https://op.example")]) :=
    fun t ht => List.mem_singleton.mp ht
  refine ⟨fun t ht hname => ?_, fun forbidden _ => rfl, fun entityType htype issuer h => ?_,
    fun t ht _ keys h => ?_⟩
  · rw [hmember t ht] at hname
    exact absurd hname (by decide)
  · rcases List.mem_cons.mp htype with rfl | htype
    · exact (Option.some.inj h).symm
    · obtain rfl := List.mem_singleton.mp htype
      cases h
  · rw [hmember t ht] at h
    cases h

/-- With its own identifier as issuer, the provider's configuration is accepted. -/
theorem matchingIssuer_accepted :
    runChecks (statementChecks (tablePlatform []) {} 1000 0 0
      ⟨exampleHeader, examplePayload "https://op.example"⟩) = .ok [] :=
  ((builtStatements_accepted_iff (tablePlatform []) rfl).1 (exampleOptions "https://op.example")
    (examplePayload "https://op.example") (by decide +kernel) exampleHeader {} 1000 0
    exampleHeader_fits (examplePayload_clock _) nofun).mpr exampleMetadata_fits

/-- With another issuer the builder returns the payload, and the validator refuses it. -/
theorem mismatchedIssuer_refused :
    buildEntityConfigurationPayload (tablePlatform []) (exampleOptions "https://other.example") =
        .ok (examplePayload "https://other.example") ∧ HeaderFits exampleHeader ∧
      ClockFits {} 1000 (examplePayload "https://other.example") ∧
      runChecks (statementChecks (tablePlatform []) {} 1000 0 0
        ⟨exampleHeader, examplePayload "https://other.example"⟩) ≠ .ok [] :=
  ⟨by decide +kernel, exampleHeader_fits, examplePayload_clock _, by decide +kernel⟩

end OidFed
