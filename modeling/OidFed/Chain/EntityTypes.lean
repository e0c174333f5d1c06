import OidFed.Chain.Inside

/-!
# Entity types of resolved metadata

* `EntityTypesHold`: the law. A resolved entity type is one of the leaf's own, and every statement
  that restricts entity types allows it.
* `resolvedMetadata_entityType`: the application of the policies comes last, and creates every
  entity type that a policy names.
* `entityTypesHold_iff`: so the law holds of a valid chain exactly when its policies name no other
  entity types. A chain that is accepted is valid where it uses no inherited names.
-/

namespace OidFed

open Js

/-- The leaf's own metadata has the entity type. -/
def LeafHas (statements : List ParsedEntityStatement) (entityType : String) : Prop :=
  ((metadataOf ((statementAt statements 0).payload.get? "metadata")).get? entityType).isSome

/-- Every statement that restricts entity types allows it. -/
def AllowedByAll (statements : List ParsedEntityStatement) (entityType : String) : Prop :=
  ∀ es ∈ statements, ∀ allowed, allowedEntityTypesOf es = some allowed →
    entityType = "federation_entity" ∨ entityType ∈ allowed

def EntityTypesHold (v : ValidatedTrustChain) : Prop :=
  ∀ t ∈ v.resolvedMetadata.keys, LeafHas v.statements t ∧ AllowedByAll v.statements t

/-- The policy of a statement names the entity type. -/
def PolicyNames (es : ParsedEntityStatement) (entityType : String) : Prop :=
  ((policyStatement es).entityTypePolicy entityType).isSome

section Stages

/-- The superior's metadata adds no entity type. -/
theorem publishedMetadata_isSome {leaf : ParsedEntityStatement}
    {superior : Option ParsedEntityStatement} {published : FederationMetadata}
    (h : publishedMetadata leaf superior = .ok published) (t : String) :
    (published.get? t).isSome ↔ ((metadataOf (leaf.payload.get? "metadata")).get? t).isSome := by
  set supMetadata := metadataOf (superior.bind fun ss => ss.payload.get? "metadata")
  obtain ⟨hstep, hother⟩ := Dict.updateM_get? supMetadata.nodup h
  cases hs : supMetadata.get? t with
  | none => rw [hother t ((supMetadata.get?_eq_none_iff t).mp hs)]
  | some params =>
    have ht := hstep (t, params) ((supMetadata.get?_eq_some_iff t params).mp hs)
    simp only [mergeSuperiorEntityType] at ht
    cases hcur : (metadataOf (leaf.payload.get? "metadata")).get? t with
    | some cur =>
      rw [hcur] at ht
      obtain ⟨d, -, hafter⟩ := bind_eq_ok.mp ht
      simp [← Except.ok.inj hafter]
    | none =>
      rw [hcur] at ht
      unfold readOr at ht
      cases hb : objectPrototype.lookup t with
      | none =>
        simp only [hb] at ht
        simp [← Except.ok.inj ht]
      | some b =>
        simp only [hb] at ht
        split at ht
        · simp [← Except.ok.inj ht]
        · simp at ht

theorem restrictEntityTypes_isSome (metadata : FederationMetadata) (es : ParsedEntityStatement)
    (t : String) : ((restrictEntityTypes metadata es).get? t).isSome ↔
      (metadata.get? t).isSome ∧ ∀ allowed, allowedEntityTypesOf es = some allowed →
        t = "federation_entity" ∨ t ∈ allowed := by
  unfold restrictEntityTypes
  cases allowedEntityTypesOf es with
  | none => simp
  | some allowed =>
    rw [get?_applyAllowedEntityTypes]
    split <;> simp_all

theorem foldl_restrictEntityTypes_isSome (l : List ParsedEntityStatement)
    (metadata : FederationMetadata) (t : String) :
    ((l.foldl restrictEntityTypes metadata).get? t).isSome ↔
      (metadata.get? t).isSome ∧ AllowedByAll l t := by
  induction l generalizing metadata with
  | nil => simp [AllowedByAll]
  | cons es rest ih =>
    rw [List.foldl_cons, ih, restrictEntityTypes_isSome, and_assoc]
    simp [AllowedByAll]

variable {P : Platform} {trustAnchors : TrustAnchorSet} {options : TrustChainValidationOptions}
  {verifyMarks : Bool} {clock : Clock} {chain : List String}
  {v : ValidatedTrustChain} {pending : List ContextualMetadataClaim}

/-- The entity types of a restricted metadata are the leaf's own, as far as they are allowed. -/
theorem restrictedMetadata_isSome {parsed : List ParsedEntityStatement}
    {restricted : FederationMetadata} (hacc : Accepted P trustAnchors options clock chain parsed)
    (h : restrictedMetadata parsed = .ok restricted) (t : String) :
    (restricted.get? t).isSome ↔ LeafHas parsed t ∧ AllowedByAll parsed t := by
  obtain ⟨published, hp, h⟩ := bind_eq_ok.mp h
  obtain rfl := Except.ok.inj h
  rw [foldl_restrictEntityTypes_isSome, publishedMetadata_isSome hp]
  obtain ⟨s₀, rest, hparsed⟩ := List.exists_cons_of_ne_nil hacc.ne_nil
  have hs₀ : allowedEntityTypesOf s₀ = none := by
    simp [allowedEntityTypesOf, hacc.leaf_constraints (show parsed[0]? = some s₀ by simp [hparsed])]
  rw [hparsed]
  simp [LeafHas, AllowedByAll, hs₀]

/-- The entity types of resolved metadata: those that are left, and those that a policy names. -/
theorem resolvedMetadata_entityType (hacc : Accepted P trustAnchors options clock chain v.statements)
    (hev : Evidence P trustAnchors options verifyMarks clock {} v.statements v pending) (t : String) :
    (v.resolvedMetadata.get? t).isSome ↔ (LeafHas v.statements t ∧ AllowedByAll v.statements t) ∨
      inherited t = false ∧ ∃ ss ∈ subordinateStatements v.statements, PolicyNames ss t := by
  obtain ⟨restricted, hrestricted, hres⟩ := hev.metadata
  rw [← restrictedMetadata_isSome hacc hrestricted]
  unfold resolveChainMetadata at hres
  dsimp only at hres
  split at hres
  · rename_i hnil
    rw [List.isEmpty_iff.mp hnil]
    simp only [Except.ok.injEq, ResolvedChainMetadata.mk.injEq] at hres
    simp [hres.2.1]
  · cases hmerged : resolveMetadataPolicy ((subordinateStatements v.statements).map policyStatement)
        { customOperators := options.customPolicyOperators } with
    | error stop =>
      rw [hmerged] at hres
      cases stop <;> simp at hres
    | ok merged =>
      -- the merged policy has the entity types that the policies of the chain name
      have hnames : (merged.get? t).isSome ↔ inherited t = false ∧
          ∃ ss ∈ subordinateStatements v.statements, PolicyNames ss t := by
        rw [resolveMetadataPolicy_entityType hmerged]
        simp [PolicyNames]
      rw [hmerged] at hres
      simp only at hres
      split at hres
      · rename_i hempty
        simp only [Except.ok.injEq, ResolvedChainMetadata.mk.injEq] at hres
        have hnone : merged.get? t = none := by
          rw [Dict.get?_eq_none_iff, Dict.keys, List.isEmpty_iff.mp hempty]
          simp
        rw [← hnames, hnone, hres.2.1]
        simp
      · have hcontext : addContext Dict.empty restricted = .ok restricted := rfl
        have hdefer : deferClaims restricted merged [] = .ok (merged, []) := rfl
        simp only [hcontext, hdefer, bind, Except.bind] at hres
        cases happly : applyMetadataPolicy P.numberText restricted merged none
            { customOperators := options.customPolicyOperators } with
        | error stop =>
          rw [happly] at hres
          cases stop <;> simp [pure, Except.pure, policyStageError] at hres
        | ok result =>
          rw [happly] at hres
          obtain ⟨-, rfl, -⟩ := ResolvedChainMetadata.mk.inj (Except.ok.inj hres)
          obtain ⟨lookup, -, happlied⟩ := applyMetadataPolicy_eq_ok.mp happly
          rw [applied_entityType_isSome happlied, ← hnames]
          -- and the application creates them in the metadata
          have := (resolveMetadataPolicy_entityType hmerged t).mp
          tauto

/-- The law holds of a valid chain exactly when its policies name only entity types of the leaf
that every statement allows; and a chain of own members is valid where it is accepted. -/
theorem entityTypesHold_iff {result : ValidationResult} {c : AuthenticatedChain}
    (h : validateTrustChain P chain trustAnchors options clock = .ok result)
    (hchain : result.chain? = some c) :
    (OwnMembers options c.statements → ∃ v pending, result = .valid v pending) ∧
    ∀ v pending, result = .valid v pending →
      (EntityTypesHold v ↔ ∀ ss ∈ subordinateStatements v.statements, ∀ t, PolicyNames ss t →
        inherited t = false → LeafHas v.statements t ∧ AllowedByAll v.statements t) := by
  refine ⟨validateTrustChain_inside h hchain, ?_⟩
  rintro v pending rfl
  obtain ⟨hacc, hev⟩ := validateTrustChainImpl_eq_valid h
  have hkeys : ∀ t, t ∈ v.resolvedMetadata.keys ↔
      (LeafHas v.statements t ∧ AllowedByAll v.statements t) ∨
        inherited t = false ∧ ∃ ss ∈ subordinateStatements v.statements, PolicyNames ss t := by
    intro t
    rw [Dict.mem_keys_iff, ← Option.isSome_iff_exists]
    exact resolvedMetadata_entityType hacc hev t
  constructor
  · intro hold ss hss t hnames hi
    exact hold t ((hkeys t).mpr (.inr ⟨hi, ss, hss, hnames⟩))
  · intro hcond t ht
    rcases (hkeys t).mp ht with hleaf | ⟨hi, ss, hss, hnames⟩
    · exact hleaf
    · exact hcond ss hss t hnames hi

end Stages

/-- A relying party below an anchor that allows only relying parties, and has a policy for an
entity type. -/
def chainWithPolicyFor (entityType : String) : List (String × SignedJwt) :=
  [("rp", signedJwt JwtTyp.entityStatement "rp-key"
      (statementClaims "https://rp.example" "https://rp.example" "rp-key"
        [("authority_hints", .arr [.str "https://ta.example"]),
          ("metadata", .obj [("openid_relying_party", .obj [("client_name", .str "RP")])])])),
    ("ta-about-rp", signedJwt JwtTyp.entityStatement "ta-key"
      (statementClaims "https://ta.example" "https://rp.example" "rp-key"
        [("constraints", .obj [("allowed_entity_types", .arr [.str "openid_relying_party"])]),
          ("metadata_policy", .obj
            [(entityType, .obj [("contacts", .obj [("add", .arr [.str "ops@ta.example"])])])])]))]

def validateWithPolicyFor (entityType : String) : Except JsError ValidationResult :=
  validateTrustChain (tablePlatform (chainWithPolicyFor entityType)) ["rp", "ta-about-rp"]
    exampleAnchors {} fun _ => 1500

theorem entityTypesHold_relyingParty : ∃ v pending,
    validateWithPolicyFor "openid_relying_party" = .ok (.valid v pending) ∧ EntityTypesHold v := by
  obtain ⟨v, pending, hvalid, hall⟩ := exists_valid
    (r := validateWithPolicyFor "openid_relying_party")
    (p := fun v => (subordinateStatements v.statements).all fun ss =>
      ((policyStatement ss).metadataPolicy.all fun policy => policy.keys.all fun t =>
        ((metadataOf ((statementAt v.statements 0).payload.get? "metadata")).get? t).isSome &&
          v.statements.all fun es => (allowedEntityTypesOf es).all fun allowed =>
            t == "federation_entity" || allowed.contains t)) (by decide +kernel)
  refine ⟨v, pending, hvalid,
    ((entityTypesHold_iff hvalid rfl).2 v pending rfl).mpr fun ss hss t hnames _ => ?_⟩
  obtain ⟨params, hparams⟩ := Option.isSome_iff_exists.mp hnames
  obtain ⟨policy, hpolicy, ht⟩ := Option.bind_eq_some_iff.mp hparams
  have hss' := List.all_eq_true.mp hall ss hss
  rw [hpolicy] at hss'
  have ht' := List.all_eq_true.mp hss' t ((policy.mem_keys_iff t).mpr ⟨params, ht⟩)
  simp only [Bool.and_eq_true, List.all_eq_true] at ht'
  refine ⟨ht'.1, fun es hes allowed hallowed => ?_⟩
  have hes' := ht'.2 es hes
  rw [hallowed] at hes'
  simpa using hes'

/-- An entity type that the leaf does not have, and no statement allows, is resolved. -/
theorem policy_creates_entityType : ∃ v pending,
    validateWithPolicyFor "openid_provider" = .ok (.valid v pending) ∧ ¬ EntityTypesHold v := by
  obtain ⟨v, pending, hvalid, hbad⟩ := exists_valid (r := validateWithPolicyFor "openid_provider")
    (p := fun v => v.resolvedMetadata.keys.contains "openid_provider" &&
      ((metadataOf ((statementAt v.statements 0).payload.get? "metadata")).get?
        "openid_provider").isNone) (by decide +kernel)
  refine ⟨v, pending, hvalid, fun hold => ?_⟩
  simp only [Bool.and_eq_true, List.contains_iff_mem, Option.isNone_iff_eq_none] at hbad
  have hleaf := (hold _ hbad.1).1
  simp [LeafHas, hbad.2] at hleaf

end OidFed
