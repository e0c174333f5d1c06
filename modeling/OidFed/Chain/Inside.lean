import OidFed.Chain.Evidence
import OidFed.Policy.Names

/-!
# Validation within the objects of its own

A policy, or the metadata of a superior, may use names that plain objects inherit; a run that comes to
one goes on with objects that the whole program shares (`ValidationResult.outside`).

* `OwnMembers`: a chain whose policies, superior metadata and table of Trust Mark issuers use no such
  names.
* `validateTrustChain_inside`: a chain of this kind that is accepted is valid: its run has stayed within
  its own objects.
-/

namespace OidFed

open Js Pipeline

/-- The run goes no further, or goes on with objects of its own. -/
def IsInside (s : Stop) : Prop := s ≠ .outside

theorem policyErrors_inside {α : Type} {x : Except Stop α} (h : ErrorsIn IsPolicyError x) :
    ErrorsIn IsInside x := by
  intro s hs
  obtain ⟨d, rfl⟩ := h s hs
  exact nofun

/-! ## Trust Marks -/

section Marks

variable {P : Platform}

theorem tmRequire_inside (cond : Bool) (d : String) : ErrorsIn IsInside (tmRequire cond d) := by
  cases cond with
  | true => exact .ok _
  | false => exact .error nofun

theorem tmRequireText_inside (cond : Bool) (text : Option String) (d : String → String) :
    ErrorsIn IsInside (tmRequireText cond text d) := by
  cases cond with
  | true => exact .ok _
  | false => cases text <;> exact .error nofun

theorem tmValue_inside {α : Type} (result : Except FederationError α) (d : String → String) :
    ErrorsIn IsInside (tmValue result d) := by
  cases result with
  | ok a => exact .ok a
  | error e => exact .error nofun

theorem checkIssuer_inside (issuers : Dict String Json) (trustMarkType iss : String) :
    ErrorsIn IsInside (checkIssuer issuers trustMarkType iss) := by
  unfold checkIssuer
  split
  · exact .error nofun
  · exact tmRequire_inside _ _
  · exact .error nofun
  · split
    · exact .error nofun
    · exact .ok _
  · exact .ok _

theorem validateDelegation_inside (jwt issuer trustMarkType : String)
    (options : TrustMarkValidationOptions) (now verificationTime : Rat) :
    ErrorsIn IsInside (validateDelegation P jwt issuer trustMarkType options now verificationTime) := by
  unfold validateDelegation
  refine (tmValue_inside _ _).bind fun decoded _ => ?_
  refine (tmRequireText_inside _ _ _).bind fun _ _ => ?_
  refine (tmRequire_inside _ _).bind fun _ _ => ?_
  refine (tmRequireText_inside _ _ _).bind fun _ _ => ?_
  refine (tmRequire_inside _ _).bind fun _ _ => ?_
  refine (tmRequire_inside _ _).bind fun _ _ => ?_
  refine (tmRequire_inside _ _).bind fun _ _ => ?_
  refine (tmRequire_inside _ _).bind fun _ _ => ?_
  refine (tmRequireText_inside _ _ _).bind fun _ _ => ?_
  refine (tmRequire_inside _ _).bind fun _ _ => ?_
  refine (tmValue_inside _ _).bind fun _ _ => ?_
  exact (tmRequire_inside _ _).bind fun _ _ => .ok _

theorem validateTrustMark_inside (jwt : String) (issuers : Dict String Json) (jwks : JWKSet)
    (options : TrustMarkValidationOptions) (clock : Clock) (i : Nat) :
    ErrorsIn IsInside (validateTrustMark P jwt issuers jwks options clock i) := by
  unfold validateTrustMark
  refine (tmValue_inside _ _).bind fun decoded _ => ?_
  refine (tmRequireText_inside _ _ _).bind fun _ _ => ?_
  refine (tmRequireText_inside _ _ _).bind fun _ _ => ?_
  refine (tmRequire_inside _ _).bind fun _ _ => ?_
  refine (tmRequire_inside _ _).bind fun _ _ => ?_
  refine (tmRequire_inside _ _).bind fun _ _ => ?_
  refine (checkIssuer_inside _ _ _).bind fun _ _ => ?_
  refine (tmValue_inside _ _).bind fun _ _ => ?_
  refine (tmRequire_inside _ _).bind fun _ _ => ?_
  refine (tmRequire_inside _ _).bind fun _ _ => ?_
  refine (tmRequire_inside _ _).bind fun _ _ => ?_
  refine ErrorsIn.bind ?_ fun _ _ => .ok _
  cases (Payload.string? decoded.payload "delegation").filter (· ≠ "") with
  | none => exact .ok _
  | some delegation => exact (validateDelegation_inside _ _ _ _ _ _).bind fun _ _ => .ok _

theorem issuerKeys_inside (ctx : MarkContext) (tmIss : Option Json) :
    ErrorsIn IsInside (issuerKeys P ctx tmIss) := by
  unfold issuerKeys
  split
  · exact .ok _
  · split
    · exact .ok _
    · exact .error nofun
    · split <;> exact .ok _

theorem publishedMark_inside (ctx : MarkContext) (clock : Clock) (i : Nat) (tmRef : Json) :
    ErrorsIn IsInside (publishedMark P ctx clock i tmRef) := by
  unfold publishedMark
  dsimp only
  split
  · exact .ok _
  · split
    · exact .ok _
    · refine (issuerKeys_inside ctx _).bind fun keys _ => ?_
      split
      · split
        · exact .error nofun
        · exact .ok _
      · split
        · exact .ok _
        · exact .ok _
        · rename_i stop _ hvalidated
          exact .error (validateTrustMark_inside _ _ _ _ _ _ stop hvalidated)

theorem publishedMarks_inside (ctx : MarkContext) (clock : Clock) (i : Nat) (tmRefs : List Json) :
    ErrorsIn IsInside (publishedMarks P ctx clock i tmRefs) := by
  induction tmRefs generalizing i with
  | nil => exact .ok _
  | cons tmRef rest ih =>
    refine (publishedMark_inside ctx clock i tmRef).bind fun outcome _ => (ih (i + 1)).bind
      fun errors _ => ?_
    dsimp only
    split <;> exact .ok _

end Marks

/-! ## Metadata and policies -/

section Metadata

theorem assignMember_inside (target : EntityMetadata) {p : String × Json} (hp : p.1 ≠ "__proto__") :
    ErrorsIn IsInside (assignMember target p) := by
  rw [assignMember, if_neg fun h => hp h.1]
  exact .ok _

theorem mergeSuperiorEntityType_inside {entityType : String} {params : EntityMetadata}
    (hname : inherited entityType = false) (hparams : ∀ p ∈ params.members, p.1 ≠ "__proto__")
    (cur : Option EntityMetadata) :
    ErrorsIn IsInside (mergeSuperiorEntityType entityType params cur) := by
  unfold mergeSuperiorEntityType
  rw [readOr_of_not_inherited _ hname]
  cases cur with
  | none => exact .ok _
  | some existing =>
    exact (ErrorsIn.foldlM (fun p hp target => assignMember_inside target (hparams p hp)) _).bind
      fun _ _ => .ok _

variable {numberText : Rat → String} {lookup : OperatorLookup}

theorem applyOperators_inside (path : String) (ops : List OperatorEntry) (cur : Option Json) :
    ErrorsIn IsInside (applyOperators path ops cur) := by
  refine .foldlM (fun op _ cur => ?_) cur
  unfold applyOperator
  split
  · exact .error nofun
  · split
    · exact .ok _
    · split
      · exact .error nofun
      · exact .ok _

theorem applyParameter_inside {entityType paramName : String} {ops : ParameterPolicy}
    (hname : inherited paramName = false) (hops : readsBuiltin lookup ops = false)
    (cur : Option Json) :
    ErrorsIn IsInside (applyParameter numberText lookup entityType paramName ops cur) := by
  unfold applyParameter
  simp only [hops, Bool.false_eq_true, if_false, readOr_of_not_inherited _ hname]
  cases cur with
  | none => exact applyOperators_inside _ _ _
  | some v =>
    cases v with
    | str scope =>
      simp only
      split
      · refine (applyOperators_inside _ _ _).bind fun value _ => ?_
        split
        · split
          · exact .ok _
          · exact .error nofun
        · exact .ok _
      · exact applyOperators_inside _ _ _
    | _ => exact applyOperators_inside _ _ _

theorem applyEntityType_inside {entityType : String} {params : EntityTypePolicy}
    (hname : inherited entityType = false) (hparams : ∀ p ∈ params.members,
      inherited p.1 = false ∧ readsBuiltin lookup p.2 = false) (cur : Option EntityMetadata) :
    ErrorsIn IsInside (applyEntityType numberText lookup entityType params cur) := by
  have happly : ∀ metadata : EntityMetadata, ErrorsIn IsInside
      (Dict.updateM (applyParameter numberText lookup entityType) params.members metadata) :=
    fun metadata => .updateM (fun p hp cur =>
      applyParameter_inside (hparams p hp).1 (hparams p hp).2 cur) metadata
  unfold applyEntityType
  rw [readOr_of_not_inherited _ hname]
  cases cur with
  | none => exact (happly .empty).bind fun _ _ => .ok _
  | some metadata => exact (happly metadata).bind fun _ _ => .ok _

/-- The names of merged policies are none that are inherited, so their application stays inside. -/
theorem applyMetadataPolicy_inside {stmts : List PolicyStatement} {options : MetadataPolicyOptions}
    {merged : ResolvedMetadataPolicy} (h : resolveMetadataPolicy stmts options = .ok merged)
    (metadata : FederationMetadata) :
    ErrorsIn IsInside (applyMetadataPolicy numberText metadata merged none options) := by
  obtain ⟨lookup, hl, -, hfold⟩ := resolveMetadataPolicy_eq_ok.mp h
  have happly : ErrorsIn IsInside
      (Dict.updateM (applyEntityType numberText lookup) merged.members metadata) := by
    refine .updateM (fun t ht cur => ?_) metadata
    have htype : merged.get? t.1 = some t.2 := Dict.get?_of_mem ht
    refine applyEntityType_inside
      ((resolveMetadataPolicy_entityType h t.1).mp (by simp [htype])).1 (fun p hp => ?_) cur
    have hkeys := ownKeys_of_fold hfold t.1 p.1
    have hparam : parameterPolicy merged t.1 p.1 = some p.2 := by
      simp [parameterPolicy, htype, Dict.get?_of_mem hp]
    refine ⟨hkeys.parameter (by simp [hparam]), ?_⟩
    rw [readsBuiltin, List.any_eq_false]
    intro name hname
    obtain ⟨v, hv⟩ := (p.2.mem_keys_iff name).mp hname
    cases hi : inherited name with
    | false => simp
    | true => simp [hkeys.merged p.2 hparam name hi] at hv
  unfold applyMetadataPolicy
  rw [hl]
  exact happly

end Metadata

/-! ## Chains -/

/-- The names that the policies, the metadata of the immediate superior and the custom operators of a chain
use are their own, and so are those of the table of Trust Mark issuers, where the leaf has marks. -/
structure OwnMembers (options : TrustChainValidationOptions)
    (statements : List ParsedEntityStatement) : Prop where
  operators : ∀ op ∈ options.customPolicyOperators, op.name ≠ "__proto__"
  policies : ∀ ss ∈ subordinateStatements statements, ∀ policy,
    (policyStatement ss).metadataPolicy = some policy → CleanPolicy policy
  superior : ∀ ss, (subordinateStatements statements).head? = some ss →
    ∀ t ∈ (metadataOf (ss.payload.get? "metadata")).members, inherited t.1 = false ∧
      ∀ p ∈ t.2.members, p.1 ≠ "__proto__"
  issuers : publishedTrustMarks (statementAt statements 0).payload = [] ∨ ∀ t ∈ objectEntries
    ((statementAt statements (statements.length - 1)).payload.get? "trust_mark_issuers"),
      t.1 ≠ "__proto__"

section Chain

variable {P : Platform} {trustAnchors : TrustAnchorSet} {options : TrustChainValidationOptions}
  {clock : Clock} {chain : List String} {statements : List ParsedEntityStatement}

theorem resolveMetadataPolicy_inside (hown : OwnMembers options statements) :
    ErrorsIn IsInside (resolveMetadataPolicy
      ((subordinateStatements statements).map policyStatement)
      { customOperators := options.customPolicyOperators }) := by
  refine ErrorsIn.bind (fun s hs => ?_) fun lookup _ => ?_
  · obtain ⟨d, rfl⟩ := buildOperatorLookup_error hown.operators hs
    exact nofun
  · refine (policyErrors_inside (.forM fun name _ => checkCritical_errorsIn name)).bind fun _ _ => ?_
    refine policyErrors_inside (mergeStatements_errorsIn (readsStatements_of_clean ?_ _))
    intro stmt hs
    obtain ⟨ss, hss, rfl⟩ := List.mem_map.mp (List.mem_reverse.mp hs)
    exact hown.policies ss hss

theorem resolveChainMetadata_inside (hown : OwnMembers options statements)
    (metadata : FederationMetadata) :
    ErrorsIn IsInside (resolveChainMetadata P (subordinateStatements statements)
      { customOperators := options.customPolicyOperators } {} metadata) := by
  unfold resolveChainMetadata
  split
  · exact .ok _
  · split
    · exact .ok _
    · rename_i stop _ hmerge
      exact .error (resolveMetadataPolicy_inside hown stop hmerge)
    · rename_i merged hmerge
      split
      · exact .ok _
      · have hcontext : addContext Dict.empty metadata = .ok metadata := rfl
        have hdefer : deferClaims metadata merged [] = .ok (merged, []) := rfl
        simp only [hcontext, hdefer, bind, Except.bind]
        split
        · exact .ok _
        · rename_i stop _ happly
          exact .error (applyMetadataPolicy_inside hmerge metadata stop happly)
        · exact .ok _

theorem chainMetadata_inside (hown : OwnMembers options statements) :
    ErrorsIn IsInside (chainMetadata P options {} statements) := by
  refine ErrorsIn.bind (.updateM (fun t ht cur => ?_) _) fun published _ => ?_
  · cases hss : (subordinateStatements statements).head? with
    | none =>
      rw [hss] at ht
      cases ht
    | some ss =>
      rw [hss, Option.bind_some] at ht
      obtain ⟨hname, hparams⟩ := hown.superior ss hss t ht
      exact mergeSuperiorEntityType_inside hname hparams cur
  · split
    · exact .error nofun
    · exact (resolveChainMetadata_inside hown _).bind fun _ _ => .ok _

theorem leafTrustMarks_inside (hown : OwnMembers options statements) (verifyMarks : Bool) :
    ErrorsIn IsInside (leafTrustMarks P trustAnchors options verifyMarks clock statements) := by
  unfold leafTrustMarks
  dsimp only
  split
  · exact .ok _
  · rename_i hmarks
    refine ErrorsIn.bind (ErrorsIn.bind ?_ fun _ _ => .ok _) fun ctx _ =>
      publishedMarks_inside ctx clock 0 _
    have hissuers := hown.issuers.resolve_left fun hnil => by simp [hnil] at hmarks
    unfold trustMarkIssuersOf
    split
    · exact .foldlM (fun t ht issuers => assignMember_inside issuers (hissuers t ht)) _
    · exact .ok _

/-- A run that goes on outside does so in metadata resolution or Trust Marks. -/
theorem validateTrustChainImpl_outside {verifyMarks : Bool} {stage : MetadataStage}
    {c : AuthenticatedChain}
    (h : validateTrustChainImpl P chain trustAnchors options verifyMarks clock stage =
      .ok (.outside c)) :
    chainEvidence P trustAnchors options verifyMarks clock stage (authenticatedChain c.statements) =
      .error .outside := by
  unfold validateTrustChainImpl at h
  split at h
  · cases h
  · split at h
    · cases h
    · obtain ⟨errors, -, h⟩ := bind_eq_ok.mp h
      split at h
      · cases h
      · obtain ⟨errors, -, h⟩ := bind_eq_ok.mp h
        split at h
        · cases h
        · split at h
          · rename_i result hevidence
            obtain rfl := Except.ok.inj h
            -- what metadata resolution and Trust Marks return is valid or has errors
            obtain ⟨metadata, -, hevidence⟩ := bind_eq_ok.mp hevidence
            obtain ⟨marks, -, hevidence⟩ := bind_eq_ok.mp hevidence
            dsimp only at hevidence
            split at hevidence
            · cases hevidence
            · cases hevidence
          · rename_i hevidence
            obtain rfl := ValidationResult.outside.inj (Except.ok.inj h)
            exact hevidence
          · cases h

/-- A chain of own members is validated without leaving the objects of the run. -/
theorem validateTrustChain_inside {result : ValidationResult} {c : AuthenticatedChain}
    (h : validateTrustChain P chain trustAnchors options clock = .ok result)
    (hchain : result.chain? = some c) (hown : OwnMembers options c.statements) :
    ∃ v pending, result = .valid v pending := by
  cases result with
  | invalid errors => cases hchain
  | valid v pending => exact ⟨v, pending, rfl⟩
  | outside c' =>
    obtain rfl := Option.some.inj hchain
    have hevidence : ErrorsIn IsInside (chainEvidence P trustAnchors options true clock {}
        (authenticatedChain c'.statements)) :=
      (chainMetadata_inside hown).bind fun _ _ =>
        (leafTrustMarks_inside hown true).bind fun _ _ => by
          dsimp only
          split <;> exact .ok _
    exact absurd rfl (hevidence _ (validateTrustChainImpl_outside h))

end Chain

end OidFed
