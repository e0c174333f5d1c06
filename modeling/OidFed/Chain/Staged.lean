import OidFed.Chain.Evidence

/-!
# Validation in two stages (`trust-chain/validate.ts`)

`prepareTrustChainValidation` authenticates a chain and sets aside the policies of the parameters that
the metadata lacks and that the caller names. `completeTrustChainValidation` runs the validation again
with all policies, on metadata to which a context may add the parameters set aside.

* `Lessened`: what setting claims aside does to a policy.
* `Extends`: what a context does to metadata.
* `stagedValidation_refines`: an empty context completes to the validation in one go, a chain that is
  valid can be prepared, and a context adds to what is published and replaces nothing of it.

A run of either stage may go on outside (`ValidationResult`), where this model ends; `Chain.Shared` goes on
with what the merge of policies writes there.
-/

namespace OidFed

open Js

/-! ## The two stages -/

/-- What a preparation keeps for its completion. -/
structure Preparation where
  chain : List String
  anchors : TrustAnchorSet
  options : TrustChainValidationOptions
  pending : List ContextualMetadataClaim

/-- The preparations of a program, in their order; an object `PreparedTrustChain` is known by its
place. -/
abbrev Preparations := List Preparation

structure PreparedTrustChain where
  place : Nat
  entityId : String
  trustAnchorId : String
  expiresAt : Rat
  resolvedMetadata : FederationMetadata
  statements : List ParsedEntityStatement
  pendingClaims : List ContextualMetadataClaim

def validationFailure (errors : List ValidationError) : FederationError :=
  internalError .TrustChainInvalid ("; ".intercalate (errors.map (·.message)))

def validationError {α : Type} (message : String) : Except Stop α :=
  .error (.fail (validationFailure [{ code := .TrustChainInvalid, message }]))

/-- The chain of a run, with the claims that it has set aside. -/
def stagedResult : Except JsError ValidationResult →
    Except Stop (ValidatedTrustChain × List ContextualMetadataClaim)
  | .error _ => .error .throws
  | .ok (.invalid errors) => .error (.fail (validationFailure errors))
  | .ok (.outside _) => .error .outside
  | .ok (.valid chain pending) => .ok (chain, pending)

section Stages

variable (P : Platform) (preparations : Preparations)

/-- Authenticate a chain while reserving explicitly named, absent policy inputs. -/
def prepareTrustChainValidation (chain : List String) (anchors : TrustAnchorSet)
    (options : TrustChainValidationOptions) (deferredClaims : List ContextualMetadataClaim)
    (clock : Clock) (merge : PolicyMerge := @resolveMetadataPolicy) :
    Except Stop (PreparedTrustChain × Preparations) := do
  let (result, pending) ← stagedResult (validateTrustChainImpl P chain anchors options true clock
    { deferred := deferredClaims, merge })
  let prepared : PreparedTrustChain :=
    { place := preparations.length
      entityId := result.entityId
      trustAnchorId := result.trustAnchorId
      expiresAt := result.expiresAt
      resolvedMetadata := result.resolvedMetadata
      statements := result.statements
      pendingClaims := pending }
  return (prepared, preparations ++ [{ chain, anchors, options, pending }])

/-- Every parameter of a context has been set aside by the preparation. -/
def reserved (pending : List ContextualMetadataClaim) (context : Json) : Bool :=
  context.fields.all fun type => type.2.isObject &&
    type.2.fields.all fun p => pending.contains { entityType := type.1, parameter := p.1 }

/-- Finish the original chain's policies; contextual values cannot replace published metadata. `now` is
what the clock of the preparation reads first. -/
def completeTrustChainValidation (prepared : PreparedTrustChain) (context : Json) (now : Rat)
    (clock : Clock) (merge : PolicyMerge := @resolveMetadataPolicy) : Except Stop ValidatedTrustChain :=
  if !context.isObject then validationError "Context must be a metadata object"
  else
    match preparations[prepared.place]? with
    | none => validationError "Unknown, expired, or cancelled preparation"
    | some saved =>
      if prepared.expiresAt ≤ now then validationError "Unknown, expired, or cancelled preparation"
      else if !reserved saved.pending context then
        validationError "Context contains an unreserved metadata field"
      else (stagedResult (validateTrustChainImpl P saved.chain saved.anchors saved.options true clock
        { context := metadataOf (some context), merge })).map (·.1)

end Stages

theorem stagedResult_eq_ok {r : Except JsError ValidationResult} {v : ValidatedTrustChain}
    {pending : List ContextualMetadataClaim} :
    stagedResult r = .ok (v, pending) ↔ r = .ok (.valid v pending) := by
  unfold stagedResult
  split <;> simp

theorem map_eq_ok {ε α β : Type} {x : Except ε α} {f : α → β} {b : β} (h : x.map f = .ok b) :
    ∃ a, x = .ok a ∧ f a = b := by
  cases x with
  | error e => cases h
  | ok a => exact ⟨a, rfl, Except.ok.inj h⟩

section Stages

variable {P : Platform} {preparations : Preparations} {chain : List String}
  {anchors : TrustAnchorSet} {options : TrustChainValidationOptions}
  {deferredClaims : List ContextualMetadataClaim} {clock : Clock}

theorem prepareTrustChainValidation_eq_ok {prepared : PreparedTrustChain} {saved : Preparations} :
    prepareTrustChainValidation P preparations chain anchors options deferredClaims clock =
        .ok (prepared, saved) ↔
      ∃ v pending,
        validateTrustChainImpl P chain anchors options true clock { deferred := deferredClaims } =
          .ok (.valid v pending) ∧
        prepared = ⟨preparations.length, v.entityId, v.trustAnchorId, v.expiresAt, v.resolvedMetadata,
          v.statements, pending⟩ ∧
        saved = preparations ++ [⟨chain, anchors, options, pending⟩] := by
  unfold prepareTrustChainValidation
  rw [bind_eq_ok]
  constructor
  · rintro ⟨⟨v, pending⟩, hr, h⟩
    obtain ⟨rfl, rfl⟩ := Prod.mk.inj (Except.ok.inj h)
    exact ⟨v, pending, stagedResult_eq_ok.mp hr, rfl, rfl⟩
  · rintro ⟨v, pending, hr, rfl, rfl⟩
    exact ⟨(v, pending), stagedResult_eq_ok.mpr hr, rfl⟩

end Stages

/-! ## Setting policies aside -/

section Defer

/-- A policy without some parameters that the metadata lacks, in entity types that it has. -/
structure Lessened (metadata : FederationMetadata) (policy lessened : ResolvedMetadataPolicy) : Prop where
  part : ∀ type ps', lessened.get? type = some ps' → ∃ ps, policy.get? type = some ps ∧
    (∀ p ∈ ps'.members, p ∈ ps.members) ∧ (metadata.get? type = none → ps' = ps)

/-- A claim whose parameter the metadata lacks, in an entity type that it has. -/
def Absent (metadata : FederationMetadata) (claim : ContextualMetadataClaim) : Prop :=
  ∃ params, metadata.get? claim.entityType = some params ∧ params.get? claim.parameter = none

/-- The names of a claim are no names that every object inherits. -/
def OwnClaim (claim : ContextualMetadataClaim) : Prop :=
  inherited claim.entityType = false ∧ inherited claim.parameter = false

variable {metadata : FederationMetadata} {policy : ResolvedMetadataPolicy}

theorem Lessened.refl : Lessened metadata policy policy :=
  ⟨fun _ ps' h => ⟨ps', h, fun _ hp => hp, fun _ => rfl⟩⟩

theorem Lessened.erase {lessened : ResolvedMetadataPolicy} (h : Lessened metadata policy lessened)
    {type parameter : String} {stated : EntityTypePolicy} {params : EntityMetadata}
    (hstated : lessened.get? type = some stated) (hparams : metadata.get? type = some params) :
    Lessened metadata policy (lessened.set type (stated.erase parameter)) := by
  refine ⟨fun type' ps' hps' => ?_⟩
  rw [Dict.get?_set] at hps'
  split at hps'
  · rename_i htype
    subst htype
    obtain rfl := Option.some.inj hps'
    obtain ⟨ps, hps, hsub, -⟩ := h.part _ _ hstated
    refine ⟨ps, hps, fun p hp => hsub p (List.mem_of_mem_filter hp), fun hnone => ?_⟩
    rw [hparams] at hnone
    cases hnone
  · exact h.part _ _ hps'

/-- One claim: it is set aside where the policy states it and the metadata lacks it. -/
theorem deferClaim_spec {claim : ContextualMetadataClaim} (hnames : OwnClaim claim)
    {lessened : ResolvedMetadataPolicy} (pending : List ContextualMetadataClaim)
    (h : Lessened metadata policy lessened) :
    ∃ lessened' pending', deferClaim metadata (lessened, pending) claim =
        .ok (lessened', pending ++ pending') ∧ Lessened metadata policy lessened' ∧
      ∀ c ∈ pending', c = claim ∧ Absent metadata claim := by
  have hkeep : ∃ lessened' pending', (Except.ok (lessened, pending) :
        Except Stop (ResolvedMetadataPolicy × List ContextualMetadataClaim)) =
        .ok (lessened', pending ++ pending') ∧ Lessened metadata policy lessened' ∧
      ∀ c ∈ pending', c = claim ∧ Absent metadata claim :=
    ⟨lessened, [], by rw [List.append_nil], h, nofun⟩
  unfold deferClaim Dict.read
  rw [readOr_of_not_inherited _ hnames.1]
  cases hparams : metadata.get? claim.entityType with
  | none => exact hkeep
  | some params =>
    simp only
    rw [readOr_of_not_inherited _ hnames.2]
    cases habsent : params.get? claim.parameter with
    | some v => exact hkeep
    | none =>
      simp only
      rw [readOr_of_not_inherited _ hnames.1]
      cases hstated : lessened.get? claim.entityType with
      | none => exact hkeep
      | some stated =>
        simp only
        split
        · refine ⟨_, [claim], rfl, h.erase hstated hparams, fun c hc => ?_⟩
          exact ⟨List.mem_singleton.mp hc, params, hparams, habsent⟩
        · exact hkeep

/-- All claims: each of those set aside is one of them, and absent from the metadata. -/
theorem deferClaims_spec (policy : ResolvedMetadataPolicy) {deferred : List ContextualMetadataClaim}
    (hnames : ∀ claim ∈ deferred, OwnClaim claim) :
    ∃ lessened pending, deferClaims metadata policy deferred = .ok (lessened, pending) ∧
      Lessened metadata policy lessened ∧ ∀ c ∈ pending, c ∈ deferred ∧ Absent metadata c := by
  have hloop : ∀ (deferred : List ContextualMetadataClaim) (lessened : ResolvedMetadataPolicy)
      (pending : List ContextualMetadataClaim), (∀ claim ∈ deferred, OwnClaim claim) →
      Lessened metadata policy lessened →
      ∃ lessened' pending', deferred.foldlM (deferClaim metadata) (lessened, pending) =
          .ok (lessened', pending ++ pending') ∧ Lessened metadata policy lessened' ∧
        ∀ c ∈ pending', c ∈ deferred ∧ Absent metadata c := by
    intro deferred
    induction deferred with
    | nil => exact fun lessened pending _ h => ⟨lessened, [], by rw [List.append_nil]; rfl, h, nofun⟩
    | cons claim rest ih =>
      intro lessened pending hnames h
      obtain ⟨lessened₁, first, hfirst, h₁, hclaim⟩ :=
        deferClaim_spec (hnames claim List.mem_cons_self) pending h
      obtain ⟨lessened₂, later, hlater, h₂, hrest⟩ := ih lessened₁ (pending ++ first)
        (fun c hc => hnames c (List.mem_cons_of_mem _ hc)) h₁
      refine ⟨lessened₂, first ++ later, ?_, h₂, fun c hc => ?_⟩
      · rw [List.foldlM_cons, hfirst, ← List.append_assoc]
        exact hlater
      · rcases List.mem_append.mp hc with hc | hc
        · obtain ⟨rfl, habsent⟩ := hclaim c hc
          exact ⟨List.mem_cons_self, habsent⟩
        · obtain ⟨hmem, habsent⟩ := hrest c hc
          exact ⟨List.mem_cons_of_mem _ hmem, habsent⟩
  obtain ⟨lessened, pending, hfold, hlessened, hpending⟩ := hloop deferred policy [] hnames .refl
  exact ⟨lessened, pending, hfold, hlessened, hpending⟩

end Defer

section Apply

variable {numberText : Rat → String} {lookup : OperatorLookup} {metadata : FederationMetadata}
  {policy lessened : ResolvedMetadataPolicy}

/-- Part of the policies of an entity type can be applied where all of them can. -/
theorem applyEntityType_part {type : String} {ps ps' : EntityTypePolicy} {params : EntityMetadata}
    {after : Option EntityMetadata} (hsub : ∀ p ∈ ps'.members, p ∈ ps.members)
    (h : applyEntityType numberText lookup type ps (some params) = .ok after) :
    ∃ after', applyEntityType numberText lookup type ps' (some params) = .ok after' := by
  obtain ⟨result, hresult, -⟩ := bind_eq_ok.mp h
  obtain ⟨hstep, -⟩ := Dict.updateM_get? ps.nodup hresult
  obtain ⟨result', hresult'⟩ := Dict.updateM_isOk ps'.nodup (d := params)
    (f := applyParameter numberText lookup type) fun p hp => ⟨_, hstep p (hsub p hp)⟩
  exact ⟨some result', bind_eq_ok.mpr ⟨result', hresult', rfl⟩⟩

/-- A lessened policy can be applied where the whole policy can. -/
theorem Lessened.applies (h : Lessened metadata policy lessened) {result : FederationMetadata}
    {options : MetadataPolicyOptions}
    (happly : applyMetadataPolicy numberText metadata policy none options = .ok result) :
    ∃ result', applyMetadataPolicy numberText metadata lessened none options = .ok result' := by
  obtain ⟨lookup, hlookup, hupdate⟩ := applyMetadataPolicy_eq_ok.mp happly
  obtain ⟨result', hresult'⟩ := Dict.updateM_isOk lessened.nodup (d := metadata)
    (f := applyEntityType numberText lookup) fun p hp => by
      obtain ⟨ps, hps, hsub, hsame⟩ := h.part p.1 p.2 (Dict.get?_of_mem hp)
      have hstep := applied_entityType hupdate p.1
      rw [hps] at hstep
      cases hparams : metadata.get? p.1 with
      | none =>
        rw [hsame hparams, ← hparams]
        exact ⟨_, hstep⟩
      | some params =>
        rw [hparams] at hstep
        exact applyEntityType_part hsub hstep
  exact ⟨result', applyMetadataPolicy_eq_ok.mpr ⟨lookup, hlookup, hresult'⟩⟩

end Apply

/-! ## From one stage to the other -/

section Stage

variable {P : Platform} {anchors : TrustAnchorSet} {options : TrustChainValidationOptions}
  {verifyMarks : Bool} {clock : Clock} {stage : MetadataStage} {chain : List String}

/-- A chain that passes the checks is valid where the rest finds no error. -/
theorem Accepted.valid {parsed : List ParsedEntityStatement}
    (h : Accepted P anchors options clock chain parsed) {v : ValidatedTrustChain}
    {pending : List ContextualMetadataClaim}
    (he : Evidence P anchors options verifyMarks clock stage parsed v pending) :
    validateTrustChainImpl P chain anchors options verifyMarks clock stage =
      .ok (.valid v pending) := by
  have hne : chain.isEmpty = false := by simpa using h.ne
  unfold validateTrustChainImpl
  simp only [hne, h.decoded, runChecks_eq_nil.mpr h.statements, runChecks_eq_nil.mpr h.links,
    chainEvidence_eq_valid.mpr he, bind, Except.bind, Bool.false_eq_true, if_false, List.append_nil,
    List.isEmpty_nil, Bool.not_true]

variable {subs : List ParsedEntityStatement} {policyOptions : MetadataPolicyOptions}
  {metadata resolved : FederationMetadata} {deferred pending : List ContextualMetadataClaim}

/-- How the resolution of metadata goes through: there is no policy, or the merged policy is applied to
what the stage makes of the metadata. -/
inductive Resolves (P : Platform) (subs : List ParsedEntityStatement)
    (policyOptions : MetadataPolicyOptions) (stage : MetadataStage) (metadata : FederationMetadata) :
    FederationMetadata → List ContextualMetadataClaim → Prop
  | noPolicy (h : subs = [] ∨ ∃ merged : ResolvedMetadataPolicy, merged.members = [] ∧
      stage.merge (subs.map policyStatement) policyOptions = .ok merged) :
      Resolves P subs policyOptions stage metadata metadata []
  | policy {merged lessened : ResolvedMetadataPolicy} {extended resolved : FederationMetadata}
      {pending : List ContextualMetadataClaim} (hsubs : subs ≠ [])
      (hmerged : stage.merge (subs.map policyStatement) policyOptions = .ok merged)
      (hne : merged.members ≠ []) (hcontext : addContext stage.context metadata = .ok extended)
      (hdeferred : deferClaims extended merged stage.deferred = .ok (lessened, pending))
      (happly : applyMetadataPolicy P.numberText extended lessened none policyOptions =
        .ok resolved) :
      Resolves P subs policyOptions stage metadata resolved pending

theorem resolveChainMetadata_eq_ok :
    resolveChainMetadata P subs policyOptions stage metadata =
        .ok { resolvedMetadata := resolved, pending } ↔
      Resolves P subs policyOptions stage metadata resolved pending := by
  constructor
  · intro h
    unfold resolveChainMetadata at h
    split at h
    · rename_i hnil
      cases h
      exact .noPolicy (.inl (List.isEmpty_iff.mp hnil))
    · rename_i hne
      split at h
      · cases h
      · cases h
      · rename_i merged hmerged
        split at h
        · rename_i hnil
          cases h
          exact .noPolicy (.inr ⟨merged, List.isEmpty_iff.mp hnil, hmerged⟩)
        · rename_i hnonempty
          obtain ⟨extended, hcontext, h⟩ := bind_eq_ok.mp h
          obtain ⟨⟨lessened, pending'⟩, hdeferred, h⟩ := bind_eq_ok.mp h
          simp only at h
          split at h
          · cases h
          · cases h
          · rename_i happly
            cases h
            exact .policy (fun hnil => hne (List.isEmpty_iff.mpr hnil)) hmerged
              (fun hnil => hnonempty (List.isEmpty_iff.mpr hnil)) hcontext hdeferred happly
  · intro h
    unfold resolveChainMetadata
    cases h with
    | noPolicy h =>
      rcases h with rfl | ⟨merged, hnil, hmerged⟩
      · rfl
      · split
        · rfl
        · rw [hmerged]
          simp [hnil]
    | policy hsubs hmerged hne hcontext hdeferred happly =>
      rw [if_neg (by simpa using hsubs), hmerged]
      simp only [List.isEmpty_iff, hne, if_false, hcontext, hdeferred, happly, bind, Except.bind,
        pure, Except.pure]

/-- Setting claims aside keeps a resolution from no success. -/
theorem Resolves.defer (h : Resolves P subs policyOptions {} metadata resolved pending)
    (hnames : ∀ claim ∈ deferred, OwnClaim claim) :
    ∃ resolved' pending', Resolves P subs policyOptions { deferred } metadata resolved' pending' := by
  cases h with
  | noPolicy h => exact ⟨_, _, .noPolicy h⟩
  | policy hsubs hmerged hne hcontext hdeferred happly =>
    obtain rfl := Except.ok.inj hcontext
    obtain ⟨rfl, rfl⟩ := Prod.mk.inj (Except.ok.inj hdeferred)
    obtain ⟨lessened, pending, hdefer, hlessened, -⟩ := @deferClaims_spec metadata _ _ hnames
    obtain ⟨resolved', happly'⟩ := hlessened.applies happly
    exact ⟨resolved', pending, .policy hsubs hmerged hne rfl hdefer happly'⟩

/-- What is set aside was asked for, and is absent. -/
theorem Resolves.absent (h : Resolves P subs policyOptions { deferred } metadata resolved pending)
    (hnames : ∀ claim ∈ deferred, OwnClaim claim) :
    ∀ claim ∈ pending, claim ∈ deferred ∧ Absent metadata claim := by
  cases h with
  | noPolicy h => nofun
  | policy hsubs hmerged hne hcontext hdeferred happly =>
    obtain rfl := Except.ok.inj hcontext
    obtain ⟨lessened, pending', hdefer, -, habsent⟩ :=
      @deferClaims_spec metadata _ _ hnames
    obtain ⟨rfl, rfl⟩ := Prod.mk.inj (Except.ok.inj (hdefer.symm.trans hdeferred))
    exact habsent

/-- Metadata with the values of a context at claims. -/
structure Extends (metadata context : FederationMetadata) (claims : List ContextualMetadataClaim)
    (extended : FederationMetadata) : Prop where
  entityTypes : ∀ type, (extended.get? type).isSome = (metadata.get? type).isSome
  parameters : ∀ type parameter, metadataParameter extended type parameter =
    (metadataParameter metadata type parameter).or
      (if { entityType := type, parameter } ∈ claims then metadataParameter context type parameter
        else none)

/-- A context whose parameters are among some claims. -/
def Within (context : FederationMetadata) (claims : List ContextualMetadataClaim) : Prop :=
  ∀ type parameter v, metadataParameter context type parameter = some v →
    { entityType := type, parameter } ∈ claims

variable {context extended : FederationMetadata} {claims : List ContextualMetadataClaim}

/-- The entity type of a context that is written. -/
theorem addContextEntityType_spec {type : String} {values : EntityMetadata}
    {cur after : Option EntityMetadata}
    (hclaims : ∀ parameter v, values.get? parameter = some v →
      inherited parameter = false ∧ cur.bind (·.get? parameter) = none)
    (h : addContextEntityType type values cur = .ok after) :
    after.isSome = cur.isSome ∧ ∀ parameter, after.bind (·.get? parameter) =
      (cur.bind (·.get? parameter)).or (if cur.isSome then values.get? parameter else none) := by
  unfold addContextEntityType at h
  cases cur with
  | none =>
    have hafter : after = none := by
      simp only [readOr] at h
      split at h
      · rename_i b hb
        split at hb <;> cases hb
      · exact (Except.ok.inj h).symm
      · split at h
        · exact (Except.ok.inj h).symm
        · cases h
    subst hafter
    exact ⟨rfl, fun _ => rfl⟩
  | some params =>
    obtain ⟨result, hresult, hafter⟩ := bind_eq_ok.mp h
    obtain rfl : some result = after := Except.ok.inj hafter
    refine ⟨rfl, fun parameter => ?_⟩
    obtain ⟨hstep, hother⟩ := Dict.updateM_get? values.nodup hresult
    simp only [Option.bind_some, Option.isSome_some, if_true]
    cases hv : values.get? parameter with
    | none =>
      rw [hother parameter ((values.get?_eq_none_iff parameter).mp hv), Option.or_none]
    | some v =>
      obtain ⟨hown, hnone⟩ := hclaims parameter v hv
      have hset := hstep (parameter, v) ((values.get?_eq_some_iff parameter v).mp hv)
      simp only [Option.bind_some] at hnone
      unfold addContextParameter at hset
      rw [readOr_of_not_inherited _ hown, hnone] at hset
      rw [← Except.ok.inj hset, hnone, Option.none_or]

/-- A context within claims that are absent adds its values at them. -/
theorem addContext_extends (hwithin : Within context claims)
    (hclaims : ∀ claim ∈ claims, OwnClaim claim ∧ Absent metadata claim)
    (h : addContext context metadata = .ok extended) : Extends metadata context claims extended := by
  obtain ⟨hstep, hother⟩ := Dict.updateM_get? context.nodup h
  -- entity type by entity type, as the loop takes them
  have htype : ∀ type, (extended.get? type).isSome = (metadata.get? type).isSome ∧
      ∀ parameter, metadataParameter extended type parameter =
        (metadataParameter metadata type parameter).or (if (metadata.get? type).isSome then
          metadataParameter context type parameter else none) := by
    intro type
    cases hvalues : context.get? type with
    | none =>
      have hsame := hother type ((context.get?_eq_none_iff type).mp hvalues)
      refine ⟨by rw [hsame], fun parameter => ?_⟩
      simp [metadataParameter, hsame, hvalues]
    | some values =>
      have hparameter : ∀ parameter, metadataParameter context type parameter =
          values.get? parameter := fun parameter => by rw [metadataParameter, hvalues]; rfl
      obtain ⟨hsome, hget⟩ := addContextEntityType_spec (fun parameter v hv => by
        obtain ⟨⟨-, hown⟩, params, hparams, habsent⟩ :=
          hclaims _ (hwithin type parameter v ((hparameter parameter).trans hv))
        exact ⟨hown, by simp only at hparams habsent; rw [hparams, Option.bind_some, habsent]⟩)
        (hstep (type, values) ((context.get?_eq_some_iff type values).mp hvalues))
      refine ⟨hsome, fun parameter => ?_⟩
      rw [hparameter]
      exact hget parameter
  refine ⟨fun type => (htype type).1, fun type parameter => ?_⟩
  rw [(htype type).2 parameter]
  congr 1
  split
  · rename_i hsome
    split
    · rfl
    · rename_i hnot
      cases hv : metadataParameter context type parameter with
      | none => rfl
      | some v => exact absurd (hwithin type parameter v hv) hnot
  · rename_i hnone
    split
    · rename_i hmem
      obtain ⟨-, params, hparams, -⟩ := hclaims _ hmem
      simp [hparams] at hnone
    · rfl

/-- A resolution with a context is that of the whole policy on the extended metadata. -/
theorem Resolves.contextual
    (h : Resolves P subs policyOptions { context } metadata resolved pending)
    {resolved₀ : FederationMetadata}
    (hprepared : Resolves P subs policyOptions { deferred } metadata resolved₀ claims)
    (hnames : ∀ claim ∈ deferred, OwnClaim claim) (hwithin : Within context claims) :
    ∃ extended, Extends metadata context claims extended ∧
      Resolves P subs policyOptions {} extended resolved [] := by
  cases h with
  | noPolicy h =>
    have hnone : claims = [] := by
      cases hprepared with
      | noPolicy => rfl
      | policy hsubs hmerged hne =>
        rcases h with hnil | ⟨merged, hnil, hmerged'⟩
        · exact absurd hnil hsubs
        · obtain rfl := Except.ok.inj (hmerged.symm.trans hmerged')
          exact absurd hnil hne
    subst hnone
    exact ⟨metadata, ⟨fun _ => rfl, fun _ _ => by simp⟩, .noPolicy h⟩
  | policy hsubs hmerged hne hcontext hdeferred happly =>
    obtain ⟨rfl, rfl⟩ := Prod.mk.inj (Except.ok.inj hdeferred)
    refine ⟨_, addContext_extends hwithin (fun claim hclaim => ?_) hcontext,
      .policy hsubs hmerged hne rfl rfl happly⟩
    obtain ⟨hmem, habsent⟩ := hprepared.absent hnames claim hclaim
    exact ⟨hnames claim hmem, habsent⟩

/-- A context whose parameters have been set aside. -/
theorem within_of_reserved {context : Json} (h : reserved claims context = true) :
    Within (metadataOf (some context)) claims := by
  intro type parameter v hv
  obtain ⟨values, hvalues, hv⟩ := Option.bind_eq_some_iff.mp hv
  obtain ⟨t, ht, heq⟩ := List.mem_map.mp (Dict.mem_of_get?_ofEntries hvalues)
  obtain ⟨rfl, rfl⟩ := Prod.mk.inj heq
  obtain ⟨-, hfields⟩ := Bool.and_eq_true_iff.mp (List.all_eq_true.mp h t ht)
  have hmem := List.all_eq_true.mp hfields _ (Dict.mem_of_get?_ofEntries hv)
  exact List.contains_iff_mem.mp hmem

end Stage

/-! ## Two stages refine one -/

section Staged

variable {P : Platform} {preparations saved later : Preparations} {chain : List String}
  {anchors : TrustAnchorSet} {options : TrustChainValidationOptions}
  {deferredClaims : List ContextualMetadataClaim} {clock : Clock} {prepared : PreparedTrustChain}

/-- The resolution that the evidence of a valid chain rests on. -/
theorem Evidence.resolves {stage : MetadataStage} {parsed : List ParsedEntityStatement}
    {v : ValidatedTrustChain} {pending : List ContextualMetadataClaim}
    (h : Evidence P anchors options true clock stage parsed v pending) :
    ∃ published, restrictedMetadata parsed = .ok published ∧
      Resolves P (subordinateStatements parsed)
        { customOperators := options.customPolicyOperators } stage published v.resolvedMetadata
        pending := by
  obtain ⟨published, hpublished, hresolves⟩ := h.metadata
  exact ⟨published, hpublished, resolveChainMetadata_eq_ok.mp hresolves⟩

/-- A chain that is valid in one go can be prepared. -/
theorem prepareTrustChainValidation_of_valid (hnames : ∀ claim ∈ deferredClaims, OwnClaim claim)
    {v : ValidatedTrustChain} {pending : List ContextualMetadataClaim}
    (h : validateTrustChain P chain anchors options clock = .ok (.valid v pending)) :
    ∃ prepared saved, prepareTrustChainValidation P preparations chain anchors options deferredClaims
      clock = .ok (prepared, saved) := by
  obtain ⟨haccepted, hevidence⟩ := validateTrustChainImpl_eq_valid h
  obtain ⟨published, hpublished, hresolves⟩ := hevidence.resolves
  obtain ⟨resolved, pending', hdeferred⟩ := hresolves.defer hnames
  have hprepared : Evidence P anchors options true clock { deferred := deferredClaims } v.statements
      { v with resolvedMetadata := resolved } pending' :=
    ⟨hevidence.chain, hevidence.constraints,
      ⟨published, hpublished, resolveChainMetadata_eq_ok.mpr hdeferred⟩, hevidence.marks⟩
  exact ⟨_, _, prepareTrustChainValidation_eq_ok.mpr
    ⟨_, pending', haccepted.valid hprepared, rfl, rfl⟩⟩

/-- What a completion finds of a preparation. -/
theorem saved_preparation
    (h : prepareTrustChainValidation P preparations chain anchors options deferredClaims clock =
      .ok (prepared, saved)) (hlater : saved <+: later) :
    later[prepared.place]? = some ⟨chain, anchors, options, prepared.pendingClaims⟩ := by
  obtain ⟨v, pending, -, rfl, rfl⟩ := prepareTrustChainValidation_eq_ok.mp h
  obtain ⟨rest, rfl⟩ := hlater
  simp

/-- Earlier than every expiration of a prepared chain, it has not expired. -/
theorem prepared_not_expired
    (h : prepareTrustChainValidation P preparations chain anchors options deferredClaims clock =
      .ok (prepared, saved)) {now : Rat}
    (hnow : ∀ s ∈ prepared.statements, ∀ exp, s.payload.get? "exp" = some (.num exp) → now < exp) :
    ¬ prepared.expiresAt ≤ now := by
  obtain ⟨v, pending, hv, rfl, -⟩ := prepareTrustChainValidation_eq_ok.mp h
  obtain ⟨haccepted, hevidence⟩ := validateTrustChainImpl_eq_valid hv
  obtain ⟨⟨s, hs, hexp⟩, -⟩ := haccepted.expires
  have hexpires : v.expiresAt = calculateChainExpiration v.statements :=
    congrArg AuthenticatedChain.expiresAt hevidence.chain
  simp only [not_le, hexpires]
  exact hnow s hs _ hexp

/-- Resolved metadata are those of the whole policy, on what is published and what a context adds to
it. -/
def Contextual (P : Platform) (options : TrustChainValidationOptions) (prepared : PreparedTrustChain)
    (context : Json) (resolved : FederationMetadata) : Prop :=
  ∃ published extended, restrictedMetadata prepared.statements = .ok published ∧
    (∀ claim ∈ prepared.pendingClaims, Absent published claim) ∧
    Extends published (metadataOf (some context)) prepared.pendingClaims extended ∧
    resolveChainMetadata P (subordinateStatements prepared.statements)
      { customOperators := options.customPolicyOperators } {} extended =
        .ok { resolvedMetadata := resolved }

/-- What a completion has checked. -/
theorem completeTrustChainValidation_eq_ok {context : Json} {now : Rat} {v : ValidatedTrustChain}
    (h : completeTrustChainValidation P preparations prepared context now clock = .ok v) :
    ∃ kept pending, preparations[prepared.place]? = some kept ∧
      reserved kept.pending context = true ∧
      validateTrustChainImpl P kept.chain kept.anchors kept.options true clock
        { context := metadataOf (some context) } = .ok (.valid v pending) := by
  unfold completeTrustChainValidation at h
  split at h
  · cases h
  · cases hkept : preparations[prepared.place]? with
    | none =>
      rw [hkept] at h
      cases h
    | some kept =>
      rw [hkept] at h
      simp only at h
      split at h
      · cases h
      · split at h
        · cases h
        · rename_i hreserved
          obtain ⟨⟨v', pending⟩, hresult, rfl⟩ := map_eq_ok h
          exact ⟨kept, pending, rfl, by simpa using hreserved, stagedResult_eq_ok.mp hresult⟩

section Complete

variable (h : prepareTrustChainValidation P preparations chain anchors options deferredClaims clock =
    .ok (prepared, saved)) (hlater : saved <+: later) {context : Json} {now : Rat} {clock' : Clock}
  {v : ValidatedTrustChain}
  (hcomplete : completeTrustChainValidation P later prepared context now clock' = .ok v)

include h hlater hcomplete

/-- A completion validates the prepared chain with what is set aside in its context. -/
theorem completed_evidence : ∃ pending,
    Accepted P anchors options clock' chain v.statements ∧
      Evidence P anchors options true clock' { context := metadataOf (some context) } v.statements v
        pending ∧ Within (metadataOf (some context)) prepared.pendingClaims := by
  obtain ⟨kept, pending, hkept, hreserved, hvalid⟩ := completeTrustChainValidation_eq_ok hcomplete
  obtain rfl := Option.some.inj ((saved_preparation h hlater).symm.trans hkept)
  obtain ⟨haccepted, hevidence⟩ := validateTrustChainImpl_eq_valid hvalid
  exact ⟨pending, haccepted, hevidence, within_of_reserved hreserved⟩

/-- Both stages decode the same statements. -/
theorem completed_statements : v.statements = prepared.statements := by
  obtain ⟨-, haccepted, -, -⟩ := completed_evidence h hlater hcomplete
  obtain ⟨v₀, claims, hv₀, rfl, -⟩ := prepareTrustChainValidation_eq_ok.mp h
  obtain ⟨haccepted₀, -⟩ := validateTrustChainImpl_eq_valid hv₀
  exact (Prod.mk.inj (Except.ok.inj (haccepted.decoded.symm.trans haccepted₀.decoded))).1

theorem completeTrustChainValidation_contextual
    (hnames : ∀ claim ∈ deferredClaims, OwnClaim claim) :
    Contextual P options prepared context v.resolvedMetadata := by
  have hsame := completed_statements h hlater hcomplete
  obtain ⟨pending, -, hevidence, hwithin⟩ := completed_evidence h hlater hcomplete
  obtain ⟨v₀, claims, hv₀, rfl, -⟩ := prepareTrustChainValidation_eq_ok.mp h
  obtain ⟨-, hevidence₀⟩ := validateTrustChainImpl_eq_valid hv₀
  obtain ⟨published, hpublished, hprepared⟩ := hevidence₀.resolves
  obtain ⟨published', hpublished', hresolves⟩ := hevidence.resolves
  rw [hsame] at hpublished' hresolves
  obtain rfl := Except.ok.inj (hpublished'.symm.trans hpublished)
  obtain ⟨extended, hextends, hwhole⟩ := hresolves.contextual hprepared hnames hwithin
  exact ⟨published', extended, hpublished, fun claim hclaim =>
    (hprepared.absent hnames claim hclaim).2, hextends, resolveChainMetadata_eq_ok.mpr hwhole⟩

end Complete

/-- A validation in two stages refines the one in one go: a chain that is valid can be prepared; an empty
context completes a preparation as the validation in one go ends; and any other context extends what is
published where a parameter is absent and has been set aside. -/
theorem stagedValidation_refines (hnames : ∀ claim ∈ deferredClaims, OwnClaim claim) :
    (∀ v pending, validateTrustChain P chain anchors options clock = .ok (.valid v pending) →
      ∃ prepared saved, prepareTrustChainValidation P preparations chain anchors options deferredClaims
        clock = .ok (prepared, saved)) ∧
    ∀ prepared saved later, prepareTrustChainValidation P preparations chain anchors options
        deferredClaims clock = .ok (prepared, saved) → saved <+: later →
      (∀ now clock', (∀ s ∈ prepared.statements, ∀ exp,
          s.payload.get? "exp" = some (.num exp) → now < exp) →
        completeTrustChainValidation P later prepared (.obj []) now clock' =
          (stagedResult (validateTrustChain P chain anchors options clock')).map (·.1)) ∧
      ∀ context now clock' v,
        completeTrustChainValidation P later prepared context now clock' = .ok v →
          Contextual P options prepared context v.resolvedMetadata := by
  refine ⟨fun v pending h => prepareTrustChainValidation_of_valid hnames h,
    fun prepared saved later h hlater => ⟨fun now clock' hnow => ?_, fun context now clock' v hv =>
      completeTrustChainValidation_contextual h hlater hv hnames⟩⟩
  unfold completeTrustChainValidation
  rw [saved_preparation h hlater]
  simp only [prepared_not_expired h hnow, if_false]
  rfl

end Staged

end OidFed
