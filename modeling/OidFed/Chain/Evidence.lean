import OidFed.Chain.Authentic

/-!
# What a valid chain rests on after its signatures

* `Evidence`: the parts of a run that returns a chain as valid: the published metadata, the
  constraints, the policies and the Trust Marks, none of them with an error.
* `constraintsLoop_eq_ok`: the loop over the constraints, statement by statement.
-/

namespace OidFed

open Js

section Loop

variable {P : Platform} {parsed : List ParsedEntityStatement}

theorem constraintsLoop_eq_ok {j : Nat} {rest : List ParsedEntityStatement}
    {metadata restricted : FederationMetadata} {errors : List ValidationError}
    (h : constraintsLoop P parsed j rest metadata = .ok (errors, restricted)) :
    restricted = rest.foldl restrictEntityTypes metadata ∧
      (errors = [] → ∀ (k : Nat) es, rest[k]? = some es →
        constraintErrors P parsed (j + k) es = .ok []) := by
  induction rest generalizing j metadata errors with
  | nil =>
    obtain ⟨-, rfl⟩ := Prod.mk.inj (Except.ok.inj h)
    simp
  | cons es rest ih =>
    obtain ⟨here, hhere, h⟩ := bind_eq_ok.mp h
    obtain ⟨⟨errors', restricted'⟩, hrest, h⟩ := bind_eq_ok.mp h
    obtain ⟨rfl, rfl⟩ := Prod.mk.inj (Except.ok.inj h)
    obtain ⟨hfold, hnone⟩ := ih hrest
    refine ⟨hfold, fun hnil k s hk => ?_⟩
    obtain ⟨rfl, rfl⟩ := List.append_eq_nil_iff.mp hnil
    cases k with
    | zero =>
      obtain rfl : es = s := by simpa using hk
      exact hhere
    | succ k =>
      have := hnone rfl k s (by simpa using hk)
      rwa [show j + (k + 1) = j + 1 + k by omega]

/-- A loop whose checks find nothing goes through. -/
theorem constraintsLoop_of_none {j : Nat} {rest : List ParsedEntityStatement}
    (h : ∀ (k : Nat) es, rest[k]? = some es → constraintErrors P parsed (j + k) es = .ok [])
    (metadata : FederationMetadata) :
    constraintsLoop P parsed j rest metadata = .ok ([], rest.foldl restrictEntityTypes metadata) := by
  induction rest generalizing j metadata with
  | nil => rfl
  | cons es rest ih =>
    have hrest := ih (j := j + 1) (fun k s hk => by
      have := h (k + 1) s (by simpa using hk)
      rwa [show j + (k + 1) = j + 1 + k by omega] at this) (restrictEntityTypes metadata es)
    have hhere := h 0 es (by simp)
    rw [Nat.add_zero] at hhere
    simp only [constraintsLoop, hhere, hrest, bind, Except.bind, pure, Except.pure,
      List.nil_append, List.foldl_cons]

end Loop

section Evidence

variable (P : Platform) (trustAnchors : TrustAnchorSet) (options : TrustChainValidationOptions)
  (verifyMarks : Bool) (clock : Clock) (stage : MetadataStage)

/-- The published metadata of a chain, restricted to the entity types that its statements allow. -/
def restrictedMetadata (parsed : List ParsedEntityStatement) : Except Stop FederationMetadata := do
  let published ← publishedMetadata (statementAt parsed 0) (subordinateStatements parsed).head?
  return parsed.tail.foldl restrictEntityTypes published

/-- The parts of a run that returns a chain as valid. -/
structure Evidence (parsed : List ParsedEntityStatement) (v : ValidatedTrustChain)
    (pending : List ContextualMetadataClaim) : Prop where
  chain : v.toAuthenticatedChain = authenticatedChain parsed
  constraints : ∀ (j : Nat) es, 0 < j → parsed[j]? = some es →
    constraintErrors P parsed j es = .ok []
  metadata : ∃ restricted, restrictedMetadata parsed = .ok restricted ∧
    resolveChainMetadata P (subordinateStatements parsed)
      { customOperators := options.customPolicyOperators } stage restricted =
        .ok { resolvedMetadata := v.resolvedMetadata, pending }
  marks : leafTrustMarks P trustAnchors options verifyMarks clock parsed = .ok ([], v.trustMarks)

variable {P trustAnchors options verifyMarks clock stage}

/-- Metadata resolution without errors. -/
theorem chainMetadata_eq_ok {parsed : List ParsedEntityStatement} {m : FederationMetadata}
    {pending : List ContextualMetadataClaim} :
    chainMetadata P options stage parsed = .ok { resolvedMetadata := m, pending } ↔
      (∀ (j : Nat) es, 0 < j → parsed[j]? = some es → constraintErrors P parsed j es = .ok []) ∧
        ∃ restricted, restrictedMetadata parsed = .ok restricted ∧
          resolveChainMetadata P (subordinateStatements parsed)
            { customOperators := options.customPolicyOperators } stage restricted =
              .ok { resolvedMetadata := m, pending } := by
  simp only [chainMetadata, restrictedMetadata]
  cases hp : publishedMetadata (statementAt parsed 0) (subordinateStatements parsed).head? with
  | error stop => simp [bind, Except.bind]
  | ok published =>
    simp only [bind, Except.bind, pure, Except.pure]
    constructor
    · intro h
      cases hloop : constraintsLoop P parsed 1 parsed.tail published with
      | error e => simp [hloop] at h
      | ok r =>
        obtain ⟨errors, restricted⟩ := r
        obtain ⟨rfl, hnone⟩ := constraintsLoop_eq_ok hloop
        simp only [hloop] at h
        cases hr : resolveChainMetadata P (subordinateStatements parsed)
            { customOperators := options.customPolicyOperators } stage
            (parsed.tail.foldl restrictEntityTypes published) with
        | error e => simp [hr] at h
        | ok resolved =>
          simp only [hr, Except.ok.injEq, ResolvedChainMetadata.mk.injEq,
            List.append_eq_nil_iff] at h
          obtain ⟨⟨rfl, hres⟩, rfl, rfl⟩ := h
          refine ⟨fun j es hj hes => ?_, _, rfl, by rw [hr, ← hres]⟩
          obtain ⟨k, rfl⟩ : ∃ k, j = 1 + k := ⟨j - 1, by omega⟩
          exact hnone rfl k es (by rwa [List.getElem?_tail, Nat.add_comm])
    · rintro ⟨hnone, restricted, hrestricted, hres⟩
      obtain rfl := Except.ok.inj hrestricted
      have hloop := constraintsLoop_of_none (show ∀ (k : Nat) es, parsed.tail[k]? = some es →
          constraintErrors P parsed (1 + k) es = .ok [] from fun k es hk =>
            hnone (1 + k) es (by omega) (by rwa [List.getElem?_tail, Nat.add_comm] at hk)) published
      simp only [hloop, hres, List.nil_append]

theorem chainEvidence_eq_valid {parsed : List ParsedEntityStatement} {v : ValidatedTrustChain}
    {pending : List ContextualMetadataClaim} :
    chainEvidence P trustAnchors options verifyMarks clock stage (authenticatedChain parsed) =
      .ok (.valid v pending) ↔
    Evidence P trustAnchors options verifyMarks clock stage parsed v pending := by
  constructor
  · intro h
    obtain ⟨metadata, hm, h⟩ := bind_eq_ok.mp h
    obtain ⟨marks, hmarks, h⟩ := bind_eq_ok.mp h
    simp only at h
    split at h
    · rename_i hnil
      obtain ⟨hmetadata, hmark⟩ := List.append_eq_nil_iff.mp (List.isEmpty_iff.mp hnil)
      obtain ⟨rfl, rfl⟩ := ValidationResult.valid.inj (Except.ok.inj h)
      have hm' : chainMetadata P options stage parsed =
          .ok { resolvedMetadata := metadata.resolvedMetadata, pending := metadata.pending } := by
        rw [← hmetadata]
        exact hm
      obtain ⟨hconstraints, hres⟩ := chainMetadata_eq_ok.mp hm'
      refine ⟨rfl, hconstraints, hres, ?_⟩
      rw [← hmark]
      exact hmarks
    · simp [failed, pure, Except.pure] at h
  · rintro ⟨hchain, hconstraints, hmetadata, hmarks⟩
    have hm := chainMetadata_eq_ok.mpr ⟨hconstraints, hmetadata⟩
    obtain ⟨a, m, marks⟩ := v
    obtain rfl : a = authenticatedChain parsed := hchain
    have hstatements : (authenticatedChain parsed).statements = parsed := rfl
    simp only [chainEvidence, hstatements, hm, hmarks, bind, Except.bind, pure, Except.pure,
      List.append_nil, List.isEmpty_nil, if_true]

/-- The leaf's own statement carries no constraints. -/
theorem Accepted.leaf_constraints {chain : List String}
    {parsed : List ParsedEntityStatement} {s₀ : ParsedEntityStatement}
    (h : Accepted P trustAnchors options clock chain parsed) (hs₀ : parsed[0]? = some s₀) :
    constraintsOf s₀ = none := by
  obtain ⟨_, s₀', iss, _, hs₀', hiss, hsub, _⟩ := h.leaf
  obtain rfl : s₀ = s₀' := Option.some.inj (hs₀.symm.trans hs₀')
  have hss := check_eq_nil.mp (h.statement_check hs₀ (c := ssOnlyCheck 0 s₀.payload "constraints")
    (by simp [statementChecks, ssOnlyClaims]))
  have hec : isEC s₀.payload = true := by simp [isEC, hiss, hsub]
  cases hc : s₀.payload.get? "constraints" with
  | none => simp [constraintsOf, hc]
  | some c => simp [hc, hec] at hss

/-- A valid result: all checks have passed, and the rest has found no error. -/
theorem validateTrustChainImpl_eq_valid {chain : List String} {v : ValidatedTrustChain}
    {pending : List ContextualMetadataClaim}
    (h : validateTrustChainImpl P chain trustAnchors options verifyMarks clock stage =
      .ok (.valid v pending)) :
    Accepted P trustAnchors options clock chain v.statements ∧
      Evidence P trustAnchors options verifyMarks clock stage v.statements v pending := by
  obtain ⟨parsed, hacc, hchain, hev⟩ := validateTrustChainImpl_accepted h rfl
  have he := chainEvidence_eq_valid.mp (hev v pending rfl)
  obtain rfl : v.statements = parsed := congrArg AuthenticatedChain.statements hchain
  exact ⟨hacc, he⟩

end Evidence

end OidFed
