import OidFed.Authority.ResolveResponse
import OidFed.Registration.Explicit

/-!
# Lifetimes of signed responses (`authority/src/endpoints/resolve.ts`, `oidc/src/registration/handler.ts`)

A chain and a mark are accepted for the tolerance of the clock longer than they say. A response is
signed for no longer than they say.

* `SignedAlive`: a payload that expires after it was issued, and not after any of its sources.
* `registration_signedAlive`: every registration is, since the handler checks what it signs.
* `signedAlive_iff`: which resolve responses are.
-/

namespace OidFed

open Js

/-- A payload expires after the time at which it was issued, and no later than any limit. -/
def SignedAlive (payload : Payload) (limits : List Rat) : Prop :=
  ∃ iat exp, payload.get? "iat" = some (.num iat) ∧ payload.get? "exp" = some (.num exp) ∧
    iat < exp ∧ ∀ limit ∈ limits, exp ≤ limit

/-- The chain as `resolveTrustChains` returns it, with the earliest expiration of its statements. -/
def Candidate.Computed (host : ResolutionHost) (c : Candidate) : Prop :=
  ∃ parsed, List.Forall₂ (fun jwt es => decodeEntityStatement host.toPlatform jwt = .ok es)
      c.chain.statements parsed ∧
    unverifiedExpiration host parsed = .ok c.chain.expiresAt

/-! ## The limits of a resolve response -/

section Resolve

variable {ctx : ResolveContext} {params : ResolveParams} {run : ResolveRun} {v : ValidatedTrustChain}

/-- The expirations of a chain and of its included marks. -/
def resolveLimits (ctx : ResolveContext) (run : ResolveRun) (v : ValidatedTrustChain) : List Rat :=
  v.expiresAt :: (includedMarks ctx run v).filterMap fun p => p.2.expiresAt

theorem forall₂_decode_unique {P : Platform} {chain : List String}
    {parsed parsed' : List ParsedEntityStatement}
    (h : List.Forall₂ (fun jwt es => decodeEntityStatement P jwt = .ok es) chain parsed)
    (h' : List.Forall₂ (fun jwt es => decodeEntityStatement P jwt = .ok es) chain parsed') :
    parsed = parsed' := by
  induction h generalizing parsed' with
  | nil =>
    cases h'
    rfl
  | cons hd _ ih =>
    obtain - | ⟨hd', htail⟩ := h'
    rw [Except.ok.inj (hd.symm.trans hd'), ih htail]

/-- Where all expirations are numbers, the earliest one is the chain's. -/
theorem unverifiedExpiration_eq (host : ResolutionHost) {parsed : List ParsedEntityStatement}
    (hne : parsed ≠ []) (hexp : ∀ s ∈ parsed, s.payload.get? "exp" = some (.num (expOf s))) :
    unverifiedExpiration host parsed = .ok (some (calculateChainExpiration parsed)) := by
  have htext : (parsed.any fun s => (host.text (s.payload.get? "exp")).isNone) = false := by
    rw [List.any_eq_false]
    intro s hs
    rw [hexp s hs]
    simp [Platform.text, Json.toText]
  have hnumbers : ∀ f : ParsedEntityStatement → Option Rat, (∀ s ∈ parsed, f s = some (expOf s)) →
      parsed.map f = (parsed.map expOf).map some := by
    intro f hf
    rw [List.map_map]
    exact List.map_congr_left hf
  obtain ⟨m, hm⟩ : ∃ m, (parsed.map expOf).min? = some m := by
    cases hmin : (parsed.map expOf).min? with
    | none => simp [List.min?_eq_none_iff, hne] at hmin
    | some m => exact ⟨m, rfl⟩
  have hreduce : ((parsed.map expOf).map some).reduceOption = parsed.map expOf := by
    rw [List.reduceOption, List.filterMap_map]
    exact List.filterMap_some
  rw [unverifiedExpiration, htext, if_neg Bool.false_ne_true]
  simp only
  rw [hnumbers _ fun s hs => by rw [hexp s hs], hreduce, calculateChainExpiration, hm]
  simp

/-- A chain that validates expires when its candidate does. -/
theorem Candidate.computed_iff {host : ResolutionHost} {c : Candidate}
    {trustAnchors : TrustAnchorSet} {options : TrustChainValidationOptions}
    {clock : Clock} {pending : List ContextualMetadataClaim}
    (hvalid : validateTrustChain host.toPlatform c.chain.statements trustAnchors options clock =
      .ok (.valid v pending)) : c.Computed host ↔ c.chain.expiresAt = some v.expiresAt := by
  obtain ⟨parsed, hacc, hchain, -⟩ := validateTrustChainImpl_accepted hvalid rfl
  have hdecoded := decodeStatements_eq_ok hacc.decoded
  have hexp : ∀ s ∈ parsed, s.payload.get? "exp" = some (.num (expOf s)) := by
    intro s hs
    obtain ⟨j, hj⟩ := List.mem_iff_getElem?.mp hs
    obtain ⟨q, hq⟩ := (hacc.claims hj).exp
    simp [expOf, Payload.number?, hq, Json.number?]
  have hexpires : v.expiresAt = calculateChainExpiration parsed :=
    congrArg AuthenticatedChain.expiresAt hchain
  have hunverified := unverifiedExpiration_eq host hacc.ne_nil hexp
  rw [hexpires]
  constructor
  · rintro ⟨parsed', hparsed', hexpiration⟩
    obtain rfl := forall₂_decode_unique hdecoded hparsed'
    exact Except.ok.inj (hexpiration.symm.trans hunverified)
  · intro h
    exact ⟨parsed, hdecoded, h ▸ hunverified⟩

/-- The expiration that is signed is the earliest of the limits. -/
theorem resolveExp_min {chain : TrustChain} {active : List (Json × ValidatedTrustMark)} {e : Rat}
    (h : chain.expiresAt = some e) :
    resolveExp chain active ∈ e :: active.filterMap (fun p => p.2.expiresAt) ∧
      ∀ limit ∈ e :: active.filterMap (fun p => p.2.expiresAt), resolveExp chain active ≤ limit := by
  unfold resolveExp
  rw [h, Option.getD_some]
  cases hmin : (e :: active.filterMap fun a => a.2.expiresAt).min? with
  | none => simp at hmin
  | some m =>
    rw [Option.getD_some]
    exact List.min?_eq_some_iff.mp hmin

/-- A resolve response is signed alive exactly where all of its limits lie ahead. -/
theorem resolvePayload_signedAlive_iff {host : ResolutionHost} {c : Candidate}
    (hc : c.Computed host) {pending : List ContextualMetadataClaim}
    (hvalid : validateTrustChain host.toPlatform c.chain.statements params.trustAnchors ctx.options
      c.clock = .ok (.valid v pending)) {payload : Payload} {response : Response}
    (hsigns : SignsPayload ctx params run c.chain v payload response) :
    SignedAlive payload (resolveLimits ctx run v) ↔ ∀ limit ∈ resolveLimits ctx run v,
      run.now < limit := by
  obtain ⟨metadata, -, rfl⟩ := hsigns.payload
  have hactive : activeTrustMarks ctx run v.statements v.trustMarks (resolveRefs v) =
      includedMarks ctx run v := activeTrustMarks_eq_includedMarks hvalid
  obtain ⟨hmem, hle⟩ : resolveExp c.chain (includedMarks ctx run v) ∈ resolveLimits ctx run v ∧
      ∀ limit ∈ resolveLimits ctx run v, resolveExp c.chain (includedMarks ctx run v) ≤ limit :=
    resolveExp_min ((Candidate.computed_iff hvalid).mp hc)
  constructor
  · rintro ⟨iat, exp, hiat, hexp, hlt, hlimits⟩ limit hlimit
    rw [resolvePayload_iat] at hiat
    obtain rfl := Json.num.inj (Option.some.inj hiat)
    exact lt_of_lt_of_le hlt (hlimits limit hlimit)
  · intro h
    refine ⟨_, _, resolvePayload_iat, resolvePayload_exp, ?_, ?_⟩
    · rw [hactive]
      exact h _ hmem
    · rw [hactive]
      exact hle

end Resolve

/-! ## The limit of a registration -/

/-- A registration is signed alive, whatever its chain and its time to live. -/
theorem registration_signedAlive {H : ClientHost}
    {config : ExplicitRegistrationHandlerConfig} {trustAnchors : TrustAnchorSet} {request : Request}
    {run : RegistrationRun} {req : RegistrationRequest} {bestChain : ValidatedTrustChain}
    {metadata rpMeta : Payload} {responseJwt : String}
    (h : Registers H config trustAnchors request run req bestChain metadata rpMeta responseJwt) :
    SignedAlive (registrationPayload config run req bestChain metadata rpMeta)
      [bestChain.expiresAt] := by
  have hiat : (registrationPayload config run req bestChain metadata rpMeta).get? "iat" =
      some (.num run.now) := by
    simp [registrationPayload, Dict.ofEntries, Dict.get?_set]
  have hexp : (registrationPayload config run req bestChain metadata rpMeta).get? "exp" =
      some (.num (registrationExp config run bestChain)) := by
    simp [registrationPayload, Dict.ofEntries, Dict.get?_set]
  refine ⟨_, _, hiat, hexp, ?_, ?_⟩
  · -- the schema of the response refuses one that has expired
    have hschema := h.schema
    rw [explicitRegistrationResponsePayloadSchema] at hschema
    simp only [Bool.and_eq_true] at hschema
    have halive := hschema.1.1.2
    have hiat' : (Json.obj (registrationPayload config run req bestChain metadata rpMeta).members).get?
        "iat" = some (.num run.now) := hiat
    have hexp' : (Json.obj (registrationPayload config run req bestChain metadata rpMeta).members).get?
        "exp" = some (.num (registrationExp config run bestChain)) := hexp
    rw [expAfterIat, hiat', hexp'] at halive
    simpa using halive
  · intro limit hlimit
    obtain rfl := List.mem_singleton.mp hlimit
    unfold registrationExp
    simp only
    split
    · exact le_rfl
    · rename_i hle
      exact not_lt.mp hle

/-! ## Both responses -/

/-- A resolve response is signed alive exactly where the chain and the included marks have not expired
yet, and a registration always is. -/
theorem signedAlive_iff {host : ResolutionHost} {ctx : ResolveContext} {request : Request}
    {params : ResolveParams} {run : ResolveRun} {resolved : ResolvedChains} {c : Candidate}
    {v : ValidatedTrustChain} {pending : List ContextualMetadataClaim}
    (hparams : checkResolveRequest host.toPlatform ctx request = .ok params)
    (hfresh : cachedResolution ctx params = .ok none) (hresolved : run.resolved = .ok resolved)
    (hfirst : resolved.candidates.head? = some c) (hcomputed : c.Computed host)
    (hvalid : validateTrustChain host.toPlatform c.chain.statements params.trustAnchors ctx.options
      c.clock = .ok (.valid v pending)) :
    (∀ response, createResolveHandler host.toPlatform ctx request run = .ok response →
      400 ≤ response.status ∨
        ∃ payload, SignsPayload ctx params run c.chain v payload response) ∧
    (∀ payload response, SignsPayload ctx params run c.chain v payload response →
      (SignedAlive payload (resolveLimits ctx run v) ↔
        ∀ limit ∈ resolveLimits ctx run v, run.now < limit)) ∧
    ∀ (H : ClientHost) (config : ExplicitRegistrationHandlerConfig) handler
      (registration : Request) (registrationRun : RegistrationRun) (outcome : RegistrationOutcome),
      createExplicitRegistrationHandler H config = .ok handler →
      handler registration registrationRun = .ok outcome →
      (outcome.response.status = 200 ∨ outcome.registered.isSome = true) →
      ∃ trustAnchors req bestChain metadata rpMeta responseJwt,
        requireNonEmptyTrustAnchors H.toPlatform config.trustAnchors = .ok trustAnchors ∧
        Registers H config trustAnchors registration registrationRun req bestChain metadata rpMeta
          responseJwt ∧
        Completes req rpMeta responseJwt outcome ∧
        SignedAlive (registrationPayload config registrationRun req bestChain metadata rpMeta)
          [bestChain.expiresAt] := by
  have hvalidates : c.Validates host.toPlatform params.trustAnchors ctx.options v := by
    rw [Candidate.Validates, Candidate.validate, hvalid]
    rfl
  refine ⟨fun response => createResolveHandler_eq_ok hparams hfresh hresolved hfirst hvalidates,
    fun payload response => resolvePayload_signedAlive_iff hcomputed hvalid, ?_⟩
  intro H config handler registration registrationRun outcome hhandler hrun haccepts
  obtain ⟨trustAnchors, hanchors, req, bestChain, metadata, rpMeta, responseJwt, hregisters,
    hcompletes⟩ := createExplicitRegistrationHandler_registers hhandler hrun haccepts
  exact ⟨trustAnchors, req, bestChain, metadata, rpMeta, responseJwt, hanchors, hregisters, hcompletes,
    registration_signedAlive hregisters⟩

/-- The direct path of the relying party, validated and answered at one time. -/
def shortPathAt (now : Rat) : Candidate := { shortPath with clock := fun _ => now }

def resolveRunAt (now : Rat) : ResolveRun :=
  { markRun with
    resolved := .ok ⟨[shortPathAt now], []⟩
    now }

def threePathsHost : ResolutionHost :=
  { tablePlatform threePaths with typeErrorMessage := "" }

/-- The path validates and expires at 2000, and the response to it is signed. -/
theorem shortPathAt_signs (now : Rat) (h : (validChain? (validateTrustChain threePathsHost.toPlatform
      (shortPathAt now).chain.statements exampleResolveParams.trustAnchors {}
      (shortPathAt now).clock)).any (fun v => v.expiresAt == 2000 && v.trustMarks == []) = true) :
    ∃ v pending payload response, validateTrustChain threePathsHost.toPlatform
        (shortPathAt now).chain.statements exampleResolveParams.trustAnchors {}
        (shortPathAt now).clock = .ok (.valid v pending) ∧
      (shortPathAt now).Computed threePathsHost ∧
      SignsPayload exampleResolver exampleResolveParams (resolveRunAt now) (shortPathAt now).chain v
        payload response ∧ resolveLimits exampleResolver (resolveRunAt now) v = [2000] := by
  obtain ⟨v, pending, hvalid, hv⟩ := exists_valid h
  rw [Bool.and_eq_true, beq_iff_eq, beq_iff_eq] at hv
  obtain ⟨hexpires, hmarks⟩ := hv
  refine ⟨v, pending, _, _, hvalid, (Candidate.computed_iff hvalid).mpr (by rw [hexpires]; rfl),
    ⟨⟨⟨⟨"ta-key", "ES256"⟩, []⟩, .empty, "signed", rfl, rfl, rfl⟩, v.resolvedMetadata, rfl, rfl⟩, ?_⟩
  rw [resolveLimits, includedMarks, validatedRefs, hmarks, hexpires]
  simp

theorem shortPathAt_signedAlive : ∃ v pending, validateTrustChain threePathsHost.toPlatform
      (shortPathAt 1500).chain.statements exampleResolveParams.trustAnchors {}
      (shortPathAt 1500).clock = .ok (.valid v pending) ∧
    ∃ payload response, SignsPayload exampleResolver exampleResolveParams (resolveRunAt 1500)
        (shortPathAt 1500).chain v payload response ∧
      SignedAlive payload (resolveLimits exampleResolver (resolveRunAt 1500) v) := by
  obtain ⟨v, pending, payload, response, hvalid, hcomputed, hsigns, hlimits⟩ :=
    shortPathAt_signs 1500 (by decide +kernel)
  have hparams : checkResolveRequest threePathsHost.toPlatform exampleResolver
      exampleResolveRequest = .ok exampleResolveParams := rfl
  have hfresh : cachedResolution exampleResolver exampleResolveParams = .ok none := rfl
  have hresolved : (resolveRunAt 1500).resolved = .ok ⟨[shortPathAt 1500], []⟩ := rfl
  have halive := (signedAlive_iff hparams hfresh hresolved rfl hcomputed hvalid).2.1
  refine ⟨v, pending, hvalid, payload, response, hsigns, (halive payload response hsigns).mpr ?_⟩
  rw [hlimits]
  simp [resolveRunAt]
  norm_num

/-- Thirty seconds after its statements have expired, the chain still validates; the response is signed
at 2030 and expires at 2000. -/
theorem shortPathAt_signed_expired : ∃ v pending, validateTrustChain threePathsHost.toPlatform
      (shortPathAt 2030).chain.statements exampleResolveParams.trustAnchors {}
      (shortPathAt 2030).clock = .ok (.valid v pending) ∧ (shortPathAt 2030).Computed threePathsHost ∧
    ∃ payload response, SignsPayload exampleResolver exampleResolveParams (resolveRunAt 2030)
        (shortPathAt 2030).chain v payload response ∧
      payload.get? "iat" = some (.num 2030) ∧ payload.get? "exp" = some (.num 2000) ∧
      createResolveHandler threePathsHost.toPlatform exampleResolver exampleResolveRequest
        (resolveRunAt 2030) = .ok (jwtResponse "signed" "application/resolve-response+jwt") ∧
      ¬ SignedAlive payload (resolveLimits exampleResolver (resolveRunAt 2030) v) := by
  obtain ⟨v, pending, payload, response, hvalid, hcomputed, hsigns, hlimits⟩ :=
    shortPathAt_signs 2030 (by decide +kernel)
  have hhandler : createResolveHandler threePathsHost.toPlatform exampleResolver
      exampleResolveRequest (resolveRunAt 2030) =
        .ok (jwtResponse "signed" "application/resolve-response+jwt") := by decide +kernel
  have hexp : payload.get? "exp" = some (.num 2000) := by
    obtain ⟨metadata, -, rfl⟩ := hsigns.payload
    have hmin : resolveExp (shortPathAt 2030).chain
        (includedMarks exampleResolver (resolveRunAt 2030) v) ∈
          resolveLimits exampleResolver (resolveRunAt 2030) v :=
      (resolveExp_min ((Candidate.computed_iff hvalid).mp hcomputed)).1
    rw [hlimits, List.mem_singleton] at hmin
    rw [resolvePayload_exp, activeTrustMarks_eq_includedMarks hvalid, hmin]
  have hiat : payload.get? "iat" = some (.num 2030) := by
    obtain ⟨metadata, -, rfl⟩ := hsigns.payload
    exact resolvePayload_iat
  refine ⟨v, pending, hvalid, hcomputed, payload, response, hsigns, hiat, hexp, hhandler, ?_⟩
  rintro ⟨iat, exp, hiat', hexp', hlt, -⟩
  rw [hiat] at hiat'
  rw [hexp] at hexp'
  obtain rfl := Json.num.inj (Option.some.inj hiat')
  obtain rfl := Json.num.inj (Option.some.inj hexp')
  norm_num at hlt

end OidFed
