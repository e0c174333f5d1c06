import OidFed.Authority.Resolve
import OidFed.Chain.TrustMarks

/-!
# The response of the resolve endpoint (`authority/src/endpoints/resolve.ts`)

* `resolvePayload`: what the handler signs. `resolveResponse_eq_ok`, `createResolveHandler_eq_ok`:
  when it signs.
* `activeTrustMarks_eq_filter`: the loop over the published marks finds each one's own result, since
  the marks of a valid chain have been validated one by one, in order.
* `resolveHandler_pairsMarks`: the marks of a response.
-/

namespace OidFed

open Js

/-- The published marks of the leaf, each with what has been validated at its place. -/
def validatedRefs (v : ValidatedTrustChain) : List (Json × ValidatedTrustMark) :=
  (publishedTrustMarks (statementAt v.statements 0).payload).zip v.trustMarks

section Response

variable (ctx : ResolveContext) (params : ResolveParams) (run : ResolveRun) (chain : TrustChain)
  (v : ValidatedTrustChain)

/-- The marks whose status is active, in published order. -/
def includedMarks : List (Json × ValidatedTrustMark) :=
  (validatedRefs v).filter fun p => isTrustMarkActiveForResolve ctx run v.statements p.1 p.2

/-- The earliest expiration of a chain and of marks. -/
def resolveExp (active : List (Json × ValidatedTrustMark)) : Rat :=
  (((chain.expiresAt.getD 0) :: active.filterMap fun a => a.2.expiresAt).min?).getD 0

/-- What is signed. -/
def resolvePayload (metadata : FederationMetadata) (active : List (Json × ValidatedTrustMark)) :
    Payload :=
  Dict.ofEntries
    ([("iss", .str ctx.entityId), ("sub", .str params.sub), ("iat", .num run.now),
      ("exp", .num (resolveExp chain active)),
      ("metadata", .obj (metadata.members.map fun t => (t.1, .obj t.2.members))),
      ("trust_chain", .arr (chain.statements.map .str))] ++
      (params.authenticatedEntity.map fun e => ("aud", Json.str e)).toList ++
      if active.isEmpty then [] else [("trust_marks", .arr (active.map Prod.fst))])

/-- The marks of the leaf that the handler reads. -/
def resolveRefs : List Json :=
  (v.statements.head?.bind fun s => (s.payload.get? "trust_marks").bind Json.items?).getD []

/-- The handler signs a payload for a chain, and a response with the JWT. -/
structure SignsPayload (payload : Payload) (response : Response) : Prop where
  signed : ∃ keySet headers jwt, run.keySet = .ok keySet ∧
    run.signEntityStatement keySet.signer payload headers = .ok jwt ∧
    response = jwtResponse jwt "application/resolve-response+jwt"
  payload : ∃ metadata, filterEntityTypes params.entityTypes v.resolvedMetadata = some metadata ∧
    payload = resolvePayload ctx params run chain metadata
      (activeTrustMarks ctx run v.statements v.trustMarks (resolveRefs v))

end Response

section Payload

variable {ctx : ResolveContext} {params : ResolveParams} {run : ResolveRun} {chain : TrustChain}
  {v : ValidatedTrustChain} {metadata : FederationMetadata}
  {active : List (Json × ValidatedTrustMark)}

theorem resolvePayload_iat :
    (resolvePayload ctx params run chain metadata active).get? "iat" = some (.num run.now) := by
  unfold resolvePayload
  cases params.authenticatedEntity <;> split <;> simp [Dict.ofEntries, Dict.get?_set]

theorem resolvePayload_exp : (resolvePayload ctx params run chain metadata active).get? "exp" =
    some (.num (resolveExp chain active)) := by
  unfold resolvePayload
  cases params.authenticatedEntity <;> split <;> simp [Dict.ofEntries, Dict.get?_set]

theorem resolvePayload_trustMarks :
    (resolvePayload ctx params run chain metadata active).get? "trust_marks" =
      if active.isEmpty then none else some (.arr (active.map Prod.fst)) := by
  unfold resolvePayload
  cases params.authenticatedEntity <;> split <;> simp [Dict.ofEntries, Dict.get?_set]

/-- A chain that has been validated is answered with a signed payload, or with none of the entity
types. -/
theorem resolveResponse_eq_ok {response : Response}
    (h : resolveResponse ctx params run chain v = .ok response) :
    response = errorResponse 404 FederationErrorCode.NotFound.text
        "No matching entity types found" ∨
      ∃ payload, SignsPayload ctx params run chain v payload response := by
  unfold resolveResponse at h
  split at h
  · exact .inl (Except.ok.inj h).symm
  · rename_i metadata hmetadata
    obtain ⟨keySet, hkeys, h⟩ := bind_eq_ok.mp h
    obtain ⟨jwt, hjwt, h⟩ := bind_eq_ok.mp h
    exact .inr ⟨_, ⟨keySet, _, jwt, hkeys, hjwt, (Except.ok.inj h).symm⟩, metadata, hmetadata, rfl⟩

end Payload

/-! ## The marks -/

/-- A published mark, and what has been validated at its place, are of one type. -/
def SameType (ref : Json) (mark : ValidatedTrustMark) : Prop :=
  ref.get? "trust_mark_type" = some (.str mark.trustMarkType)

/-- Where the marks have been validated in order, the first one of a type that is not used yet is the
one's own. -/
theorem activeTrustMarks_eq_filter {ctx : ResolveContext} {run : ResolveRun}
    {statements : List ParsedEntityStatement} {refs : List Json} {marks : List ValidatedTrustMark}
    (h : List.Forall₂ SameType refs marks) :
    activeTrustMarks ctx run statements marks refs = (refs.zip marks).filter fun p =>
      isTrustMarkActiveForResolve ctx run statements p.1 p.2 := by
  induction h with
  | nil => rfl
  | cons htype _ ih =>
    rename_i ref mark refs marks _
    have hown : (mark :: marks).find? (fun m =>
        ref.get? "trust_mark_type" == some (.str m.trustMarkType)) = some mark :=
      List.find?_cons_of_pos (beq_iff_eq.mpr htype)
    rw [activeTrustMarks, hown]
    simp only [List.erase_cons_head, List.zip_cons_cons, List.filter_cons, ih]

section Marks

variable {P : Platform} {trustAnchors : TrustAnchorSet} {options : TrustChainValidationOptions}
  {clock : Clock} {chain : List String} {v : ValidatedTrustChain}
  {pending : List ContextualMetadataClaim}

variable (P trustAnchors options clock v) in
/-- The mark was validated from the JWT of a reference. -/
def ResultOf (i : Nat) (ref : Json) (mark : ValidatedTrustMark) : Prop :=
  ∃ jwt es markCtx keys, ref.get? "trust_mark" = some (.str jwt) ∧
    markContext trustAnchors options v.statements = .ok markCtx ∧
    MarkChecked P jwt markCtx.trustMarkIssuers keys
      { clockSkew := markCtx.clockSkew, expectedSubject := markCtx.expectedSubject
        trustMarkOwners := markCtx.trustMarkOwners } clock i es mark ∧
    publishedMark P markCtx clock i ref = .ok (.ok mark)

theorem resolveRefs_eq (v : ValidatedTrustChain) :
    resolveRefs v = publishedTrustMarks (statementAt v.statements 0).payload := by
  unfold resolveRefs publishedTrustMarks statementAt
  cases v.statements with
  | nil => rfl
  | cons s rest => rfl

/-- Every mark of a valid chain is the result of the published one at its place. -/
theorem validatedRefs_resultOf
    (h : validateTrustChain P chain trustAnchors options clock = .ok (.valid v pending)) :
    v.trustMarks.length = (resolveRefs v).length ∧ ∀ i ref mark,
      (resolveRefs v)[i]? = some ref → v.trustMarks[i]? = some mark →
        ResultOf P trustAnchors options clock v i ref mark ∧ SameType ref mark := by
  obtain ⟨hacc, hev⟩ := validateTrustChainImpl_eq_valid h
  obtain ⟨hlen, hmarks⟩ := hev.publishedMarks
  rw [resolveRefs_eq]
  refine ⟨hlen, fun i ref mark href hmark => ?_⟩
  obtain ⟨markCtx, hctx, hpublished⟩ := hmarks i ref mark href hmark
  obtain ⟨t, jwt, ht, hjwt⟩ := hacc.trustMarkRefs (List.mem_of_getElem? href)
  obtain ⟨es, keys, htype, -, hchecked⟩ := publishedMark_eq_ok hjwt hpublished
  refine ⟨⟨jwt, es, markCtx, keys, hjwt, hctx, hchecked, hpublished⟩, ?_⟩
  rw [ht, hchecked.type] at htype
  have hsame : t = mark.trustMarkType := by simpa [Json.strictEq] using htype
  rw [SameType, ht, hsame]

/-- The loop over the marks of a valid chain. -/
theorem activeTrustMarks_eq_includedMarks {ctx : ResolveContext} {run : ResolveRun}
    (h : validateTrustChain P chain trustAnchors options clock = .ok (.valid v pending)) :
    activeTrustMarks ctx run v.statements v.trustMarks (resolveRefs v) =
      includedMarks ctx run v := by
  obtain ⟨hlen, hall⟩ := validatedRefs_resultOf h
  rw [includedMarks, validatedRefs, ← resolveRefs_eq]
  refine activeTrustMarks_eq_filter (List.forall₂_iff_get.mpr ⟨hlen.symm, fun i hi hi' => ?_⟩)
  exact (hall i _ _ (List.getElem?_eq_getElem hi) (List.getElem?_eq_getElem hi')).2

end Marks

/-! ## The handler -/

section Handler

variable {P : Platform} {ctx : ResolveContext} {request : Request} {params : ResolveParams}
  {run : ResolveRun} {resolved : ResolvedChains} {c : Candidate} {v : ValidatedTrustChain}
  {response : Response}

/-- A response to a valid chain is an error, or it is signed. -/
theorem createResolveHandler_eq_ok (hparams : checkResolveRequest P ctx request = .ok params)
    (hfresh : cachedResolution ctx params = .ok none) (hresolved : run.resolved = .ok resolved)
    (hfirst : resolved.candidates.head? = some c)
    (hvalid : c.Validates P params.trustAnchors ctx.options v)
    (h : createResolveHandler P ctx request run = .ok response) :
    400 ≤ response.status ∨ ∃ payload, SignsPayload ctx params run c.chain v payload response := by
  obtain ⟨rest, hcandidates⟩ := List.head?_eq_some_iff.mp hfirst
  have hrun : freshResolution P ctx params run = resolveResponse ctx params run c.chain v := by
    rw [Candidate.Validates] at hvalid
    simp only [freshResolution, bind, Except.bind, hresolved, hcandidates, hvalid]
  rw [createResolveHandler, hparams] at h
  obtain ⟨cached, hcached, h⟩ := bind_eq_ok.mp h
  obtain rfl : none = cached := Except.ok.inj (hfresh.symm.trans hcached)
  simp only [hrun] at h
  split at h
  · rename_i response' hok
    obtain rfl := Except.ok.inj h
    rcases resolveResponse_eq_ok hok with rfl | hsigned
    · exact .inl (by decide)
    · exact .inr hsigned
  · obtain rfl := Except.ok.inj h
    exact .inl (by decide)

/-- The marks of a signed payload. -/
structure PairsMarks (P : Platform) (ctx : ResolveContext) (params : ResolveParams)
    (run : ResolveRun) (clock : Clock) (v : ValidatedTrustChain) (payload : Payload)
    (included : List (Json × ValidatedTrustMark)) : Prop where
  /-- A mark is with what was validated from its own JWT. -/
  own : ∀ p ∈ included, ∃ i, (resolveRefs v)[i]? = some p.1 ∧ v.trustMarks[i]? = some p.2 ∧
    ResultOf P params.trustAnchors ctx.options clock v i p.1 p.2
  /-- The marks are in published order, each at most once. -/
  order : included.Sublist ((resolveRefs v).zip v.trustMarks)
  active : ∀ p ∈ (resolveRefs v).zip v.trustMarks, p ∈ included ↔
    isTrustMarkActiveForResolve ctx run v.statements p.1 p.2 = true
  signed : payload.get? "trust_marks" =
    if included.isEmpty then none else some (.arr (included.map Prod.fst))

/-- The marks that the handler includes are paired with their own results. -/
theorem resolveHandler_pairsMarks (hparams : checkResolveRequest P ctx request = .ok params)
    (hfresh : cachedResolution ctx params = .ok none) (hresolved : run.resolved = .ok resolved)
    (hfirst : resolved.candidates.head? = some c) {pending : List ContextualMetadataClaim}
    (hvalid : validateTrustChain P c.chain.statements params.trustAnchors ctx.options c.clock =
      .ok (.valid v pending)) :
    (∀ response, createResolveHandler P ctx request run = .ok response → 400 ≤ response.status ∨
      ∃ payload, SignsPayload ctx params run c.chain v payload response) ∧
    ∀ payload response, SignsPayload ctx params run c.chain v payload response →
      PairsMarks P ctx params run c.clock v payload
        (activeTrustMarks ctx run v.statements v.trustMarks (resolveRefs v)) := by
  have hvalidates : c.Validates P params.trustAnchors ctx.options v := by
    rw [Candidate.Validates, Candidate.validate, hvalid]
    rfl
  refine ⟨fun response => createResolveHandler_eq_ok hparams hfresh hresolved hfirst hvalidates,
    fun payload response hsigns => ?_⟩
  obtain ⟨metadata, -, rfl⟩ := hsigns.payload
  have hactive : activeTrustMarks ctx run v.statements v.trustMarks (resolveRefs v) =
      includedMarks ctx run v := activeTrustMarks_eq_includedMarks hvalid
  obtain ⟨-, hall⟩ := validatedRefs_resultOf hvalid
  have hrefs : validatedRefs v = (resolveRefs v).zip v.trustMarks := by
    rw [validatedRefs, resolveRefs_eq]
  rw [hactive, includedMarks, hrefs]
  refine ⟨fun p hp => ?_, List.filter_sublist, fun p hp => ?_, ?_⟩
  · obtain ⟨i, hi⟩ := List.mem_iff_getElem?.mp (List.mem_filter.mp hp).1
    obtain ⟨href, hmark⟩ := List.getElem?_zip_eq_some.mp hi
    exact ⟨i, href, hmark, (hall i _ _ href hmark).1⟩
  · rw [List.mem_filter, and_iff_right hp]
  · rw [resolvePayload_trustMarks]

end Handler

/-! ## An example -/

/-- A relying party that publishes two marks of one type, both from its anchor. -/
def twoMarks : List (String × SignedJwt) :=
  let type := "https://ta.example/mark"
  let ref (jwt : String) := Json.obj [("trust_mark_type", .str type), ("trust_mark", .str jwt)]
  let mark (iat : Rat) := signedJwt JwtTyp.trustMark "ta-key"
    [("iss", .str "https://ta.example"), ("sub", .str "https://rp.example"),
      ("trust_mark_type", .str type), ("iat", .num iat)]
  [("rp", signedJwt JwtTyp.entityStatement "rp-key"
      (statementClaims "https://rp.example" "https://rp.example" "rp-key"
        [("authority_hints", .arr [.str "https://ta.example"]),
          ("trust_marks", .arr [ref "revoked-mark", ref "mark"])])),
    ("ta-about-rp", signedJwt JwtTyp.entityStatement "ta-key"
      (statementClaims "https://ta.example" "https://rp.example" "rp-key" [])),
    ("ta", signedJwt JwtTyp.entityStatement "ta-key"
      (statementClaims "https://ta.example" "https://ta.example" "ta-key"
        [("trust_mark_issuers", .obj [(type, .arr [.str "https://ta.example"])])])),
    ("revoked-mark", mark 1000), ("mark", mark 1100)]

/-- The anchor resolves; its records say which mark is active. -/
def markResolver : ResolveContext where
  entityId := "https://ta.example"
  trustAnchors := some (Dict.ofEntries [("https://ta.example", [tableKey "ta-key"])])
  trustMarks := some fun jwt => .ok (some
    { trustMarkType := "https://ta.example/mark", subject := "https://rp.example", jwt
      issuedAt := 1000, active := jwt == "mark" })

def markRun : ResolveRun where
  resolved := .ok ⟨[shortPath], []⟩
  issuerResolved := .error .typeError
  keySet := .ok ⟨⟨"ta-key", "ES256"⟩, []⟩
  now := 1500
  fetchTrustMarkStatus _ _ _ := none
  signEntityStatement _ _ _ := .ok "signed"

/-- The active one of the two marks is included, with its own result. -/
theorem markRun_pairsMarks : ∃ v pending,
    validateTrustChain (tablePlatform twoMarks) shortPath.chain.statements
        exampleResolveParams.trustAnchors {} shortPath.clock = .ok (.valid v pending) ∧
      (activeTrustMarks markResolver markRun v.statements v.trustMarks (resolveRefs v)).map
        (fun p => (p.1.get? "trust_mark", p.2.issuedAt)) = [(some (.str "mark"), 1100)] ∧
      ∀ payload response, SignsPayload markResolver exampleResolveParams markRun shortPath.chain v
          payload response →
        PairsMarks (tablePlatform twoMarks) markResolver exampleResolveParams markRun
          shortPath.clock v payload
          (activeTrustMarks markResolver markRun v.statements v.trustMarks (resolveRefs v)) := by
  obtain ⟨v, pending, hvalid, hactive⟩ := exists_valid
    (r := validateTrustChain (tablePlatform twoMarks) shortPath.chain.statements
      exampleResolveParams.trustAnchors {} shortPath.clock)
    (p := fun v => (activeTrustMarks markResolver markRun v.statements v.trustMarks
      (resolveRefs v)).map (fun p => (p.1.get? "trust_mark", p.2.issuedAt)) ==
        [(some (.str "mark"), 1100)]) (by decide +kernel)
  have hparams : checkResolveRequest (tablePlatform twoMarks) markResolver
      exampleResolveRequest = .ok exampleResolveParams := rfl
  have hfresh : cachedResolution markResolver exampleResolveParams = .ok none := rfl
  have hresolved : markRun.resolved = .ok ⟨[shortPath], []⟩ := rfl
  have hpairs := resolveHandler_pairsMarks hparams hfresh hresolved rfl hvalid
  exact ⟨v, pending, hvalid, by simpa using hactive, hpairs.2⟩

end OidFed
