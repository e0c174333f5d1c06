import OidFed.Chain.Selection
import OidFed.Http
import OidFed.Keys.Provider
import OidFed.Storage.State

/-!
# The resolve endpoint (`authority/src/endpoints/resolve.ts`)

`createResolveHandler` resolves the chains of an entity, validates the first one, and signs what
it finds.

* `ResolveContext`, `ResolveRun`: what the handler is configured with, and what it is told while it
  runs.
* `chainSelection_iff`: for which candidates, and for which orders of them, the handler, a refresh
  and discovery agree.
-/

namespace OidFed

open Js

structure ResolveContext where
  entityId : String
  trustAnchors : Option TrustAnchorSet := none
  options : TrustChainValidationOptions := {}
  /-- A signed response for a subject, Trust Anchors and entity types. -/
  cachedResolutionLookup :
    Option (String → List String → List String → Except JsError (Option String)) := none
  requireAuthForFreshResolution : Bool := false
  /-- `storage.trustMarks.getByJwt`. -/
  trustMarks : Option (String → Except JsError (Option TrustMarkRecord)) := none

/-- What the handler is told while it runs. -/
structure ResolveRun where
  /-- The chains of the subject. -/
  resolved : Except JsError ResolvedChains
  /-- The chains of the authority itself. -/
  issuerResolved : Except JsError ResolvedChains
  keySet : Except JsError FederationKeySet
  now : Rat
  /-- Status and issuer of a mark, from an endpoint and verified with keys. -/
  fetchTrustMarkStatus : String → Json → Json → Option (String × String)
  /-- `signEntityStatement` with a signer, of a payload, with further header parameters. -/
  signEntityStatement : JwtSigner → Payload → Payload → Except JsError String

/-- The parameters of a request that reaches resolution, with the Trust Anchors among those that it
names. -/
structure ResolveParams where
  sub : String
  usableTrustAnchors : List String
  trustAnchors : TrustAnchorSet
  entityTypes : List String
  authenticatedEntity : Option String

section Handler

variable (P : Platform) (ctx : ResolveContext)

/-- The checks of a request. -/
def checkResolveRequest (request : Request) : Except Response ResolveParams := do
  if let some response := requireMethod request "GET" then .error response
  let sub := (valuesOf request.searchParams "sub").head?.getD ""
  if sub = "" || !isValidEntityId P sub then
    .error (errorResponse 400 FederationErrorCode.InvalidRequest.text
      "Missing or invalid 'sub' parameter")
  let trustAnchorParam := valuesOf request.searchParams "trust_anchor"
  if trustAnchorParam.isEmpty then
    .error (errorResponse 400 FederationErrorCode.InvalidRequest.text
      "Missing 'trust_anchor' parameter")
  let rawEntity := (request.headers.get xAuthenticatedEntity).filter fun e => e != ""
  if rawEntity.any fun e => !isValidEntityId P e then
    .error (errorResponse 400 "invalid_request" "Invalid X-Authenticated-Entity header value")
  match ctx.trustAnchors with
  | none => .error (errorResponse 404 FederationErrorCode.InvalidTrustAnchor.text
      "No trust anchors configured")
  | some trustAnchors =>
    let usable := trustAnchorParam.filterMap fun ta => (trustAnchors.get? ta).map fun k => (ta, k)
    if trustAnchorParam.any (fun ta => !isValidEntityId P ta) || usable.isEmpty then
      .error (errorResponse 404 FederationErrorCode.InvalidTrustAnchor.text "Unknown trust anchor")
    return { sub, usableTrustAnchors := usable.map Prod.fst, trustAnchors := Dict.ofEntries usable
             entityTypes := valuesOf request.searchParams "entity_type"
             authenticatedEntity := rawEntity }

/-- The cache, and who may have more than it: a response where the handler ends here. -/
def cachedResolution (params : ResolveParams) : Except JsError (Option Response) :=
  let refused := params.authenticatedEntity.isNone && ctx.requireAuthForFreshResolution
  match ctx.cachedResolutionLookup with
  | some lookup => do
    match ← lookup params.sub params.usableTrustAnchors params.entityTypes with
    | some cached => return some (jwtResponse cached "application/resolve-response+jwt")
    | none =>
      return if refused then
        some (errorResponse 404 FederationErrorCode.NotFound.text
          "No cached resolution available; fresh resolution requires authentication")
      else none
  | none =>
    return if refused then
      some (errorResponse 404 FederationErrorCode.NotFound.text
        "Fresh resolution requires authentication")
    else none

/-- The entity types that are asked for, `none` if there is none of them. -/
def filterEntityTypes (entityTypes : List String) (metadata : FederationMetadata) :
    Option FederationMetadata :=
  -- an assignment to `__proto__` makes no member; an inherited function is one that is not signed
  let present := entityTypes.filter fun et => et != "__proto__" && metadata.hasMember et
  if entityTypes.isEmpty then some metadata
  else if present.isEmpty then none
  else some (Dict.ofEntries (present.filterMap fun et => (metadata.get? et).map fun m => (et, m)))

/-- Is a mark of the subject active? -/
def isTrustMarkActiveForResolve (run : ResolveRun) (statements : List ParsedEntityStatement)
    (ref : Json) (mark : ValidatedTrustMark) : Bool :=
  match (if mark.issuer = ctx.entityId then ctx.trustMarks else none) with
  | some getByJwt =>
    match ((ref.get? "trust_mark").bind Json.string?).map getByJwt with
    | some (.ok (some record)) =>
      record.active && ref.get? "trust_mark_type" == some (.str record.trustMarkType) &&
        record.subject == mark.subject && record.expiresAt.all fun e => decide (run.now < e)
    | _ => false
  | none =>
    let issuerStatement := statements.find? fun s =>
      s.payload.get? "iss" == some (.str mark.issuer) &&
        s.payload.get? "sub" == some (.str mark.issuer)
    let statusEndpoint := (((issuerStatement.bind fun s => s.payload.get? "metadata").bind
      (·.get? "federation_entity")).bind (·.get? "federation_trust_mark_status_endpoint")).bind
        Json.string?
    match statusEndpoint, issuerStatement.bind fun s => s.payload.get? "jwks" with
    | some endpoint, some jwks =>
      run.fetchTrustMarkStatus endpoint ((ref.get? "trust_mark").getD .null) jwks ==
        some ("active", mark.issuer)
    | _, _ => false

/-- The loop of `resolveActiveTrustMarks` over the published marks, each with the first validated
mark of its type that is not used yet. -/
def activeTrustMarks (run : ResolveRun) (statements : List ParsedEntityStatement) :
    List ValidatedTrustMark → List Json → List (Json × ValidatedTrustMark)
  | _, [] => []
  | validated, ref :: rest =>
    match validated.find? fun mark => ref.get? "trust_mark_type" == some (.str mark.trustMarkType)
    with
    | none => activeTrustMarks run statements validated rest
    | some mark =>
      let others := activeTrustMarks run statements (validated.erase mark) rest
      if isTrustMarkActiveForResolve ctx run statements ref mark then (ref, mark) :: others
      else others

/-- The response to a chain that validates. -/
def resolveResponse (params : ResolveParams) (run : ResolveRun) (chain : TrustChain)
    (validated : ValidatedTrustChain) : Except JsError Response :=
  match filterEntityTypes params.entityTypes validated.resolvedMetadata with
  | none => .ok (errorResponse 404 FederationErrorCode.NotFound.text
      "No matching entity types found")
  | some metadata => do
    let keySet ← run.keySet
    let refs := (validated.statements.head?.bind fun s =>
      (s.payload.get? "trust_marks").bind Json.items?).getD []
    let active := activeTrustMarks ctx run validated.statements validated.trustMarks refs
    let resolveExp := ((chain.expiresAt.getD 0) :: active.filterMap fun a => a.2.expiresAt).min?
    let statements : Json := .arr (chain.statements.map .str)
    let payload : Payload := Dict.ofEntries
      ([("iss", .str ctx.entityId), ("sub", .str params.sub), ("iat", .num run.now),
        ("exp", .num (resolveExp.getD 0)),
        ("metadata", .obj (metadata.members.map fun t => (t.1, .obj t.2.members))),
        ("trust_chain", statements)] ++
        (params.authenticatedEntity.map fun e => ("aud", Json.str e)).toList ++
        if active.isEmpty then [] else [("trust_marks", .arr (active.map Prod.fst))])
    let issuerChain := match run.issuerResolved with
      | .ok resolved => resolved.candidates.head?
      | .error _ => none
    let extraHeaders : Payload := match params.trustAnchors.get? ctx.entityId, issuerChain with
      | none, some c => Dict.ofEntries [("trust_chain", .arr (c.chain.statements.map .str))]
      | _, _ => .empty
    let jwt ← run.signEntityStatement keySet.signer payload extraHeaders
    return jwtResponse jwt "application/resolve-response+jwt"

def noValidTrustChain : Response :=
  errorResponse 404 FederationErrorCode.NotFound.text "No valid trust chain found"

/-- The `try` of the handler. -/
def freshResolution (params : ResolveParams) (run : ResolveRun) : Except JsError Response := do
  let resolved ← run.resolved
  match resolved.candidates with
  | [] => return noValidTrustChain
  | c :: _ =>
    match ← c.validate P params.trustAnchors ctx.options with
    | .error _ => return noValidTrustChain
    | .ok validated => resolveResponse ctx params run c.chain validated

/-- Handles resolve endpoint requests to produce a signed resolve response. -/
def createResolveHandler (request : Request) (run : ResolveRun) : Except JsError Response :=
  match checkResolveRequest P ctx request with
  | .error response => .ok response
  | .ok params => do
    match ← cachedResolution ctx params with
    | some response => return response
    | none =>
      match freshResolution P ctx params run with
      | .ok response => return response
      | .error _ => return errorResponse 500 "server_error" "Failed to resolve entity"

end Handler

/-! ## Which chain is selected -/

section Selection

variable (P : Platform) (ctx : ResolveContext)

/-- If a candidate validates, then the handler finds a valid chain, and a refresh and discovery
succeed, both with a best chain. -/
def ChainSelection (request : Request) (params : ResolveParams) (run : ResolveRun)
    (resolved : ResolvedChains) : Prop :=
  (∃ c ∈ resolved.candidates, ∃ v, c.Validates P params.trustAnchors ctx.options v) →
    createResolveHandler P ctx request { run with resolved := .ok resolved } ≠
        .ok noValidTrustChain ∧
      ∀ chain forceRefresh now, (forceRefresh || isChainExpired chain now) = true →
        ∃ v d,
          refreshTrustChain P params.trustAnchors ctx.options chain forceRefresh now resolved =
              .ok (.ok v) ∧
            discoverEntity P params.trustAnchors ctx.options chain.entityId resolved =
              .ok (.ok d) ∧
            BestChain P params.trustAnchors ctx.options resolved.candidates v ∧
            BestChain P params.trustAnchors ctx.options resolved.candidates d.trustChain

variable (trustAnchors : TrustAnchorSet) (options : TrustChainValidationOptions)

/-- If a candidate validates, then no validation throws, and the first candidate validates, with no
more statements than any other. -/
def FirstIsBest (candidates : List Candidate) : Prop :=
  (∃ c ∈ candidates, ∃ v, c.Validates P trustAnchors options v) →
    (∀ c ∈ candidates, ¬ c.Throws P trustAnchors options) ∧
      ∃ c v, candidates.head? = some c ∧ c.Validates P trustAnchors options v ∧
        ∀ d ∈ candidates, ∀ w, d.Validates P trustAnchors options w →
          v.statements.length ≤ w.statements.length

/-- If a candidate validates, then all do, with equally many statements. -/
def AllAreBest (candidates : List Candidate) : Prop :=
  (∃ c ∈ candidates, ∃ v, c.Validates P trustAnchors options v) →
    ∀ c ∈ candidates, ∃ v, c.Validates P trustAnchors options v ∧
      ∀ d ∈ candidates, ∀ w, d.Validates P trustAnchors options w →
        v.statements.length ≤ w.statements.length

variable {P} {ctx} {trustAnchors} {options} {candidates : List Candidate}

theorem Candidate.Validates.not_throws {c : Candidate} {v : ValidatedTrustChain}
    (h : c.Validates P trustAnchors options v) : ¬ c.Throws P trustAnchors options := by
  rintro ⟨e, he⟩
  rw [Candidate.Validates, he] at h
  cases h

theorem Candidate.Validates.unique {c : Candidate} {v w : ValidatedTrustChain}
    (hv : c.Validates P trustAnchors options v) (hw : c.Validates P trustAnchors options w) :
    v = w :=
  Except.ok.inj (Except.ok.inj (hv.symm.trans hw))

/-- Every order of the candidates has a best one first exactly if all are. -/
theorem allAreBest_iff :
    (∀ l : List Candidate, l.Perm candidates → FirstIsBest P trustAnchors options l) ↔
      AllAreBest P trustAnchors options candidates := by
  constructor
  · rintro hfirst ⟨c₀, hc₀, hv₀⟩ c hc
    obtain ⟨before, after, rfl⟩ := List.append_of_mem hc
    have hperm : (c :: (before ++ after)).Perm (before ++ c :: after) :=
      List.perm_middle.symm
    obtain ⟨-, c', v, hhead, hv, hbest⟩ := hfirst _ hperm ⟨c₀, hperm.symm.subset hc₀, hv₀⟩
    obtain rfl := Option.some.inj hhead
    exact ⟨v, hv, fun d hd => hbest d (hperm.symm.subset hd)⟩
  · rintro hall l hperm ⟨c₀, hc₀, hv₀⟩
    have hbest := hall ⟨c₀, hperm.subset hc₀, hv₀⟩
    refine ⟨fun c hc => ?_, ?_⟩
    · obtain ⟨v, hv, -⟩ := hbest c (hperm.subset hc)
      exact hv.not_throws
    · obtain ⟨c, rest, rfl⟩ := List.exists_cons_of_ne_nil (List.ne_nil_of_mem hc₀)
      obtain ⟨v, hv, hle⟩ := hbest c (hperm.subset (List.mem_cons_self ..))
      exact ⟨c, v, rfl, hv, fun d hd => hle d (hperm.subset hd)⟩

/-! ### The handler -/

theorem resolveResponse_ne (params : ResolveParams) (run : ResolveRun) (chain : TrustChain)
    (v : ValidatedTrustChain) :
    resolveResponse ctx params run chain v ≠ .ok noValidTrustChain := by
  intro h
  unfold resolveResponse at h
  split at h
  · exact absurd (congrArg Response.body (Except.ok.inj h)) (by decide)
  · obtain ⟨keySet, -, h⟩ := bind_eq_ok.mp h
    obtain ⟨jwt, -, h⟩ := bind_eq_ok.mp h
    have hstatus : (200 : Nat) = 404 := congrArg Response.status (Except.ok.inj h)
    exact absurd hstatus (by decide)

variable {request : Request} {params : ResolveParams}

/-- A request that reaches resolution finds no valid chain exactly if there is no first candidate,
or its validation fails. -/
theorem createResolveHandler_noValidTrustChain (hparams : checkResolveRequest P ctx request =
    .ok params) (hfresh : cachedResolution ctx params = .ok none) (run : ResolveRun)
    (resolved : ResolvedChains) :
    createResolveHandler P ctx request { run with resolved := .ok resolved } =
        .ok noValidTrustChain ↔
      ∀ c, resolved.candidates.head? = some c →
        ∃ es, c.validate P params.trustAnchors ctx.options = .ok (.error es) := by
  have hhandler : createResolveHandler P ctx request { run with resolved := .ok resolved } =
      match freshResolution P ctx params { run with resolved := .ok resolved } with
      | .ok response => .ok response
      | .error _ => .ok (errorResponse 500 "server_error" "Failed to resolve entity") := by
    rw [createResolveHandler, hparams]
    simp only [hfresh]
    rfl
  rw [hhandler]
  cases hcandidates : resolved.candidates with
  | nil =>
    have hrun : freshResolution P ctx params { run with resolved := .ok resolved } =
        .ok noValidTrustChain := by
      simp only [freshResolution, bind, Except.bind, hcandidates]
      rfl
    rw [hrun]
    simp
  | cons c rest =>
    cases hc : c.validate P params.trustAnchors ctx.options with
    | error e =>
      have hrun : freshResolution P ctx params { run with resolved := .ok resolved } =
          .error e := by
        simp only [freshResolution, bind, Except.bind, hcandidates, hc]
      rw [hrun]
      refine iff_of_false (fun h => ?_) fun h => ?_
      · exact absurd (congrArg Response.status (Except.ok.inj h)) (by decide)
      · obtain ⟨es, hes⟩ := h c rfl
        rw [hc] at hes
        cases hes
    | ok result =>
      cases result with
      | error es =>
        have hrun : freshResolution P ctx params { run with resolved := .ok resolved } =
            .ok noValidTrustChain := by
          simp only [freshResolution, bind, Except.bind, hcandidates, hc]
          rfl
        rw [hrun]
        refine iff_of_true rfl fun d hd => ?_
        obtain rfl := Option.some.inj hd
        exact ⟨es, hc⟩
      | ok v =>
        have hrun : freshResolution P ctx params { run with resolved := .ok resolved } =
            resolveResponse ctx params { run with resolved := .ok resolved } c.chain v := by
          simp only [freshResolution, bind, Except.bind, hcandidates, hc]
        -- a chain that is valid is answered otherwise, whatever comes of its response
        have hne : resolveResponse ctx params { run with resolved := .ok resolved } c.chain v ≠
            .ok noValidTrustChain := resolveResponse_ne params _ c.chain v
        rw [hrun]
        refine iff_of_false (fun h => ?_) fun h => ?_
        · cases hr : resolveResponse ctx params { run with resolved := .ok resolved } c.chain v with
          | ok response =>
            rw [hr] at h hne
            exact hne h
          | error e =>
            rw [hr] at h
            exact absurd (congrArg Response.status (Except.ok.inj h)) (by decide)
        · obtain ⟨es, hes⟩ := h c rfl
          rw [hc] at hes
          cases hes

theorem chainSelection_iff_firstIsBest (hparams : checkResolveRequest P ctx request = .ok params)
    (hfresh : cachedResolution ctx params = .ok none) (run : ResolveRun)
    (resolved : ResolvedChains) :
    ChainSelection P ctx request params run resolved ↔
      FirstIsBest P params.trustAnchors ctx.options resolved.candidates := by
  have hhandler := createResolveHandler_noValidTrustChain hparams hfresh run resolved
  constructor
  · intro h hvalid
    obtain ⟨hne, hrefresh⟩ := h hvalid
    obtain ⟨c₀, hc₀, v₀, hv₀⟩ := hvalid
    obtain ⟨v, d, hv, hd, hbest, hdbest⟩ := hrefresh v₀ true 0 rfl
    have hthrows := ((discoverEntity_best _ _).mp ⟨d, hd, hdbest⟩).1
    obtain ⟨c, rest, hcandidates⟩ := List.exists_cons_of_ne_nil (List.ne_nil_of_mem hc₀)
    refine ⟨hthrows, c, v, by rw [hcandidates]; rfl, ?_, hbest.shortest⟩
    -- the first candidate does not fail, for the handler would say so
    cases hc : c.validate P params.trustAnchors ctx.options with
    | error e => exact absurd ⟨e, hc⟩ (hthrows c (hcandidates ▸ List.mem_cons_self ..))
    | ok result =>
      cases result with
      | error es =>
        refine absurd (hhandler.mpr fun c' hc' => ?_) hne
        rw [hcandidates] at hc'
        obtain rfl := Option.some.inj hc'
        exact ⟨es, hc⟩
      | ok w =>
        have hw : refreshTrustChain P params.trustAnchors ctx.options v₀ true 0 resolved =
            .ok (.ok w) := refreshTrustChain_head hcandidates hc rfl
        obtain rfl := Except.ok.inj (Except.ok.inj (hw.symm.trans hv))
        exact hc
  · intro h hvalid
    obtain ⟨hthrows, c, v, hhead, hv, hle⟩ := h hvalid
    obtain ⟨rest, hcandidates⟩ := List.head?_eq_some_iff.mp hhead
    refine ⟨fun hnone => ?_, fun chain forceRefresh now hold => ?_⟩
    · obtain ⟨es, hes⟩ := hhandler.mp hnone c hhead
      rw [show c.validate P params.trustAnchors ctx.options = .ok (.ok v) from hv] at hes
      cases hes
    · obtain ⟨d, hd, hbest⟩ := (discoverEntity_best chain.entityId resolved).mpr ⟨hthrows, hvalid⟩
      exact ⟨v, d, refreshTrustChain_head hcandidates hv hold, hd,
        ⟨⟨c, hcandidates ▸ List.mem_cons_self .., hv⟩, hle⟩, hbest⟩

/-- For the requests that reach resolution: which lists of candidates, in their order, and which
collections of candidates, in every order, the three callers agree on. -/
theorem chainSelection_iff (hparams : checkResolveRequest P ctx request = .ok params)
    (hfresh : cachedResolution ctx params = .ok none) (run : ResolveRun)
    (resolved : ResolvedChains) :
    (ChainSelection P ctx request params run resolved ↔
        FirstIsBest P params.trustAnchors ctx.options resolved.candidates) ∧
      ((∀ candidates : List Candidate, candidates.Perm resolved.candidates →
          ChainSelection P ctx request params run { resolved with candidates }) ↔
        AllAreBest P params.trustAnchors ctx.options resolved.candidates) := by
  refine ⟨chainSelection_iff_firstIsBest hparams hfresh run resolved, ?_⟩
  rw [← allAreBest_iff]
  exact forall₂_congr fun candidates _ =>
    chainSelection_iff_firstIsBest hparams hfresh run { resolved with candidates }

end Selection

/-! ## An example -/

/-- A relying party with three paths to its anchor: by way of an authority whose statement has
expired, by way of another one, and directly. -/
def threePaths : List (String × SignedJwt) :=
  let statement (iss sub key signer : String) (rest : List (String × Json)) :=
    signedJwt JwtTyp.entityStatement signer (statementClaims iss sub key rest)
  [("rp", statement "https://rp.example" "https://rp.example" "rp-key" "rp-key"
      [("authority_hints", .arr [.str "https://old.example", .str "https://int.example",
          .str "https://ta.example"]),
        ("metadata", .obj [("openid_relying_party", .obj [("client_name", .str "RP")])])]),
    ("old-about-rp", statement "https://old.example" "https://rp.example" "rp-key" "old-key"
      [("exp", .num 1001)]),
    ("ta-about-old", statement "https://ta.example" "https://old.example" "old-key" "ta-key" []),
    ("int-about-rp", statement "https://int.example" "https://rp.example" "rp-key" "int-key" []),
    ("ta-about-int", statement "https://ta.example" "https://int.example" "int-key" "ta-key" []),
    ("ta-about-rp", statement "https://ta.example" "https://rp.example" "rp-key" "ta-key" []),
    ("ta", statement "https://ta.example" "https://ta.example" "ta-key" "ta-key"
      [("metadata", .obj [("federation_entity", .obj [
        ("federation_fetch_endpoint", .str "https://ta.example/fetch"),
        ("federation_list_endpoint", .str "https://ta.example/list")])])])]

def exampleCandidate (statements : List String) (expiresAt : Rat) : Candidate where
  chain := { statements, entityId := "https://rp.example", trustAnchorId := "https://ta.example"
             expiresAt := some expiresAt }
  clock := fun _ => 1500

def expiredPath : Candidate := exampleCandidate ["rp", "old-about-rp", "ta-about-old", "ta"] 1001

def longPath : Candidate := exampleCandidate ["rp", "int-about-rp", "ta-about-int", "ta"] 2000

def shortPath : Candidate := exampleCandidate ["rp", "ta-about-rp", "ta"] 2000

def exampleResolver : ResolveContext where
  entityId := "https://ta.example"
  trustAnchors := some (Dict.ofEntries [("https://ta.example", [tableKey "ta-key"])])

def exampleResolveRequest : Request where
  pathname := "/resolve"
  searchParams := [("sub", "https://rp.example"), ("trust_anchor", "https://ta.example")]

def exampleResolveParams : ResolveParams where
  sub := "https://rp.example"
  usableTrustAnchors := ["https://ta.example"]
  trustAnchors := Dict.ofEntries [("https://ta.example", [tableKey "ta-key"])]
  entityTypes := []
  authenticatedEntity := none

/-- A run without keys to sign with. -/
def exampleResolveRun : ResolveRun where
  resolved := .error .typeError
  issuerResolved := .error .typeError
  keySet := .error .typeError
  now := 1500
  fetchTrustMarkStatus _ _ _ := none
  signEntityStatement _ _ _ := .error .typeError

theorem exampleResolve_selection :
    ChainSelection (tablePlatform threePaths) exampleResolver exampleResolveRequest
        exampleResolveParams exampleResolveRun ⟨[shortPath, longPath], []⟩ ↔
      FirstIsBest (tablePlatform threePaths) exampleResolveParams.trustAnchors {}
        [shortPath, longPath] :=
  (chainSelection_iff rfl rfl exampleResolveRun ⟨[shortPath, longPath], []⟩).1

theorem shortPath_validates : ∃ v, shortPath.Validates (tablePlatform threePaths)
    exampleResolveParams.trustAnchors {} v ∧ v.statements.length = 3 := by
  have hrun : (((shortPath.validate (tablePlatform threePaths) exampleResolveParams.trustAnchors
      {}).toOption.bind Except.toOption).map fun v => v.statements.length) = some 3 := by
    decide +kernel
  obtain ⟨v, hv, hlength⟩ := Option.map_eq_some_iff.mp hrun
  obtain ⟨r, hr, hrv⟩ := Option.bind_eq_some_iff.mp hv
  obtain rfl := toOption_eq_some.mp hrv
  exact ⟨v, toOption_eq_some.mp hr, hlength⟩

/-- With the expired path first, the handler finds no valid chain, and a refresh takes the longer
one of the other two. -/
theorem expiredPath_first :
    (∃ v, shortPath.Validates (tablePlatform threePaths) exampleResolveParams.trustAnchors {} v ∧
      v.statements.length = 3) ∧
    createResolveHandler (tablePlatform threePaths) exampleResolver exampleResolveRequest
        { exampleResolveRun with resolved := .ok ⟨[expiredPath, longPath, shortPath], []⟩ } =
      .ok noValidTrustChain ∧
    (∃ v, (∀ chain, refreshTrustChain (tablePlatform threePaths) exampleResolveParams.trustAnchors
        {} chain true 1500 ⟨[expiredPath, longPath, shortPath], []⟩ = .ok (.ok v)) ∧
      v.statements.length = 4) ∧
    ¬ ChainSelection (tablePlatform threePaths) exampleResolver exampleResolveRequest
      exampleResolveParams exampleResolveRun ⟨[expiredPath, longPath, shortPath], []⟩ := by
  have hhandler : createResolveHandler (tablePlatform threePaths) exampleResolver
      exampleResolveRequest
        { exampleResolveRun with resolved := .ok ⟨[expiredPath, longPath, shortPath], []⟩ } =
      .ok noValidTrustChain := by decide +kernel
  have hfirst : ((firstValidChain (tablePlatform threePaths) exampleResolveParams.trustAnchors {}
      [expiredPath, longPath, shortPath]).toOption.join.map fun v => v.statements.length) =
        some 4 := by decide +kernel
  obtain ⟨v, hv, hlength⟩ := Option.map_eq_some_iff.mp hfirst
  refine ⟨shortPath_validates, hhandler, ⟨v, fun chain => ?_, hlength⟩, fun h => ?_⟩
  · obtain ⟨r, hr, hrv⟩ := Option.bind_eq_some_iff.mp hv
    obtain rfl : r = some v := hrv
    have hloop := toOption_eq_some.mp hr
    simp [refreshTrustChain, bind, Except.bind, hloop]
    rfl
  · obtain ⟨w, hw, -⟩ := shortPath_validates
    exact (h ⟨shortPath, by simp, w, hw⟩).1 hhandler

end OidFed
