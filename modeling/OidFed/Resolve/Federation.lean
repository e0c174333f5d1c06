import OidFed.Authority.Statements
import OidFed.Chain.Selection
import OidFed.Resolve.Complete

/-!
# Discovery in a federation (`trust-chain/discovery.ts`, `refresh.ts`, `peer.ts`)

The entities on a path answer with the library, and a client discovers, validates and selects with it.

* `networkAnswer`: what the fetches of a discovery return over a network.
* `HonestRoute`: the entities of a path, with what they serve. Each one has been registered by the next,
  with keys that vouch for its signer.
* `HonestRoute.built`: the path that the discovery finds (`Route`), and the statements of the honest
  chain that validation accepts (`HonestChain`), by induction on the path.
* `honestRoute_discovered`: a discovery that is not flagged has a valid chain for the leaf, and every
  consumer of its result selects one.
-/

namespace OidFed

open Js

/-! ## Consumers of a discovery -/

section Anchor

variable (P : Platform) (trustAnchors : TrustAnchorSet) (options : TrustChainValidationOptions)

/-- The loop over the candidates for an anchor: the first that validates. -/
def firstValidStatements : List Candidate → Except JsError (Option (List String))
  | [] => .ok none
  | c :: rest => do
    match ← c.validate P trustAnchors options with
    | .ok _ => return some c.chain.statements
    | .error _ => firstValidStatements rest

/-- Build a Trust Chain for `subject` that ends at the given `trustAnchorId`. -/
def resolveTrustChainForAnchor (subject trustAnchorId : String) (resolved : ResolvedChains) :
    Except JsError (Except FederationError (List String)) :=
  if (trustAnchors.get? trustAnchorId).isNone then
    .ok (.error (internalError .TrustAnchorUnknown
      s!"Requested Trust Anchor '{trustAnchorId}' is not in the pre-trusted set"))
  else if resolved.candidates.isEmpty then
    .ok (.error (resolved.errors.head?.getD (internalError .TrustChainInvalid
      s!"No Trust Chain could be built for {subject}")))
  else
    match resolved.candidates.filter fun c => c.chain.trustAnchorId == trustAnchorId with
    | [] => .ok (.error (internalError .TrustChainInvalid
        s!"No Trust Chain ending at '{trustAnchorId}' was found for {subject}"))
    | candidates => do
      match ← firstValidStatements P trustAnchors options candidates with
      | some statements => return .ok statements
      | none => return .error (internalError .TrustChainInvalid
          s!"No valid Trust Chain ending at '{trustAnchorId}' was found for {subject}")

end Anchor

section Selected

variable {P : Platform} {trustAnchors : TrustAnchorSet} {options : TrustChainValidationOptions}
  {candidates : List Candidate}

theorem firstValidChain_of_validates (hthrows : ∀ c ∈ candidates, ¬ c.Throws P trustAnchors options)
    {c : Candidate} (hc : c ∈ candidates) {v : ValidatedTrustChain}
    (hv : c.Validates P trustAnchors options v) :
    ∃ c ∈ candidates, ∃ v, c.Validates P trustAnchors options v ∧
      firstValidChain P trustAnchors options candidates = .ok (some v) ∧
      firstValidStatements P trustAnchors options candidates = .ok (some c.chain.statements) := by
  induction candidates with
  | nil => cases hc
  | cons d rest ih =>
    cases hd : d.validate P trustAnchors options with
    | error e => exact absurd ⟨e, hd⟩ (hthrows d (.head _))
    | ok result =>
      cases result with
      | ok w => exact ⟨d, .head _, w, hd, by rw [firstValidChain, hd]; rfl,
          by rw [firstValidStatements, hd]; rfl⟩
      | error es =>
        have hrest : c ∈ rest := by
          rcases List.mem_cons.mp hc with rfl | hrest
          · cases hd.symm.trans hv
          · exact hrest
        obtain ⟨c', hc', w, hw, hchain, hstatements⟩ :=
          ih (fun c' hc' => hthrows c' (.tail _ hc')) hrest
        refine ⟨c', .tail _ hc', w, hw, ?_, ?_⟩
        · rw [firstValidChain, hd]
          exact hchain
        · rw [firstValidStatements, hd]
          exact hstatements

end Selected

/-! ## A network of authorities -/

/-- The platform of a client, as a discovery uses it. -/
def ClientHost.resolution (H : ClientHost) (typeErrorMessage : String) : ResolutionHost :=
  { H.toPlatform with typeErrorMessage }

/-- What the fetches of a discovery return. -/
def networkAnswer (H : ClientHost) (options : FetchOptions) (runs : FetchCall → FetchRun)
    (call : FetchCall) : FetchOutcome :=
  match call with
  | .entityConfiguration (.str entityId) =>
    .returned (fetchEntityConfiguration H entityId options (runs call)).2
  | .entityConfiguration _ => .rejected .typeError
  | .subordinateStatement fetchEndpoint subject _ =>
    match (fetchEndpoint.toText H.numberText).map fun text =>
        fetchSubordinateStatement H text subject options (runs call) with
    | some (.ok fetched) => .returned fetched.2
    | _ => .rejected .typeError

/-- An entity, with the keys and the time with which it answers for itself and, if it is a superior,
for the entity below it. -/
structure Responder where
  ctx : StatementContext
  configurationKeys : FederationKeySet
  configuredAt : Rat
  statementKeys : FederationKeySet
  statedAt : Rat
  get : String → Except StorageError (Option ListedRecord) := fun _ => .ok none

namespace Responder

variable (a : Responder)

def configurationRun : StatementRun where
  keySet := .ok a.configurationKeys
  now := a.configuredAt

def statementRun : StatementRun where
  keySet := .ok a.statementKeys
  now := a.statedAt
  get := a.get

end Responder

section Network

variable (H : ClientHost) (signJwt : JwtSigner → Payload → Payload → Except String String)
  (fetchOptions : FetchOptions) (runs : FetchCall → FetchRun)

/-- The configuration of an entity is fetched, which it has built of metadata and marks that fit, and
its keys vouch for its signer. -/
structure ServesConfiguration (a : Responder) (configuration : String) : Prop where
  metadata : MetadataFits H.toPlatform a.ctx.entityId (some a.ctx.metadata)
  marks : ∀ marks, a.ctx.trustMarks = some marks → ∀ ref ∈ marks, MarkFits H.toPlatform ref
  self : Vouches (H.signing signJwt) a.configurationKeys.jwks a.configurationKeys.signer
  answered : ∃ request : Request, request.method = "GET" ∧
    Answered H (entityConfigurationUrl a.ctx.entityId) { fetchOptions with }
      (runs (.entityConfiguration (.str a.ctx.entityId)))
      (createEntityConfigurationHandler (H.signing signJwt) a.ctx a.configurationRun request)
  received : (fetchEntityConfiguration H a.ctx.entityId fetchOptions
    (runs (.entityConfiguration (.str a.ctx.entityId)))).2 = .ok configuration

/-- The statement of a superior about a subject is fetched from the endpoint that its metadata name. -/
structure ServesStatement (a : Responder) (fetchEndpoint subject statement : String) : Prop where
  endpoint : (a.ctx.metadata.get? "federation_entity").bind (·.get? "federation_fetch_endpoint") =
    some (.str fetchEndpoint)
  nonempty : fetchEndpoint ≠ ""
  answered : ∃ url request, H.parseUrl fetchEndpoint = some url ∧
    ReadsBack H url (setParam (H.urlParams url) "sub" subject) ∧
    Arrives H (({ fetchOptions with } : PerformFetchOptions).request
      (setSearchParam H url "sub" subject).href) request ∧
    Answered H (setSearchParam H url "sub" subject).href { fetchOptions with }
      (runs (.subordinateStatement (.str fetchEndpoint) subject a.ctx.entityId))
      (createFetchHandler (H.signing signJwt) a.ctx a.statementRun request)
  received : ∃ fetched, fetchSubordinateStatement H fetchEndpoint subject fetchOptions
    (runs (.subordinateStatement (.str fetchEndpoint) subject a.ctx.entityId)) = .ok fetched ∧
      fetched.2 = .ok statement

variable (anchors : TrustAnchorSet) (understood : List String) (resolutionOptions : ResolutionOptions)
  (typeErrorMessage leaf : String)

/-- The entities of a path up from the leaf, the JWTs of the chain so far with the signer of the last,
and the topmost entity with its configuration. -/
inductive HonestRoute : List String → List String → JwtSigner → Responder → String → Prop
  | leaf {a : Responder} {configuration : String} : a.ctx.entityId = leaf →
      ServesConfiguration H signJwt fetchOptions runs a configuration →
      HonestRoute [leaf] [configuration] a.configurationKeys.signer a configuration
  | hop {entities jwts : List String} {signer : JwtSigner} {below a : Responder}
      {configurationBelow configuration statement fetchEndpoint : String} {hints : List String}
      {jwks : List Payload} : HonestRoute entities jwts signer below configurationBelow →
      below.ctx.entityId = leaf ∨ (anchors.get? below.ctx.entityId).isSome = false →
      a.ctx.entityId ∉ entities →
      below.ctx.authorityHints = some hints → a.ctx.entityId ∈ hints →
      Resolution.PassesFilter (H.resolution typeErrorMessage) resolutionOptions below.ctx.entityId
        (.str a.ctx.entityId) →
      ServesConfiguration H signJwt fetchOptions runs a configuration →
      ServesStatement H signJwt fetchOptions runs a fetchEndpoint below.ctx.entityId statement →
      (∀ record, a.get below.ctx.entityId = .ok (some record) →
        Registered H.toPlatform understood below.ctx.entityId jwks record) →
      Vouches (H.signing signJwt) jwks signer →
      Vouches (H.signing signJwt) a.configurationKeys.jwks a.statementKeys.signer →
      HonestRoute (entities ++ [a.ctx.entityId]) (jwts ++ [statement]) a.statementKeys.signer a
        configuration

end Network

/-! ## What an honest path is -/

section Built

variable {H : ClientHost} {signJwt : JwtSigner → Payload → Payload → Except String String}
  {fetchOptions : FetchOptions} {runs : FetchCall → FetchRun} {anchors : TrustAnchorSet}
  {understood : List String} {resolutionOptions : ResolutionOptions} {typeErrorMessage leaf : String}

/-- The statement that a configuration is. -/
structure IsConfiguration (H : ClientHost)
    (signJwt : JwtSigner → Payload → Payload → Except String String) (a : Responder)
    (c : SignedStatement) : Prop where
  issuer : c.issuer = a.ctx.entityId
  jwks : c.jwks = a.configurationKeys.jwks
  signer : c.signer = a.configurationKeys.signer
  signed : signEntityStatement (H.signing signJwt) c.payload c.signer = .ok c.jwt
  own : OwnStatement H.toPlatform c (configurationOptions a.ctx a.configurationRun
    a.configurationKeys.jwks)

theorem ServesConfiguration.exists {a : Responder} {configuration : String}
    (h : ServesConfiguration H signJwt fetchOptions runs a configuration) :
    ∃ c, c.jwt = configuration ∧ IsConfiguration H signJwt a c := by
  obtain ⟨request, hmethod, hanswered⟩ := h.answered
  have hbuilt := (fetchEntityConfiguration_eq_ok hmethod hanswered).mp h.received
  obtain ⟨c, hjwt, hissuer, hjwks, hsigner, hsigned, hown⟩ :=
    buildEntityConfiguration_signed (show a.configurationRun.keySet = .ok a.configurationKeys from rfl)
      h.metadata h.marks hbuilt
  exact ⟨c, hjwt, hissuer, hjwks, hsigner, hsigned, hown⟩

theorem ServesConfiguration.serves (typeErrorMessage : String) {a : Responder} {configuration : String}
    (h : ServesConfiguration H signJwt fetchOptions runs a configuration) :
    Resolution.Serves (H.resolution typeErrorMessage) (networkAnswer H fetchOptions runs)
      (.entityConfiguration (.str a.ctx.entityId)) configuration :=
  congrArg FetchOutcome.returned h.received

theorem ServesConfiguration.decodes {a : Responder} {configuration : String}
    (h : ServesConfiguration H signJwt fetchOptions runs a configuration) {c : SignedStatement}
    (hjwt : c.jwt = configuration) (hc : IsConfiguration H signJwt a c) :
    decodeEntityStatement H.toPlatform configuration = .ok c.parsed := by
  have hvouches := h.self
  rw [← hc.signer] at hvouches
  exact hjwt ▸ SignedStatement.decodes hc.signed hvouches

/-- The hints that a configuration has. -/
theorem IsConfiguration.hints {a : Responder} {c : SignedStatement}
    (hc : IsConfiguration H signJwt a c) {hints : List String}
    (hhints : a.ctx.authorityHints = some hints) {id : String} (hmem : id ∈ hints) :
    (configurationOptions a.ctx a.configurationRun a.configurationKeys.jwks).authorityHints =
        some hints ∧
      authorityHints c.payload = some (.arr (hints.map .str)) := by
  have hoptions : (configurationOptions a.ctx a.configurationRun
      a.configurationKeys.jwks).authorityHints = some hints := by
    dsimp only [configurationOptions]
    rw [hhints]
    cases hints with
    | nil => cases hmem
    | cons first rest => rfl
  obtain ⟨-, hauthority, -⟩ := buildEntityConfigurationPayload_dated hc.own.built
  refine ⟨hoptions, ?_⟩
  rw [authorityHints, hauthority, hoptions]
  rfl

theorem IsConfiguration.fetchEndpoint {a : Responder} {c : SignedStatement}
    (hc : IsConfiguration H signJwt a c) {endpoint : String} (hne : endpoint ≠ "")
    (hendpoint : (a.ctx.metadata.get? "federation_entity").bind (·.get? "federation_fetch_endpoint") =
      some (.str endpoint)) : fetchEndpoint c.payload = some (.str endpoint) := by
  obtain ⟨-, -, -, -, hmetadata, -⟩ := buildEntityConfigurationPayload_eq_ok hc.own.built
  unfold OidFed.fetchEndpoint
  rw [hmetadata]
  dsimp only [configurationOptions, Option.bind_some]
  rw [hendpoint, Option.filter_some, if_pos (by simpa [Json.truthy] using hne)]

theorem ServesStatement.exists {a : Responder} {endpoint subject statement : String}
    (h : ServesStatement H signJwt fetchOptions runs a endpoint subject statement)
    {jwks : List Payload} (hregistered : ∀ record, a.get subject = .ok (some record) →
      Registered H.toPlatform understood subject jwks record) :
    ∃ s : SignedStatement, s.jwt = statement ∧ s.issuer = a.ctx.entityId ∧ s.subject = subject ∧
      s.jwks = jwks ∧ s.signer = a.statementKeys.signer ∧
      signEntityStatement (H.signing signJwt) s.payload s.signer = .ok s.jwt ∧
      ∃ options, SuperiorStatement H.toPlatform understood s options := by
  obtain ⟨url, request, hurl, hreads, harrives, hanswered⟩ := h.answered
  obtain ⟨fetched, hfetched, hstatement⟩ := h.received
  obtain ⟨fetched', hfetched', hiff⟩ :=
    fetchSubordinateStatement_eq_ok hurl hreads harrives hanswered
  obtain rfl := Except.ok.inj (hfetched.symm.trans hfetched')
  obtain ⟨record, hrecord, hbuilt⟩ := (hiff.mp hstatement).built
  exact buildSubordinateStatement_signed (show a.statementRun.keySet = .ok a.statementKeys from rfl)
    (hregistered record hrecord) hbuilt

theorem ServesStatement.serves (typeErrorMessage : String) {a : Responder}
    {endpoint subject statement : String}
    (h : ServesStatement H signJwt fetchOptions runs a endpoint subject statement) :
    Resolution.Serves (H.resolution typeErrorMessage) (networkAnswer H fetchOptions runs)
      (.subordinateStatement (.str endpoint) subject a.ctx.entityId) statement := by
  obtain ⟨url, request, hurl, -⟩ := h.answered
  obtain ⟨fetched, hfetched, hstatement⟩ := h.received
  have hparse : urlOf (H.resolution typeErrorMessage) (.str endpoint) = some url := hurl
  have hanswer : networkAnswer H fetchOptions runs
      (.subordinateStatement (.str endpoint) subject a.ctx.entityId) = .returned (.ok statement) := by
    dsimp only [networkAnswer, Json.toText, Option.map_some]
    rw [hfetched]
    exact congrArg FetchOutcome.returned hstatement
  rw [Resolution.Serves, hanswer]
  dsimp only [FetchCall.outcome]
  rw [hparse]
  rfl

/-- The statements of a path, and the configuration of its topmost entity. -/
structure RouteBuilt (H : ClientHost)
    (signJwt : JwtSigner → Payload → Payload → Except String String) (fetchOptions : FetchOptions)
    (runs : FetchCall → FetchRun) (anchors : TrustAnchorSet) (understood : List String)
    (resolutionOptions : ResolutionOptions) (typeErrorMessage leaf : String)
    (entities jwts : List String) (signer : JwtSigner) (a : Responder) (configuration : String)
    (first : SignedStatement) (superiors : List SignedStatement) (c : SignedStatement) : Prop where
  texts : (first :: superiors).map (·.jwt) = jwts
  text : c.jwt = configuration
  top : IsConfiguration H signJwt a c
  signed : ∀ s ∈ first :: superiors,
    signEntityStatement (H.signing signJwt) s.payload s.signer = .ok s.jwt
  entity : entities.getLast? = some a.ctx.entityId
  last : ∃ s, (first :: superiors).getLast? = some s ∧ s.issuer = a.ctx.entityId ∧ s.signer = signer
  linked : (first :: superiors).IsChain fun s next =>
    next.subject = s.issuer ∧ Vouches (H.signing signJwt) next.jwks s.signer
  own : ∃ below : Responder, IsConfiguration H signJwt below first ∧ below.ctx.entityId = leaf ∧
    Vouches (H.signing signJwt) first.jwks first.signer ∧ (superiors = [] → below = a ∧ first = c) ∧
    ∀ s, superiors.head? = some s → ∃ hints, below.ctx.authorityHints = some hints ∧ s.issuer ∈ hints
  superior : ∀ s ∈ superiors, ∃ options, SuperiorStatement H.toPlatform understood s options
  topVouches : superiors ≠ [] → Vouches (H.signing signJwt) c.jwks signer
  leafServed : Resolution.Serves (H.resolution typeErrorMessage) (networkAnswer H fetchOptions runs)
    (.entityConfiguration (.str leaf)) first.jwt
  route : Resolution.Route (H.resolution typeErrorMessage) anchors resolutionOptions leaf
    (networkAnswer H fetchOptions runs) entities jwts configuration c.parsed

/-- By induction on the path: each entity adds the statement that it makes about the one below. -/
theorem HonestRoute.built {entities jwts : List String} {signer : JwtSigner} {a : Responder}
    {configuration : String}
    (h : HonestRoute H signJwt fetchOptions runs anchors understood resolutionOptions typeErrorMessage
      leaf entities jwts signer a configuration) :
    ∃ first superiors c, RouteBuilt H signJwt fetchOptions runs anchors understood resolutionOptions
      typeErrorMessage leaf entities jwts signer a configuration first superiors c := by
  induction h with
  | @leaf a configuration hleaf hserves =>
    obtain ⟨c, hjwt, hc⟩ := hserves.exists
    have hserved := hserves.serves typeErrorMessage
    rw [hleaf] at hserved
    refine ⟨c, [], c, ?_⟩
    constructor
    · exact congrArg (fun jwt => [jwt]) hjwt
    · exact hjwt
    · exact hc
    · intro s hs
      obtain rfl := List.mem_singleton.mp hs
      exact hc.signed
    · exact congrArg some hleaf.symm
    · exact ⟨c, rfl, hc.issuer, hc.signer⟩
    · exact .singleton _
    · refine ⟨a, hc, hleaf, ?_, fun _ => ⟨rfl, rfl⟩, fun s hs => by cases hs⟩
      rw [hc.jwks, hc.signer]
      exact hserves.self
    · intro s hs
      cases hs
    · exact fun hne => absurd rfl hne
    · exact hjwt ▸ hserved
    · exact .leaf hserved (hserves.decodes hjwt hc)
  | @hop entities jwts signer below a configurationBelow configuration statement endpoint hints jwks
      hbelow hopen hfresh hhints hmem hpasses hserves hstates hregistered hvouches htop ih =>
    obtain ⟨first, superiors, cBelow, hbuilt⟩ := ih
    obtain ⟨c, hjwt, hc⟩ := hserves.exists
    obtain ⟨s, hstatement, hissuer, hsubject, hjwks, hsigner, hsigned, hsuperior⟩ :=
      hstates.exists hregistered
    obtain ⟨last, hlast, hlastIssuer, hlastSigner⟩ := hbuilt.last
    -- the statement about the entity below is appended to those that there are
    have hlastAdded : (first :: (superiors ++ [s])).getLast? = some s := by
      rw [← List.cons_append, List.getLast?_concat]
    have htopVouches : Vouches (H.signing signJwt) c.jwks s.signer := by
      rw [hc.jwks, hsigner]
      exact htop
    refine ⟨first, superiors ++ [s], c, ?_⟩
    constructor
    · rw [← List.cons_append, List.map_append, hbuilt.texts, List.map_singleton, hstatement]
    · exact hjwt
    · exact hc
    · intro s' hs'
      rw [← List.cons_append] at hs'
      rcases List.mem_append.mp hs' with hs' | hs'
      · exact hbuilt.signed s' hs'
      · obtain rfl := List.mem_singleton.mp hs'
        exact hsigned
    · exact List.getLast?_concat
    · exact ⟨s, hlastAdded, hissuer, hsigner⟩
    · rw [← List.cons_append, List.isChain_append]
      refine ⟨hbuilt.linked, .singleton _, fun s' hs' next hnext => ?_⟩
      obtain rfl := Option.some.inj (hlast.symm.trans hs')
      obtain rfl := Option.some.inj hnext
      rw [hsubject, hlastIssuer, hjwks, hlastSigner]
      exact ⟨rfl, hvouches⟩
    · -- only the first superior is named by the hints of the leaf
      obtain ⟨own, hown, hleaf, hself, hsame, hhead⟩ := hbuilt.own
      refine ⟨own, hown, hleaf, hself, fun hnil => ?_, fun s' hs' => ?_⟩
      · simp at hnil
      · cases hsup : superiors with
        | nil =>
          rw [hsup] at hs'
          obtain rfl := Option.some.inj hs'
          obtain ⟨rfl, -⟩ := hsame hsup
          exact ⟨hints, hhints, hissuer ▸ hmem⟩
        | cons next rest =>
          rw [hsup] at hs'
          exact hhead s' (by rw [hsup]; exact hs')
    · intro s' hs'
      rcases List.mem_append.mp hs' with hs' | hs'
      · exact hbuilt.superior s' hs'
      · obtain rfl := List.mem_singleton.mp hs'
        exact hsuperior
    · intro _
      rw [← hsigner]
      exact htopVouches
    · exact hbuilt.leafServed
    · obtain ⟨-, hitems⟩ := hbuilt.top.hints hhints hmem
      exact hbuilt.route.hop hbuilt.entity hopen hfresh hitems (List.mem_map.mpr ⟨_, hmem, rfl⟩) hpasses
        (hserves.serves _) (hserves.decodes hjwt hc)
        (hc.fetchEndpoint hstates.nonempty hstates.endpoint) (hstates.serves _) (hstatement ▸ SignedStatement.decodes hsigned htopVouches)

/-- Below an anchor whose configured keys vouch for it, the statements are an honest chain. -/
theorem RouteBuilt.honest {entities jwts : List String} {signer : JwtSigner} {a : Responder}
    {configuration : String} {first c : SignedStatement} {superiors : List SignedStatement}
    (h : RouteBuilt H signJwt fetchOptions runs anchors understood resolutionOptions typeErrorMessage
      leaf entities jwts signer a configuration first superiors c)
    (hne : superiors ≠ []) {jwks : List Payload}
    (hanchor : anchors.get? a.ctx.entityId = some (publishedJwks jwks))
    (hvouches : Vouches (H.signing signJwt) jwks a.configurationKeys.signer)
    (hhints : a.ctx.authorityHints = none ∧ a.ctx.trustAnchorHints = none) :
    HonestChain (H.signing signJwt) anchors understood first superiors (some c) := by
  obtain ⟨below, hown, -, hself, -, hhead⟩ := h.own
  obtain ⟨last, hlast, hlastIssuer, hlastSigner⟩ := h.last
  -- the chain of the route, with the configuration of its last entity behind it
  have hlinked : (chainOf first superiors (some c)).IsChain fun s next =>
      next.subject = s.issuer ∧ Vouches (H.signing signJwt) next.jwks s.signer := by
    rw [chainOf, Option.toList_some, ← List.cons_append, List.isChain_append]
    refine ⟨h.linked, .singleton _, fun s hs next hnext => ?_⟩
    obtain rfl := Option.some.inj (hlast.symm.trans hs)
    obtain rfl := Option.some.inj hnext
    rw [h.top.own.subject, hlastIssuer, hlastSigner]
    exact ⟨rfl, h.topVouches hne⟩
  constructor
  · obtain ⟨s, hs⟩ : ∃ s, superiors.head? = some s :=
      ⟨_, List.head?_eq_some_head hne⟩
    obtain ⟨hints, hbelow, hmem⟩ := hhead s hs
    refine ⟨_, hints, hown.own, (hown.hints hbelow hmem).1, fun s' hs' => ?_⟩
    obtain rfl := Option.some.inj (hs.symm.trans hs')
    exact hmem
  · exact hself
  · exact hne
  · exact h.superior
  · intro s hs
    obtain rfl := Option.some.inj hs
    refine ⟨_, h.top.own, ?_, ?_⟩
    · dsimp only [configurationOptions]
      rw [hhints.1]
      rfl
    · dsimp only [configurationOptions]
      rw [hhints.2]
      rfl
  · intro j s next hs hnext
    obtain ⟨hj, rfl⟩ := List.getElem?_eq_some_iff.mp hs
    obtain ⟨hj', rfl⟩ := List.getElem?_eq_some_iff.mp hnext
    exact hlinked.getElem j hj'
  · intro s hs
    rw [chainOf, Option.toList_some, ← List.cons_append, List.getLast?_concat] at hs
    obtain rfl := Option.some.inj hs
    rw [h.top.issuer, h.top.signer]
    exact ⟨jwks, hanchor, hvouches⟩
  · intro s hs
    rw [chainOf, Option.toList_some, ← List.cons_append] at hs
    rcases List.mem_append.mp hs with hs | hs
    · exact h.signed s hs
    · obtain rfl := List.mem_singleton.mp hs
      exact h.top.signed

end Built

/-! ## What a discovery finds -/

namespace Resolution

variable {host : ResolutionHost} {anchors : TrustAnchorSet} {options : ResolutionOptions}
  {leaf : String} {answer : FetchCall → FetchOutcome} {S : Resolution}

/-- A result without the flag is that of a walk that has left nothing out, if the leaf has hints. -/
theorem walked_of_unflagged
    (hreach : (resolution host anchors options leaf (Fixed answer)).Reach S)
    {result : TrustChainResult} (hresult : S.phase = .returned result)
    (hcomplete : result.incomplete = false) {configuration : String} {decoded : ParsedEntityStatement}
    (hserved : Serves host answer (.entityConfiguration (.str leaf)) configuration)
    (hdecodes : decodeEntityStatement host.toPlatform configuration = .ok decoded)
    (hleaf : decoded.IsOf leaf) (hhints : lacksHints (authorityHints decoded.payload) = false) :
    ∃ T, Walked host anchors options leaf answer T ∧ result.chains = T.chains := by
  cases returned_of_reach hreach hresult with
  | overBudget _ _ hincomplete =>
    rw [hcomplete] at hincomplete
    cases hincomplete
  | leaf _ houtcome hends =>
    cases hends with
    | failed e incomplete => cases hserved.eq houtcome
    | undecodable hfails =>
      obtain rfl := hserved.text_eq houtcome
      simp [hdecodes] at hfails
    | mismatched e hdecodes' hnot =>
      obtain rfl := hserved.text_eq houtcome
      obtain rfl := Except.ok.inj (hdecodes.symm.trans hdecodes')
      exact absurd hleaf hnot
    | anchor expiresAt hdecodes' hlacks _ =>
      obtain rfl := hserved.text_eq houtcome
      obtain rfl := Except.ok.inj (hdecodes.symm.trans hdecodes')
      simp [hhints] at hlacks
    | noHints e hdecodes' hlacks =>
      obtain rfl := hserved.text_eq houtcome
      obtain rfl := Except.ok.inj (hdecodes.symm.trans hdecodes')
      simp [hhints] at hlacks
  | @walked T hT hbuilt _ _ _ heq =>
    subst heq
    have hkept := kept_of_reach hT
    have hphase := hkept.phase
    rw [hbuilt] at hphase
    obtain ⟨hincomplete, haborted⟩ := Bool.or_eq_false_iff.mp hcomplete
    have hroot : T.root.isSome = true := by
      by_contra hnone
      have hflagged := hphase.1 (by simpa using hnone)
      simp [hincomplete] at hflagged
    exact ⟨T, ⟨hkept, hincomplete, haborted, hroot, fun p b hget =>
      hkept.tree.all_ended hphase.2 hget⟩, rfl⟩

/-- A way up begins with the leaf's configuration. -/
theorem Climb.head {answers : FetchCall → FetchOutcome → Prop} {entities statements : List String}
    (h : Climb host leaf answers entities statements) :
    ∃ configuration rest, statements = configuration :: rest ∧
      Answered host answers (.entityConfiguration (.str leaf)) (.returned (.ok configuration)) := by
  induction h with
  | leaf hanswered => exact ⟨_, [], rfl, hanswered⟩
  | hop _ _ _ _ _ _ _ ih =>
    obtain ⟨configuration, rest, rfl, hanswered⟩ := ih
    exact ⟨configuration, rest ++ [_], rfl, hanswered⟩

/-- Every chain of a result begins with the leaf's configuration. -/
theorem head_of_returned (hreach : (resolution host anchors options leaf (Fixed answer)).Reach S)
    {result : TrustChainResult} (hresult : S.phase = .returned result) {configuration : String}
    (hserved : Serves host answer (.entityConfiguration (.str leaf)) configuration)
    {chain : TrustChain} (hchain : chain ∈ result.chains) :
    chain.statements.head? = some configuration := by
  rcases chain_of_returned hreach hresult hchain with ⟨entities, halong⟩ | halone
  · obtain ⟨statements, anchorConfiguration, hclimb, -, hsplit⟩ := halong.statements
    obtain ⟨configuration', rest, rfl, hanswered⟩ := hclimb.head
    rw [hsplit, hserved.text_eq hanswered]
    rfl
  · obtain ⟨configuration', decoded, hsplit, hanswered, -⟩ := halone.statements
    rw [hsplit, hserved.text_eq hanswered]
    rfl

end Resolution

/-! ## Discovery and validation -/

/-- The claims of a JWT are within their life at the times that a validation reads. -/
def LivesThrough (P : Platform) (options : TrustChainValidationOptions) (clock : Clock) (jwt : String) :
    Prop :=
  ∀ es, decodeEntityStatement P jwt = .ok es →
    (∀ iat, es.payload.get? "iat" = some (.num iat) → iat ≤ clock .start + options.clockSkew) ∧
      ∀ exp, es.payload.get? "exp" = some (.num exp) → ∀ site, clock site - options.clockSkew < exp

/-- A chain that is valid is about the issuer of its first statement. -/
theorem entityId_of_valid {P : Platform} {anchors : TrustAnchorSet}
    {options : TrustChainValidationOptions} {clock : Clock} {chain : List String} {jwt leaf : String}
    {es : ParsedEntityStatement} (hhead : chain.head? = some jwt)
    (hdecodes : decodeEntityStatement P jwt = .ok es) (hleaf : es.payload.get? "iss" = some (.str leaf))
    {v : ValidatedTrustChain} {pending : List ContextualMetadataClaim}
    (h : validateTrustChain P chain anchors options clock = .ok (.valid v pending)) :
    v.entityId = leaf ∧ (anchors.get? v.trustAnchorId).isSome = true := by
  obtain ⟨haccepted, hevidence⟩ := validateTrustChainImpl_eq_valid h
  have hchain := hevidence.chain
  obtain ⟨s, hs⟩ : ∃ s, v.statements[0]? = some s :=
    ⟨_, List.getElem?_eq_getElem (List.length_pos_iff.mpr haccepted.ne_nil)⟩
  rw [List.head?_eq_getElem?] at hhead
  obtain rfl := Except.ok.inj ((haccepted.decoded_get hhead hs).symm.trans hdecodes)
  obtain ⟨-, last, iss, jwks, -, -, hlast, hiss, hanchor, -⟩ := haccepted.anchor
  rw [List.getLast?_eq_getElem?] at hlast
  constructor
  · rw [show v.entityId = (authenticatedChain v.statements).entityId from
      congrArg AuthenticatedChain.entityId hchain]
    dsimp only [authenticatedChain]
    rw [statementAt_eq hs, Payload.string?, hleaf]
    rfl
  · rw [show v.trustAnchorId = (authenticatedChain v.statements).trustAnchorId from
      congrArg AuthenticatedChain.trustAnchorId hchain]
    dsimp only [authenticatedChain]
    rw [statementAt_eq hlast, Payload.string?, hiss]
    dsimp only [Option.bind_some, Json.string?, Option.getD_some]
    rw [hanchor]
    rfl

section Discovered

variable {H : ClientHost} {signJwt : JwtSigner → Payload → Payload → Except String String}
  {fetchOptions : FetchOptions} {runs : FetchCall → FetchRun} {anchors : TrustAnchorSet}
  {options : TrustChainValidationOptions} {resolutionOptions : ResolutionOptions}
  {typeErrorMessage leaf : String} {entities jwts : List String} {signer : JwtSigner} {a : Responder}
  {configuration : String}

theorem HonestRoute.length_eq {understood : List String}
    (h : HonestRoute H signJwt fetchOptions runs anchors understood resolutionOptions typeErrorMessage
      leaf entities jwts signer a configuration) : jwts.length = entities.length := by
  induction h with
  | leaf _ _ => rfl
  | hop _ _ _ _ _ _ _ _ _ _ _ ih =>
    rw [List.length_append, List.length_append, ih, List.length_singleton, List.length_singleton]

/-- The chain of an honest path is among the candidates, and validates. -/
theorem HonestRoute.candidate (hurl : H.parseUrl "" = none)
    (h : HonestRoute H signJwt fetchOptions runs anchors options.understoodCriticalClaims
      resolutionOptions typeErrorMessage leaf entities jwts signer a configuration)
    (hhops : 2 ≤ entities.length) {jwks : List Payload}
    (hanchor : anchors.get? a.ctx.entityId = some (publishedJwks jwks))
    (hvouches : Vouches (H.signing signJwt) jwks a.configurationKeys.signer)
    (hhints : a.ctx.authorityHints = none ∧ a.ctx.trustAnchorHints = none) {R : Resolution}
    (hreach : (Resolution.resolution (H.resolution typeErrorMessage) anchors resolutionOptions leaf
      (Resolution.Fixed (networkAnswer H fetchOptions runs))).Reach R) {result : TrustChainResult}
    (hresult : R.phase = .returned result) (hcomplete : result.incomplete = false)
    {resolved : ResolvedChains} (hresolved : resolved.candidates.map Candidate.chain = result.chains)
    (hlife : ∀ c ∈ resolved.candidates, c.chain.statements = jwts ++ [configuration] →
      ∀ jwt ∈ jwts ++ [configuration], LivesThrough H.toPlatform options c.clock jwt)
    (hunique : ∀ jwt ∈ jwts ++ [configuration], NoRepeatedMembers H.toPlatform jwt)
    (hevidence : ∀ c ∈ resolved.candidates, c.chain.statements = jwts ++ [configuration] →
      ∀ parsed, decodeStatements H.toPlatform 0 (jwts ++ [configuration]) = .ok (parsed, []) →
        ∃ v pending, Evidence H.toPlatform anchors options true c.clock {} parsed v pending) :
    (∃ c ∈ resolved.candidates, c.chain.trustAnchorId = a.ctx.entityId ∧
      ∃ v, c.Validates H.toPlatform anchors options v ∧ v.statements.length = jwts.length + 1) ∧
    ∀ c ∈ resolved.candidates, ∀ v pending,
      validateTrustChain H.toPlatform c.chain.statements anchors options c.clock =
        .ok (.valid v pending) → v.entityId = leaf ∧ (anchors.get? v.trustAnchorId).isSome = true := by
  obtain ⟨first, superiors, top, hbuilt⟩ := h.built
  have hne : superiors ≠ [] := by
    rintro rfl
    have hlength := congrArg List.length hbuilt.texts
    rw [h.length_eq] at hlength
    simp only [List.map_cons, List.map_nil, List.length_singleton] at hlength
    omega
  have hhonest := hbuilt.honest hne hanchor hvouches hhints
  have htexts : (chainOf first superiors (some top)).map (·.jwt) = jwts ++ [configuration] := by
    rw [chainOf, Option.toList_some, ← List.cons_append, List.map_append, hbuilt.texts,
      List.map_singleton, hbuilt.text]
  have hdecodes : ∀ s ∈ chainOf first superiors (some top),
      decodeEntityStatement H.toPlatform s.jwt = .ok s.parsed := by
    intro s hs
    obtain ⟨jwks, hvouches⟩ := hhonest.vouched hs
    exact SignedStatement.decodes (hhonest.signed s hs) hvouches
  have hmem : ∀ s ∈ chainOf first superiors (some top), s.jwt ∈ jwts ++ [configuration] :=
    fun s hs => htexts ▸ List.mem_map.mpr ⟨s, hs, rfl⟩
  -- the leaf's configuration, with which every chain begins
  obtain ⟨below, hown, hleaf, -, -, hhead⟩ := hbuilt.own
  obtain ⟨-, -, hiss, hsub, -⟩ := buildEntityConfigurationPayload_eq_ok hown.own.built
  have hfirst := hdecodes first (.head _)
  have hisOf : first.parsed.IsOf leaf := by
    rw [← hleaf]
    exact ⟨hiss, hsub⟩
  constructor
  · have hlacks : lacksHints (authorityHints first.payload) = false := by
      obtain ⟨s, hs⟩ : ∃ s, superiors.head? = some s := ⟨_, List.head?_eq_some_head hne⟩
      obtain ⟨hints, hbelow, hin⟩ := hhead s hs
      rw [(hown.hints hbelow hin).2]
      cases hints with
      | nil => cases hin
      | cons hint rest => rfl
    obtain ⟨T, hwalked, hchains⟩ := Resolution.walked_of_unflagged hreach hresult hcomplete
      hbuilt.leafServed hfirst hisOf hlacks
    obtain ⟨chain, hchain, hstatements, -, htrust⟩ := hwalked.exists_chain hbuilt.route hhops
      hbuilt.entity (by rw [hanchor]; rfl) (fun jwt hjwt es hes => by
        rw [← htexts] at hjwt
        obtain ⟨s, hs, rfl⟩ := List.mem_map.mp hjwt
        obtain rfl := Except.ok.inj ((hdecodes s hs).symm.trans hes)
        obtain ⟨exp, hexp⟩ := (hhonest.issued hurl hs).dated.exp
        dsimp only [SignedStatement.parsed]
        rw [hexp]
        rfl)
    rw [← hchains, ← hresolved] at hchain
    obtain ⟨c, hc, rfl⟩ := List.mem_map.mp hchain
    have hin : ∀ s ∈ chainOf first superiors (some top), InLife options c.clock s := by
      intro s hs
      obtain ⟨hiat, hexp⟩ := hlife c hc hstatements s.jwt (hmem s hs) _ (hdecodes s hs)
      exact ⟨hiat, hexp⟩
    have haccepted := hhonest.accepted hurl hin fun s hs => hunique s.jwt (hmem s hs)
    obtain ⟨v, pending, hv⟩ := hevidence c hc hstatements _ (htexts ▸ haccepted.decoded)
    refine ⟨c, hc, htrust, v, ?_, ?_⟩
    · have hvalid : validateTrustChainImpl H.toPlatform
          ((chainOf first superiors (some top)).map (·.jwt)) anchors options true c.clock {} =
            .ok (.valid v pending) := haccepted.valid hv
      rw [htexts, ← hstatements] at hvalid
      unfold Candidate.Validates Candidate.validate validateTrustChain
      rw [hvalid]
      rfl
    · rw [show v.statements = _ from congrArg AuthenticatedChain.statements hv.chain]
      have hlength := congrArg List.length htexts
      rw [List.length_map, List.length_append, List.length_singleton] at hlength
      dsimp only [authenticatedChain]
      rw [List.length_map, hlength]
  · intro c hc v pending hvalid
    have hmember : c.chain ∈ result.chains := hresolved ▸ List.mem_map.mpr ⟨c, hc, rfl⟩
    exact entityId_of_valid (Resolution.head_of_returned hreach hresult hbuilt.leafServed hmember) hfirst
      hisOf.1 hvalid

end Discovered

/-! ## A federation of two -/

def memberKeys (name : String) : FederationKeySet :=
  ⟨⟨name, "ES256"⟩, [(tableSigningKey name).publicJwk]⟩

/-- A leaf with the key `a`. -/
def memberLeaf : Responder where
  ctx :=
    { entityId := "https://leaf.example"
      metadata := .obj [("openid_relying_party", .obj [("client_name", .str "Leaf")])]
      authorityHints := some ["https://ta.example"] }
  configurationKeys := memberKeys "a"
  configuredAt := 1000
  statementKeys := memberKeys "a"
  statedAt := 1000

def memberRecord : ListedRecord where
  entityId := "https://leaf.example"
  jwks := jwkSetOf (memberKeys "a").jwks
  createdAt := 1000
  updatedAt := 1000

/-- The anchor above it, with the key `b`. -/
def memberAnchor : Responder where
  ctx :=
    { entityId := "https://ta.example"
      metadata := .obj [("federation_entity",
        .obj [("federation_fetch_endpoint", .str "https://ta.example/fetch")])] }
  configurationKeys := memberKeys "b"
  configuredAt := 1000
  statementKeys := memberKeys "b"
  statedAt := 1000
  get sub := .ok (if sub = "https://leaf.example" then some memberRecord else none)

def memberConfiguration (a : Responder) : SignedJwt where
  header := protectedHeader "ES256" JwtTyp.entityStatement a.configurationKeys.signer.kid .empty
  payload := ((buildEntityConfigurationPayload (tablePlatform [])
    (configurationOptions a.ctx a.configurationRun a.configurationKeys.jwks)).toOption).getD .empty
  key := a.configurationKeys.signer.kid

def memberTable : List (String × SignedJwt) :=
  [("leaf", memberConfiguration memberLeaf), ("anchor", memberConfiguration memberAnchor),
    ("statement", {
      header := protectedHeader "ES256" JwtTyp.entityStatement "b" .empty
      payload := Dict.ofEntries [("iss", .str "https://ta.example"),
        ("sub", .str "https://leaf.example"), ("iat", .num 1000), ("exp", .num 87400),
        ("jwks", memberRecord.jwks)]
      key := "b" })]

def memberHost : ClientHost :=
  tableClientHost memberTable []
    [("https://ta.example/fetch?sub=https://leaf.example", [("sub", "https://leaf.example")])]

def memberSignJwt : JwtSigner → Payload → Payload → Except String String :=
  (signingTable memberTable).signJwt

def memberText : FetchCall → String
  | .entityConfiguration entityId => if entityId = .str "https://leaf.example" then "leaf" else "anchor"
  | .subordinateStatement _ _ _ => "statement"

/-- Every request is answered with the JWT of the entity. -/
def memberRuns (call : FetchCall) : FetchRun where
  respond _ := .ok
    { status := 200
      headers := [("content-type", MediaType.entityStatement)]
      body := some (inTwoChunks (memberText call)) }

def memberAnchors : TrustAnchorSet :=
  Dict.ofEntries [("https://ta.example", publishedJwks (memberKeys "b").jwks)]

theorem memberKeys_vouch {name : String} (hname : name ∈ ["a", "b"]) :
    Vouches (memberHost.signing memberSignJwt) (memberKeys name).jwks (memberKeys name).signer := by
  have haccepted : AcceptedKey ⟨name, "ES256"⟩ (tableSigningKey name).publicJwk := by
    simp only [List.mem_cons, List.not_mem_nil, or_false] at hname
    rcases hname with rfl | rfl <;> exact ⟨rfl, by decide +kernel, rfl, rfl, rfl⟩
  have hwith : SignsWith (signingTable memberTable) ⟨name, "ES256"⟩ (tableSigningKey name).publicJwk :=
    signingTable_signsWith (by decide) rfl
  exact ⟨⟨_, List.mem_singleton_self _, haccepted, hwith.decodes, hwith.verifies⟩,
    List.nodup_singleton _⟩

/-- What is sent for a call is received. -/
theorem member_delivered {call : FetchCall} {response : Response}
    (hresponse : response = jwtResponse (memberText call) MediaType.entityStatement)
    {url : String} {u : Url} (hurl : validateFetchUrl memberHost url {} = .ok u) :
    Answered memberHost url {} (memberRuns call) response := by
  have hdecode : ∀ text ∈ ["leaf", "anchor", "statement"],
      memberHost.decodeUtf8 (inTwoChunks text).chunks.flatten = text ∧
        ((inTwoChunks text).chunks.flatten.length : Rat) ≤ ({} : PerformFetchOptions).maxBytes := by
    decide +kernel
  have htext : memberText call ∈ ["leaf", "anchor", "statement"] := by
    cases call with
    | entityConfiguration entityId =>
      dsimp only [memberText]
      split <;> decide
    | subordinateStatement _ _ _ => exact .tail _ (.tail _ (.head _))
  obtain ⟨hsent, hle⟩ := hdecode _ htext
  subst hresponse
  refine ⟨⟨u, hurl⟩, rfl, _, rfl, rfl, ?_, inTwoChunks (memberText call), rfl, rfl, hsent, hle,
    fun length h => ?_⟩
  · rw [jwtResponse_contentType]
    exact (by decide +kernel : Headers.get [("content-type", MediaType.entityStatement)]
      "content-type" = some MediaType.entityStatement)
  · cases h

theorem member_metadata {subject : String} {metadata : Json}
    (hmember : metadata = memberLeaf.ctx.metadata ∨ metadata = memberAnchor.ctx.metadata) :
    MetadataFits memberHost.toPlatform subject (some metadata) := by
  have hsingle : ∃ name params, metadata = .obj [(name, params)] ∧ name ≠ "__proto__" ∧
      (name ≠ "federation_entity" → params.get? "jwks" = none) := by
    rcases hmember with rfl | rfl
    · exact ⟨_, _, rfl, by decide, fun _ => rfl⟩
    · exact ⟨_, _, rfl, by decide, fun hname => absurd rfl hname⟩
  obtain ⟨name, params, hmetadata, hproto, hjwks⟩ := hsingle
  have hmem : ∀ t ∈ objectEntries (some metadata), t = (name, params) := by
    intro t ht
    rw [hmetadata] at ht
    exact List.mem_singleton.mp ht
  refine ⟨fun t ht hname => ?_, ?_, ?_, fun t ht hname keys h => ?_⟩
  · rw [hmem t ht] at hname
    exact absurd hname hproto
  · rcases hmember with rfl | rfl <;> decide +kernel
  · intro entityType htype issuer h
    simp only [List.mem_cons, List.not_mem_nil, or_false] at htype
    rcases hmember with rfl | rfl <;> rcases htype with rfl | rfl <;> cases h
  · rw [hmem t ht] at hname h
    rw [hjwks hname] at h
    cases h

def memberFetch : Url where
  protocol := "https:"
  hostname := "ta.example"
  href := "https://ta.example/fetch"

/-- Both entities serve their configurations, and the anchor a statement about the leaf. -/
theorem member_serve :
    ServesConfiguration memberHost memberSignJwt {} memberRuns memberLeaf "leaf" ∧
      ServesConfiguration memberHost memberSignJwt {} memberRuns memberAnchor "anchor" ∧
        ServesStatement memberHost memberSignJwt {} memberRuns memberAnchor "https://ta.example/fetch"
          "https://leaf.example" "statement" := by
  refine ⟨⟨member_metadata (.inl rfl), fun _ h => (by cases h), memberKeys_vouch (by decide),
      ⟨{ pathname := "/" }, rfl, ?_⟩, by decide +kernel⟩,
    ⟨member_metadata (.inr rfl), fun _ h => (by cases h), memberKeys_vouch (by decide),
      ⟨{ pathname := "/" }, rfl, ?_⟩, by decide +kernel⟩,
    ⟨rfl, by decide, ?_, _, rfl, by decide +kernel⟩⟩
  · exact member_delivered (by decide +kernel)
      (u := { protocol := "https:", hostname := "leaf.example",
              href := "https://leaf.example/.well-known/openid-federation" }) (by decide +kernel)
  · exact member_delivered (by decide +kernel)
      (u := { protocol := "https:", hostname := "ta.example",
              href := "https://ta.example/.well-known/openid-federation" }) (by decide +kernel)
  · have hparsed : memberHost.parseUrl (setSearchParam memberHost memberFetch "sub"
        "https://leaf.example").href =
          some { memberFetch with href := "https://ta.example/fetch?sub=https://leaf.example" } := by
      decide +kernel
    refine ⟨memberFetch, { pathname := "/fetch", searchParams := [("sub", "https://leaf.example")] },
      by decide +kernel, ⟨_, hparsed, by decide +kernel⟩, ⟨rfl, fun u hu => ?_⟩,
      member_delivered (by decide +kernel)
        (u := { memberFetch with href := "https://ta.example/fetch?sub=https://leaf.example" })
        (by decide +kernel)⟩
    obtain rfl := Option.some.inj (hparsed.symm.trans hu)
    decide +kernel

theorem member_registered (record : ListedRecord)
    (h : memberAnchor.get memberLeaf.ctx.entityId = .ok (some record)) :
    Registered memberHost.toPlatform [] memberLeaf.ctx.entityId (memberKeys "a").jwks record := by
  obtain rfl := Option.some.inj (Except.ok.inj h)
  refine ⟨rfl, rfl, ?_, fun _ h => (by cases h)⟩
  exact ⟨fun _ ht => (by cases ht), fun _ _ => rfl, fun _ _ _ h => (by cases h),
    fun _ ht => (by cases ht)⟩

theorem member_route :
    HonestRoute memberHost memberSignJwt {} memberRuns memberAnchors [] {} "Unreadable"
      "https://leaf.example" ["https://leaf.example", "https://ta.example"] ["leaf", "statement"]
      ⟨"b", "ES256"⟩ memberAnchor "anchor" :=
  .hop (.leaf rfl member_serve.1) (.inl rfl) (by decide) rfl (.head _)
    (fun _ h => by cases h) member_serve.2.1 member_serve.2.2 member_registered
    (memberKeys_vouch (by decide)) (memberKeys_vouch (by decide))

def memberDiscovery (options : ResolutionOptions) : Resolution :=
  Resolution.discoveryRun (memberHost.resolution "Unreadable") memberAnchors options
    "https://leaf.example" (networkAnswer memberHost {} memberRuns) Resolution.hintedMoves

def memberChain : TrustChain :=
  ⟨["leaf", "statement", "anchor"], "https://leaf.example", "https://ta.example", some 87400⟩

/-- The candidate of the discovery, which is read at 1500. -/
def memberCandidate : Candidate := ⟨memberChain, fun _ => 1500, .error .typeError⟩

/-- The chain is what the discovery returns. It is valid at 1500, when its statements are alive, and
none of them has a text in which a member is repeated. -/
theorem memberChain_valid :
    (memberDiscovery {}).phase = .returned { chains := [memberChain], errors := [] } ∧
      (∃ v pending, validateTrustChain memberHost.toPlatform memberChain.statements memberAnchors {}
        (fun _ => 1500) = .ok (.valid v pending)) ∧
      (∀ jwt ∈ memberChain.statements,
        LivesThrough memberHost.toPlatform {} (fun _ => 1500) jwt) ∧
      ∀ jwt ∈ memberChain.statements, NoRepeatedMembers memberHost.toPlatform jwt := by
  refine ⟨by decide +kernel, ?_, fun jwt hjwt es hes => ?_, fun jwt hjwt text htext => ?_⟩
  · obtain ⟨v, pending, h, -⟩ := exists_valid
      (r := validateTrustChain memberHost.toPlatform memberChain.statements memberAnchors {}
        (fun _ => 1500)) (p := fun _ => true) (by decide +kernel)
    exact ⟨v, pending, h⟩
  · have hclaims : ∀ jwt ∈ memberChain.statements, ∀ es ∈
        (decodeEntityStatement memberHost.toPlatform jwt).toOption,
          es.payload.get? "iat" = some (.num 1000) ∧ es.payload.get? "exp" = some (.num 87400) := by
      decide +kernel
    obtain ⟨hiat, hexp⟩ := hclaims jwt hjwt es (by rw [hes]; rfl)
    rw [hiat, hexp]
    refine ⟨fun iat h => ?_, fun exp h site => ?_⟩
    · obtain rfl := Json.num.inj (Option.some.inj h)
      exact (by decide +kernel : (1000 : Rat) ≤ 1500 + ({} : TrustChainValidationOptions).clockSkew)
    · obtain rfl := Json.num.inj (Option.some.inj h)
      exact (by decide +kernel : (1500 : Rat) - ({} : TrustChainValidationOptions).clockSkew < 87400)
  · have hnone : ∀ jwt ∈ memberChain.statements,
        decodeJwtPayloadJson memberHost.toPlatform jwt = none := by decide +kernel
    rw [hnone jwt hjwt] at htext
    cases htext

end OidFed
