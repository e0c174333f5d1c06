import OidFed.Authority.Authenticated

/-!
# The router of an authority (`authority/src/server.ts`)

`createAuthorityServer` makes a route for each advertised endpoint, with the authentication that
its metadata names; the router drops the header of the authenticated entity from every request
before a handler sees it.

* `authorityRoutes`: the routes, or the message of the exception. The checks of the constructor that
  concern other parts of the configuration only refuse it, and are left out.
* `router`: the handler of the server.
* `routerAuthenticates_iff`: what the handlers behind the router can rely on.
-/

namespace OidFed

open Js

inductive AuthorityEndpoint where
  | fetch
  | list
  | extendedList
  | historicalKeys
  | trustMarkStatus
  | trustMarkList
  | trustMark
  | resolve
  | subordinateEvents
  | collection
  deriving DecidableEq

def AuthorityEndpoint.text : AuthorityEndpoint → String
  | fetch => "federation_fetch_endpoint"
  | list => "federation_list_endpoint"
  | extendedList => "federation_extended_list_endpoint"
  | historicalKeys => "federation_historical_keys_endpoint"
  | trustMarkStatus => "federation_trust_mark_status_endpoint"
  | trustMarkList => "federation_trust_mark_list_endpoint"
  | trustMark => "federation_trust_mark_endpoint"
  | resolve => "federation_resolve_endpoint"
  | subordinateEvents => "federation_subordinate_events_endpoint"
  | collection => "federation_collection_endpoint"

/-- What the routes are made of: the authority, and the URLs and the methods in its metadata. -/
structure AuthorityConfig extends AuthorityContext where
  endpoint : AuthorityEndpoint → Option Json
  authMethods : AuthorityEndpoint → Option (List String)
  endpointAuthSigningAlgValuesSupported : Option (List String) := none
  /-- A collection service is configured. -/
  collection : Bool := false

/-- The authentication of an endpoint. The status of a Trust Mark is asked for by POST. -/
def AuthorityConfig.auth (config : AuthorityConfig) (e : AuthorityEndpoint) : EndpointAuth where
  authMethods := config.authMethods e
  nativeMethod := if e = .trustMarkStatus then .post else .get
  allowedAlgorithms := config.endpointAuthSigningAlgValuesSupported

/-- What a path leads to. The Entity Configuration and the collection have handlers of their own. -/
inductive RouteHandler where
  | entityConfiguration
  | endpoint (e : AuthorityEndpoint) (wrapped : Wrapped)
  | collection
  deriving DecidableEq

/-- A path, with the name and the handler of its route. -/
structure Route where
  path : String
  endpointName : String
  handler : RouteHandler
  deriving DecidableEq

section Router

variable (host : HttpHost) (config : AuthorityConfig)

def advertisedEndpointPath (endpointName : String) (endpoint : Option Json) :
    Except String (Option String) :=
  let refused := s!"metadata.federation_entity.{endpointName} must be an HTTPS URL without fragment."
  match endpoint with
  | none => .ok none
  | some (.str value) =>
    match host.parseUrl value with
    | none => .error refused
    | some url =>
      if url.protocol != "https:" || url.href.toList.contains '#' then .error refused
      else .ok (some (host.urlPathname url))
  | some _ => .error refused

def requireAdvertisedEndpointPath (endpointName : String) (endpoint : Option Json) :
    Except String String :=
  let required := s!"metadata.federation_entity.{endpointName} is required for an Authority."
  match endpoint with
  | some (.str value) => do
    match ← advertisedEndpointPath host endpointName (some (.str value)) with
    | some path => return path
    | none => .error required
  | _ => .error required

def addAuthorityRoute (routes : List Route) (endpointName path : String) (handler : RouteHandler) :
    Except String (List Route) :=
  match routes.find? fun r => r.path == path with
  | some existing => .error (s!"Authority endpoint route path '{path}' is used by both " ++
      s!"{existing.endpointName} and {endpointName}. Advertise distinct endpoint URLs.")
  | none => .ok (routes ++ [{ path, endpointName, handler }])

/-- `withAuth` of the handler of an endpoint. -/
def withAuth (e : AuthorityEndpoint) : Except String RouteHandler := do
  let wrapped ← createAuthenticatedHandler config.toAuthorityContext (config.auth e)
  return .endpoint e wrapped

def addOptionalAuthorityRoute (routes : List Route) (e : AuthorityEndpoint)
    (handler : RouteHandler) : Except String (List Route) := do
  match ← advertisedEndpointPath host e.text (config.endpoint e) with
  | none => return routes
  | some path => addAuthorityRoute routes e.text path handler

def wellKnownPath (entityId : String) : String :=
  let path := (host.parseUrl entityId).elim "" host.urlPathname
  (if path.toList.getLast? = some '/' then String.ofList path.toList.dropLast else path) ++
    "/.well-known/openid-federation"

def optionalEndpoints : List AuthorityEndpoint :=
  [.extendedList, .historicalKeys, .trustMarkStatus, .trustMarkList, .trustMark, .resolve,
    .subordinateEvents]

/-- The route of an endpoint that need not be advertised. -/
def optionalRoute (routes : List Route) (e : AuthorityEndpoint) : Except String (List Route) := do
  let handler ← withAuth config e
  addOptionalAuthorityRoute host config routes e handler

def authorityRoutes : Except String (List Route) := do
  let fetchPath ← requireAdvertisedEndpointPath host (AuthorityEndpoint.text .fetch)
    (config.endpoint .fetch)
  let listPath ← requireAdvertisedEndpointPath host (AuthorityEndpoint.text .list)
    (config.endpoint .list)
  let routes ← addAuthorityRoute [] "entity configuration" (wellKnownPath host config.entityId)
    .entityConfiguration
  let fetchHandler ← withAuth config .fetch
  let routes ← addAuthorityRoute routes (AuthorityEndpoint.text .fetch) fetchPath fetchHandler
  let listHandler ← withAuth config .list
  let routes ← addAuthorityRoute routes (AuthorityEndpoint.text .list) listPath listHandler
  let routes ← optionalEndpoints.foldlM (optionalRoute host config) routes
  if config.collection then addOptionalAuthorityRoute host config routes .collection .collection
  else return routes

/-- What the router does with a request: it answers or throws, or it runs an inner handler. -/
inductive Routed where
  | refused (refusal : Refusal)
  | runs (handler : RouteHandler) (request : Request)

/-- `withSubordinateEventsMethodErrors`: a response about the method says more. -/
def subordinateEventsMethodError : Refusal → Refusal
  | .responds response =>
    if response.status ≠ 405 then .responds response
    else
      let error := errorResponse 405 FederationErrorCode.InvalidRequest.text
        "HTTP method is not allowed for this endpoint"
      match response.headers.get "allow" with
      | none => .responds error
      | some allow => .responds { error with headers := error.headers.put "allow" allow }
  | .rejects => .rejects

def unknownEndpoint : Response where
  status := 404
  headers := jsonHeaders
  body := .json (.obj [("error", .str "not_found"), ("error_description", .str "Unknown endpoint")])

/-- The request that the handlers see. -/
def sanitizedRequest (request : Request) : Request :=
  { request with headers := request.headers.delete xAuthenticatedEntity }

def router (routes : List Route) (run : AuthRun) (request : Request) : Routed :=
  match routes.find? fun r => r.path == request.pathname with
  | none => .refused (.responds unknownEndpoint)
  | some route =>
    match route.handler with
    | .endpoint e .authenticated =>
      match authenticate host config.toAuthorityContext (config.auth e) run
          (sanitizedRequest request) with
      | .runs inner => .runs route.handler inner
      | .refused refusal => .refused
          (if e = .subordinateEvents then subordinateEventsMethodError refusal else refusal)
    | .entityConfiguration | .endpoint _ .inner | .collection =>
      .runs route.handler (sanitizedRequest request)

end Router

/-! ## What a handler behind the router relies on -/

section Authenticates

variable (host : HttpHost) (config : AuthorityConfig) (routes : List Route) (run : AuthRun)

/-- The route of a request is an endpoint whose handler authenticates. -/
def Authenticating (request : Request) (e : AuthorityEndpoint) : Prop :=
  ∃ route, routes.find? (fun r => r.path == request.pathname) = some route ∧
    route.handler = .endpoint e .authenticated

/-- A request with a credential field where a client may put one. -/
def SuppliesCredential (request : Request) : Prop :=
  (upperCase request.method = "GET" ∧ suppliesCredential request.searchParams = true) ∨
    upperCase request.method = "POST" ∧ ∃ text, request.text host.toPlatform = some text ∧
      suppliesCredential (host.searchParams text) = true

structure RouterAuthenticates (request : Request) : Prop where
  /-- The entity in the header is the issuer of an accepted assertion in the body. -/
  header : ∀ handler inner entity, router host config routes run request = .runs handler inner →
    inner.headers.get xAuthenticatedEntity = some entity →
      ∃ e iss, handler = .endpoint e .authenticated ∧
        AuthenticatedBy host config.toAuthorityContext (config.auth e) run request iss ∧
        host.text (some iss) = some entity
  /-- An endpoint without another method runs its handler for an accepted assertion only. -/
  required : ∀ e wrapped inner,
    router host config routes run request = .runs (.endpoint e wrapped) inner →
      (∀ m ∈ (config.auth e).methods, m = "private_key_jwt") →
        ∃ iss, AuthenticatedBy host config.toAuthorityContext (config.auth e) run request iss
  /-- With a credential field, the handler is not run anonymously. -/
  supplied : ∀ e wrapped inner,
    router host config routes run request = .runs (.endpoint e wrapped) inner →
      "private_key_jwt" ∈ (config.auth e).methods → SuppliesCredential host request →
        (∃ entity, inner.headers.get xAuthenticatedEntity = some entity) ∧
          ∃ iss, AuthenticatedBy host config.toAuthorityContext (config.auth e) run request iss

/-- No white space around the issuer of an accepted assertion, if it can stand in a header without
it. -/
def IssuerNormalized (request : Request) : Prop :=
  ∀ e, Authenticating routes request e → ∀ iss value,
    AuthenticatedBy host config.toAuthorityContext (config.auth e) run request iss →
      host.text (some iss) = some value →
        Headers.isValue (Headers.normalizeValue value) = true →
          Headers.normalizeValue value = value

variable {host} {config} {routes} {run}

/-! ### The routes -/

/-- The routes of endpoints have the handlers that their authentication asks for. -/
def RoutesWrapped (config : AuthorityConfig) (routes : List Route) : Prop :=
  ∀ r ∈ routes, ∀ e wrapped, r.handler = .endpoint e wrapped →
    createAuthenticatedHandler config.toAuthorityContext (config.auth e) = .ok wrapped

theorem RoutesWrapped.addAuthorityRoute (h : RoutesWrapped config routes)
    {endpointName path : String} {handler : RouteHandler} {routes' : List Route}
    (hadd : addAuthorityRoute routes endpointName path handler = .ok routes')
    (hhandler : ∀ e wrapped, handler = .endpoint e wrapped →
      createAuthenticatedHandler config.toAuthorityContext (config.auth e) = .ok wrapped) :
    RoutesWrapped config routes' := by
  unfold OidFed.addAuthorityRoute at hadd
  split at hadd
  · cases hadd
  · obtain rfl := Except.ok.inj hadd
    intro r hr e wrapped hwrapped
    rcases List.mem_append.mp hr with hr | hr
    · exact h r hr e wrapped hwrapped
    · obtain rfl := List.mem_singleton.mp hr
      exact hhandler e wrapped hwrapped

theorem withAuth_wrapped {e : AuthorityEndpoint} {handler : RouteHandler}
    (h : withAuth config e = .ok handler) (e' : AuthorityEndpoint) (wrapped : Wrapped)
    (hhandler : handler = .endpoint e' wrapped) :
    createAuthenticatedHandler config.toAuthorityContext (config.auth e') = .ok wrapped := by
  obtain ⟨w, hw, h⟩ := bind_eq_ok.mp h
  obtain rfl := Except.ok.inj h
  cases hhandler
  exact hw

theorem RoutesWrapped.addOptionalAuthorityRoute (h : RoutesWrapped config routes)
    {e : AuthorityEndpoint} {handler : RouteHandler} {routes' : List Route}
    (hadd : addOptionalAuthorityRoute host config routes e handler = .ok routes')
    (hhandler : ∀ e wrapped, handler = .endpoint e wrapped →
      createAuthenticatedHandler config.toAuthorityContext (config.auth e) = .ok wrapped) :
    RoutesWrapped config routes' := by
  obtain ⟨path, -, hadd⟩ := bind_eq_ok.mp hadd
  cases path with
  | none => exact Except.ok.inj hadd ▸ h
  | some path => exact h.addAuthorityRoute hadd hhandler

theorem RoutesWrapped.optional (h : RoutesWrapped config routes) {l : List AuthorityEndpoint}
    {routes' : List Route} (hfold : l.foldlM (optionalRoute host config) routes = .ok routes') :
    RoutesWrapped config routes' := by
  induction l generalizing routes with
  | nil => exact Except.ok.inj hfold ▸ h
  | cons e rest ih =>
    rw [List.foldlM_cons] at hfold
    obtain ⟨routes₁, hroute, hrest⟩ := bind_eq_ok.mp hfold
    obtain ⟨handler, hhandler, hadd⟩ := bind_eq_ok.mp hroute
    exact ih (h.addOptionalAuthorityRoute hadd (withAuth_wrapped hhandler)) hrest

theorem authorityRoutes_wrapped (h : authorityRoutes host config = .ok routes) :
    RoutesWrapped config routes := by
  obtain ⟨fetchPath, -, h⟩ := bind_eq_ok.mp h
  obtain ⟨listPath, -, h⟩ := bind_eq_ok.mp h
  obtain ⟨routes₁, h₁, h⟩ := bind_eq_ok.mp h
  obtain ⟨fetchHandler, hfetch, h⟩ := bind_eq_ok.mp h
  obtain ⟨routes₂, h₂, h⟩ := bind_eq_ok.mp h
  obtain ⟨listHandler, hlist, h⟩ := bind_eq_ok.mp h
  obtain ⟨routes₃, h₃, h⟩ := bind_eq_ok.mp h
  obtain ⟨routes₄, h₄, h⟩ := bind_eq_ok.mp h
  have hempty : RoutesWrapped config [] := nofun
  have hwrapped := (((hempty.addAuthorityRoute h₁ nofun).addAuthorityRoute h₂
    (withAuth_wrapped hfetch)).addAuthorityRoute h₃ (withAuth_wrapped hlist)).optional h₄
  split at h
  · exact hwrapped.addOptionalAuthorityRoute h nofun
  · exact Except.ok.inj h ▸ hwrapped

/-- The handler of an endpoint authenticates exactly if `private_key_jwt` is among its methods. -/
theorem createAuthenticatedHandler_eq_ok {ctx : AuthorityContext} {auth : EndpointAuth}
    {wrapped : Wrapped} (h : createAuthenticatedHandler ctx auth = .ok wrapped) :
    auth.methods ≠ [] ∧ (wrapped = .authenticated ↔ "private_key_jwt" ∈ auth.methods) := by
  unfold createAuthenticatedHandler at h
  split at h
  · cases h
  rename_i hempty
  refine ⟨by simpa using hempty, ?_⟩
  split at h
  · cases h
  split at h
  · rename_i hnot
    obtain rfl := Except.ok.inj h
    simpa using hnot
  · rename_i hjwt
    split at h
    · cases h
    · obtain rfl := Except.ok.inj h
      simpa using hjwt

/-! ### The request that is routed -/

theorem readParams_sanitized (request : Request) :
    readParams host (sanitizedRequest request) = readParams host request := by
  have hlength : (sanitizedRequest request).headers.get "content-length" =
      request.headers.get "content-length" := Headers.get_delete_ne _ (by decide)
  unfold readParams readBodyWithLimit
  rw [hlength]
  rfl

theorem authenticatedBy_sanitized {ctx : AuthorityContext} {auth : EndpointAuth} {request : Request}
    {iss : Json} : AuthenticatedBy host ctx auth run (sanitizedRequest request) iss ↔
      AuthenticatedBy host ctx auth run request iss := by
  constructor
  · rintro ⟨hpost, text, a, hread, hrest⟩
    exact ⟨hpost, text, a, readParams_sanitized request ▸ hread, hrest⟩
  · rintro ⟨hpost, text, a, hread, hrest⟩
    exact ⟨hpost, text, a, (readParams_sanitized request).trans hread, hrest⟩

/-- A handler that is run is one of the routes; before an endpoint that authenticates, that has
happened, and before all others there is no header. -/
theorem router_runs {request inner : Request} {handler : RouteHandler}
    (h : router host config routes run request = .runs handler inner) :
    (∃ route, routes.find? (fun r => r.path == request.pathname) = some route ∧
      route.handler = handler) ∧
    ((∃ e, handler = .endpoint e .authenticated ∧
        authenticate host config.toAuthorityContext (config.auth e) run (sanitizedRequest request) =
          .runs inner) ∨
      (∀ e, handler ≠ .endpoint e .authenticated) ∧
        inner.headers.get xAuthenticatedEntity = none) := by
  unfold router at h
  split at h
  · cases h
  rename_i route hroute
  split at h
  · rename_i e hhandler
    split at h
    · rename_i inner' hauth
      obtain ⟨rfl, rfl⟩ := Routed.runs.inj h
      exact ⟨⟨route, hroute, rfl⟩, .inl ⟨e, hhandler, hauth⟩⟩
    · cases h
  all_goals
    rename_i hhandler
    obtain ⟨rfl, rfl⟩ := Routed.runs.inj h
    refine ⟨⟨route, hroute, rfl⟩, .inr ⟨?_, Headers.get_delete_self _ _⟩⟩
    rw [hhandler]
    exact nofun

theorem router_authenticating {request : Request} {e : AuthorityEndpoint}
    (h : Authenticating routes request e) {inner : Request}
    (hauth : authenticate host config.toAuthorityContext (config.auth e) run
      (sanitizedRequest request) = .runs inner) :
    router host config routes run request = .runs (.endpoint e .authenticated) inner := by
  obtain ⟨route, hroute, hhandler⟩ := h
  unfold router
  rw [hroute]
  simp only [hhandler, hauth]

/-! ### The result -/

/-- For every request and every configuration that the constructor accepts: the header names the
issuer of an accepted assertion, an endpoint that requires one has one, and no credential field is
ignored, exactly if the issuer has no white space around it. -/
theorem routerAuthenticates_iff (hjose : VerifiesDecoded host.toPlatform)
    (hroutes : authorityRoutes host config = .ok routes) (request : Request) :
    RouterAuthenticates host config routes run request ↔
      IssuerNormalized host config routes run request := by
  have hwrapped := authorityRoutes_wrapped hroutes
  -- whatever header a client sends, no handler sees it
  have hstripped : (sanitizedRequest request).headers.get xAuthenticatedEntity = none :=
    Headers.get_delete_self _ _
  constructor
  · intro h e hroute iss value hby hvalue hvalid
    obtain ⟨inner, hauth, hheader⟩ :=
      (authenticatedBy_sanitized.mpr hby).runs hjose hvalue hvalid
    obtain ⟨e', iss', hhandler, hby', hentity⟩ :=
      h.header _ inner _ (router_authenticating hroute hauth) hheader
    cases hhandler
    obtain rfl := hby.unique hby'
    exact (Option.some.inj (hvalue.symm.trans hentity)).symm
  · intro h
    refine ⟨fun handler inner entity hrun hentity => ?_, fun e wrapped inner hrun hmethods => ?_,
      fun e wrapped inner hrun hmethod hsupplied => ?_⟩
    · obtain ⟨⟨route, hroute, hhandler⟩, ⟨e, rfl, hauth⟩ | ⟨-, hnone⟩⟩ := router_runs hrun
      · rcases authenticate_runs hjose hstripped hauth with
          ⟨-, -, hnone⟩ | ⟨iss, value, hby, hvalue, hvalid, hheader⟩
        · rw [hnone] at hentity
          cases hentity
        · have hby := authenticatedBy_sanitized.mp hby
          have hnormalized := h e ⟨route, hroute, hhandler⟩ iss value hby hvalue hvalid
          obtain rfl := Option.some.inj (hheader.symm.trans hentity)
          exact ⟨e, iss, rfl, hby, hvalue.trans (congrArg some hnormalized.symm)⟩
      · rw [hnone] at hentity
        cases hentity
    all_goals
      obtain ⟨⟨route, hroute, hhandler⟩, hcase⟩ := router_runs hrun
      have hcreated := createAuthenticatedHandler_eq_ok
        (hwrapped route (List.mem_of_find?_eq_some hroute) e wrapped hhandler)
    · have hjwt : "private_key_jwt" ∈ (config.auth e).methods := by
        obtain ⟨m, hm⟩ := List.exists_mem_of_ne_nil _ hcreated.1
        exact hmethods m hm ▸ hm
      obtain rfl := hcreated.2.mpr hjwt
      rcases hcase with ⟨e', heq, hauth⟩ | ⟨hne, -⟩
      · cases heq
        rcases authenticate_runs hjose hstripped hauth with ⟨hnone, -⟩ | ⟨iss, -, hby, -⟩
        · -- an anonymous run needs `none`, which is not among the methods
          have hmem : "none" ∈ (config.auth e).methods := by
            simpa [EndpointAuth.allowsNone] using hnone
          exact absurd (hmethods _ hmem) (by decide)
        · exact ⟨iss, authenticatedBy_sanitized.mp hby⟩
      · exact absurd rfl (hne e)
    · obtain rfl := hcreated.2.mpr hmethod
      rcases hcase with ⟨e', heq, hauth⟩ | ⟨hne, -⟩
      · cases heq
        rcases authenticate_runs hjose hstripped hauth with
          ⟨-, hanonymous, -⟩ | ⟨iss, value, hby, -, -, hheader⟩
        · exfalso
          rcases hsupplied with ⟨hget, hquery⟩ | ⟨hpost, text, htext, hbody⟩
          · exact Bool.false_ne_true ((hanonymous.get hget).symm.trans hquery)
          · exact Bool.false_ne_true ((hanonymous.post hpost text htext).symm.trans hbody)
        · exact ⟨⟨_, hheader⟩, iss, authenticatedBy_sanitized.mp hby⟩
      · exact absurd rfl (hne e)

end Authenticates

/-! ## An example -/

theorem tablePlatform_verifiesDecoded (table : List (String × SignedJwt)) :
    VerifiesDecoded (tablePlatform table) := by
  intro jwt key alg tolerance now payload h
  simp only [tablePlatform] at h ⊢
  cases hj : table.lookup jwt with
  | none =>
    rw [hj] at h
    cases h
  | some j =>
    rw [hj] at h
    simp only at h
    split at h
    · cases h
    split at h
    · cases h
    · exact h

/-- The parameters of a form without escapes. -/
def plainForm (text : String) : List (String × String) :=
  (text.toList.splitOn '&').map fun field =>
    (String.ofList (field.takeWhile (· ≠ '=')), String.ofList ((field.dropWhile (· ≠ '=')).drop 1))

/-- A host whose only JWT is a client assertion of an issuer. -/
def assertionHost (issuer : String) : HttpHost where
  toPlatform := tablePlatform [("assertion",
    { header := Dict.ofEntries [("alg", .str "ES256"), ("kid", .str "rp-key")]
      payload := Dict.ofEntries [("iss", .str issuer), ("sub", .str issuer),
        ("aud", .str "https://ta.example"), ("exp", .num 2000), ("jti", .str "1")]
      key := "rp-key" })]
  searchParams := plainForm
  formText params := "&".intercalate (params.map fun p => p.1 ++ "=" ++ p.2)
  urlPathname url := String.ofList ((url.href.toList.drop 8).dropWhile (· ≠ '/'))

/-- An authority whose list of subordinates needs a client assertion. -/
def exampleAuthority : AuthorityConfig where
  entityId := "https://ta.example"
  replay := true
  endpoint e := match e with
    | .fetch => some (.str "https://ta.example/fetch")
    | .list => some (.str "https://ta.example/list")
    | _ => none
  authMethods e := if e = .list then some ["private_key_jwt"] else none

def exampleRoutes : List Route :=
  [{ path := "/.well-known/openid-federation", endpointName := "entity configuration"
     handler := .entityConfiguration },
    { path := "/fetch", endpointName := "federation_fetch_endpoint"
      handler := .endpoint .fetch .inner },
    { path := "/list", endpointName := "federation_list_endpoint"
      handler := .endpoint .list .authenticated }]

/-- A run whose replay store grants everything, with the key of the client under any name. -/
def exampleAuthRun : AuthRun where
  getClientFederationJwks _ := .ok (some [tableKey "rp-key"])
  clock := { currentDate := 1500, now := 1500, store := 1500 }
  useJti _ := .ok true

def exampleAssertionRequest : Request where
  method := "POST"
  pathname := "/list"
  body := some (.text ("client_assertion=assertion&client_assertion_type=" ++
    jwtBearerClientAssertionType))

/-- What an inner handler finds in the header. -/
def Routed.entity? : Routed → Option String
  | runs _ request => request.headers.get xAuthenticatedEntity
  | refused _ => none

example : (router (assertionHost "https://rp.example") exampleAuthority exampleRoutes exampleAuthRun
    exampleAssertionRequest).entity? = some "https://rp.example" := by decide +kernel

theorem exampleRoutes_authenticates :
    RouterAuthenticates (assertionHost "https://rp.example") exampleAuthority exampleRoutes
        exampleAuthRun exampleAssertionRequest ↔
      IssuerNormalized (assertionHost "https://rp.example") exampleAuthority exampleRoutes
        exampleAuthRun exampleAssertionRequest :=
  routerAuthenticates_iff (tablePlatform_verifiesDecoded _) (by decide +kernel)
    exampleAssertionRequest

/-- The issuer of the example's assertion. -/
theorem assertionHost_issuer {issuer : String} {iss : Json}
    (h : AuthenticatedBy (assertionHost issuer) exampleAuthority.toAuthorityContext
      (exampleAuthority.auth .list) exampleAuthRun exampleAssertionRequest iss) :
    iss = .str issuer := by
  obtain ⟨-, text, a, hread, ha, -, haccepted⟩ := h
  obtain rfl : _ = text := Except.ok.inj hread
  have hvalues : valuesOf (plainForm ("client_assertion=assertion&client_assertion_type=" ++
      jwtBearerClientAssertionType)) "client_assertion" = ["assertion"] := by decide +kernel
  obtain rfl := (List.cons.inj (hvalues.symm.trans ha)).1
  obtain ⟨decoded, hdecoded, hiss⟩ := haccepted.decodes
  obtain rfl := Except.ok.inj hdecoded
  exact (Option.some.inj hiss).symm

/-- A space after the issuer is lost in the header: the handler sees another entity. -/
theorem paddedIssuer_misnamed :
    authorityRoutes (assertionHost "https://rp.example/ ") exampleAuthority = .ok exampleRoutes ∧
    (router (assertionHost "https://rp.example/ ") exampleAuthority exampleRoutes exampleAuthRun
      exampleAssertionRequest).entity? = some "https://rp.example/" ∧
    ¬ RouterAuthenticates (assertionHost "https://rp.example/ ") exampleAuthority exampleRoutes
      exampleAuthRun exampleAssertionRequest := by
  have hentity : (router (assertionHost "https://rp.example/ ") exampleAuthority exampleRoutes
      exampleAuthRun exampleAssertionRequest).entity? = some "https://rp.example/" := by
    decide +kernel
  refine ⟨by decide +kernel, hentity, fun h => ?_⟩
  cases hrouted : router (assertionHost "https://rp.example/ ") exampleAuthority exampleRoutes
      exampleAuthRun exampleAssertionRequest with
  | refused refusal =>
    rw [hrouted] at hentity
    cases hentity
  | runs handler inner =>
    rw [hrouted] at hentity
    obtain ⟨e, iss, rfl, hby, htext⟩ := h.header handler inner _ hrouted hentity
    have he : e = .list := by
      obtain ⟨⟨route, hroute, hhandler⟩, -⟩ := router_runs hrouted
      obtain rfl := Option.some.inj hroute
      exact (RouteHandler.endpoint.inj hhandler).1.symm
    subst he
    obtain rfl := assertionHost_issuer hby
    exact absurd (Option.some.inj htext) (by decide)

end OidFed
