import OidFed.Http
import OidFed.Replay.ClientAuth
import OidFed.Schema

/-!
# Authentication at an endpoint (`authority/src/endpoints/client-auth.ts`)

`createAuthenticatedHandler` wraps the handler of an endpoint: it takes a client assertion out of
the body of a POST, verifies it, and runs the inner handler with the issuer in a header.

* `Wrapped`: what the constructor makes of the methods of an endpoint.
* `authenticate`: the handler of an endpoint that accepts `private_key_jwt`.
* `AuthenticatedBy`: the request carries an assertion that is accepted for an issuer.
* `authenticate_runs`: when the inner handler runs, and what it sees.
-/

namespace OidFed

open Js

inductive NativeMethod where
  | get
  | post
  deriving DecidableEq

/-- The authentication that is configured for an endpoint. -/
structure EndpointAuth where
  authMethods : Option (List String) := none
  nativeMethod : NativeMethod := .get
  allowedAlgorithms : Option (List String) := none

def EndpointAuth.methods (auth : EndpointAuth) : List String := auth.authMethods.getD ["none"]

def EndpointAuth.allowsNone (auth : EndpointAuth) : Bool := auth.methods.contains "none"

structure AuthorityContext where
  entityId : String
  /-- `storage.replay` is configured. -/
  replay : Bool
  clockSkewSeconds : Option Rat := none

/-- What the handler is told while it runs: by the provider of client keys, by the clock, and by
the replay store. -/
structure AuthRun where
  getClientFederationJwks : Json → Except JsError (Option JWKSet)
  clock : AssertionClock
  useJti : JtiReplayClaim → Except ReplayError Bool

/-- A handler that does not run the inner one answers itself, or throws. -/
inductive Refusal where
  | responds (response : Response)
  | rejects

inductive Handled where
  | refused (refusal : Refusal)
  | runs (request : Request)

/-- The inner handler, or one that authenticates first. -/
inductive Wrapped where
  | inner
  | authenticated
  deriving DecidableEq

def createAuthenticatedHandler (ctx : AuthorityContext) (auth : EndpointAuth) :
    Except String Wrapped :=
  if auth.methods.isEmpty then .error "Endpoint auth methods must not be empty"
  else
    match auth.methods.find? fun m => m != "none" && m != "private_key_jwt" with
    | some unsupported => .error s!"Unsupported endpoint auth method: '{unsupported}'"
    | none =>
      if !auth.methods.contains "private_key_jwt" then .ok .inner
      else if !ctx.replay then
        .error "private_key_jwt authentication requires storage.replay"
      else .ok .authenticated

def jwtBearerClientAssertionType : String :=
  "urn:ietf:params:oauth:client-assertion-type:jwt-bearer"

def refuse (description : String) : Refusal :=
  .responds (errorResponse 401 FederationErrorCode.InvalidClient.text description)

section Handler

variable (host : HttpHost)

/-- `value.length > n`, of any value. -/
def lengthExceeds (n : Nat) : Json → Bool
  | .str s => decide (n < utf16Length s)
  | .arr l => decide (n < l.length)
  | .obj members =>
    match members.lookup "length" with
    | some (.num q) => decide ((n : Rat) < q)
    | some v => (host.toNumber v).any fun q => decide ((n : Rat) < q)
    | none => false
  | _ => false

/-- `isValidEntityId` of a claim of any type, `none` where it throws. -/
def isValidIssuer (iss : Option Json) : Option Bool :=
  match iss with
  | none | some .null => none
  | some v =>
    some (!lengthExceeds host 2048 v && ((v.toText host.numberText).bind host.parseUrl).any fun u =>
      u.protocol == "https:" && u.username == "" && u.password == "" && u.search == "" &&
        u.hash == "")

/-- The text of the body. -/
def readParams (request : Request) : Except Refusal String :=
  match request.body with
  | none => .ok ""
  | some _ =>
    match readBodyWithLimit host.toPlatform request defaultMaxRequestBodyBytes with
    | .ok (some text) => .ok text
    | .ok none => .error (.responds
        (errorResponse 413 FederationErrorCode.InvalidRequest.text "Request body too large"))
    | .error _ => .error (.responds
        (errorResponse 400 FederationErrorCode.InvalidRequest.text "Failed to read request body"))

/-- The parameters without the credentials. -/
def withoutCredentials (params : List (String × String)) : List (String × String) :=
  removeName (removeName params "client_assertion") "client_assertion_type"

/-- The headers of the forwarded request, with the authenticated entity; `none` where this throws.
A length that is no longer that of the body is dropped. -/
def forwardHeaders (headers : Headers) (entity : Option Json) : Option Headers :=
  let headers := (headers.delete xAuthenticatedEntity).delete "content-length"
  match entity with
  | none => some headers
  | some e => (host.text (some e)).bind fun value => headers.set xAuthenticatedEntity value

/-- The forwarded request, by the native method of the inner handler. -/
def forwardedRequest (nativeMethod : NativeMethod) (request : Request) (headers : Headers)
    (text : String) (entity : Option Json) : Request :=
  let params := withoutCredentials (host.searchParams text)
  match nativeMethod with
  | .post =>
    { request with
      method := "POST"
      headers := headers.put "content-type" "application/x-www-form-urlencoded"
      body := some (.text (if entity.isSome then host.formText params else text)) }
  | .get =>
    { request with
      method := "GET"
      searchParams := host.searchParams (host.formText params)
      headers := headers.delete "content-type"
      body := none }

def forward (nativeMethod : NativeMethod) (request : Request) (text : String)
    (authenticatedEntity : Option Json) : Handled :=
  let entity := authenticatedEntity.filter Json.truthy
  match forwardHeaders host request.headers entity with
  | none => .refused .rejects
  | some headers => .runs (forwardedRequest host nativeMethod request headers text entity)

/-- The call of `verifyClientAssertion`. -/
def assertionCall (ctx : AuthorityContext) (auth : EndpointAuth) (run : AuthRun)
    (assertion : String) (jwks : JWKSet) : ClientAssertionCall where
  assertion := assertion
  jwks := jwks
  expectedAudience := ctx.entityId
  options :=
    { clockSkewSeconds := ctx.clockSkewSeconds.getD defaultClockSkewSeconds
      allowedAlgorithms := auth.allowedAlgorithms }
  clock := run.clock

/-- `verifyClientAssertion` with the answer of the replay store. -/
def verifiedAssertion (run : AuthRun) (call : ClientAssertionCall) :
    Except Stop VerifiedClientAssertion :=
  match (verifyClientAssertion host.toPlatform).before call with
  | .error result => result
  | .ok (claim, _) => (verifyClientAssertion host.toPlatform).after call (run.useJti claim)

/-- The issuer of the assertion in the parameters. -/
def authenticateAssertion (ctx : AuthorityContext) (auth : EndpointAuth) (run : AuthRun)
    (params : List (String × String)) : Except Refusal Json :=
  let clientAssertion := (valuesOf params "client_assertion").head?.getD ""
  if clientAssertion = "" then .error (refuse "Missing client_assertion parameter")
  else if (valuesOf params "client_assertion_type").head? ≠ some jwtBearerClientAssertionType then
    .error (refuse s!"Invalid client_assertion_type: expected '{jwtBearerClientAssertionType}'")
  else
    match decodeEntityStatement host.toPlatform clientAssertion with
    | .error _ => .error (refuse "Failed to decode client assertion")
    | .ok decoded =>
      match isValidIssuer host (decoded.payload.get? "iss") with
      | none => .error .rejects
      | some false =>
        .error (refuse "Client assertion 'iss' is not a valid Entity Identifier")
      | some true =>
        let iss := (decoded.payload.get? "iss").getD .null
        match run.getClientFederationJwks iss with
        | .error _ => .error (.responds
            (errorResponse 500 FederationErrorCode.ServerError.text "Client key lookup failed"))
        | .ok none => .error (refuse "No federation keys found for client")
        | .ok (some jwks) =>
          match verifiedAssertion host run (assertionCall ctx auth run clientAssertion jwks) with
          | .error (.fail e) =>
            if e.code.text = "server_error" then .error (.responds
              (errorResponse 500 FederationErrorCode.ServerError.text e.description))
            else .error (refuse e.description)
          | .error _ => .error .rejects
          | .ok _ => .ok iss

def repeatedCredential (params : List (String × String)) : Bool :=
  decide (1 < (valuesOf params "client_assertion").length) ||
    decide (1 < (valuesOf params "client_assertion_type").length)

/-- Either credential field is there, with any value. -/
def suppliesCredential (params : List (String × String)) : Bool :=
  hasParam params "client_assertion" || hasParam params "client_assertion_type"

def allowedMethods (auth : EndpointAuth) : List String :=
  if auth.allowsNone && auth.nativeMethod == .get then ["GET", "POST"] else ["POST"]

/-- The handler of an endpoint that accepts `private_key_jwt`. -/
def authenticate (ctx : AuthorityContext) (auth : EndpointAuth) (run : AuthRun)
    (request : Request) : Handled :=
  match requireMethods request (allowedMethods auth) with
  | some response => .refused (.responds response)
  | none =>
    if upperCase request.method = "GET" ∧ auth.allowsNone = true then
      if suppliesCredential request.searchParams then
        .refused (refuse "Client assertions require POST")
      else .runs request
    else
      match readParams host request with
      | .error refusal => .refused refusal
      | .ok text =>
        let params := host.searchParams text
        if repeatedCredential params then .refused (refuse "Duplicate client assertion parameters")
        -- presence matters: empty or partial credentials do not select anonymous access
        else if !suppliesCredential params && auth.allowsNone && auth.nativeMethod == .post then
          forward host auth.nativeMethod request text none
        else
          match authenticateAssertion host ctx auth run params with
          | .error refusal => .refused refusal
          | .ok iss => forward host auth.nativeMethod request text (some iss)

end Handler

/-! ## Accepted assertions -/

section Accepted

variable (host : HttpHost) (ctx : AuthorityContext) (auth : EndpointAuth) (run : AuthRun)

/-- What `jose` verifies is what it decodes. -/
def VerifiesDecoded (P : Platform) : Prop :=
  ∀ jwt key alg tolerance now payload, P.jwtVerify jwt key alg tolerance now = .ok payload →
    P.decodeJwt jwt = .ok payload

/-- An assertion that `verifyClientAssertion` accepts for an issuer and the authority, and whose
identifier the replay store has granted. -/
structure AcceptedAssertion (assertion : String) (iss : Json) : Prop where
  nonempty : assertion ≠ ""
  decodes : ∃ decoded, decodeEntityStatement host.toPlatform assertion = .ok decoded ∧
    decoded.payload.get? "iss" = some iss
  valid : isValidIssuer host (some iss) = some true
  verified : ∃ jwks v, run.getClientFederationJwks iss = .ok (some jwks) ∧
    verifiedAssertion host run (assertionCall ctx auth run assertion jwks) = .ok v ∧
    v.clientId = iss ∧ iss.truthy = true ∧
    run.useJti (assertionClaim (assertionCall ctx auth run assertion jwks) v) = .ok true

/-- A POST whose body has exactly one assertion, which is accepted. -/
structure AuthenticatedBy (request : Request) (iss : Json) : Prop where
  post : upperCase request.method = "POST"
  assertion : ∃ text a, readParams host request = .ok text ∧
    valuesOf (host.searchParams text) "client_assertion" = [a] ∧
    valuesOf (host.searchParams text) "client_assertion_type" = [jwtBearerClientAssertionType] ∧
    AcceptedAssertion host ctx auth run a iss

variable {host} {ctx} {auth} {run}

/-- An assertion is accepted if it passes the checks and the store grants its claim. -/
theorem verifiedAssertion_eq_ok {call : ClientAssertionCall}
    (hshared : call.options.replayStore = true) {v : VerifiedClientAssertion} :
    verifiedAssertion host run call = .ok v ↔
      checkClientAssertion host.toPlatform call = .ok v ∧
        run.useJti (assertionClaim call v) = .ok true := by
  cases hcheck : checkClientAssertion host.toPlatform call with
  | error stop => simp [verifiedAssertion, verifyClientAssertion, hcheck]
  | ok w =>
    have hbefore := verifyClientAssertion_before hshared hcheck
    have hanswer : verifiedAssertion host run call =
        (verifyClientAssertion host.toPlatform).after call
          (run.useJti (assertionClaim call w)) := by
      rw [verifiedAssertion, hbefore]
    rw [hanswer]
    constructor
    · intro h
      cases hstore : run.useJti (assertionClaim call w) with
      | error e =>
        rw [hstore] at h
        cases h
      | ok granted =>
        rw [hstore] at h
        cases granted with
        | false => cases h
        | true =>
          have hw : checkClientAssertion host.toPlatform call = .ok v := h
          obtain rfl := Except.ok.inj (hcheck.symm.trans hw)
          exact ⟨rfl, hstore⟩
    · rintro ⟨hv, hstore⟩
      obtain rfl := Except.ok.inj hv
      rw [hstore]
      exact hcheck

/-- The issuer that the handler authenticates. -/
theorem authenticateAssertion_eq_ok (hjose : VerifiesDecoded host.toPlatform)
    {params : List (String × String)} {iss : Json} :
    authenticateAssertion host ctx auth run params = .ok iss ↔
      ∃ a, (valuesOf params "client_assertion").head? = some a ∧
        (valuesOf params "client_assertion_type").head? = some jwtBearerClientAssertionType ∧
        AcceptedAssertion host ctx auth run a iss := by
  constructor
  · intro h
    unfold authenticateAssertion at h
    simp only at h
    split at h
    · cases h
    rename_i hne
    split at h
    · cases h
    rename_i htype
    split at h
    · cases h
    rename_i decoded hdecoded
    split at h
    · cases h
    · cases h
    rename_i hvalid
    split at h
    · cases h
    · cases h
    rename_i jwks hjwks
    split at h
    · split at h <;> cases h
    · cases h
    rename_i v hv
    obtain rfl := Except.ok.inj h
    obtain ⟨a, ha⟩ : ∃ a, (valuesOf params "client_assertion").head? = some a := by
      cases hhead : (valuesOf params "client_assertion").head? with
      | none => rw [hhead] at hne; exact absurd rfl hne
      | some a => exact ⟨a, rfl⟩
    rw [ha, Option.getD_some] at hne hdecoded hv
    obtain ⟨iss, hiss⟩ : ∃ iss, decoded.payload.get? "iss" = some iss := by
      cases hnone : decoded.payload.get? "iss" with
      | none => rw [hnone] at hvalid; cases hvalid
      | some iss => exact ⟨iss, rfl⟩
    rw [hiss] at hvalid hjwks ⊢
    obtain ⟨hcheck, hstore⟩ := (verifiedAssertion_eq_ok rfl).mp hv
    -- the verified payload is the decoded one, so that its issuer is the one that was looked up
    obtain ⟨payload, key, alg, hverify, hclient, htruthy⟩ := checkClientAssertion_issuer hcheck
    have hpayload : decoded.payload = payload :=
      Except.ok.inj ((decodeEntityStatement_payload hdecoded).symm.trans
        (hjose _ _ _ _ _ _ hverify))
    rw [← hpayload, hiss] at hclient
    obtain hclient := Option.some.inj hclient
    exact ⟨a, ha, not_not.mp htype,
      { nonempty := hne
        decodes := ⟨decoded, hdecoded, hiss⟩
        valid := hvalid
        verified := ⟨jwks, v, hjwks, hv, hclient.symm, hclient ▸ htruthy, hstore⟩ }⟩
  · rintro ⟨a, ha, htype, hne, ⟨decoded, hdecoded, hiss⟩, hvalid, jwks, v, hjwks, hv, -⟩
    unfold authenticateAssertion
    simp only [ha, Option.getD_some, if_neg hne, htype, ne_eq, not_true_eq_false, if_false,
      hdecoded, hiss, hvalid, hjwks, hv]

theorem readParams_text {request : Request} {text : String}
    (h : readParams host request = .ok text) : request.text host.toPlatform = some text := by
  unfold readParams at h
  cases hbody : request.body with
  | none =>
    rw [hbody] at h
    rw [Request.text, hbody]
    exact congrArg some (Except.ok.inj h)
  | some body =>
    rw [hbody] at h
    simp only at h
    split at h
    · rename_i text' hread
      obtain rfl := Except.ok.inj h
      exact readBodyWithLimit_eq_ok hread
    · cases h
    · cases h

/-! ## When the inner handler runs -/

theorem upperCase_post_ne_get {method : String} (h : upperCase method = "POST") :
    upperCase method ≠ "GET" := by
  rw [h]
  decide

/-- An accepted method is GET, if that is allowed, or POST. -/
theorem requireMethods_eq_none {request : Request}
    (h : requireMethods request (allowedMethods auth) = none) :
    (upperCase request.method = "GET" ∧ auth.allowsNone = true) ∨
      upperCase request.method = "POST" := by
  unfold requireMethods at h
  split at h
  · rename_i hany
    unfold allowedMethods at hany
    split at hany
    · rename_i hget
      have hmethods : upperCase "GET" = upperCase request.method ∨
          upperCase "POST" = upperCase request.method := by simpa using hany
      rcases hmethods with hm | hm
      · exact .inl ⟨hm.symm, (Bool.and_eq_true_iff.mp hget).1⟩
      · exact .inr hm.symm
    · have hmethod : upperCase "POST" = upperCase request.method := by simpa using hany
      exact .inr hmethod.symm
  · cases h

theorem requireMethods_post {request : Request} (h : upperCase request.method = "POST") :
    requireMethods request (allowedMethods auth) = none := by
  have hpost : upperCase "POST" = upperCase request.method := by
    rw [h]
    decide
  unfold requireMethods allowedMethods
  rw [if_pos]
  split <;> simp [hpost]

@[simp] theorem forwardedRequest_entity (nativeMethod : NativeMethod) (request : Request)
    (headers : Headers) (text : String) (entity : Option Json) :
    (forwardedRequest host nativeMethod request headers text entity).headers.get
      xAuthenticatedEntity = headers.get xAuthenticatedEntity := by
  cases nativeMethod with
  | get => exact Headers.get_delete_ne headers (by decide)
  | post => exact Headers.get_put_ne headers (by decide) _

/-- Without an entity, the inner handler sees no header. -/
theorem forward_none (nativeMethod : NativeMethod) (request : Request) (text : String) :
    ∃ inner, forward host nativeMethod request text none = .runs inner ∧
      inner.headers.get xAuthenticatedEntity = none := by
  refine ⟨_, rfl, ?_⟩
  rw [forwardedRequest_entity, Headers.get_delete_ne _ (by decide), Headers.get_delete_self]

/-- With an entity, the inner handler sees its text, without the white space around it, if that can
stand in a header. -/
theorem forward_some (nativeMethod : NativeMethod) (request : Request) (text : String) {e : Json}
    (he : e.truthy = true) (inner : Request) :
    forward host nativeMethod request text (some e) = .runs inner →
      ∃ value, host.text (some e) = some value ∧
        Headers.isValue (Headers.normalizeValue value) = true ∧
        inner.headers.get xAuthenticatedEntity = some (Headers.normalizeValue value) := by
  have hentity : (some e).filter Json.truthy = some e := by simp [he]
  intro h
  rw [forward, hentity] at h
  cases hheaders : forwardHeaders host request.headers (some e) with
  | none =>
    rw [hheaders] at h
    cases h
  | some headers =>
    rw [hheaders] at h
    obtain rfl := Handled.runs.inj h
    obtain ⟨value, hvalue, hset⟩ := Option.bind_eq_some_iff.mp hheaders
    obtain ⟨hvalid, rfl⟩ := Headers.set_eq_some.mp hset
    exact ⟨value, hvalue, hvalid, by rw [forwardedRequest_entity, Headers.get_put_self]⟩

theorem forward_runs (nativeMethod : NativeMethod) (request : Request) (text : String) {e : Json}
    (he : e.truthy = true) {value : String} (hvalue : host.text (some e) = some value)
    (hvalid : Headers.isValue (Headers.normalizeValue value) = true) :
    ∃ inner, forward host nativeMethod request text (some e) = .runs inner := by
  have hentity : (some e).filter Json.truthy = some e := by simp [he]
  have hheaders : ∃ headers, forwardHeaders host request.headers (some e) = some headers :=
    ⟨_, Option.bind_eq_some_iff.mpr ⟨value, hvalue, Headers.set_eq_some.mpr ⟨hvalid, rfl⟩⟩⟩
  obtain ⟨headers, hheaders⟩ := hheaders
  refine ⟨forwardedRequest host nativeMethod request headers text (some e), ?_⟩
  rw [forward, hentity, hheaders]

/-- The request carries no credentials where the handler looks for them. -/
structure Anonymous (host : HttpHost) (request : Request) : Prop where
  get : upperCase request.method = "GET" → suppliesCredential request.searchParams = false
  post : upperCase request.method = "POST" → ∀ text, request.text host.toPlatform = some text →
    suppliesCredential (host.searchParams text) = false

theorem head?_of_length_le_one {l : List String} (h : ¬ 1 < l.length) {a : String}
    (ha : l.head? = some a) : l = [a] := by
  obtain ⟨rest, rfl⟩ := List.head?_eq_some_iff.mp ha
  cases rest with
  | nil => rfl
  | cons b rest => simp at h

/-- The inner handler runs for an anonymous request, where that is allowed, and sees no new header;
or for an accepted assertion, and sees its issuer. -/
theorem authenticate_runs (hjose : VerifiesDecoded host.toPlatform) {request inner : Request}
    (hrequest : request.headers.get xAuthenticatedEntity = none)
    (h : authenticate host ctx auth run request = .runs inner) :
    (auth.allowsNone = true ∧ Anonymous host request ∧
        inner.headers.get xAuthenticatedEntity = none) ∨
      ∃ iss value, AuthenticatedBy host ctx auth run request iss ∧
        host.text (some iss) = some value ∧
        Headers.isValue (Headers.normalizeValue value) = true ∧
        inner.headers.get xAuthenticatedEntity = some (Headers.normalizeValue value) := by
  unfold authenticate at h
  split at h
  · cases h
  rename_i hmethods
  split at h
  · rename_i hget
    split at h
    · cases h
    · rename_i hquery
      obtain rfl := Handled.runs.inj h
      refine .inl ⟨hget.2, ⟨fun _ => by simpa using hquery, fun hpost => ?_⟩, hrequest⟩
      exact absurd hget.1 (upperCase_post_ne_get hpost)
  · rename_i hget
    have hpost : upperCase request.method = "POST" :=
      (requireMethods_eq_none hmethods).resolve_left hget
    split at h
    · cases h
    rename_i text hread
    simp only at h
    split at h
    · cases h
    rename_i hrepeated
    split at h
    · rename_i hanonymous
      simp only [Bool.and_eq_true, Bool.not_eq_true'] at hanonymous
      obtain ⟨inner', hinner, hnone⟩ := @forward_none host auth.nativeMethod request text
      obtain rfl := Handled.runs.inj (hinner.symm.trans h)
      refine .inl ⟨hanonymous.1.2, ⟨fun hget' => ?_, fun _ text' htext' => ?_⟩, hnone⟩
      · exact absurd hget' (upperCase_post_ne_get hpost)
      · obtain rfl := Option.some.inj ((readParams_text hread).symm.trans htext')
        exact hanonymous.1.1
    · split at h
      · cases h
      rename_i iss hiss
      obtain ⟨a, ha, htype, haccepted⟩ := (authenticateAssertion_eq_ok hjose).mp hiss
      obtain ⟨jwks, v, -, -, -, htruthy, -⟩ := haccepted.verified
      obtain ⟨value, hvalue, hvalid, hheader⟩ := forward_some _ _ _ htruthy _ h
      simp only [repeatedCredential, Bool.or_eq_true, decide_eq_true_eq, not_or] at hrepeated
      exact .inr ⟨iss, value,
        ⟨hpost, text, a, hread, head?_of_length_le_one hrepeated.1 ha,
          head?_of_length_le_one hrepeated.2 htype, haccepted⟩, hvalue, hvalid, hheader⟩

/-- An accepted assertion whose issuer can stand in a header runs the inner handler. -/
theorem AuthenticatedBy.runs (hjose : VerifiesDecoded host.toPlatform) {request : Request}
    {iss : Json} (h : AuthenticatedBy host ctx auth run request iss) {value : String}
    (hvalue : host.text (some iss) = some value)
    (hvalid : Headers.isValue (Headers.normalizeValue value) = true) :
    ∃ inner, authenticate host ctx auth run request = .runs inner ∧
      inner.headers.get xAuthenticatedEntity = some (Headers.normalizeValue value) := by
  obtain ⟨hpost, text, a, hread, ha, htype, haccepted⟩ := h
  obtain ⟨jwks, v, -, -, -, htruthy, -⟩ := haccepted.verified
  obtain ⟨inner, hinner⟩ := forward_runs auth.nativeMethod request text htruthy hvalue hvalid
  have hauthenticate : authenticate host ctx auth run request = .runs inner := by
    have hiss : authenticateAssertion host ctx auth run (host.searchParams text) = .ok iss :=
      (authenticateAssertion_eq_ok hjose).mpr ⟨a, by rw [ha]; rfl, by rw [htype]; rfl, haccepted⟩
    have hsupplied : suppliesCredential (host.searchParams text) = true := by
      rw [suppliesCredential, Bool.or_eq_true]
      exact .inl (hasParam_iff.mpr (by rw [ha]; exact List.cons_ne_nil _ _))
    have hrepeated : repeatedCredential (host.searchParams text) = false := by
      rw [repeatedCredential, ha, htype]
      rfl
    unfold authenticate
    rw [requireMethods_post hpost]
    simp only [upperCase_post_ne_get hpost, false_and, if_false, hread, hrepeated,
      Bool.false_eq_true, hsupplied, Bool.not_true, Bool.false_and, hiss, hinner]
  refine ⟨inner, hauthenticate, ?_⟩
  obtain ⟨value', hvalue', -, hheader⟩ := forward_some _ _ _ htruthy _ hinner
  obtain rfl := Option.some.inj (hvalue.symm.trans hvalue')
  exact hheader

/-- A request is authenticated by one issuer. -/
theorem AuthenticatedBy.unique {request : Request} {iss iss' : Json}
    (h : AuthenticatedBy host ctx auth run request iss)
    (h' : AuthenticatedBy host ctx auth run request iss') : iss = iss' := by
  obtain ⟨-, text, a, hread, ha, -, haccepted⟩ := h
  obtain ⟨-, text', a', hread', ha', -, haccepted'⟩ := h'
  obtain rfl := Except.ok.inj (hread.symm.trans hread')
  obtain rfl := (List.cons.inj (ha.symm.trans ha')).1
  obtain ⟨decoded, hdecoded, hiss⟩ := haccepted.decodes
  obtain ⟨decoded', hdecoded', hiss'⟩ := haccepted'.decodes
  obtain rfl := Except.ok.inj (hdecoded.symm.trans hdecoded')
  exact Option.some.inj (hiss.symm.trans hiss')

end Accepted

end OidFed
