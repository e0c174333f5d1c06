import OidFed.Authority.Authenticated
import OidFed.Client.FederationApi
import OidFed.Keys.History
import OidFed.Storage.TrustMarkIssuance

/-!
# The status of a Trust Mark, from the storage to a client (`authority/src/endpoints/trust-mark-status.ts`)

* `buildTrustMark`: the mark that an issuance signs.
* `trustMarkStatus`, `createTrustMarkStatusHandler`: the decision, and the endpoint that signs it.
* `record_afterCalls`: the record of an issued mark is active until a revocation of its type for its
  subject.
* `MarkStatus`: what the calls of the storage and the keys say of a mark.
* `trustMarkStatus_received`: in every run of issuances and revocations, a client who asks about a mark
  that was issued gets that status.
-/

namespace OidFed

open Js Exclusive

namespace TrustMarkStatus

def active : String := "active"

def expired : String := "expired"

def revoked : String := "revoked"

def invalid : String := "invalid"

end TrustMarkStatus

/-! ## The mark that is issued -/

section Mark

variable (S : SigningPlatform) (entityId : String) (delegations : Option (Dict String String))
  (keySet : FederationKeySet) (trustMarkType sub : String) (now ttl : Rat)

def trustMarkPayload : Payload :=
  let payload : Payload := Dict.ofEntries [("iss", .str entityId), ("sub", .str sub),
    ("trust_mark_type", .str trustMarkType), ("iat", .num now), ("exp", .num (now + ttl))]
  match (delegations.map fun d => d.read trustMarkType : Option (Read String)) with
  | some (.own delegation) =>
    if delegation = "" then payload else payload.set "delegation" (.str delegation)
  | some (.builtin .object) => payload.set "delegation" (.obj [])
  -- the JSON text of a payload has no functions
  | some (.builtin (.function _)) => payload
  | some .undefined => payload
  | none => payload

def buildTrustMark : Except String String :=
  signEntityStatement S (trustMarkPayload entityId delegations trustMarkType sub now ttl) keySet.signer
    JwtTyp.trustMark

end Mark

/-! ## The endpoint -/

/-- What a request to the endpoint reads, one read after the other. -/
structure TrustMarkStatusRun where
  storage : MemoryState
  now : Rat
  /-- The keys and the time of the verification. -/
  keySet : Except String FederationKeySet
  verifiedAt : Rat
  /-- The keys and the time of the response. -/
  answeringKeySet : Except String FederationKeySet
  answeredAt : Rat

section Handler

variable (H : ClientHost) (signJwt : JwtSigner → Payload → Payload → Except String String)
  (entityId : String) (clockSkew : Rat) (run : TrustMarkStatusRun)

/-- `storage.trustMarks.getByJwt`. -/
def getByJwt (state : MemoryState) (jwt : String) : Option TrustMarkRecord :=
  state.trustMarks.bind fun marks => marks.get? jwt

def statusPayload (trustMarkJwt status : String) : Payload :=
  Dict.ofEntries [("iss", .str entityId), ("iat", .num run.answeredAt),
    ("trust_mark", .str trustMarkJwt), ("status", .str status)]

/-- The signed status; `none` where the promise is rejected. -/
def buildStatusResponse (trustMarkJwt status : String) : Option Response := do
  let keySet ← run.answeringKeySet.toOption
  let jwt ← (signEntityStatement (H.signing signJwt) (statusPayload entityId run trustMarkJwt status)
    keySet.signer JwtTyp.trustMarkStatusResponse).toOption
  return jwtResponse jwt MediaType.trustMarkStatusResponse

def statusNotFound (description : String) : Response :=
  errorResponse 404 FederationErrorCode.NotFound.text description

/-- The type is an Entity Identifier, and there is a subject. -/
def markNamesType (payload : Payload) : Bool :=
  Json.truthy? (payload.get? "trust_mark_type") &&
    (isValidIssuer H.toHttpHost (payload.get? "trust_mark_type")).getD false &&
    Json.truthy? (payload.get? "sub")

/-- The status of a mark, or the response of an error; `none` where the promise is rejected. -/
def trustMarkStatus (trustMarkJwt : String) : Option (Except Response String) :=
  match decodeEntityStatement H.toPlatform trustMarkJwt with
  | .error _ => some (.ok TrustMarkStatus.invalid)
  | .ok decoded =>
    let payload := decoded.payload
    if !markNamesType H payload then some (.ok TrustMarkStatus.invalid)
    else if payload.get? "iss" != some (.str entityId) then
      some (.error (statusNotFound "Trust mark not issued by this entity"))
    else
      match getByJwt run.storage trustMarkJwt with
      | none => some (.error (statusNotFound "Trust mark not found"))
      | some record =>
        if (payload.get? "exp").any fun exp =>
            (numberOf H.toPlatform exp).any fun q => decide (q ≤ run.now) then
          some (.ok TrustMarkStatus.expired)
        else
          match run.keySet with
          | .error _ => none
          | .ok keySet =>
            match verifyEntityStatement H.toPlatform trustMarkJwt (publishedJwks keySet.jwks) clockSkew
              run.verifiedAt JwtTyp.trustMark with
            | .error _ => some (.ok TrustMarkStatus.invalid)
            | .ok _ =>
              some (.ok (if !record.active then TrustMarkStatus.revoked else TrustMarkStatus.active))

/-- The answer to a mark; `none` where the promise is rejected. -/
def answerTrustMark (trustMarkJwt : String) : Option Response :=
  match trustMarkStatus H entityId clockSkew run trustMarkJwt with
  | none => none
  | some (.error response) => some response
  | some (.ok status) => buildStatusResponse H signJwt entityId run trustMarkJwt status

/-- Handles trust mark status check requests, returning active/revoked/expired/invalid. -/
def createTrustMarkStatusHandler (request : Request) : Option Response :=
  match requireMethod request "POST" with
  | some methodError => some methodError
  | none =>
    if run.storage.trustMarks.isNone then
      some (errorResponse 501 "server_error" "Trust mark store not configured")
    else
      match readBodyWithLimit H.toPlatform request defaultMaxRequestBodyBytes with
      | .error _ => none
      | .ok none =>
        some (errorResponse 413 FederationErrorCode.InvalidRequest.text "Request body too large")
      | .ok (some text) =>
        let trustMark := (valuesOf (H.searchParams text) "trust_mark").getLast?.getD ""
        if trustMark = "" then
          some (errorResponse 400 FederationErrorCode.InvalidRequest.text
            "Missing 'trust_mark' parameter")
        else answerTrustMark H signJwt entityId clockSkew run trustMark

end Handler

/-! ## The record of a mark -/

section Records

variable {ttl : Rat}

/-- Among the calls from one to another there is a revocation of a type for a subject. -/
def RevokedBetween (calls : List MarkCall) (i k : Nat) (trustMarkType subject : String) : Prop :=
  ∃ j revokedAt, i ≤ j ∧ j < k ∧ calls[j]? = some (.revocation trustMarkType subject revokedAt)

/-- A record under a JWT, which is active or not. -/
structure RecordedMark (state : MemoryState) (jwt trustMarkType subject : String) (active : Prop) :
    Prop where
  record : ∃ r, (marksOf state).get? jwt = some r ∧ r.trustMarkType = trustMarkType ∧
    r.subject = subject ∧ (r.active = true ↔ active)

/-- What a call does to a record: it is revoked by the revocations of its type for its subject. -/
theorem RecordedMark.step {state : MemoryState} (hk : MarksKept state) (call : MarkCall)
    {jwt trustMarkType subject : String} {active : Prop}
    (h : RecordedMark state jwt trustMarkType subject active) :
    RecordedMark ((call.operation ttl).run state).2 jwt trustMarkType subject
      (active ∧ ¬ ∃ revokedAt, call = .revocation trustMarkType subject revokedAt) := by
  obtain ⟨r, hget, htype, hsubject, hactive⟩ := h.record
  cases call with
  | issuance trustMarkType' subject' jwt' now =>
    have hno : ¬ ∃ revokedAt, MarkCall.issuance trustMarkType' subject' jwt' now =
        .revocation trustMarkType subject revokedAt := by
      rintro ⟨_, hrevocation⟩
      cases hrevocation
    obtain ⟨_, state', hrun, hcases⟩ := issuance_cases hk ttl trustMarkType' subject' jwt' now
    rw [hrun]
    refine ⟨r, ?_, htype, hsubject, by rw [hactive, and_iff_left hno]⟩
    rcases hcases with ⟨rfl, -⟩ | ⟨rfl, -, ⟨-, rfl⟩ | ⟨habsent, rfl⟩⟩
    · exact hget
    · exact hget
    · -- a mark is stored under a JWT that there was no record of
      have hne : jwt ≠ jwt' := by
        rintro rfl
        rw [habsent] at hget
        cases hget
      rw [marksOf_set, Dict.get?_set_ne _ _ hne]
      exact hget
  | revocation trustMarkType' subject' revokedAt =>
    obtain ⟨hmarks, -⟩ := revocation_cases hk ttl trustMarkType' subject' revokedAt
    refine ⟨revokeRecord trustMarkType' subject' revokedAt r, ?_, ?_, ?_, ?_⟩
    · rw [hmarks, Dict.get?_mapValues, hget]
      rfl
    · rw [← htype]
      unfold revokeRecord
      split <;> rfl
    · rw [← hsubject]
      unfold revokeRecord
      split <;> rfl
    · by_cases hsame : trustMarkType' = trustMarkType ∧ subject' = subject
      · obtain ⟨rfl, rfl⟩ := hsame
        -- a record of the type and the subject is inactive after a revocation
        have hrevoked : (revokeRecord trustMarkType' subject' revokedAt r).active ≠ true := by
          intro hact
          have hunchanged := revokeRecord_active hact
          rw [hunchanged] at hact
          rw [revokeRecord, if_pos (by simp [htype, hsubject, hact])] at hunchanged
          have hinactive := congrArg TrustMarkRecord.active hunchanged
          rw [hact] at hinactive
          cases hinactive
        exact iff_of_false hrevoked fun hboth => hboth.2 ⟨revokedAt, rfl⟩
      · have hno : ¬ ∃ at', MarkCall.revocation trustMarkType' subject' revokedAt =
            .revocation trustMarkType subject at' := by
          rintro ⟨_, hrevocation⟩
          obtain ⟨h₁, h₂, -⟩ := MarkCall.revocation.inj hrevocation
          exact hsame ⟨h₁, h₂⟩
        rw [and_iff_left hno, ← hactive, revokeRecord, if_neg]
        rw [htype, hsubject]
        simp only [Bool.and_eq_true, beq_iff_eq, not_and]
        rintro ⟨h₁, h₂⟩
        exact absurd ⟨h₁.symm, h₂.symm⟩ hsame

/-- The record of an issued mark is active until a revocation of its type for its subject. -/
theorem record_afterCalls {calls : List MarkCall} {i k : Nat} {jwt trustMarkType subject : String}
    (hik : i ≤ k)
    (h : RecordedMark (afterCalls ttl (calls.take i)) jwt trustMarkType subject True) :
    RecordedMark (afterCalls ttl (calls.take k)) jwt trustMarkType subject
      (¬ RevokedBetween calls i k trustMarkType subject) := by
  induction k, hik using Nat.le_induction with
  | base =>
    have hno : ¬ RevokedBetween calls i i trustMarkType subject := by
      rintro ⟨j, _, hij, hji, -⟩
      omega
    obtain ⟨r, hget, htype, hsubject, hactive⟩ := h.record
    exact ⟨r, hget, htype, hsubject, by rw [hactive]; simpa using hno⟩
  | succ k hik ih =>
    rw [List.take_add_one]
    have hsplit : RevokedBetween calls i (k + 1) trustMarkType subject ↔
        RevokedBetween calls i k trustMarkType subject ∨
          ∃ revokedAt, calls[k]? = some (.revocation trustMarkType subject revokedAt) := by
      constructor
      · rintro ⟨j, revokedAt, hij, hjk, hj⟩
        rcases Nat.lt_succ_iff_lt_or_eq.mp hjk with hlt | rfl
        · exact .inl ⟨j, revokedAt, hij, hlt, hj⟩
        · exact .inr ⟨revokedAt, hj⟩
      · rintro (⟨j, revokedAt, hij, hjk, hj⟩ | ⟨revokedAt, hk⟩)
        · exact ⟨j, revokedAt, hij, hjk.trans (Nat.lt_succ_self k), hj⟩
        · exact ⟨k, revokedAt, hik, Nat.lt_succ_self k, hk⟩
    cases hcall : calls[k]? with
    | none =>
      rw [Option.toList_none, List.append_nil]
      obtain ⟨r, hget, htype, hsubject, hactive⟩ := ih.record
      refine ⟨r, hget, htype, hsubject, hactive.trans (not_congr ?_)⟩
      rw [hsplit, hcall]
      simp
    | some call =>
      rw [Option.toList_some, afterCalls_concat]
      have hstep : RecordedMark ((call.operation ttl).run (afterCalls ttl (calls.take k))).2 jwt
          trustMarkType subject _ := ih.step (marksKept_afterCalls _) call
      obtain ⟨r, hget, htype, hsubject, hactive⟩ := hstep.record
      refine ⟨r, hget, htype, hsubject, hactive.trans ?_⟩
      rw [hsplit, hcall, not_or]
      simp only [Option.some.injEq]

end Records

/-! ## The status over a run -/

/-- The status of an issued mark: whether its type is an Entity Identifier, whether it has expired,
whether the key of its signer is kept, and whether it has been revoked, in this order. -/
inductive MarkStatus (named expired kept revoked : Prop) : String → Prop
  | unnamed : ¬ named → MarkStatus named expired kept revoked TrustMarkStatus.invalid
  | expired : named → expired → MarkStatus named expired kept revoked TrustMarkStatus.expired
  | gone : named → ¬ expired → ¬ kept → MarkStatus named expired kept revoked TrustMarkStatus.invalid
  | revoked : named → ¬ expired → kept → revoked →
      MarkStatus named expired kept revoked TrustMarkStatus.revoked
  | active : named → ¬ expired → kept → ¬ revoked →
      MarkStatus named expired kept revoked TrustMarkStatus.active

theorem MarkStatus.ne_empty {named expired kept revoked : Prop} {status : String}
    (h : MarkStatus named expired kept revoked status) : status ≠ "" := by
  cases h <;> decide

section Payloads

variable {entityId trustMarkType sub status : String} {delegations : Option (Dict String String)}
  {now ttl : Rat}

theorem trustMarkPayload_get? {name : String} (hname : name ≠ "delegation") :
    (trustMarkPayload entityId delegations trustMarkType sub now ttl).get? name =
      [("iss", Json.str entityId), ("sub", .str sub), ("trust_mark_type", .str trustMarkType),
        ("iat", .num now), ("exp", .num (now + ttl))].lookup name := by
  have hplain : (Dict.ofEntries [("iss", Json.str entityId), ("sub", .str sub),
      ("trust_mark_type", .str trustMarkType), ("iat", .num now), ("exp", .num (now + ttl))]).get?
        name = [("iss", Json.str entityId), ("sub", .str sub), ("trust_mark_type", .str trustMarkType),
          ("iat", .num now), ("exp", .num (now + ttl))].lookup name :=
    Dict.get?_ofEntries (by simp) name
  unfold trustMarkPayload
  cases (delegations.map fun d => d.read trustMarkType : Option (Read String)) with
  | none => exact hplain
  | some read =>
    cases read with
    | undefined => exact hplain
    | own delegation =>
      dsimp only
      split
      · exact hplain
      · rw [Dict.get?_set_ne _ _ hname, hplain]
    | builtin value =>
      cases value with
      | object => rw [Dict.get?_set_ne _ _ hname, hplain]
      | function _ => exact hplain

/-- A mark may be used until it expires. -/
theorem trustMarkPayload_timely {clockSkew at' : Rat} (h : at' - clockSkew < now + ttl) :
    Timely (trustMarkPayload entityId delegations trustMarkType sub now ttl) clockSkew at' where
  exp v hv := by
    rw [trustMarkPayload_get? (by decide)] at hv
    exact ⟨now + ttl, (Option.some.inj hv).symm, h⟩
  nbf v hv := by
    rw [trustMarkPayload_get? (by decide)] at hv
    cases hv
  iat v hv := by
    rw [trustMarkPayload_get? (by decide)] at hv
    exact ⟨now, (Option.some.inj hv).symm⟩

variable {run : TrustMarkStatusRun} {trustMarkJwt : String}

theorem statusPayload_get? (name : String) :
    (statusPayload entityId run trustMarkJwt status).get? name =
      [("iss", Json.str entityId), ("iat", .num run.answeredAt), ("trust_mark", .str trustMarkJwt),
        ("status", .str status)].lookup name :=
  Dict.get?_ofEntries (by simp) name

theorem statusPayload_timely (clockSkew at' : Rat) :
    Timely (statusPayload entityId run trustMarkJwt status) clockSkew at' where
  exp v hv := by
    rw [statusPayload_get?] at hv
    cases hv
  nbf v hv := by
    rw [statusPayload_get?] at hv
    cases hv
  iat v hv := by
    rw [statusPayload_get?] at hv
    exact ⟨run.answeredAt, (Option.some.inj hv).symm⟩

/-- The claims that a client requires are there. -/
theorem trustMarkStatusData_statusPayload (hentity : entityId ≠ "") (hstatus : status ≠ "") :
    trustMarkStatusData (statusPayload entityId run trustMarkJwt status) =
      .ok ⟨.str status, .str entityId, .num run.answeredAt⟩ := by
  have hissuer : (some (Json.str entityId)).filter Json.truthy = some (.str entityId) := by
    simp [Option.filter, Json.truthy, hentity]
  have hmember : (some (Json.str status)).filter Json.truthy = some (.str status) := by
    simp [Option.filter, Json.truthy, hstatus]
  unfold trustMarkStatusData
  rw [statusPayload_get?, statusPayload_get?, statusPayload_get?]
  simp only [List.lookup_cons, beq_self_eq_true, show ("status" == "iss") = false from by decide,
    show ("status" == "iat") = false from by decide, show ("status" == "trust_mark") = false from by decide,
    show ("iat" == "iss") = false from by decide, hissuer, hmember]

end Payloads

section Decision

variable {H : ClientHost} {signJwt : JwtSigner → Payload → Payload → Except String String}
  {entityId trustMarkType sub jwt : String} {delegations : Option (Dict String String)}
  {issuedAt ttl clockSkew : Rat} {run : TrustMarkStatusRun} {request : Request}

/-- What the endpoint decides of a stored mark that decodes to what was issued. -/
theorem trustMarkStatus_issued (clockSkew : Rat) {header : Payload} {record : TrustMarkRecord}
    {keySet : FederationKeySet} {kept revoked : Prop}
    (hdecode : decodeEntityStatement H.toPlatform jwt =
      .ok ⟨header, trustMarkPayload entityId delegations trustMarkType sub issuedAt ttl⟩)
    (hrecord : getByJwt run.storage jwt = some record) (hactive : record.active = true ↔ ¬ revoked)
    (hkeySet : run.keySet = .ok keySet)
    (hverifies : ¬ issuedAt + ttl ≤ run.now → kept → ∃ es, verifyEntityStatement H.toPlatform jwt
      (publishedJwks keySet.jwks) clockSkew run.verifiedAt JwtTyp.trustMark = .ok es)
    (hgone : ¬ kept → ∀ es, verifyEntityStatement H.toPlatform jwt (publishedJwks keySet.jwks)
      clockSkew run.verifiedAt JwtTyp.trustMark ≠ .ok es) :
    ∃ status, MarkStatus
        (markNamesType H (trustMarkPayload entityId delegations trustMarkType sub issuedAt ttl) = true)
        (issuedAt + ttl ≤ run.now) kept revoked status ∧
      trustMarkStatus H entityId clockSkew run jwt = some (.ok status) := by
  unfold trustMarkStatus
  rw [hdecode]
  dsimp only
  by_cases hnamed : markNamesType H
      (trustMarkPayload entityId delegations trustMarkType sub issuedAt ttl) = true
  · have hissuer : (trustMarkPayload entityId delegations trustMarkType sub issuedAt ttl).get? "iss" =
        some (.str entityId) := trustMarkPayload_get? (by decide)
    have hexp : (trustMarkPayload entityId delegations trustMarkType sub issuedAt ttl).get? "exp" =
        some (.num (issuedAt + ttl)) := trustMarkPayload_get? (by decide)
    rw [hnamed, hissuer, hexp, hrecord]
    simp only [Bool.not_true, Bool.false_eq_true, if_false, bne_self_eq_false, Option.any_some,
      numberOf, decide_eq_true_eq]
    by_cases hexpired : issuedAt + ttl ≤ run.now
    · rw [if_pos hexpired]
      exact ⟨_, .expired trivial hexpired, rfl⟩
    · rw [if_neg hexpired, hkeySet]
      dsimp only
      by_cases hkept : kept
      · obtain ⟨es, hes⟩ := hverifies hexpired hkept
        rw [hes]
        by_cases hrevoked : revoked
        · have hinactive : record.active = false := by
            simpa using hactive.not.mpr (not_not.mpr hrevoked)
          rw [hinactive]
          exact ⟨_, .revoked trivial hexpired hkept hrevoked, rfl⟩
        · rw [hactive.mpr hrevoked]
          exact ⟨_, .active trivial hexpired hkept hrevoked, rfl⟩
      · cases hverify : verifyEntityStatement H.toPlatform jwt (publishedJwks keySet.jwks) clockSkew
          run.verifiedAt JwtTyp.trustMark with
        | ok es => exact absurd hverify (hgone hkept es)
        | error e => exact ⟨_, .gone trivial hexpired hkept, rfl⟩
  · rw [Bool.not_eq_true] at hnamed
    rw [hnamed]
    exact ⟨_, .unnamed (by simp), rfl⟩

/-- A form that is posted reaches a handler that reads it whole. -/
structure Posted (H : ClientHost) (sent : SentRequest) (request : Request) : Prop where
  method : request.method = sent.method
  form : ∃ text, readBodyWithLimit H.toPlatform request defaultMaxRequestBodyBytes = .ok (some text) ∧
    sent.body = some (H.searchParams text)

/-- The endpoint answers a posted mark. -/
theorem createTrustMarkStatusHandler_posted {sent : SentRequest} (hmethod : sent.method = "POST")
    (hbody : sent.body = some [("trust_mark", jwt)]) (hjwt : jwt ≠ "")
    (hstorage : run.storage.trustMarks.isSome) (h : Posted H sent request) :
    createTrustMarkStatusHandler H signJwt entityId clockSkew run request =
      answerTrustMark H signJwt entityId clockSkew run jwt := by
  obtain ⟨text, htext, hform⟩ := h.form
  have hparams : H.searchParams text = [("trust_mark", jwt)] :=
    Option.some.inj (hform.symm.trans hbody)
  have hvalues : (valuesOf (H.searchParams text) "trust_mark").getLast?.getD "" = jwt := by
    rw [hparams]
    rfl
  have hallowed : requireMethod request "POST" = none :=
    requireMethod_of_method (h.method.trans hmethod)
  have hnone : run.storage.trustMarks.isNone = false := by simpa using hstorage
  unfold createTrustMarkStatusHandler
  rw [hallowed]
  dsimp only
  rw [hnone, if_neg Bool.false_ne_true, htext]
  dsimp only
  rw [hvalues, if_neg hjwt]

/-- The body of a response that is delivered, without a limit. -/
theorem ReceivedResponse.text_delivered {maxBytes : Rat} {response : Response}
    {received : ReceivedResponse} (h : Delivered H maxBytes response received) :
    ∃ text, response.body.SentAs H text ∧ received.text H.toPlatform = .ok text := by
  obtain ⟨body, hbody, hdone, hsent, -⟩ := h.body
  refine ⟨_, hsent, ?_⟩
  rw [ReceivedResponse.text, hbody]
  dsimp only
  rw [hdone]

/-- A client takes the status that the endpoint has signed. -/
theorem fetchTrustMarkStatus_signed {endpoint status responseJwt : String} {u : Url}
    {options : ClientOptions} {fetch : FetchRun}
    {now maxBytes : Rat} {received : ReceivedResponse} {keySet clientKeySet : FederationKeySet}
    (hendpoint : checkEndpointUrl H "Invalid endpoint URL" "Endpoint URL" endpoint = .ok u)
    (hrespond : fetch.respond (trustMarkStatusRequest endpoint jwt) = .ok received)
    (hdelivered : Delivered H maxBytes (jwtResponse responseJwt MediaType.trustMarkStatusResponse)
      received)
    (hkeys : KeyExchange H signJwt keySet clientKeySet)
    (hsigned : signEntityStatement (H.signing signJwt) (statusPayload entityId run jwt status)
      keySet.signer JwtTyp.trustMarkStatusResponse = .ok responseJwt)
    (hentity : entityId ≠ "") (hstatus : status ≠ "") :
    fetchTrustMarkStatus H endpoint jwt (publishedJwks clientKeySet.jwks) options fetch now =
      .ok (.ok ⟨.str status, .str entityId, .num run.answeredAt⟩) := by
  obtain ⟨text, hsent, htext⟩ := ReceivedResponse.text_delivered hdelivered
  obtain rfl : text = responseJwt := hsent
  have hok : received.ok = true := by
    rw [ReceivedResponse.ok, hdelivered.status]
    rfl
  have hmedia : IsMediaType MediaType.trustMarkStatusResponse := by decide +kernel
  have hmatches : ({} : PerformFetchOptions).matchesContentType H (received.headers.get "content-type")
      MediaType.trustMarkStatusResponse = true := by
    rw [hdelivered.contentType, jwtResponse_contentType]
    exact hmedia.matches H _
  have hverify : verifyEntityStatement H.toPlatform text (publishedJwks clientKeySet.jwks)
      options.clockSkew now JwtTyp.trustMarkStatusResponse = .ok ⟨_, _⟩ :=
    hkeys.verifies hsigned (statusPayload_timely _ _)
  unfold fetchTrustMarkStatus
  rw [hendpoint]
  dsimp only
  rw [FetchRun.send_eq hrespond (by rw [hdelivered.status]; rfl)]
  dsimp only [bind, Except.bind]
  rw [hok, hmatches, htext]
  dsimp only [bind, Except.bind, pure, Except.pure]
  simp only [Bool.not_true, Bool.false_eq_true, if_false]
  rw [hverify]
  exact congrArg Except.ok (trustMarkStatusData_statusPayload hentity hstatus)

end Decision

/-- The record of a mark that an issuance has stored. -/
theorem issued_record {ttl : Rat} {calls : List MarkCall} {call : Nat}
    {trustMarkType subject jwt : String} {issuedAt : Rat} {result : TrustMarkRecord}
    {state' : MemoryState}
    (hcall : calls[call]? = some (.issuance trustMarkType subject jwt issuedAt))
    (hnew : (marksOf (afterCalls ttl (calls.take call))).get? jwt = none)
    (hresult : ((MarkCall.issuance trustMarkType subject jwt issuedAt).operation ttl).run
      (afterCalls ttl (calls.take call)) = (.ok (some result), state'))
    (hjwt : result.jwt = jwt) :
    RecordedMark (afterCalls ttl (calls.take (call + 1))) jwt trustMarkType subject True := by
  rw [List.take_add_one, hcall, Option.toList_some, afterCalls_concat]
  obtain ⟨record, state'', hrun, hcases⟩ := issuance_cases (marksKept_afterCalls (calls.take call)) ttl
    trustMarkType subject jwt issuedAt
  rw [hresult] at hrun
  obtain ⟨hrecord, rfl⟩ := Prod.mk.inj hrun
  obtain rfl := Option.some.inj (Except.ok.inj hrecord)
  rw [hresult]
  rcases hcases with ⟨-, ⟨r, hr, -⟩, -⟩ | ⟨rfl, -, ⟨⟨r, hr⟩, -⟩ | ⟨-, rfl⟩⟩
  · rw [hjwt, hnew] at hr
    cases hr
  · rw [hnew] at hr
    cases hr
  · refine ⟨candidateMark ttl trustMarkType subject jwt issuedAt, ?_, rfl, rfl,
      iff_of_true rfl trivial⟩
    rw [marksOf_set]
    exact Dict.get?_set_self _ _ _

section Received

variable {P : Platform} {ttl : Rat} {S : IssuanceState} {trustMarkType subject jwt : String}
  {issuedAt : Rat} {call : Nat} {H : ClientHost}
  {signJwt : JwtSigner → Payload → Payload → Except String String}
  {initial : List FederationSigningKey} {policy : RevocationPolicy} {s s' : KeyRun}

/-- In every run of issuances and revocations, and of the keys, a client who asks about a mark that
was stored gets its status at the operation that the read of the storage comes after. -/
theorem trustMarkStatus_received {signedAt readAt clockSkew maxBytes : Rat} {u : Url}
    {keySet readKeySet answeringKeySet clientKeySet : FederationKeySet} {entityId endpoint : String}
    {delegations : Option (Dict String String)} {run : TrustMarkStatusRun} {request : Request}
    {response : Response} {received : ReceivedResponse}
    (fetch : FetchRun) (options : ClientOptions) (now : Rat)
    (h : (trustMarkIssuance P ttl).Reach S)
    (hissued : .committing trustMarkType subject jwt issuedAt call ∈ S.requests)
    (hdone : Committed S call (candidateMark ttl trustMarkType subject jwt issuedAt))
    (hnew : (marksOf (stateAt S call)).get? jwt = none)
    (hs : (keyLifecycle initial policy).Reach s) (hlater : (keyLifecycle initial policy).Later s s')
    (hkeySet : s.provider.getFederationKeySet signedAt = .ok keySet)
    (hmark : buildTrustMark (H.signing signJwt) entityId delegations keySet trustMarkType subject
      issuedAt ttl = .ok jwt)
    (hsigns : SignsAsPublished (H.signing signJwt) keySet)
    (hstorage : run.storage = S.adapter.shared)
    (hread : s'.provider.getFederationKeySet readAt = .ok readKeySet)
    (hverifying : run.keySet = .ok readKeySet) (hclock : run.verifiedAt ≤ run.now + clockSkew)
    (hkeys : KeyExchange H signJwt answeringKeySet clientKeySet)
    (hanswering : run.answeringKeySet = .ok answeringKeySet) (hentity : entityId ≠ "")
    (hjwt : jwt ≠ "")
    (hendpoint : checkEndpointUrl H "Invalid endpoint URL" "Endpoint URL" endpoint = .ok u)
    (hposted : Posted H (trustMarkStatusRequest endpoint jwt) request)
    (hserved : createTrustMarkStatusHandler H signJwt entityId clockSkew run request = some response)
    (hrespond : fetch.respond (trustMarkStatusRequest endpoint jwt) = .ok received)
    (hdelivered : Delivered H maxBytes response received) :
    ∃ calls k status, Linked ttl S calls ∧ call < k ∧
      S.adapter.shared = afterCalls ttl (calls.take k) ∧
      MarkStatus
        (markNamesType H (trustMarkPayload entityId delegations trustMarkType subject issuedAt ttl) =
          true)
        (issuedAt + ttl ≤ run.now) (s'.provider.Keeps keySet.signer.kid readAt)
        (RevokedBetween calls (call + 1) k trustMarkType subject) status ∧
      fetchTrustMarkStatus H endpoint jwt (publishedJwks clientKeySet.jwks) options fetch now =
        .ok (.ok ⟨.str status, .str entityId, .num run.answeredAt⟩) := by
  obtain ⟨calls, hlinked⟩ := linked_of_reach h
  have hserial := (memoryStorage_serializable hlinked.reach).1
  obtain ⟨c, hc, hresult⟩ := hdone
  -- the issuance is among the operations that the read of the storage comes after
  obtain ⟨k, -, hshared, hbefore⟩ := hserial.committed
  have hlt : call < k := hbefore call c _ hc hresult
  have hafter : S.adapter.shared = afterCalls ttl (calls.take k) :=
    hshared.trans (hlinked.stateAt_eq k)
  have hcalled := hlinked.committing _ _ _ _ _ hissued
  have hoperation : c.operation = (MarkCall.issuance trustMarkType subject jwt issuedAt).operation ttl := by
    have hget : S.adapter.operations[call]? = some c.operation := by simp [State.operations, hc]
    rw [hlinked.operations, List.getElem?_map, hcalled] at hget
    exact (Option.some.inj hget).symm
  have hran := hserial.results call c _ hc hresult
  rw [resultAfter, hoperation, show stateAfter noMarks (S.adapter.operations.take call) =
    afterCalls ttl (calls.take call) from hlinked.stateAt_eq call] at hran
  rw [hlinked.stateAt_eq call] at hnew
  have hrecorded : RecordedMark (afterCalls ttl (calls.take (call + 1))) jwt trustMarkType subject True :=
    issued_record hcalled hnew (Prod.ext hran.symm rfl) rfl
  -- the record, and whether it has been revoked since
  obtain ⟨record, hrecord, -, -, hactive⟩ := (record_afterCalls (Nat.succ_le_of_lt hlt) hrecorded).record
  have hkept := hlinked.kept
  have hget : getByJwt run.storage jwt = some record := by
    rw [getByJwt, hstorage, hkept.enabled, Option.bind_some, hafter]
    exact hrecord
  have henabled : run.storage.trustMarks.isSome := by
    rw [hstorage, hkept.enabled]
    rfl
  -- the signature, and whether its key is still kept
  obtain ⟨e, -, -, hwith, -⟩ := signer_entry hs hkeySet hsigns .refl
  obtain ⟨-, hsign⟩ := signEntityStatement_eq_ok hmark
  obtain ⟨hheader, hpayload⟩ := hwith.decodes _ _ _ hsign
  have hdecode : decodeEntityStatement H.toPlatform jwt =
      .ok ⟨protectedHeader keySet.signer.alg JwtTyp.trustMark keySet.signer.kid .empty,
        trustMarkPayload entityId delegations trustMarkType subject issuedAt ttl⟩ := by
    have hheader' : H.toPlatform.decodeProtectedHeader jwt = _ := hheader
    have hpayload' : H.toPlatform.decodeJwt jwt = _ := hpayload
    rw [decodeEntityStatement, hheader']
    dsimp only
    rw [hpayload']
  obtain ⟨status, hmarkStatus, hstatus⟩ := trustMarkStatus_issued clockSkew hdecode hget
    hactive hverifying
    (fun hnot hkeeps => ⟨_, verifies_of_keeps hs hkeySet hsigns (fun _ _ => rfl) hmark hlater hread
      (trustMarkPayload_timely (by linarith [not_le.mp hnot])) hkeeps⟩)
    fun hgone es => not_verifies_of_gone hs hkeySet hsigns (fun _ _ => rfl) hmark hlater hread hgone es
  -- the response, and what the client makes of it
  rw [createTrustMarkStatusHandler_posted rfl rfl hjwt henabled hposted, answerTrustMark, hstatus] at hserved
  obtain ⟨keySet', hkeySet', hbuilt⟩ := Option.bind_eq_some_iff.mp hserved
  obtain ⟨responseJwt, hsigned, hresponse⟩ := Option.bind_eq_some_iff.mp hbuilt
  rw [hanswering] at hkeySet'
  obtain rfl : answeringKeySet = keySet' := Option.some.inj hkeySet'
  rw [toOption_eq_some] at hsigned
  obtain rfl := Option.some.inj hresponse
  exact ⟨calls, k, status, hlinked, hlt, hafter, hmarkStatus,
    fetchTrustMarkStatus_signed hendpoint hrespond hdelivered hkeys hsigned hentity
      hmarkStatus.ne_empty⟩

end Received

/-! ## An example -/

/-- A mark that has been issued with the key `a`, and its status. -/
def statusTable : List (String × SignedJwt) :=
  [("mark", {
    header := protectedHeader "ES256" JwtTyp.trustMark "a" .empty
    payload := trustMarkPayload "https://ta.example" none "https://ta.example/mark"
      "https://rp.example" 1000 markIssuer.ttl
    key := "a" }),
  ("status", {
    header := protectedHeader "ES256" JwtTyp.trustMarkStatusResponse "a" .empty
    payload := Dict.ofEntries [("iss", .str "https://ta.example"), ("iat", .num 1002),
      ("trust_mark", .str "mark"), ("status", .str TrustMarkStatus.revoked)]
    key := "a" })]

def statusHost : ClientHost := tableClientHost statusTable [] []

/-- The mark is asked about when it has been revoked, and another one has been issued. -/
def statusRun : TrustMarkStatusRun where
  storage := (exampleIssuance issuedAnew).adapter.shared
  now := 1001
  keySet := .ok exampleKeySet
  verifiedAt := 1001
  answeringKeySet := .ok exampleKeySet
  answeredAt := 1002

def statusRequest : Request where
  method := "POST"
  pathname := "/status"
  body := some (.text "trust_mark=mark")

def receivedStatus : ReceivedResponse where
  status := 200
  headers := [("content-type", MediaType.trustMarkStatusResponse)]
  body := some (inTwoChunks "status")

def statusUrl : Url where
  protocol := "https:"
  hostname := "ta.example"
  href := "https://ta.example/status"

/-- The client hears that the mark is revoked. -/
theorem issuedMark_revoked : ∃ calls k, Linked markIssuer.ttl (exampleIssuance issuedAnew) calls ∧
    0 < k ∧
    MarkStatus
      (markNamesType statusHost (trustMarkPayload "https://ta.example" none "https://ta.example/mark"
        "https://rp.example" 1000 markIssuer.ttl) = true)
      (1000 + markIssuer.ttl ≤ 1001) ((createdWith "a").Keeps "a" 0)
      (RevokedBetween calls 1 k "https://ta.example/mark" "https://rp.example")
      TrustMarkStatus.revoked := by
  have hdone : Committed (exampleIssuance issuedAnew) 0
      (candidateMark markIssuer.ttl "https://ta.example/mark" "https://rp.example" "mark" 1000) := by
    have hresult : ((exampleIssuance issuedAnew).adapter.calls[0]?.bind fun c => c.stage.result?) =
        some (.ok (some (candidateMark markIssuer.ttl "https://ta.example/mark"
          "https://rp.example" "mark" 1000))) := by
      decide +kernel
    exact Option.bind_eq_some_iff.mp hresult
  have hposted : Posted statusHost (trustMarkStatusRequest "https://ta.example/status" "mark")
      statusRequest :=
    ⟨rfl, "trust_mark=mark", by decide +kernel, by decide +kernel⟩
  have hserved : createTrustMarkStatusHandler statusHost (signingTable statusTable).signJwt
      "https://ta.example" 60 statusRun statusRequest =
        some (jwtResponse "status" MediaType.trustMarkStatusResponse) := by
    decide +kernel
  have hdelivered : Delivered statusHost 100 (jwtResponse "status" MediaType.trustMarkStatusResponse)
      receivedStatus := by
    refine ⟨rfl, by decide +kernel, inTwoChunks "status", rfl, rfl, ?_, by decide +kernel,
      fun length h => (by cases h)⟩
    exact (by decide +kernel : statusHost.decodeUtf8 (inTwoChunks "status").chunks.flatten = "status")
  have hmark : buildTrustMark (statusHost.signing (signingTable statusTable).signJwt)
      "https://ta.example" none exampleKeySet "https://ta.example/mark" "https://rp.example" 1000
      markIssuer.ttl = .ok "mark" := by
    decide +kernel
  have hsigns : SignsAsPublished (statusHost.signing (signingTable statusTable).signJwt)
      exampleKeySet :=
    exampleKeySet_signs statusTable (by simp [statusTable]) [] []
  have hkeys : KeyExchange statusHost (signingTable statusTable).signJwt exampleKeySet exampleKeySet :=
    exampleKeySet_exchange statusTable (by simp [statusTable]) [] []
  have hkeySet : (createdWith "a").getFederationKeySet 0 = .ok exampleKeySet := rfl
  have hendpoint : checkEndpointUrl statusHost "Invalid endpoint URL" "Endpoint URL"
      "https://ta.example/status" = .ok statusUrl := by
    decide +kernel
  obtain ⟨calls, k, status, hlinked, hlt, -, hstatus, hfetched⟩ := trustMarkStatus_received
    { respond := fun _ => .ok receivedStatus } {} 1003 (reach_issuanceRun (tablePlatform []) markIssuer 1000 issuedAnew)
    (by rw [← exampleIssuance, exampleIssuance_requests]; exact List.mem_cons_self) hdone
    (by decide +kernel) (createdWith_reached "a" rfl) .refl hkeySet hmark hsigns rfl hkeySet rfl
    (by norm_num [statusRun]) hkeys rfl (by decide) (by decide) hendpoint hposted hserved rfl
    hdelivered
  have hrevoked : fetchTrustMarkStatus statusHost "https://ta.example/status" "mark"
      (publishedJwks exampleKeySet.jwks) {} { respond := fun _ => .ok receivedStatus } 1003 =
        .ok (.ok ⟨.str TrustMarkStatus.revoked, .str "https://ta.example", .num 1002⟩) := by
    decide +kernel
  rw [hrevoked] at hfetched
  have hsame : Json.str TrustMarkStatus.revoked = .str status :=
    congrArg TrustMarkStatusResult.status (Except.ok.inj (Except.ok.inj hfetched))
  rw [Json.str.inj hsame]
  exact ⟨calls, k, hlinked, hlt, hstatus⟩

end OidFed
