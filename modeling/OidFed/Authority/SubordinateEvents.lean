import OidFed.Client.FederationApi
import OidFed.Storage.Lifecycle

/-!
# Subordinate events, from the storage to a client (`authority/src/endpoints/subordinate-events.ts`)

Changes of subordinates and reads of their histories are transactions of one adapter, which
interleave. The handler signs what its transaction has read.

* `HistoryCall`: a change, or a read. `HistoriesKept.call`: each keeps histories and records together.
  `history_grows`: no call takes an event away.
* `createSubordinateEventsHandler`: the endpoint.
* `subordinateEvents_received`: a client gets the events that the calls before the read have
  recorded, or hears that there are none; of two reads, the later one extends the earlier one.
-/

namespace OidFed

open Js Exclusive

/-! ## Calls of the storage -/

section Calls

variable (numberText : Rat → String) (ctx : LifecycleContext)

/-- The transaction of a call of the lifecycle. -/
def LifecycleCall.callback : LifecycleCall → Transaction Unit
  | register record iat => registerCallback ctx record iat
  | update subject updates now iat => updateCallback numberText ctx subject updates now iat
  | revoke subject iat => revokeCallback ctx subject iat

/-- The transaction of the endpoint; `none` where nothing is known of the subject. -/
def readEventsCallback (issuer subject : String) : Transaction (Option (List SubordinateEvent)) := do
  txRead fun draft =>
    if draft.subordinateEvents.isNone then
      .error (.error "Transaction-bound subordinateEvents is unavailable")
    else .ok ()
  let history ← txRead fun draft => .ok (draft.listEvents issuer subject)
  let record ← if history.isEmpty then txRead fun draft => .ok (draft.getSubordinate subject)
    else pure none
  return if history.isEmpty && record.isNone then none else some history

inductive HistoryCall where
  | change (call : LifecycleCall)
  | read (subject : String)

def HistoryCall.callback : HistoryCall → Transaction (Option (List SubordinateEvent))
  | change call => do
    call.callback numberText ctx
    return none
  | read subject => readEventsCallback ctx.entityId subject

def HistoryCall.operation (call : HistoryCall) : StorageOperation (Option (List SubordinateEvent)) :=
  transactionOperation (call.callback numberText ctx)

end Calls

section Histories

variable {numberText : Rat → String} {ctx : LifecycleContext} {state : MemoryState}

theorem LifecycleCall.operation_eq (call : LifecycleCall) :
    call.operation numberText ctx = transactionOperation (call.callback numberText ctx) := by
  cases call <;> rfl

/-- A change leaves the state that the call of the lifecycle leaves. -/
theorem HistoryCall.change_run (call : LifecycleCall) (state : MemoryState) :
    (((HistoryCall.change call).operation numberText ctx).run state).2 =
      ((call.operation numberText ctx).run state).2 := by
  rw [call.operation_eq, HistoryCall.operation, transactionOperation_run, transactionOperation_run,
    HistoryCall.callback, Script.runExcept_bind]
  cases Script.runExcept (call.callback numberText ctx) state with
  | mk r draft =>
    cases r with
    | ok _ => rfl
    | error e => rfl

/-- A read answers with the history, unless it is empty and there is no record. -/
theorem HistoryCall.read_run (henabled : state.subordinateEvents.isSome) (subject : String) :
    ((HistoryCall.read subject).operation numberText ctx).run state =
      (.ok (some (if (state.listEvents ctx.entityId subject).isEmpty &&
          (state.getSubordinate subject).isNone then none
        else some (state.listEvents ctx.entityId subject))), state) := by
  have hnone : state.subordinateEvents.isNone = false := by simpa using henabled
  rw [HistoryCall.operation, transactionOperation_run, HistoryCall.callback, readEventsCallback,
    Script.runExcept_bind, runExcept_txRead, hnone, if_neg Bool.false_ne_true]
  dsimp only
  rw [Script.runExcept_bind, runExcept_txRead]
  dsimp only
  by_cases hempty : (state.listEvents ctx.entityId subject).isEmpty = true
  · rw [if_pos hempty, Script.runExcept_bind, runExcept_txRead]
    rfl
  · rw [if_neg hempty, Script.runExcept_bind, Script.runExcept_pure]
    simp [hempty]

/-- What a call of the lifecycle does: nothing, or a change that appends to one history. -/
theorem LifecycleCall.effect (hctx : ctx.subordinateEvents = true)
    (henabled : state.subordinateEvents.isSome) (numberText : Rat → String) (call : LifecycleCall) :
    ((call.operation numberText ctx).run state).2 = state ∨
      ∃ subject record events, Effect ctx.entityId state
        ((call.operation numberText ctx).run state).2 subject record events := by
  cases call with
  | register record iat =>
    rcases register_cases numberText hctx henabled record iat with
      ⟨e, hrun⟩ | ⟨stored, state', hrun, -, heffect⟩
    · exact .inl (by rw [hrun])
    · exact .inr ⟨_, _, _, by rw [hrun]; exact heffect⟩
  | update subject updates now iat =>
    rcases update_cases numberText hctx henabled subject updates now iat with
      ⟨e, hrun⟩ | ⟨before, after, eventTypes, state', hrun, -, -, heffect⟩
    · exact .inl (by rw [hrun])
    · exact .inr ⟨_, _, _, by rw [hrun]; exact heffect⟩
  | revoke subject iat =>
    rcases revoke_cases numberText hctx henabled subject iat with
      ⟨e, hrun⟩ | ⟨state', hrun, -, heffect⟩
    · exact .inl (by rw [hrun])
    · exact .inr ⟨_, _, _, by rw [hrun]; exact heffect⟩

theorem HistoriesKept.call (hn : NumberTexts numberText) (hctx : ctx.subordinateEvents = true)
    (h : HistoriesKept ctx state) (call : HistoryCall) :
    HistoriesKept ctx ((call.operation numberText ctx).run state).2 := by
  cases call with
  | change call =>
    rw [HistoryCall.change_run]
    exact h.step hn hctx call
  | read subject =>
    rw [HistoryCall.read_run h.enabled]
    exact h

/-- No call takes an event away. -/
theorem HistoriesKept.grows (hctx : ctx.subordinateEvents = true) (h : HistoriesKept ctx state)
    (call : HistoryCall) (subject : String) :
    state.listEvents ctx.entityId subject <+:
      ((call.operation numberText ctx).run state).2.listEvents ctx.entityId subject := by
  cases call with
  | change call =>
    rw [HistoryCall.change_run]
    rcases call.effect hctx h.enabled numberText with hsame | ⟨changed, record, events, heffect⟩
    · rw [hsame]
    · rw [heffect.histories subject]
      exact List.prefix_append _ _
  | read other =>
    rw [HistoryCall.read_run h.enabled]

/-- A record has a history. -/
theorem Recorded.ne_nil {history : List String} (h : Recorded history true) : history ≠ [] := by
  rintro rfl
  have hlast := h.present_iff.mp rfl
  cases hlast

end Histories

section Runs

variable {numberText : Rat → String} {ctx : LifecycleContext} {initial : MemoryState}

/-- The history of a subject after the first calls. -/
def historyAfter (ctx : LifecycleContext) (initial : MemoryState) (subject : String)
    (operations : List (StorageOperation (Option (List SubordinateEvent)))) :
    List SubordinateEvent :=
  (stateAfter initial operations).listEvents ctx.entityId subject

variable {operations : List (StorageOperation (Option (List SubordinateEvent)))}

theorem histories_kept (hn : NumberTexts numberText) (hctx : ctx.subordinateEvents = true)
    (hnew : NewStorage initial)
    (hcalls : ∀ op ∈ operations, ∃ call : HistoryCall, op = call.operation numberText ctx) :
    HistoriesKept ctx (stateAfter initial operations) :=
  stateAfter_invariant hnew.kept fun op hop state hstate => by
    obtain ⟨call, rfl⟩ := hcalls op hop
    exact hstate.call hn hctx call

/-- Over a run, a history only grows. -/
theorem history_grows (hn : NumberTexts numberText) (hctx : ctx.subordinateEvents = true)
    (hnew : NewStorage initial)
    (hcalls : ∀ op ∈ operations, ∃ call : HistoryCall, op = call.operation numberText ctx)
    (subject : String) {i j : Nat} (hij : i ≤ j) :
    historyAfter ctx initial subject (operations.take i) <+:
      historyAfter ctx initial subject (operations.take j) := by
  induction hij with
  | refl => exact List.prefix_rfl
  | @step j _ ih =>
    refine ih.trans ?_
    rw [List.take_add_one]
    cases hop : operations[j]? with
    | none => simp
    | some op =>
      obtain ⟨call, rfl⟩ := hcalls op (List.mem_of_getElem? hop)
      rw [Option.toList_some, historyAfter, historyAfter, stateAfter_concat]
      exact (histories_kept hn hctx hnew fun o ho => hcalls o (List.mem_of_mem_take ho)).grows hctx
        call subject

/-- A read that has finished has seen the history after the calls before it. -/
theorem read_finished (hn : NumberTexts numberText) (hctx : ctx.subordinateEvents = true)
    (hnew : NewStorage initial) {A : State MemoryState StorageError (Option (Option (List SubordinateEvent)))}
    (h : (memoryStorageAdapter (Option (List SubordinateEvent)) initial).Reach A)
    (hcalls : ∀ op ∈ A.operations, ∃ call : HistoryCall, op = call.operation numberText ctx)
    {i : Nat} {call : Call MemoryState StorageError (Option (Option (List SubordinateEvent)))}
    {subject : String} {result : StorageResult (Option (List SubordinateEvent))}
    (hi : A.calls[i]? = some call)
    (hop : call.operation = (HistoryCall.read subject).operation numberText ctx)
    (hresult : call.stage.result? = some result) :
    result = .ok (some (if historyAfter ctx initial subject (A.operations.take i) = [] then none
      else some (historyAfter ctx initial subject (A.operations.take i)))) ∧
    Recorded ((historyAfter ctx initial subject (A.operations.take i)).map (·.event))
      ((stateAfter initial (A.operations.take i)).getSubordinate subject).isSome := by
  have hkept : HistoriesKept ctx (stateAfter initial (A.operations.take i)) :=
    histories_kept hn hctx hnew fun o ho => hcalls o (List.mem_of_mem_take ho)
  have hran := (memoryStorage_serializable h).1.results i call result hi hresult
  rw [resultAfter, hop, HistoryCall.read_run hkept.enabled] at hran
  refine ⟨?_, hkept.recorded subject⟩
  have hrecorded := hkept.recorded subject
  rw [hran, historyAfter]
  by_cases hempty : (stateAfter initial (A.operations.take i)).listEvents ctx.entityId subject = []
  · rw [if_pos hempty]
    cases hrecord : (stateAfter initial (A.operations.take i)).getSubordinate subject with
    | none => simp [hempty]
    | some record =>
      rw [hempty, hrecord] at hrecorded
      exact absurd rfl hrecorded.ne_nil
  · rw [if_neg hempty, if_neg]
    simp [hempty]

end Runs

/-! ## The endpoint -/

/-- What a request to the endpoint reads. -/
structure SubordinateEventsRun where
  /-- The storage has event history. -/
  configured : Bool := true
  /-- The result of the transaction. -/
  events : StorageResult (Option (List SubordinateEvent))
  keySet : Except String FederationKeySet
  now : Rat

def eventPayload (event : SubordinateEvent) : Payload :=
  Dict.ofEntries [("iat", .num event.iat), ("event", .str event.event)]

def subordinateEventsPayload (entityId subject : String) (now : Rat)
    (events : List SubordinateEvent) : Payload :=
  Dict.ofEntries [("iss", .str entityId), ("sub", .str subject), ("iat", .num now),
    ("federation_registration_events", .arr (events.map fun e => .obj (eventPayload e).members))]

section Handler

variable (H : ClientHost) (signJwt : JwtSigner → Payload → Payload → Except String String)
  (entityId : String)

/-- `SubordinateEventsResponseSchema.parse(payload)`. -/
def parseSubordinateEvents (payload : Payload) : Except StorageError Payload :=
  if subordinateEventsResponseSchema H.toPlatform (.obj payload.members) then
    let output (name : String) : Json := .str ((urlOutput H.toPlatform (payload.get? name)).getD "")
    .ok ((payload.set "iss" (output "iss")).set "sub" (output "sub"))
  else .error (.error (H.zodMessage "SubordinateEventsResponse" (.obj payload.members)))

/-- Read a consistent snapshot, then sign outside the retryable transaction. -/
def buildSubordinateEvents (subject : String) (run : SubordinateEventsRun) :
    Except StorageError (Option String) :=
  if !run.configured then .error (.error "Subordinate event storage is not configured")
  else do
    match ← run.events with
    | none | some none => return none
    | some (some events) =>
      let payload ← parseSubordinateEvents H (subordinateEventsPayload entityId subject run.now events)
      let keys ← run.keySet.mapError .error
      let jwt ← (signEntityStatement (H.signing signJwt) payload keys.signer
        JwtTyp.entityEventsStatement).mapError .error
      return some jwt

/-- The response to what has been built. -/
def subordinateEventsResponse : Except StorageError (Option String) → Response
  | .error _ => errorResponse 500 FederationErrorCode.ServerError.text
      "Failed to build subordinate events response"
  | .ok none => errorResponse 404 FederationErrorCode.NotFound.text "Entity history not found"
  | .ok (some jwt) => jwtResponse jwt MediaType.entityEventsStatement

def createSubordinateEventsHandler (run : SubordinateEventsRun) (request : Request) : Response :=
  match requireMethod request "GET" with
  | some methodError => methodError
  | none =>
    let subjects := valuesOf request.searchParams "sub"
    let subject := subjects.head?.getD ""
    if subjects.length != 1 || subject == "" || !isValidEntityId H.toPlatform subject then
      errorResponse 400 FederationErrorCode.InvalidRequest.text "Missing or invalid 'sub' parameter"
    else subordinateEventsResponse (buildSubordinateEvents H signJwt entityId subject run)

end Handler

section Response

variable {H : ClientHost} {signJwt : JwtSigner → Payload → Payload → Except String String}
  {entityId subject : String} {now : Rat} {events : List SubordinateEvent}

theorem subordinateEventsPayload_get? {name : String} :
    (subordinateEventsPayload entityId subject now events).get? name =
      [("iss", Json.str entityId), ("sub", .str subject), ("iat", .num now),
        ("federation_registration_events",
          .arr (events.map fun e => .obj (eventPayload e).members))].lookup name :=
  Dict.get?_ofEntries (by simp) name

theorem subordinateEventsPayload_timely (clockSkew readAt : Rat) :
    Timely (subordinateEventsPayload entityId subject now events) clockSkew readAt where
  exp v hv := by
    rw [subordinateEventsPayload_get?] at hv
    cases hv
  nbf v hv := by
    rw [subordinateEventsPayload_get?] at hv
    cases hv
  iat v hv := by
    rw [subordinateEventsPayload_get?] at hv
    exact ⟨now, (Option.some.inj hv).symm⟩

theorem eventPayload_schema (P : Platform) (event : SubordinateEvent) :
    subordinateEventSchema P (.obj (eventPayload event).members) = true := by
  have hget : ∀ name, (eventPayload event).get? name =
      [("iat", Json.num event.iat), ("event", .str event.event)].lookup name :=
    fun name => Dict.get?_ofEntries (by simp) name
  rw [subordinateEventSchema, looseObject_iff]
  simp only [List.forall_mem_cons, List.not_mem_nil, false_imp_iff, implies_true, and_true, hget]
  refine ⟨⟨fun v hv => ?_, fun hnone => by cases hnone⟩,
    ⟨fun v hv => ?_, fun hnone => by cases hnone⟩, fun v hv => (by cases hv), fun v hv => (by cases hv)⟩
  · obtain rfl := Option.some.inj hv
    rfl
  · obtain rfl := Option.some.inj hv
    rfl

theorem subordinateEventsPayload_schema (hissuer : CanonicalId H.toPlatform entityId)
    (hsubject : CanonicalId H.toPlatform subject) :
    subordinateEventsResponseSchema H.toPlatform
      (.obj (subordinateEventsPayload entityId subject now events).members) = true := by
  rw [subordinateEventsResponseSchema, looseObject_iff]
  simp only [List.forall_mem_cons, List.not_mem_nil, false_imp_iff, implies_true, and_true,
    subordinateEventsPayload_get?]
  refine ⟨⟨fun v hv => ?_, fun hnone => by cases hnone⟩,
    ⟨fun v hv => ?_, fun hnone => by cases hnone⟩, ⟨fun v hv => ?_, fun hnone => by cases hnone⟩,
    fun v hv => (by cases hv), ⟨fun v hv => ?_, fun hnone => by cases hnone⟩⟩
  · obtain rfl := Option.some.inj hv
    exact hissuer.schema
  · obtain rfl := Option.some.inj hv
    exact hsubject.schema
  · obtain rfl := Option.some.inj hv
    rfl
  · obtain rfl := Option.some.inj hv
    rw [Schema.array, List.all_map, List.all_eq_true]
    exact fun e _ => eventPayload_schema H.toPlatform e

/-- The schema leaves the payload of canonical identifiers as it is. -/
theorem parseSubordinateEvents_eq (hissuer : CanonicalId H.toPlatform entityId)
    (hsubject : CanonicalId H.toPlatform subject) :
    parseSubordinateEvents H (subordinateEventsPayload entityId subject now events) =
      .ok (subordinateEventsPayload entityId subject now events) := by
  have hissuerGet : (subordinateEventsPayload entityId subject now events).get? "iss" =
      some (.str entityId) := by
    rw [subordinateEventsPayload_get?]
    rfl
  have hsubjectGet : (subordinateEventsPayload entityId subject now events).get? "sub" =
      some (.str subject) := by
    rw [subordinateEventsPayload_get?]
    rfl
  have hissuerOutput : urlOutput H.toPlatform (some (.str entityId)) = some entityId := hissuer.output
  have hsubjectOutput : urlOutput H.toPlatform (some (.str subject)) = some subject := hsubject.output
  unfold parseSubordinateEvents
  rw [if_pos (subordinateEventsPayload_schema hissuer hsubject)]
  simp only [hissuerGet, hsubjectGet, hissuerOutput, hsubjectOutput, Option.getD_some]
  rw [Dict.set_get? hissuerGet, Dict.set_get? hsubjectGet]

/-- What the client reads in the payload. -/
theorem subordinateEventsData_eq (hissuer : CanonicalId H.toPlatform entityId)
    (hsubject : CanonicalId H.toPlatform subject) :
    subordinateEventsData H (subordinateEventsPayload entityId subject now events) =
      ⟨entityId, subject, now, none, events.map eventPayload⟩ := by
  have hproto : ∀ event, (eventPayload event).get? "__proto__" = none := fun event => by
    rw [eventPayload, Dict.get?_ofEntries (by simp)]
    rfl
  have hissuerOutput : urlOutput H.toPlatform (some (.str entityId)) = some entityId := hissuer.output
  have hsubjectOutput : urlOutput H.toPlatform (some (.str subject)) = some subject := hsubject.output
  have hevents : objectItems (subordinateEventsPayload entityId subject now events)
      "federation_registration_events" = events.map eventPayload := by
    have hitems : ((subordinateEventsPayload entityId subject now events).get?
        "federation_registration_events").bind Json.items? =
          some (events.map fun e => .obj (eventPayload e).members) := by
      rw [subordinateEventsPayload_get?]
      rfl
    rw [objectItems, hitems, Option.getD_some, List.map_map]
    exact List.map_congr_left fun e _ => looseCopy_obj (hproto e)
  rw [subordinateEventsData, hevents, Payload.number?, Payload.number?,
    subordinateEventsPayload_get?, subordinateEventsPayload_get?, subordinateEventsPayload_get?,
    subordinateEventsPayload_get?]
  simp [List.lookup, hissuerOutput, hsubjectOutput, Json.number?]

/-- What the handler answers to a well-formed request, unless it fails. -/
theorem createSubordinateEventsHandler_cases {run : SubordinateEventsRun} {request : Request}
    {keySet : FederationKeySet} (hissuer : CanonicalId H.toPlatform entityId)
    (hsubject : CanonicalId H.toPlatform subject) (hmethod : request.method = "GET")
    (hparams : valuesOf request.searchParams "sub" = [subject]) (hne : subject ≠ "")
    (hkeySet : run.keySet = .ok keySet)
    (hserved : (createSubordinateEventsHandler H signJwt entityId run request).status ≠ 500) :
    (run.events = .ok (some none) → createSubordinateEventsHandler H signJwt entityId run request =
        errorResponse 404 FederationErrorCode.NotFound.text "Entity history not found") ∧
    ∀ events, run.events = .ok (some (some events)) → ∃ jwt,
      signEntityStatement (H.signing signJwt) (subordinateEventsPayload entityId subject run.now events)
        keySet.signer JwtTyp.entityEventsStatement = .ok jwt ∧
      createSubordinateEventsHandler H signJwt entityId run request =
        jwtResponse jwt MediaType.entityEventsStatement := by
  have hget : requireMethod request "GET" = none := requireMethod_of_method hmethod
  have hhandler : createSubordinateEventsHandler H signJwt entityId run request =
      subordinateEventsResponse (buildSubordinateEvents H signJwt entityId subject run) := by
    unfold createSubordinateEventsHandler
    rw [hget, hparams]
    dsimp only
    rw [if_neg]
    · rfl
    · simp [hne, hsubject.isValidEntityId]
  rw [hhandler] at hserved ⊢
  have hconfigured : run.configured = true := by
    by_contra hno
    rw [buildSubordinateEvents, if_pos (by simp [hno])] at hserved
    exact hserved rfl
  refine ⟨fun hread => ?_, fun events hread => ?_⟩
  · rw [buildSubordinateEvents, if_neg (by simp [hconfigured]), hread]
    rfl
  · have hbuild : buildSubordinateEvents H signJwt entityId subject run =
        ((signEntityStatement (H.signing signJwt)
          (subordinateEventsPayload entityId subject run.now events) keySet.signer
          JwtTyp.entityEventsStatement).mapError .error).map some := by
      rw [buildSubordinateEvents, if_neg (by simp [hconfigured]), hread]
      dsimp only [bind, Except.bind]
      rw [parseSubordinateEvents_eq hissuer hsubject, hkeySet]
      dsimp only [Except.mapError]
      cases signEntityStatement (H.signing signJwt)
        (subordinateEventsPayload entityId subject run.now events) keySet.signer
        JwtTyp.entityEventsStatement <;> rfl
    rw [hbuild] at hserved ⊢
    cases hsign : signEntityStatement (H.signing signJwt)
        (subordinateEventsPayload entityId subject run.now events) keySet.signer
        JwtTyp.entityEventsStatement with
    | error e =>
      rw [hsign] at hserved
      exact absurd rfl hserved
    | ok jwt => exact ⟨jwt, rfl, rfl⟩

end Response

/-! ## From the storage to a client -/

/-- The options of a client without an assertion of its own. -/
def ClientOptions.forHistory (options : ClientOptions) (issuer : String) (issuerJwks : JWKSet) :
    FetchSubordinateEventsOptions :=
  { options with issuer, issuerJwks }

section Received

variable {H : ClientHost} {signJwt : JwtSigner → Payload → Payload → Except String String}
  {numberText : Rat → String} {ctx : LifecycleContext} {initial : MemoryState}

/-- A client gets the events of the calls before the read, or hears that there are none. They tell
whether the subject has a record, and a later read extends them. -/
theorem subordinateEvents_received {keySet clientKeySet : FederationKeySet}
    {A : State MemoryState StorageError (Option (Option (List SubordinateEvent)))} {i : Nat}
    {call : Call MemoryState StorageError (Option (Option (List SubordinateEvent)))}
    {subject endpoint : String} {result : StorageResult (Option (List SubordinateEvent))}
    {options : ClientOptions} {url : Url} {request : Request} {fetch : FetchRun} {issuedAt : Rat}
    (now : Rat) (hn : NumberTexts numberText) (hctx : ctx.subordinateEvents = true)
    (hnew : NewStorage initial)
    (hreach : (memoryStorageAdapter (Option (List SubordinateEvent)) initial).Reach A)
    (hcalls : ∀ op ∈ A.operations, ∃ call : HistoryCall, op = call.operation numberText ctx)
    (hi : A.calls[i]? = some call)
    (hop : call.operation = (HistoryCall.read subject).operation numberText ctx)
    (hresult : call.stage.result? = some result)
    (hkeys : KeyExchange H signJwt keySet clientKeySet)
    (hissuer : CanonicalId H.toPlatform ctx.entityId) (hsubject : CanonicalId H.toPlatform subject)
    (hne : subject ≠ "")
    (hendpoint : validateFetchUrl H endpoint options.toFetchOptions = .ok url)
    (hfragment : '#' ∉ url.href.toList)
    (hreads : ReadsBack H url (setParam (H.urlParams url) "sub" subject))
    (harrives : Arrives H (((options.forHistory ctx.entityId
      (publishedJwks clientKeySet.jwks)).performOptions subject).request
        (setSearchParam H url "sub" subject).href) request)
    (hanswered : Answered H (setSearchParam H url "sub" subject).href
      ((options.forHistory ctx.entityId (publishedJwks clientKeySet.jwks)).performOptions subject) fetch
      (createSubordinateEventsHandler H signJwt ctx.entityId
        { events := result, keySet := .ok keySet, now := issuedAt } request))
    (hserved : (createSubordinateEventsHandler H signJwt ctx.entityId
      { events := result, keySet := .ok keySet, now := issuedAt } request).status ≠ 500) :
    let events := historyAfter ctx initial subject (A.operations.take i)
    (fetchSubordinateEvents H endpoint subject
        (options.forHistory ctx.entityId (publishedJwks clientKeySet.jwks)) fetch now).2 =
      (if events = [] then .error (federationError .NotFound "Entity history not found")
      else .ok ⟨ctx.entityId, subject, issuedAt, none, events.map eventPayload⟩) ∧
    Recorded (events.map (·.event))
      ((stateAfter initial (A.operations.take i)).getSubordinate subject).isSome ∧
    ∀ j, i ≤ j → events <+: historyAfter ctx initial subject (A.operations.take j) := by
  intro events
  obtain ⟨hread, hrecorded⟩ := read_finished hn hctx hnew hreach hcalls hi hop hresult
  refine ⟨?_, hrecorded, fun j hij => history_grows hn hctx hnew hcalls subject hij⟩
  let clientOptions := options.forHistory ctx.entityId (publishedJwks clientKeySet.jwks)
  have hparams : valuesOf request.searchParams "sub" = [subject] := harrives.valuesOf rfl hreads
  obtain ⟨hmissing, hfound⟩ := createSubordinateEventsHandler_cases hissuer hsubject
    harrives.method hparams hne rfl hserved
  -- the checks before the request pass
  have hfetch : fetchSubordinateEvents H endpoint subject clientOptions fetch now =
      Fetched.check (performFetch H (setSearchParam H url "sub" subject).href
        (clientOptions.performOptions subject) fetch) fun jwt =>
          verifySubordinateEventsResponse H jwt (publishedJwks clientKeySet.jwks) options.clockSkew now
            ctx.entityId subject := by
    have hvalid : validateFetchUrl H endpoint clientOptions.toFetchOptions = .ok url := hendpoint
    have hchecks : (url.href.toList.contains '#' || !isValidEntityId H.toPlatform subject ||
        !isValidEntityId H.toPlatform clientOptions.issuer) = false := by
      rw [show clientOptions.issuer = ctx.entityId from rfl, hsubject.isValidEntityId,
        hissuer.isValidEntityId]
      simpa using hfragment
    rw [fetchSubordinateEvents, hvalid]
    dsimp only
    rw [hchecks, if_neg Bool.false_ne_true]
    rfl
  rw [show options.forHistory ctx.entityId (publishedJwks clientKeySet.jwks) = clientOptions from rfl,
    hfetch]
  -- without a history the endpoint answers with an error, which the client passes on
  by_cases hempty : events = []
  · rw [if_pos hempty]
    have hnone : result = .ok (some none) := by rw [hread, if_pos hempty]
    rw [hmissing hnone] at hanswered
    rw [performFetch_error hanswered (by decide) rfl]
    rfl
  · rw [if_neg hempty]
    have hsome : result = .ok (some (some events)) := by rw [hread, if_neg hempty]
    obtain ⟨jwt, hjwt, hresponse⟩ := hfound events hsome
    rw [hresponse] at hanswered
    rw [performFetch_jwt (by decide +kernel) rfl (fun status h => (Option.some.inj h).symm) hanswered]
    have hverified : verifySignedResponse H jwt (publishedJwks clientKeySet.jwks) options.clockSkew now
        JwtTyp.entityEventsStatement "SubordinateEventsResponse"
        "Invalid subordinate events response: " (subordinateEventsResponseSchema H.toPlatform)
        (subordinateEventsData H) =
          .ok ⟨ctx.entityId, subject, issuedAt, none, events.map eventPayload⟩ := by
      rw [hkeys.verifySignedResponse hjwt (subordinateEventsPayload_timely options.clockSkew now)
        (subordinateEventsPayload_schema hissuer hsubject), subordinateEventsData_eq hissuer hsubject]
    dsimp only [Fetched.check, bind, Except.bind]
    rw [verifySubordinateEventsResponse, hverified]
    dsimp only [bind, Except.bind]
    rw [if_neg (by simp)]
    rfl

end Received

/-! ## An example -/

/-- A registration and a read, both called before the first one runs. -/
def historyCalls : List HistoryCall :=
  [.change (.register exampleSubordinate 1), .read "https://rp.example"]

def historyMoves : List (Move MemoryState StorageError (Option (Option (List SubordinateEvent)))) :=
  historyCalls.map (fun call => .invoke (call.operation decimalText exampleContext)) ++
    List.replicate 7 (.advance 0) ++ List.replicate 5 (.advance 1)

theorem historyMoves_calls : ∀ op, .invoke op ∈ historyMoves →
    ∃ call : HistoryCall, op = call.operation decimalText exampleContext := by
  intro op hop
  simp only [historyMoves, List.mem_append, List.mem_map, Move.invoke.injEq, List.mem_replicate,
    reduceCtorEq, and_false, or_false] at hop
  obtain ⟨call, -, hcall⟩ := hop
  exact ⟨call, hcall.symm⟩

def registration : SubordinateEvent := ⟨1, SubordinateEventType.registration⟩

/-- The history with one registration, signed with the key `a`. -/
def eventsTable : List (String × SignedJwt) :=
  [("events", {
    header := protectedHeader "ES256" JwtTyp.entityEventsStatement "a" .empty
    payload := subordinateEventsPayload "https://ta.example" "https://rp.example" 5 [registration]
    key := "a" })]

def eventsHost : ClientHost :=
  tableClientHost eventsTable []
    [("https://ta.example/events?sub=https://rp.example", [("sub", "https://rp.example")])]

def eventsFetch : FetchRun where
  respond _ := .ok
    { status := 200
      headers := [("content-type", MediaType.entityEventsStatement)]
      body := some (inTwoChunks "events") }

def eventsUrl : Url where
  protocol := "https:"
  hostname := "ta.example"
  href := "https://ta.example/events"

def eventsRequest : Request where
  pathname := "/events"
  searchParams := [("sub", "https://rp.example")]

def eventsOptions : FetchSubordinateEventsOptions :=
  ({} : ClientOptions).forHistory "https://ta.example" (publishedJwks exampleKeySet.jwks)

/-- The client hears of the registration. -/
theorem registration_received : ∃ A, play { shared := lifecycleStorage } historyMoves = some A ∧
    (fetchSubordinateEvents eventsHost "https://ta.example/events" "https://rp.example" eventsOptions
      eventsFetch 6).2 =
        .ok ⟨"https://ta.example", "https://rp.example", 5, none, [eventPayload registration]⟩ := by
  have hread : (play { shared := lifecycleStorage } historyMoves).bind (fun A =>
      A.calls[1]?.bind fun call => call.stage.result?) =
        some (.ok (some (some [registration]))) := by
    decide +kernel
  have hoperation : (play { shared := lifecycleStorage } historyMoves).bind (fun A =>
      A.calls[1]?.map fun call => call.operation) =
        some ((HistoryCall.read "https://rp.example").operation decimalText exampleContext) := rfl
  obtain ⟨A, hplay, hresult⟩ := Option.bind_eq_some_iff.mp hread
  obtain ⟨call, hcall, hresult⟩ := Option.bind_eq_some_iff.mp hresult
  rw [hplay, Option.bind_some, hcall, Option.map_some, Option.some.injEq] at hoperation
  have hreach : (memoryStorageAdapter (Option (List SubordinateEvent)) lifecycleStorage).Reach A := by
    refine reach_play historyMoves (.init rfl) (fun op hop => ?_) hplay
    obtain ⟨call, rfl⟩ := historyMoves_calls op hop
    exact .transaction _
  have hcalls := kind_of_reach (reach_play historyMoves (.init rfl) historyMoves_calls hplay)
  have hkeys : KeyExchange eventsHost (signingTable eventsTable).signJwt exampleKeySet exampleKeySet :=
    exampleKeySet_exchange eventsTable (by simp [eventsTable]) [] _
  have hissuer : CanonicalId eventsHost.toPlatform "https://ta.example" :=
    ⟨by decide +kernel, by decide +kernel⟩
  have hsubject : CanonicalId eventsHost.toPlatform "https://rp.example" :=
    ⟨by decide +kernel, by decide +kernel⟩
  have hendpoint : validateFetchUrl eventsHost "https://ta.example/events"
      ({} : ClientOptions).toFetchOptions = .ok eventsUrl := by
    decide +kernel
  have htarget : (setSearchParam eventsHost eventsUrl "sub" "https://rp.example").href =
      "https://ta.example/events?sub=https://rp.example" := by
    decide +kernel
  have hreads : ReadsBack eventsHost eventsUrl
      (setParam (eventsHost.urlParams eventsUrl) "sub" "https://rp.example") :=
    ⟨{ eventsUrl with href := "https://ta.example/events?sub=https://rp.example" },
      by decide +kernel, by decide +kernel⟩
  have harrives : Arrives eventsHost ((eventsOptions.performOptions "https://rp.example").request
      (setSearchParam eventsHost eventsUrl "sub" "https://rp.example").href) eventsRequest := by
    refine ⟨rfl, fun u hu => ?_⟩
    have hparse : eventsHost.parseUrl (setSearchParam eventsHost eventsUrl "sub" "https://rp.example").href =
        some { eventsUrl with href := "https://ta.example/events?sub=https://rp.example" } := by
      decide +kernel
    obtain rfl := Option.some.inj (hparse.symm.trans hu)
    decide +kernel
  have hserved : createSubordinateEventsHandler eventsHost (signingTable eventsTable).signJwt
      "https://ta.example" ⟨true, .ok (some (some [registration])), .ok exampleKeySet, 5⟩
      eventsRequest = jwtResponse "events" MediaType.entityEventsStatement := by
    decide +kernel
  have hanswered : Answered eventsHost
      (setSearchParam eventsHost eventsUrl "sub" "https://rp.example").href
      (eventsOptions.performOptions "https://rp.example") eventsFetch
      (createSubordinateEventsHandler eventsHost (signingTable eventsTable).signJwt
        "https://ta.example" ⟨true, .ok (some (some [registration])), .ok exampleKeySet, 5⟩
        eventsRequest) := by
    rw [hserved, htarget]
    refine ⟨⟨{ eventsUrl with href := "https://ta.example/events?sub=https://rp.example" },
      by decide +kernel⟩, rfl, _, rfl, rfl, by decide +kernel, inTwoChunks "events", rfl, rfl, ?_,
      by decide +kernel, fun length h => (by cases h)⟩
    exact (by decide +kernel :
      eventsHost.decodeUtf8 (inTwoChunks "events").chunks.flatten = "events")
  have hreceived := subordinateEvents_received 6 numberTexts_decimalText rfl ⟨rfl, rfl⟩ hreach hcalls
    hcall hoperation hresult hkeys hissuer hsubject (by decide) hendpoint (by decide) hreads harrives
    hanswered (fun h => absurd ((congrArg Response.status hserved).symm.trans h) (by decide))
  refine ⟨A, hplay, ?_⟩
  obtain ⟨hread', -⟩ := read_finished numberTexts_decimalText rfl ⟨rfl, rfl⟩ hreach hcalls hcall
    hoperation hresult
  have hevents : historyAfter exampleContext lifecycleStorage "https://rp.example" (A.operations.take 1) =
      [registration] := by
    by_cases hempty : historyAfter exampleContext lifecycleStorage "https://rp.example"
        (A.operations.take 1) = []
    · rw [if_pos hempty] at hread'
      cases hread'
    · rw [if_neg hempty] at hread'
      simpa using hread'.symm
  rw [hevents] at hreceived
  exact hreceived.1

end OidFed
