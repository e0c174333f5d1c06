import OidFed.Client.FederationApi
import OidFed.Keys.History
import OidFed.Keys.Signing

/-!
# Historical keys, from the authority to a client (`authority/src/endpoints/historical-keys.ts`)

* `buildHistoricalKeys`, `createHistoricalKeysHandler`: the current signer signs the history. The key
  set and the history are two reads of the provider; other operations may run between them.
* `Presentable`: the times of an entry, and what its public key has under their names, fit the schema
  of the client. `historicalKeyEntrySchema_iff`: nothing else of an accepted key can fail it.
* `historicalKeys_received`: a client gets the history of the provider as it was read, exactly when
  its own key set still has the signer's key and all entries are presentable.
-/

namespace OidFed

open Js MemoryFederationKeyProvider ManagedFederationKeyEntry

/-! ## The endpoint -/

/-- What a request to the endpoint reads. -/
structure HistoricalKeysRun where
  keySet : Except String FederationKeySet
  historicalKeys : List Payload
  now : Rat

def historicalKeysPayload (entityId : String) (run : HistoricalKeysRun) : Payload :=
  Dict.ofEntries [("iss", .str entityId), ("iat", .num run.now),
    ("keys", .arr (run.historicalKeys.map fun k => .obj k.members))]

section Handler

variable (S : SigningPlatform) (entityId : String) (run : HistoricalKeysRun)

def buildHistoricalKeys : Except String String := do
  let keySet ← run.keySet
  signEntityStatement S (historicalKeysPayload entityId run) keySet.signer JwtTyp.jwkSet

/-- Handles historical keys endpoint requests, returning all key states as a signed JWK Set. -/
def createHistoricalKeysHandler (request : Request) : Response :=
  match requireMethod request "GET" with
  | some methodError => methodError
  | none =>
    match buildHistoricalKeys S entityId run with
    | .ok jwt => jwtResponse jwt MediaType.jwkSet
    | .error _ => errorResponse 500 "server_error" "Failed to build historical keys"

end Handler

/-! ## The schema of an entry -/

/-- The times of an entry, and what its public key has under their names, fit the schema. -/
structure Presentable (e : ManagedFederationKeyEntry) (nowSeconds : Rat) : Prop where
  exp : Json.isSafeInteger (historicalExp e nowSeconds) = true
  iat : ∀ v, (e.createdAt.map fun t => Json.num (seconds t)).or (e.publicJwk.get? "iat") = some v →
    Schema.int v = true
  nbf : ∀ v, (e.activatedAt.map fun t => Json.num (seconds t)).or (e.publicJwk.get? "nbf") = some v →
    Schema.int v = true
  revokedAt : e.state = .revoked →
    Json.isSafeInteger ((e.revokedAt.map seconds).getD nowSeconds) = true
  unrevoked : e.state ≠ .revoked → ∀ v, e.publicJwk.get? "revoked" = some v →
    Schema.looseObject [{ name := "revoked_at", schema := Schema.int },
      { name := "reason", schema := Schema.string, optional := true }] v = true

section Entry

variable {e : ManagedFederationKeyEntry} {signer : JwtSigner} {nowSeconds : Rat}

theorem mapHistoricalEntry_iat (e : ManagedFederationKeyEntry) (nowSeconds : Rat) :
    (mapHistoricalEntry e nowSeconds).get? "iat" =
      (e.createdAt.map fun t => Json.num (seconds t)).or (e.publicJwk.get? "iat") := by
  unfold mapHistoricalEntry
  cases e.createdAt <;> cases e.activatedAt <;> by_cases hs : e.state = .revoked <;>
    simp [hs, Dict.get?_set]

theorem mapHistoricalEntry_nbf_eq (e : ManagedFederationKeyEntry) (nowSeconds : Rat) :
    (mapHistoricalEntry e nowSeconds).get? "nbf" =
      (e.activatedAt.map fun t => Json.num (seconds t)).or (e.publicJwk.get? "nbf") := by
  unfold mapHistoricalEntry
  cases e.createdAt <;> cases e.activatedAt <;> by_cases hs : e.state = .revoked <;>
    simp [hs, Dict.get?_set]

/-- A text of an enumeration is a string. -/
theorem string_of_enum {values : List String} {v : Json} (h : Schema.enum values v = true) :
    Schema.string v = true := by
  cases v with
  | str s => rfl
  | _ => cases h

theorem strings_of_enums {values : List String} {v : Json}
    (h : Schema.array (Schema.enum values) v = true) : Schema.array Schema.string v = true := by
  cases v with
  | arr items =>
    rw [Schema.array, List.all_eq_true] at h ⊢
    exact fun item hitem => string_of_enum (h item hitem)
  | _ => cases h

/-- What a reason that is recorded looks like on the wire. -/
theorem revokedMember_iff {revokedAt : Rat} {reason : Option String} :
    Schema.looseObject [{ name := "revoked_at", schema := Schema.int },
        { name := "reason", schema := Schema.string, optional := true }]
        (.obj (("revoked_at", .num revokedAt) :: reasonMember reason)) = true ↔
      Json.isSafeInteger revokedAt = true := by
  cases reason with
  | none => simp [Schema.looseObject, reasonMember, Schema.int, List.lookup]
  | some r =>
    by_cases hempty : r = ""
    · subst hempty
      simp [Schema.looseObject, reasonMember, Schema.int, List.lookup]
    · simp [Schema.looseObject, reasonMember, Schema.int, Schema.string, Json.isString, List.lookup,
        hempty]

/-- The members of an accepted key that the mapping does not write pass by themselves. -/
theorem historicalKeyEntrySchema_iff (hkey : AcceptedKey signer e.publicJwk) :
    historicalKeyEntrySchema (.obj (mapHistoricalEntry e nowSeconds).members) = true ↔
      Presentable e nowSeconds := by
  have hjwk := hkey.jwk
  rw [jwkSchema, Bool.and_eq_true, looseObject_iff] at hjwk
  have hfields := hjwk.1
  have hkeep : ∀ name, name ∉ ["exp", "iat", "nbf", "revoked"] →
      (mapHistoricalEntry e nowSeconds).get? name = e.publicJwk.get? name :=
    fun _ h => mapHistoricalEntry_get? e nowSeconds h
  rw [historicalKeyEntrySchema, looseObject_iff]
  simp only [List.forall_mem_cons, List.not_mem_nil, false_imp_iff, implies_true, and_true] at hfields ⊢
  obtain ⟨hkty, -, huse, halg, hops, -⟩ := hfields
  rw [hkeep "kty" (by decide), hkeep "kid" (by decide),
    hkeep "use" (by decide), hkeep "alg" (by decide),
    hkeep "key_ops" (by decide), mapHistoricalEntry_exp, mapHistoricalEntry_iat,
    mapHistoricalEntry_nbf_eq, mapHistoricalEntry_revoked]
  constructor
  · rintro ⟨-, -, -, -, -, ⟨hexp, -⟩, hiat, hnbf, hrevoked⟩
    refine ⟨hexp _ rfl, hiat, hnbf, fun hstate => ?_, fun hstate v hv => ?_⟩
    · rw [if_pos hstate] at hrevoked
      exact revokedMember_iff.mp (hrevoked _ rfl)
    · rw [if_neg hstate] at hrevoked
      exact hrevoked v hv
  · intro h
    refine ⟨⟨fun v hv => string_of_enum (hkty.1 v hv), hkty.2⟩, ⟨fun v hv => ?_, fun hnone => ?_⟩,
      fun v hv => string_of_enum (huse v hv), halg, fun v hv => strings_of_enums (hops v hv),
      ⟨fun v hv => ?_, fun hnone => by cases hnone⟩, h.iat, h.nbf, fun v hv => ?_⟩
    · rw [hkey.kid] at hv
      obtain rfl := Option.some.inj hv
      rfl
    · rw [hkey.kid] at hnone
      cases hnone
    · obtain rfl := Option.some.inj hv
      exact h.exp
    · by_cases hstate : e.state = .revoked
      · rw [if_pos hstate] at hv
        obtain rfl := Option.some.inj hv
        exact revokedMember_iff.mpr (h.revokedAt hstate)
      · rw [if_neg hstate] at hv
        exact h.unrevoked hstate v hv

end Entry

/-! ## From the authority to a client -/

section Payload

variable {H : ClientHost} {entityId : String} {run : HistoricalKeysRun}

theorem historicalKeysPayload_get? {name : String} :
    (historicalKeysPayload entityId run).get? name =
      [("iss", Json.str entityId), ("iat", .num run.now),
        ("keys", .arr (run.historicalKeys.map fun k => .obj k.members))].lookup name :=
  Dict.get?_ofEntries (by simp) name

theorem historicalKeysPayload_timely (clockSkew now : Rat) :
    Timely (historicalKeysPayload entityId run) clockSkew now where
  exp v hv := by
    rw [historicalKeysPayload_get?] at hv
    cases hv
  nbf v hv := by
    rw [historicalKeysPayload_get?] at hv
    cases hv
  iat v hv := by
    rw [historicalKeysPayload_get?] at hv
    exact ⟨run.now, (Option.some.inj hv).symm⟩

/-- The payload is accepted exactly when its time and its entries are. -/
theorem historicalKeysPayloadSchema_iff (hentity : entityIdSchema H.toPlatform (.str entityId) = true) :
    historicalKeysPayloadSchema H.toPlatform (.obj (historicalKeysPayload entityId run).members) =
        true ↔
      Schema.positiveInt (.num run.now) = true ∧
        ∀ k ∈ run.historicalKeys, historicalKeyEntrySchema (.obj k.members) = true := by
  rw [historicalKeysPayloadSchema, looseObject_iff]
  simp only [List.forall_mem_cons, List.not_mem_nil, false_imp_iff, implies_true, and_true,
    historicalKeysPayload_get?]
  constructor
  · rintro ⟨-, ⟨hiat, -⟩, ⟨hkeys, -⟩⟩
    have hall := hkeys _ rfl
    rw [Schema.array, List.all_map, List.all_eq_true] at hall
    exact ⟨hiat _ rfl, hall⟩
  · rintro ⟨hiat, hkeys⟩
    refine ⟨⟨fun v hv => ?_, fun hnone => by cases hnone⟩, ⟨fun v hv => ?_, fun hnone => by cases hnone⟩,
      ⟨fun v hv => ?_, fun hnone => by cases hnone⟩⟩
    · obtain rfl := Option.some.inj hv
      exact hentity
    · obtain rfl := Option.some.inj hv
      exact hiat
    · obtain rfl := Option.some.inj hv
      rw [Schema.array, List.all_map, List.all_eq_true]
      exact hkeys

/-- The entries of the payload are read as they were written. -/
theorem historicalKeysData_keys (h : ∀ k ∈ run.historicalKeys, k.get? "__proto__" = none) :
    (historicalKeysData H (historicalKeysPayload entityId run)).keys = run.historicalKeys := by
  have hitems : ((historicalKeysPayload entityId run).get? "keys").bind Json.items? =
      some (run.historicalKeys.map fun k => .obj k.members) := by
    rw [historicalKeysPayload_get?]
    rfl
  rw [historicalKeysData, objectItems, hitems, Option.getD_some, List.map_map]
  exact (List.map_congr_left fun k hk => looseCopy_obj (h k hk)).trans (List.map_id _)

end Payload

section Received

variable {H : ClientHost} {signJwt : JwtSigner → Payload → Payload → Except String String}
  {initial : List FederationSigningKey} {policy : RevocationPolicy} {s s₁ s₂ : KeyRun}

/-- A response of the handler that is not an error is the signed history. -/
theorem createHistoricalKeysHandler_status (S : SigningPlatform) (entityId : String)
    (run : HistoricalKeysRun) (request : Request) :
    (∃ jwt, buildHistoricalKeys S entityId run = .ok jwt ∧
        createHistoricalKeysHandler S entityId run request = jwtResponse jwt MediaType.jwkSet) ∨
      400 ≤ (createHistoricalKeysHandler S entityId run request).status := by
  unfold createHistoricalKeysHandler
  cases hmethod : requireMethod request "GET" with
  | some methodError =>
    refine .inr ?_
    rw [show methodError.status = 405 from requireMethods_status hmethod]
    decide
  | none =>
    cases hbuild : buildHistoricalKeys S entityId run with
    | ok jwt => exact .inl ⟨jwt, rfl, rfl⟩
    | error e => exact .inr (by decide : 400 ≤ 500)

/-- A client gets the history as the provider was read, exactly when the authority signs it, the
client's key set still has the signer's key, and every entry is presentable; what it selects of the
history are the entries of the provider that are usable at the second it asks for. -/
theorem historicalKeys_received {signedAt historyAt readAt issuedAt : Rat}
    {keySet clientKeySet : FederationKeySet} {entityId endpoint : String} {request : Request}
    {options : ClientOptions} {fetch : FetchRun} {u : Url} (now : Rat)
    (hs : (keyLifecycle initial policy).Reach s) (hread : (keyLifecycle initial policy).Later s s₁)
    (hlater : (keyLifecycle initial policy).Later s s₂)
    (hkeySet : s.provider.getFederationKeySet signedAt = .ok keySet)
    (hclient : s₂.provider.getFederationKeySet readAt = .ok clientKeySet)
    (hsigns : SignsAsPublished (H.signing signJwt) keySet)
    (hproto : ∀ kid e, s₁.provider.keys.get? kid = some e → e.publicJwk.get? "__proto__" = none)
    (hentity : entityIdSchema H.toPlatform (.str entityId) = true)
    (hendpoint : checkEndpointUrl H "Invalid URL" "URL" endpoint = .ok u)
    (hanswered : Answered H endpoint (options.expecting MediaType.jwkSet) fetch
      (createHistoricalKeysHandler (H.signing signJwt) entityId
        ⟨.ok keySet, s₁.provider.getHistoricalFederationKeys historyAt, issuedAt⟩ request)) :
    let response := createHistoricalKeysHandler (H.signing signJwt) entityId
      ⟨.ok keySet, s₁.provider.getHistoricalFederationKeys historyAt, issuedAt⟩ request
    let fetched := fetchHistoricalKeys H endpoint (publishedJwks clientKeySet.jwks) options fetch now
    ((∃ data, fetched.2 = .ok data) ↔ response.status = 200 ∧
        s₂.provider.Keeps keySet.signer.kid readAt ∧ Schema.positiveInt (.num issuedAt) = true ∧
        ∀ kid e, s₁.provider.keys.get? kid = some e → Presentable e (seconds historyAt)) ∧
      ∀ data, fetched.2 = .ok data →
        data.keys = s₁.provider.getHistoricalFederationKeys historyAt ∧ data.iat = issuedAt ∧
        ∀ kid validAt key,
          selectHistoricalVerificationKey H.toPlatform data.keys kid validAt = .ok key ↔
            ∃ e, s₁.provider.keys.get? kid = some e ∧
              key = mapHistoricalEntry e (seconds historyAt) ∧
              usableAt H.toPlatform validAt key = true := by
  intro response fetched
  have hsound : Sound s₁.provider := keyLifecycle_sound (hs.later hread)
  let run : HistoricalKeysRun :=
    ⟨.ok keySet, s₁.provider.getHistoricalFederationKeys historyAt, issuedAt⟩
  have hfetched : fetched = Fetched.check
      (performFetch H endpoint (options.expecting MediaType.jwkSet) fetch)
      fun jwt => verifyHistoricalKeysResponse H jwt (publishedJwks clientKeySet.jwks)
        options.clockSkew now := by
    simp only [fetched, fetchHistoricalKeys, hendpoint]
  rcases createHistoricalKeysHandler_status (H.signing signJwt) entityId run request with
    ⟨jwt, hbuild, hresponse⟩ | herror
  · -- the client verifies the JWT that the handler has signed
    have hstatus : response.status = 200 := by
      rw [show response = jwtResponse jwt MediaType.jwkSet from hresponse]
      rfl
    have hjwt : signEntityStatement (H.signing signJwt) (historicalKeysPayload entityId run)
        keySet.signer JwtTyp.jwkSet = .ok jwt := hbuild
    rw [show createHistoricalKeysHandler (H.signing signJwt) entityId
      ⟨.ok keySet, s₁.provider.getHistoricalFederationKeys historyAt, issuedAt⟩ request =
        jwtResponse jwt MediaType.jwkSet from hresponse] at hanswered
    have hget : fetched.2 = verifyHistoricalKeysResponse H jwt (publishedJwks clientKeySet.jwks)
        options.clockSkew now := by
      rw [hfetched, performFetch_jwt (by decide +kernel) rfl (fun _ h => by cases h) hanswered]
      rfl
    -- it verifies as long as the provider of the client keeps the key of the signer
    have hiff : ∀ data, fetched.2 = .ok data ↔ s₂.provider.Keeps keySet.signer.kid readAt ∧
        historicalKeysPayloadSchema H.toPlatform (.obj (historicalKeysPayload entityId run).members) =
          true ∧ historicalKeysData H (historicalKeysPayload entityId run) = data := by
      intro data
      rw [hget]
      exact verifySignedResponse_iff hs hkeySet hsigns hjwt hlater hclient
        (historicalKeysPayload_timely _ _)
    -- the schema asks of each entry what `Presentable` says of its times
    have hentries : (∀ k ∈ run.historicalKeys, historicalKeyEntrySchema (.obj k.members) = true) ↔
        ∀ kid e, s₁.provider.keys.get? kid = some e → Presentable e (seconds historyAt) := by
      constructor
      · intro h kid e he
        exact (historicalKeyEntrySchema_iff (hsound.accepted he)).mp
          (h _ (List.mem_map_of_mem (mem_entries.mpr ⟨kid, he⟩)))
      · intro h k hk
        obtain ⟨e, he, rfl⟩ := List.mem_map.mp hk
        obtain ⟨kid, he⟩ := mem_entries.mp he
        exact (historicalKeyEntrySchema_iff (hsound.accepted he)).mpr (h kid e he)
    refine ⟨⟨fun ⟨data, hdata⟩ => ?_, fun ⟨_, hkeeps, htime, hall⟩ => ?_⟩, fun data hdata => ?_⟩
    · obtain ⟨hkeeps, hschema, -⟩ := (hiff data).mp hdata
      obtain ⟨htime, hall⟩ := (historicalKeysPayloadSchema_iff hentity).mp hschema
      exact ⟨hstatus, hkeeps, htime, hentries.mp hall⟩
    · exact ⟨_, (hiff _).mpr ⟨hkeeps,
        (historicalKeysPayloadSchema_iff hentity).mpr ⟨htime, hentries.mpr hall⟩, rfl⟩⟩
    · obtain ⟨-, -, rfl⟩ := (hiff data).mp hdata
      have hkeys : (historicalKeysData H (historicalKeysPayload entityId run)).keys =
          s₁.provider.getHistoricalFederationKeys historyAt := historicalKeysData_keys fun k hk => by
        obtain ⟨e, he, rfl⟩ := List.mem_map.mp hk
        obtain ⟨kid, he⟩ := mem_entries.mp he
        rw [mapHistoricalEntry_get? e _ (by decide)]
        exact hproto kid e he
      refine ⟨hkeys, ?_, fun kid validAt key => ?_⟩
      · rw [historicalKeysData, Payload.number?, historicalKeysPayload_get?]
        rfl
      · rw [hkeys]
        exact select_eq_ok_iff hsound
  · -- any other response is an error to the client
    have hstatus : response.status ≠ 200 := by
      have : 400 ≤ response.status := herror
      omega
    have hfail : ∀ data, fetched.2 ≠ .ok data := by
      intro data hdata
      rw [hfetched, performFetch_status hanswered herror rfl] at hdata
      cases hdata
    exact ⟨⟨fun ⟨data, hdata⟩ => absurd hdata (hfail data), fun h => absurd h.1 hstatus⟩,
      fun data hdata => absurd hdata (hfail data)⟩

end Received

/-! ## An example -/

/-- The history of a provider with the key `a`, signed with it. -/
def historyTable : List (String × SignedJwt) :=
  [("history", {
    header := protectedHeader "ES256" JwtTyp.jwkSet "a" .empty
    payload := historicalKeysPayload "https://a.example"
      ⟨.error "", (createdWith "a").getHistoricalFederationKeys 0, 1⟩
    key := "a" })]

def historyHost : ClientHost := tableClientHost historyTable [] []

def historyFetch : FetchRun where
  respond _ := .ok
    { status := 200
      headers := [("content-type", MediaType.jwkSet)]
      body := some (inTwoChunks "history") }

def keysUrl : Url where
  protocol := "https:"
  hostname := "a.example"
  href := "https://a.example/keys"

/-- The client has the key set of the provider after its rollover. -/
theorem rolledOver_history : ∃ data,
    (fetchHistoricalKeys historyHost "https://a.example/keys"
      (publishedJwks (rolledOver.publishedKeys 2400)) {} historyFetch 3).2 = .ok data ∧
    data.keys = (createdWith "a").getHistoricalFederationKeys 0 := by
  have hkeySet : (createdWith "a").getFederationKeySet 0 =
      .ok ⟨⟨"a", "ES256"⟩, (createdWith "a").publishedKeys 0⟩ := rfl
  have hclient : rolledOver.getFederationKeySet 2400 =
      .ok ⟨⟨"b", "ES256"⟩, rolledOver.publishedKeys 2400⟩ := by
    decide +kernel
  have hsigns : SignsAsPublished (historyHost.signing (signingTable historyTable).signJwt)
      ⟨⟨"a", "ES256"⟩, (createdWith "a").publishedKeys 0⟩ := by
    intro publicJwk hmem _
    have hkeys : (createdWith "a").publishedKeys 0 = [(tableSigningKey "a").publicJwk] := rfl
    rw [hkeys, List.mem_singleton] at hmem
    subst hmem
    have hwith : SignsWith (signingTable historyTable) ⟨"a", "ES256"⟩ (tableSigningKey "a").publicJwk :=
      signingTable_signsWith (by simp [historyTable]) rfl
    exact ⟨hwith.decodes, hwith.verifies⟩
  have hproto : ∀ kid e, (createdWith "a").keys.get? kid = some e →
      e.publicJwk.get? "__proto__" = none := by
    intro kid e he
    have hmem := (Dict.get?_eq_some_iff _ _ _).mp he
    have hmembers : (createdWith "a").keys.members =
        [("a", (added (tableSigningKey "a") 0).activated 0 0)] := rfl
    rw [hmembers, List.mem_singleton] at hmem
    obtain ⟨-, rfl⟩ := Prod.mk.inj hmem
    rfl
  have hanswered : Answered historyHost "https://a.example/keys"
      (({} : ClientOptions).expecting MediaType.jwkSet) historyFetch
      (createHistoricalKeysHandler (historyHost.signing (signingTable historyTable).signJwt)
        "https://a.example" ⟨.ok ⟨⟨"a", "ES256"⟩, (createdWith "a").publishedKeys 0⟩,
          (createdWith "a").getHistoricalFederationKeys 0, 1⟩ { pathname := "/keys" }) := by
    have hresponse : createHistoricalKeysHandler (historyHost.signing (signingTable historyTable).signJwt)
        "https://a.example" ⟨.ok ⟨⟨"a", "ES256"⟩, (createdWith "a").publishedKeys 0⟩,
          (createdWith "a").getHistoricalFederationKeys 0, 1⟩ { pathname := "/keys" } =
            jwtResponse "history" MediaType.jwkSet := by
      decide +kernel
    rw [hresponse]
    refine ⟨⟨keysUrl, by decide +kernel⟩, rfl, _, rfl, rfl, by decide +kernel, inTwoChunks "history",
      rfl, rfl, ?_, by decide +kernel, fun length h => ?_⟩
    · exact (by decide +kernel : historyHost.decodeUtf8 (inTwoChunks "history").chunks.flatten = "history")
    · cases h
  have hendpoint : checkEndpointUrl historyHost "Invalid URL" "URL" "https://a.example/keys" =
      .ok keysUrl := by
    decide +kernel
  have h := historicalKeys_received 3 (createdWith_reached "a" rfl) .refl rolledOver_later hkeySet
    hclient hsigns hproto (by decide +kernel) hendpoint hanswered
  have hdata : (fetchHistoricalKeys historyHost "https://a.example/keys"
      (publishedJwks (rolledOver.publishedKeys 2400)) {} historyFetch 3).2.toOption.isSome = true := by
    decide +kernel
  obtain ⟨data, hdata⟩ := Option.isSome_iff_exists.mp hdata
  rw [toOption_eq_some] at hdata
  exact ⟨data, hdata, (h.2 data hdata).1⟩

end OidFed
