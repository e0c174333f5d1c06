import OidFed.Jose
import OidFed.Replay.Store

/-!
# Client assertions (`jose/client-auth.ts`)

`verifyClientAssertion` verifies a `private_key_jwt` assertion: its header and signature, its
claims and its times, and last it claims the assertion's identifier at the replay store. After the
signature it runs without a pause, so that calls reach the store in the order of these last parts.

`acceptedOnce_of_storeAskedInTime`: over calls that share a store, an assertion is accepted at most
once if the store is asked before the limit of the earlier presentation, the assertion's expiry
plus the tolerance. The store and the verifier read the clock on their own: where it reaches the
limit between the two, the record is dropped and the assertion accepted again
(`assertion_accepted_twice`).
-/

namespace OidFed

open Js

structure VerifiedClientAssertion where
  clientId : Json
  issuedAt : Option Rat
  expiresAt : Rat
  jti : String
  deriving DecidableEq

structure ClientAssertionOptions where
  clockSkewSeconds : Rat := defaultClockSkewSeconds
  allowedAlgorithms : Option (List String) := none
  /-- A replay store is configured. -/
  replayStore : Bool := true

/-- The readings of the clock in one call. -/
structure AssertionClock where
  currentDate : Rat
  now : Rat
  store : Rat

structure ClientAssertionCall where
  assertion : String
  jwks : JWKSet
  expectedAudience : String
  options : ClientAssertionOptions := {}
  clock : AssertionClock

/-- An error whose description ends in converted values: a value without a conversion throws. -/
def failWith {α : Type} (code : ErrorCode) (description : Option String) : Except Stop α :=
  match description with
  | some description => .error (.fail ⟨code, description⟩)
  | none => .error .throws

def invalidClient {α : Type} (description : String) : Except Stop α :=
  .error (.fail (federationError .InvalidClient description))

section Verify

variable (P : Platform)

/-- The key that a header selects. The keys of a set have strings for identifiers, so that any
other `kid` that counts as present selects none. -/
def selectHeaderKey (header : Payload) (alg : String) (jwks : JWKSet) : Option Json :=
  match header.get? "kid" with
  | some (.str kid) => selectVerificationKey (some kid) (some alg) jwks
  | some kid => if kid.truthy then none else selectVerificationKey none (some alg) jwks
  | none => selectVerificationKey none (some alg) jwks

/-- The payload of an assertion whose header and signature are right. -/
def assertionPayload (call : ClientAssertionCall) : Except Stop Payload :=
  match P.decodeProtectedHeader call.assertion with
  | .error message => .error (.fail (internalError .SignatureInvalid message))
  | .ok header =>
    let typ := header.get? "typ"
    if typ.isSome && typ != some (.str "JWT") then
      failWith (.internal .SignatureInvalid) ((P.text typ).map fun text =>
        "Invalid typ header: expected 'JWT' or absent, got '" ++ text ++ "'")
    else if !isValidAlgorithm (header.get? "alg") then
      failWith (.internal .UnsupportedAlg) ((P.text (header.get? "alg")).map fun text =>
        "Unsupported algorithm: '" ++ text ++ "'")
    else
      let alg := (header.string? "alg").getD ""
      if call.options.allowedAlgorithms.any fun allowed => !allowed.contains alg then
        .error (.fail (internalError .UnsupportedAlg
          s!"Algorithm '{alg}' is not allowed for this endpoint"))
      else
        match selectHeaderKey header alg call.jwks with
        | none => .error (.fail (internalError .SignatureInvalid
            "No matching key found in JWKS for verification"))
        | some key =>
          match P.jwtVerify call.assertion key alg call.options.clockSkewSeconds
              call.clock.currentDate with
          | .error message => .error (.fail (internalError .SignatureInvalid message))
          | .ok payload => .ok payload

def checkAssertionSubject (payload : Payload) : Except Stop Json :=
  let iss := payload.get? "iss"
  let sub := payload.get? "sub"
  match iss with
  | some issuer =>
    if issuer.truthy && Json.strictEq iss sub then .ok issuer
    else failWith (.federation .InvalidClient) (do
      let issText ← P.text iss
      let subText ← P.text sub
      return "Client assertion 'iss' must equal 'sub': iss='" ++ issText ++ "', sub='" ++
        subText ++ "'")
  | none => failWith (.federation .InvalidClient) (do
      let subText ← P.text sub
      return "Client assertion 'iss' must equal 'sub': iss='undefined', sub='" ++ subText ++ "'")

def checkAssertionAudience (payload : Payload) (expectedAudience : String) : Except Stop Unit :=
  match payload.get? "aud" with
  | some (.str aud) =>
    if aud = expectedAudience then .ok ()
    else invalidClient s!"Invalid audience: expected '{expectedAudience}', got '{aud}'"
  | some (.arr aud) =>
    -- only the expected identifier, and nothing else
    if aud = [.str expectedAudience] then .ok ()
    else failWith (.federation .InvalidClient) ((aud.mapM fun a => P.text (some a)).map fun texts =>
      s!"Invalid audience: must contain only '{expectedAudience}', got [" ++
        ", ".intercalate (texts.map fun t => "'" ++ t ++ "'") ++ "]")
  | _ => invalidClient "Missing or invalid 'aud' claim"

/-- The times and the identifier of an assertion. -/
def checkAssertionTimes (payload : Payload) (issuer : Json) (now skew : Rat) :
    Except Stop VerifiedClientAssertion :=
  match payload.get? "exp", payload.get? "jti" with
  | some (.num exp), some (.str jti) =>
    if exp + skew ≤ now || jti = "" then
      invalidClient "Client assertions require exp and jti"
    else
      match payload.get? "iat" with
      | none => .ok { clientId := issuer, issuedAt := none, expiresAt := exp, jti }
      | some (.num iat) =>
        if now + skew < iat then invalidClient "Invalid client assertion issuance time"
        else .ok { clientId := issuer, issuedAt := some iat, expiresAt := exp, jti }
      | some _ => invalidClient "Invalid client assertion issuance time"
  | _, _ => invalidClient "Client assertions require exp and jti"

/-- All that is checked before the store is asked. -/
def checkClientAssertion (call : ClientAssertionCall) : Except Stop VerifiedClientAssertion := do
  let payload ← assertionPayload P call
  let issuer ← checkAssertionSubject P payload
  checkAssertionAudience P payload call.expectedAudience
  checkAssertionTimes payload issuer call.clock.now call.options.clockSkewSeconds

/-- The claim of a checked assertion. -/
def assertionClaim (call : ClientAssertionCall) (v : VerifiedClientAssertion) : JtiReplayClaim where
  issuer := v.clientId
  audience := .str call.expectedAudience
  jti := .str v.jti
  expiresAt := .num (v.expiresAt + call.options.clockSkewSeconds)

/-- Verify a client assertion, cut at its use of the replay store. -/
def verifyClientAssertion :
    ReplayProtected ClientAssertionCall (Except Stop VerifiedClientAssertion) where
  before call :=
    match checkClientAssertion P call with
    | .error stop => .error (.error stop)
    | .ok v =>
      if call.options.replayStore then .ok (assertionClaim call v, call.clock.store)
      else .error (.ok v)
  after call answer :=
    match answer with
    | .ok true => checkClientAssertion P call
    | .ok false => invalidClient "Client assertion was already used"
    | .error _ =>
      .error (.fail (federationError .ServerError "Client assertion replay storage failed"))

end Verify

/-! ### What is accepted -/

theorem failWith_ne_ok {α : Type} {code : ErrorCode} {description : Option String} {a : α} :
    failWith code description ≠ .ok a := by
  cases description <;> exact nofun

/-- The payload is the one that `jose` has verified. -/
theorem assertionPayload_eq_ok {P : Platform} {call : ClientAssertionCall} {payload : Payload}
    (h : assertionPayload P call = .ok payload) :
    ∃ key alg, P.jwtVerify call.assertion key alg call.options.clockSkewSeconds
      call.clock.currentDate = .ok payload := by
  unfold assertionPayload at h
  split at h
  · cases h
  simp only at h
  split at h
  · exact absurd h failWith_ne_ok
  split at h
  · exact absurd h failWith_ne_ok
  split at h
  · cases h
  split at h
  · cases h
  rename_i key _
  split at h
  · cases h
  · rename_i payload' hverify
    obtain rfl := Except.ok.inj h
    exact ⟨key, _, hverify⟩

theorem checkAssertionSubject_eq_ok {P : Platform} {payload : Payload} {issuer : Json}
    (h : checkAssertionSubject P payload = .ok issuer) :
    payload.get? "iss" = some issuer ∧ issuer.truthy = true := by
  unfold checkAssertionSubject at h
  simp only at h
  split at h
  · rename_i iss hiss
    split at h
    · rename_i hsub
      obtain rfl := Except.ok.inj h
      exact ⟨hiss, (Bool.and_eq_true_iff.mp hsub).1⟩
    · exact absurd h failWith_ne_ok
  · exact absurd h failWith_ne_ok

theorem checkAssertionTimes_clientId {payload : Payload} {issuer : Json} {now skew : Rat}
    {v : VerifiedClientAssertion} (h : checkAssertionTimes payload issuer now skew = .ok v) :
    v.clientId = issuer := by
  unfold checkAssertionTimes at h
  split at h
  · split at h
    · cases h
    split at h
    · exact congrArg VerifiedClientAssertion.clientId (Except.ok.inj h).symm
    · split at h
      · cases h
      · exact congrArg VerifiedClientAssertion.clientId (Except.ok.inj h).symm
    · cases h
  · cases h

/-- The issuer of a checked assertion is a claim of the verified payload. -/
theorem checkClientAssertion_issuer {P : Platform} {call : ClientAssertionCall}
    {v : VerifiedClientAssertion} (h : checkClientAssertion P call = .ok v) :
    ∃ payload key alg, P.jwtVerify call.assertion key alg call.options.clockSkewSeconds
        call.clock.currentDate = .ok payload ∧
      payload.get? "iss" = some v.clientId ∧ v.clientId.truthy = true := by
  obtain ⟨payload, hpayload, h⟩ := bind_eq_ok.mp h
  obtain ⟨issuer, hissuer, h⟩ := bind_eq_ok.mp h
  obtain ⟨_, -, h⟩ := bind_eq_ok.mp h
  obtain ⟨key, alg, hverify⟩ := assertionPayload_eq_ok hpayload
  obtain rfl := checkAssertionTimes_clientId h
  exact ⟨payload, key, alg, hverify, checkAssertionSubject_eq_ok hissuer⟩

/-! ## Accepted once -/

section Once

variable (P : Platform)

/-- Two presentations of one assertion to one audience. -/
structure SameAssertion (c d : ClientAssertionCall) (v w : VerifiedClientAssertion) : Prop where
  issuer : v.clientId = w.clientId
  audience : c.expectedAudience = d.expectedAudience
  jti : v.jti = w.jti
  expiresAt : v.expiresAt = w.expiresAt

/-- No assertion is accepted twice. -/
def AcceptedOnce (results : List (ClientAssertionCall × Except Stop VerifiedClientAssertion)) :
    Prop :=
  results.Pairwise fun p q => ∀ v w, p.2 = .ok v → q.2 = .ok w → ¬ SameAssertion p.1 q.1 v w

/-- Calls that share a replay store, in the order in which they reach it, by a clock that does
not go back. It may advance between any two readings. -/
structure SharedRun (calls : List ClientAssertionCall) : Prop where
  shared : ∀ c ∈ calls, c.options.replayStore = true
  within : ∀ c ∈ calls, c.clock.currentDate ≤ c.clock.now ∧ c.clock.now ≤ c.clock.store
  across : calls.Pairwise fun c d => c.clock.store ≤ d.clock.now

/-- When an assertion passes the checks again, the store is asked before the limit that its earlier
presentation had. -/
def StoreAskedInTime (calls : List ClientAssertionCall) : Prop :=
  calls.Pairwise fun c d => ∀ v w, checkClientAssertion P c = .ok v →
    checkClientAssertion P d = .ok w → SameAssertion c d v w →
      d.clock.store < v.expiresAt + c.options.clockSkewSeconds

variable {P}

theorem verifyClientAssertion_before {call : ClientAssertionCall} {v : VerifiedClientAssertion}
    (hshared : call.options.replayStore = true) (hv : checkClientAssertion P call = .ok v) :
    (verifyClientAssertion P).before call = .ok (assertionClaim call v, call.clock.store) := by
  simp [verifyClientAssertion, hv, hshared]

theorem verifyClientAssertion_clock {call : ClientAssertionCall} {p : JtiReplayClaim × Rat}
    (h : p ∈ ((verifyClientAssertion P).before call).toOption) : p.2 = call.clock.store := by
  have hb := toOption_eq_some.mp h
  simp only [verifyClientAssertion] at hb
  cases hv : checkClientAssertion P call with
  | error stop => rw [hv] at hb; simp at hb
  | ok v =>
    rw [hv] at hb
    simp only at hb
    split at hb
    · exact (congrArg Prod.snd (Except.ok.inj hb)).symm
    · simp at hb

/-- An accepted call has passed the checks, and the store has granted its claim. -/
theorem verifyClientAssertion_accepted {store : MemoryReplayStore}
    {calls : List ClientAssertionCall} (hshared : ∀ c ∈ calls, c.options.replayStore = true)
    {p : ClientAssertionCall × Except Stop VerifiedClientAssertion} {v : VerifiedClientAssertion}
    (hp : p ∈ (verifyClientAssertion P).runAll store calls) (hv : p.2 = .ok v) :
    (verifyClientAssertion P).before p.1 = .ok (assertionClaim p.1 v, p.1.clock.store) ∧
      checkClientAssertion P p.1 = .ok v ∧ (verifyClientAssertion P).Granted p := by
  have hgranted : ∀ answer, p.2 = (verifyClientAssertion P).after p.1 answer →
      answer = .ok true ∧ checkClientAssertion P p.1 = .ok v := by
    intro answer hanswer
    rw [hv] at hanswer
    match answer, hanswer with
    | .ok true, h => exact ⟨rfl, h.symm⟩
    | .ok false, h => simp [verifyClientAssertion, invalidClient] at h
    | .error _, h => simp [verifyClientAssertion] at h
  have hmem : p.1 ∈ calls := by
    rw [← (verifyClientAssertion P).runAll_calls store calls]
    exact List.mem_map_of_mem hp
  have hchecked : checkClientAssertion P p.1 = .ok v := by
    rcases (verifyClientAssertion P).result_cases hp with hended | ⟨_, _, answer, -, hr⟩
    · -- a call that shares the store ends before it with an error only
      cases hc : checkClientAssertion P p.1 with
      | error stop => simp [verifyClientAssertion, hc, hv] at hended
      | ok w => rw [verifyClientAssertion_before (hshared p.1 hmem) hc] at hended; simp at hended
    · exact (hgranted answer hr).2
  exact ⟨verifyClientAssertion_before (hshared p.1 hmem) hchecked, hchecked,
    fun answer h => (hgranted answer h).1⟩

theorem SharedRun.storeClock {calls : List ClientAssertionCall} (h : SharedRun calls) :
    (verifyClientAssertion P).StoreClockNondecreasing calls := by
  refine h.across.imp_of_mem fun {c d} _ hd hcd => ?_
  intro a ha b hb
  rw [verifyClientAssertion_clock ha, verifyClientAssertion_clock hb]
  exact le_trans hcd (h.within d hd).2

/-- An assertion is accepted at most once, if the store is asked in time. -/
theorem acceptedOnce_of_storeAskedInTime {calls : List ClientAssertionCall}
    (hrun : SharedRun calls) (htime : StoreAskedInTime P calls) (store : MemoryReplayStore) :
    AcceptedOnce ((verifyClientAssertion P).runAll store calls) := by
  have hagain := (verifyClientAssertion P).granted_again store hrun.storeClock
  have htime' : ((verifyClientAssertion P).runAll store calls).Pairwise fun p q =>
      ∀ v w, checkClientAssertion P p.1 = .ok v → checkClientAssertion P q.1 = .ok w →
        SameAssertion p.1 q.1 v w → q.1.clock.store < v.expiresAt + p.1.options.clockSkewSeconds := by
    have : (((verifyClientAssertion P).runAll store calls).map Prod.fst).Pairwise fun c d =>
        ∀ v w, checkClientAssertion P c = .ok v → checkClientAssertion P d = .ok w →
          SameAssertion c d v w → d.clock.store < v.expiresAt + c.options.clockSkewSeconds := by
      rw [ReplayProtected.runAll_calls]
      exact htime
    exact List.pairwise_map.mp this
  refine (hagain.and htime').imp_of_mem fun {p q} hp hq ⟨hpq, ht⟩ v w hv hw hsame => ?_
  obtain ⟨hpb, hpc, hpg⟩ := verifyClientAssertion_accepted hrun.shared hp hv
  obtain ⟨hqb, hqc, hqg⟩ := verifyClientAssertion_accepted hrun.shared hq hw
  have hkey : MemoryReplayStore.keyOf (assertionClaim p.1 v) =
      MemoryReplayStore.keyOf (assertionClaim q.1 w) := by
    simp [MemoryReplayStore.keyOf, assertionClaim, hsame.issuer, hsame.audience, hsame.jti]
  have hexpired := hpq hpg hqg _ _ _ _ hpb hqb hkey
  simp only [assertionClaim, Json.number?, Option.getD_some] at hexpired
  exact absurd (ht v w hpc hqc hsame) (not_lt.mpr hexpired)

end Once

/-! ## A tick between the two readings -/

/-- An assertion that expires at 2000. -/
def clientAssertionPlatform : Platform :=
  tablePlatform [("assertion",
    { header := Dict.ofEntries [("alg", .str "ES256"), ("kid", .str "rp-key")]
      payload := Dict.ofEntries [("iss", .str "https://rp.example"),
        ("sub", .str "https://rp.example"), ("aud", .str "https://op.example"),
        ("exp", .num 2000), ("jti", .str "1")]
      key := "rp-key" })]

/-- A presentation of it, without tolerance, whose checks read one time and whose store another. -/
def presentAssertion (now store : Rat) : ClientAssertionCall where
  assertion := "assertion"
  jwks := [tableKey "rp-key"]
  expectedAudience := "https://op.example"
  options := { clockSkewSeconds := 0 }
  clock := { currentDate := now, now, store }

def rpAssertion : VerifiedClientAssertion where
  clientId := .str "https://rp.example"
  issuedAt := none
  expiresAt := 2000
  jti := "1"

theorem acceptedOnce_tick : AcceptedOnce ((verifyClientAssertion clientAssertionPlatform).runAll
    .empty [presentAssertion 1500 1500, presentAssertion 1998 1999]) := by
  refine acceptedOnce_of_storeAskedInTime ⟨by decide, by decide +kernel, by decide +kernel⟩ ?_ _
  refine List.pairwise_pair.mpr ?_
  intro v w hv _ _
  have hchecked : (checkClientAssertion clientAssertionPlatform
      (presentAssertion 1500 1500)).toOption = some rpAssertion := by decide +kernel
  rw [hv] at hchecked
  obtain rfl : v = rpAssertion := Option.some.inj hchecked
  decide +kernel

/-- The clock reaches 2000 between the checks of the second presentation and the store. -/
theorem assertion_accepted_twice : ∃ calls, SharedRun calls ∧
    ¬ AcceptedOnce ((verifyClientAssertion clientAssertionPlatform).runAll .empty calls) := by
  refine ⟨[presentAssertion 1500 1500, presentAssertion 1999 2000],
    ⟨by decide, by decide +kernel, by decide +kernel⟩, fun honce => ?_⟩
  rw [ReplayProtected.runAll_pair] at honce
  have hfirst : ((verifyClientAssertion clientAssertionPlatform).run .empty
      (presentAssertion 1500 1500)).1 = .ok rpAssertion := toOption_eq_some.mp (by decide +kernel)
  have hsecond : ((verifyClientAssertion clientAssertionPlatform).run
      ((verifyClientAssertion clientAssertionPlatform).run .empty (presentAssertion 1500 1500)).2
      (presentAssertion 1999 2000)).1 = .ok rpAssertion := toOption_eq_some.mp (by decide +kernel)
  rw [hfirst, hsecond] at honce
  exact List.pairwise_pair.mp honce _ _ rfl rfl ⟨rfl, rfl, rfl, rfl⟩

end OidFed
