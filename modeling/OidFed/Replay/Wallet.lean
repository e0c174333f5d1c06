import OidFed.Jose
import OidFed.Schema
import OidFed.Replay.Store

/-!
# Authentication of wallets (`wallet/src/attestation.ts`, `wallet/src/jwt.ts`)

`authenticateWallet` accepts a proof of possession for a verified Wallet Attestation. The proof is
accepted until `limitOf`, the earliest of the end of its age, its own expiry and that of the
attestation; it is checked against it twice, claimed at the replay store until then, and checked
once more. What `verifyAttestation` has answered for the attestation is part of a call.

`acceptedOnce_of_limitsInOrder`: over calls that share a store, a proof is accepted at most once
for an audience if it is not presented, after an earlier limit, with a later one. Another
attestation may bring one (`proof_accepted_twice`).
-/

namespace OidFed

open Js

/-- What authentication reads of a verified attestation. -/
structure VerifiedWalletAttestation where
  subject : String
  exp : Rat
  confirmationKey : Json
  /-- When the validated chain of the Wallet Provider expires. -/
  chainExpiresAt : Rat
  deriving DecidableEq

/-- How a bounded operation ends. One that has started runs, even where its caller is released. -/
inductive OperationEnd where
  | cancelledBefore
  | invalidTimeout
  | released
  | completed
  deriving DecidableEq

/-- The readings of the clock; `fresh` is read three times in each of three rounds. -/
inductive WalletClockSite where
  | fresh (round read : Nat)
  | proofKeys
  | store
  deriving DecidableEq

/-- Where a call looks whether it is cancelled. -/
inductive AbortSite where
  | verifyStart
  | verifyEnd
  | beforeClaim
  | afterClaim
  deriving DecidableEq

structure AuthenticateWalletOptions where
  audience : String
  clientId : Option String := none
  expectedChallenge : Option String := none
  maxProofAgeSeconds : Rat := 300
  clockSkewSeconds : Rat := defaultClockSkewSeconds
  maxResponseBytes : Nat := 512 * 1024

/-- A presentation of a proof, with the answers that it gets while it runs. -/
structure WalletCall where
  popJwt : String
  /-- The answer of `verifyAttestation`. -/
  attestation : Except FederationError VerifiedWalletAttestation
  options : AuthenticateWalletOptions
  /-- How `acceptWallet` ends, and its answer; `none` where it throws. -/
  acceptWallet : OperationEnd × Option Bool := (.completed, some true)
  /-- How the claim at the replay store ends. -/
  replay : OperationEnd := .completed
  aborted : AbortSite → Bool := fun _ => false
  clock : WalletClockSite → Rat

/-- The claims of an accepted proof. -/
structure ProofClaims where
  iss : String
  jti : String
  iat : Rat
  exp : Option Rat
  challenge : Option String
  deriving DecidableEq

/-- `jose.jwtVerify` with a type and an audience: the JWT, the key, the algorithm, the type, the
audience, the tolerance and the time. -/
structure WalletPlatform extends Platform where
  jwtVerifyFor : String → Json → String → String → Option String → Rat → Rat →
    Except String Payload

def walletFailure {α : Type} (description : String) : Except FederationError α :=
  .error (federationError .InvalidRequest description)

def nonempty : Schema := fun v => v.isString && v != .str ""

def numberSchema : Schema := fun v => v.number?.isSome

def popSchema : Schema :=
  Schema.looseObject
    [{ name := "iss", schema := nonempty },
      { name := "aud", schema := fun v => nonempty v || Schema.nonEmptyArray nonempty v },
      { name := "jti", schema := nonempty },
      { name := "iat", schema := numberSchema },
      { name := "nbf", schema := numberSchema, optional := true },
      { name := "exp", schema := numberSchema, optional := true },
      { name := "challenge", schema := Schema.string, optional := true }]

/-- `PopSchema.safeParse`. -/
def parseProof (payload : Payload) : Option ProofClaims :=
  if popSchema (.obj payload.members) then do
    let iss ← payload.string? "iss"
    let jti ← payload.string? "jti"
    let iat ← payload.number? "iat"
    return { iss, jti, iat, exp := payload.number? "exp", challenge := payload.string? "challenge" }
  else none

section Wallet

variable (P : WalletPlatform)

def decodeToken (jwt : String) (options : AuthenticateWalletOptions) :
    Except FederationError ParsedEntityStatement :=
  if options.maxResponseBytes < utf16Length jwt then
    walletFailure "JWT exceeds the configured size limit"
  else
    match P.decodeProtectedHeader jwt, P.decodeJwt jwt with
    | .ok header, .ok payload => .ok { header, payload }
    | _, _ => walletFailure "Malformed JWT"

/-- The keys that `verifyToken` tries, in order. -/
def eligibleKeys (header : Payload) (alg : String) (keys : JWKSet) : JWKSet :=
  keys.filter fun key =>
    jwkSchema key &&
      (match key.get? "key_ops" with
        | some (.arr ops) => ops.contains (.str "verify")
        | _ => true) &&
      ((header.get? "kid").isNone || header.get? "kid" == key.get? "kid") &&
      (selectVerificationKey ((key.get? "kid").bind Json.string?) (some alg) [key]).isSome

def verifyToken (jwt : String) (keys : JWKSet) (typ : String) (call : WalletCall)
    (audience : Option String) : Except FederationError Payload := do
  let decoded ← decodeToken P jwt call.options
  if ["iat", "nbf", "exp"].any fun claim =>
      (decoded.payload.get? claim).any fun v => v.number?.isNone then
    walletFailure "JWT dates must be finite NumericDates"
  else if decoded.header.get? "typ" != some (.str typ) ||
      !isValidAlgorithm (decoded.header.get? "alg") then
    walletFailure "Invalid JWT type or unsupported signing algorithm"
  else if call.aborted .verifyStart then walletFailure "Operation cancelled"
  else
    let alg := (decoded.header.string? "alg").getD ""
    let verified := (eligibleKeys decoded.header alg keys).findSome? fun key =>
      (P.jwtVerifyFor jwt key alg typ audience call.options.clockSkewSeconds
        (call.clock .proofKeys)).toOption
    match verified with
    | none =>
      walletFailure "JWT signature or claims could not be verified with the trusted protocol keys"
    | some payload =>
      if call.aborted .verifyEnd then walletFailure "Operation cancelled" else .ok payload

/-- `invokePolicy`, of an operation that answers. -/
def invokePolicy (ends : OperationEnd) (answer : Option Bool) : Except FederationError Unit :=
  match ends, answer with
  | .cancelledBefore, _ => walletFailure "Required verification policy is missing or cancelled"
  | .completed, some true => .ok ()
  | .completed, some false => walletFailure "Verification policy rejected the input"
  | _, _ => walletFailure "Verification policy failed, timed out, or was cancelled"

/-- The time until which a proof is accepted with an attestation. -/
def limitOf (options : AuthenticateWalletOptions) (claims : ProofClaims)
    (attestation : VerifiedWalletAttestation) : Rat :=
  let age := claims.iat + options.maxProofAgeSeconds
  let own := match claims.exp with
    | some exp => min age exp
    | none => age
  min own attestation.exp + options.clockSkewSeconds

def fresh (call : WalletCall) (claims : ProofClaims) (attestation : VerifiedWalletAttestation)
    (round : Nat) : Bool :=
  decide (claims.iat ≤ call.clock (.fresh round 0) + call.options.clockSkewSeconds) &&
    decide (call.clock (.fresh round 1) < limitOf call.options claims attestation) &&
    decide (call.clock (.fresh round 2) < attestation.chainExpiresAt)

/-- The configuration, the attestation and the proof, before the first check of freshness. -/
def walletProof (call : WalletCall) :
    Except FederationError (VerifiedWalletAttestation × ProofClaims) := do
  let options := call.options
  if !isValidEntityId P.toPlatform options.audience then
    walletFailure "Expected authorization server audience must be a valid issuer identifier"
  else if options.maxProofAgeSeconds ≤ 0 || options.clockSkewSeconds < 0 ||
      options.audience == "" then
    walletFailure "Invalid wallet authentication configuration"
  else
    let verified ← call.attestation
    let parsed ← decodeToken P call.popJwt options
    match parseProof parsed.payload with
    | none => walletFailure "Invalid attestation proof claims"
    | some claims =>
      if claims.iss != verified.subject || options.clientId.any (· != claims.iss) then
        walletFailure "Wallet client identifiers do not match"
      else if options.expectedChallenge.isSome && claims.challenge != options.expectedChallenge then
        walletFailure "Wallet challenge does not match"
      else .ok (verified, claims)

/-- All that is checked before the store is asked. -/
def checkWallet (call : WalletCall) :
    Except FederationError (VerifiedWalletAttestation × ProofClaims) := do
  let (verified, claims) ← walletProof P call
  if !fresh call claims verified 0 then
    walletFailure "Attestation proof is outside the allowed freshness window"
  else
    let _ ← verifyToken P call.popJwt [verified.confirmationKey] "oauth-client-attestation-pop+jwt"
      call (some call.options.audience)
    invokePolicy call.acceptWallet.1 call.acceptWallet.2
    if !fresh call claims verified 1 || call.aborted .beforeClaim then
      walletFailure "Wallet authentication expired or was cancelled"
    else .ok (verified, claims)

def proofClaim (call : WalletCall) (verified : VerifiedWalletAttestation) (claims : ProofClaims) :
    JtiReplayClaim where
  issuer := .str claims.iss
  audience := .str call.options.audience
  jti := .str claims.jti
  expiresAt := .num (limitOf call.options claims verified)

def replayFailure {α : Type} : Except FederationError α :=
  walletFailure "Attestation proof was already used or replay protection could not be completed"

/-- Authenticate a wallet, cut at its use of the replay store. -/
def authenticateWallet :
    ReplayProtected WalletCall (Except FederationError VerifiedWalletAttestation) where
  before call :=
    match checkWallet P call with
    | .error e => .error (.error e)
    | .ok (verified, claims) =>
      match call.replay with
      | .cancelledBefore | .invalidTimeout => .error replayFailure
      | .released | .completed => .ok (proofClaim call verified claims, call.clock .store)
  after call answer := do
    let (verified, claims) ← checkWallet P call
    match invokePolicy call.replay answer.toOption with
    | .error _ => replayFailure
    | .ok () =>
      if !fresh call claims verified 2 || call.aborted .afterClaim then
        walletFailure "Wallet authentication expired or was cancelled"
      else .ok verified

end Wallet

/-! ## Accepted once -/

section Once

variable {P : WalletPlatform}

/-- Two presentations of one proof to one audience. -/
structure SameProof (c d : WalletCall) (claims claims' : ProofClaims) : Prop where
  iss : claims.iss = claims'.iss
  jti : claims.jti = claims'.jti
  audience : c.options.audience = d.options.audience

variable (P) in
/-- No proof is accepted twice for an audience, whatever the attestations. -/
def ProofAcceptedOnce (results : List (WalletCall × Except FederationError VerifiedWalletAttestation)) :
    Prop :=
  results.Pairwise fun p q => ∀ v w, p.2 = .ok v → q.2 = .ok w →
    ∀ verified claims verified' claims', walletProof P p.1 = .ok (verified, claims) →
      walletProof P q.1 = .ok (verified', claims') → ¬ SameProof p.1 q.1 claims claims'

/-- The readings of one call, in the order in which it takes them. -/
def walletReadings (clock : WalletClockSite → Rat) : List Rat :=
  [clock (.fresh 0 0), clock (.fresh 0 1), clock (.fresh 0 2), clock .proofKeys,
    clock (.fresh 1 0), clock (.fresh 1 1), clock (.fresh 1 2), clock .store,
    clock (.fresh 2 0), clock (.fresh 2 1), clock (.fresh 2 2)]

/-- Calls that share a replay store, in the order in which they reach it, by a clock that does
not go back. Other parts of the calls may overlap. -/
structure SharedWalletRun (calls : List WalletCall) : Prop where
  within : ∀ c ∈ calls, (walletReadings c.clock).Pairwise (· ≤ ·)
  across : calls.Pairwise fun c d => c.clock .store ≤ d.clock .store

variable (P) in
/-- A proof that passes the checks again has no later limit, or reaches the store before the limit
of the earlier presentation. -/
def LimitsInOrder (calls : List WalletCall) : Prop :=
  calls.Pairwise fun c d => ∀ verified claims verified' claims',
    checkWallet P c = .ok (verified, claims) → checkWallet P d = .ok (verified', claims') →
      SameProof c d claims claims' →
        limitOf d.options claims' verified' ≤ limitOf c.options claims verified ∨
          d.clock .store < limitOf c.options claims verified

theorem checkWallet_proof {call : WalletCall} {r : VerifiedWalletAttestation × ProofClaims}
    (h : checkWallet P call = .ok r) : walletProof P call = .ok r := by
  unfold checkWallet at h
  obtain ⟨⟨verified, claims⟩, hproof, h⟩ := bind_eq_ok.mp h
  simp only at h
  split at h
  · simp [walletFailure] at h
  · obtain ⟨_, -, h⟩ := bind_eq_ok.mp h
    obtain ⟨_, -, h⟩ := bind_eq_ok.mp h
    split at h
    · simp [walletFailure] at h
    · rw [hproof, Except.ok.inj h]

/-- A call that returns a wallet has passed the checks, has been granted its claim, and is fresh
after it. -/
theorem authenticateWallet_accepted {store : MemoryReplayStore} {calls : List WalletCall}
    {p : WalletCall × Except FederationError VerifiedWalletAttestation}
    {v : VerifiedWalletAttestation} (hp : p ∈ (authenticateWallet P).runAll store calls)
    (hv : p.2 = .ok v) : ∃ claims, checkWallet P p.1 = .ok (v, claims) ∧
      (authenticateWallet P).before p.1 = .ok (proofClaim p.1 v claims, p.1.clock .store) ∧
      (authenticateWallet P).Granted p ∧ fresh p.1 claims v 2 = true := by
  have hafter : ∀ answer, p.2 = (authenticateWallet P).after p.1 answer → answer = .ok true ∧
      ∃ claims, checkWallet P p.1 = .ok (v, claims) ∧ p.1.replay = .completed ∧
        fresh p.1 claims v 2 = true := by
    intro answer hanswer
    rw [hv] at hanswer
    obtain ⟨⟨verified, claims⟩, hcheck, h⟩ := bind_eq_ok.mp hanswer.symm
    simp only at h
    cases hi : invokePolicy p.1.replay answer.toOption with
    | error e => rw [hi] at h; simp [replayFailure, walletFailure] at h
    | ok _ =>
      rw [hi] at h
      simp only at h
      split at h
      · simp [walletFailure] at h
      rename_i hfresh
      obtain rfl := Except.ok.inj h
      have hanswered : p.1.replay = .completed ∧ answer = .ok true := by
        unfold invokePolicy at hi
        split at hi
        · simp [walletFailure] at hi
        · rename_i hends htrue
          exact ⟨hends, toOption_eq_some.mp htrue⟩
        · simp [walletFailure] at hi
        · simp [walletFailure] at hi
      refine ⟨hanswered.2, claims, hcheck, hanswered.1, ?_⟩
      simp only [Bool.or_eq_true, Bool.not_eq_true', not_or] at hfresh
      simpa using hfresh.1
  rcases (authenticateWallet P).result_cases hp with hended | ⟨_, _, answer, hbefore, hr⟩
  · -- a call ends before the store with an error only
    exfalso
    simp only [authenticateWallet] at hended
    cases hc : checkWallet P p.1 with
    | error e => simp [hc, hv] at hended
    | ok r =>
      rw [hc] at hended
      cases hrep : p.1.replay <;> simp [hrep, hv, replayFailure, walletFailure] at hended
  · obtain ⟨-, claims, hcheck, hreplay, hfresh⟩ := hafter answer hr
    refine ⟨claims, hcheck, ?_, fun answer h => (hafter answer h).1, hfresh⟩
    simp [authenticateWallet, hcheck, hreplay]

theorem SharedWalletRun.storeClock {calls : List WalletCall} (h : SharedWalletRun calls) :
    (authenticateWallet P).StoreClockNondecreasing calls := by
  have hsite : ∀ {c : WalletCall} {p : JtiReplayClaim × Rat},
      p ∈ ((authenticateWallet P).before c).toOption → p.2 = c.clock .store := by
    intro c p hp
    have hb := toOption_eq_some.mp hp
    simp only [authenticateWallet] at hb
    cases hc : checkWallet P c with
    | error e => rw [hc] at hb; simp at hb
    | ok r =>
      rw [hc] at hb
      cases hrep : c.replay <;> simp only [hrep] at hb
      · simp at hb
      · simp at hb
      · exact (congrArg Prod.snd (Except.ok.inj hb)).symm
      · exact (congrArg Prod.snd (Except.ok.inj hb)).symm
  refine h.across.imp fun {c d} hcd => ?_
  intro a ha b hb
  rw [hsite ha, hsite hb]
  exact hcd

/-- A proof is accepted at most once for an audience, if its limits are in order. -/
theorem acceptedOnce_of_limitsInOrder {calls : List WalletCall} (hrun : SharedWalletRun calls)
    (hlimits : LimitsInOrder P calls) (store : MemoryReplayStore) :
    ProofAcceptedOnce P ((authenticateWallet P).runAll store calls) := by
  have hagain := (authenticateWallet P).granted_again store hrun.storeClock
  have hlimits' : (((authenticateWallet P).runAll store calls).map Prod.fst).Pairwise
      fun c d => ∀ verified claims verified' claims',
        checkWallet P c = .ok (verified, claims) → checkWallet P d = .ok (verified', claims') →
          SameProof c d claims claims' →
            limitOf d.options claims' verified' ≤ limitOf c.options claims verified ∨
              d.clock .store < limitOf c.options claims verified := by
    rw [ReplayProtected.runAll_calls]
    exact hlimits
  refine (hagain.and (List.pairwise_map.mp hlimits')).imp_of_mem fun {p q} hp hq hpq => ?_
  intro v w hv hw verified claims verified' claims' hproof hproof' hsame
  obtain ⟨c₁, hpc, hpb, hpg, -⟩ := authenticateWallet_accepted hp hv
  obtain ⟨c₂, hqc, hqb, hqg, hqf⟩ := authenticateWallet_accepted hq hw
  obtain ⟨rfl, rfl⟩ : verified = v ∧ claims = c₁ := by
    have := (checkWallet_proof hpc).symm.trans hproof
    simpa [eq_comm] using this
  obtain ⟨rfl, rfl⟩ : verified' = w ∧ claims' = c₂ := by
    have := (checkWallet_proof hqc).symm.trans hproof'
    simpa [eq_comm] using this
  have hkey : MemoryReplayStore.keyOf (proofClaim p.1 verified claims) =
      MemoryReplayStore.keyOf (proofClaim q.1 verified' claims') := by
    simp [MemoryReplayStore.keyOf, proofClaim, hsame.iss, hsame.jti, hsame.audience]
  have hexpired : limitOf p.1.options claims verified ≤ q.1.clock .store := by
    simpa [proofClaim, Json.number?] using hpq.1 hpg hqg _ _ _ _ hpb hqb hkey
  -- the later call is still fresh after it reached the store
  have hmem : q.1 ∈ calls := by
    rw [← (authenticateWallet P).runAll_calls store calls]
    exact List.mem_map_of_mem hq
  have hlater : q.1.clock .store ≤ q.1.clock (.fresh 2 1) := by
    have := hrun.within q.1 hmem
    simp only [walletReadings, List.pairwise_cons, List.mem_cons, forall_eq_or_imp] at this
    tauto
  have hlive : q.1.clock (.fresh 2 1) < limitOf q.1.options claims' verified' := by
    simp only [fresh, Bool.and_eq_true, decide_eq_true_eq] at hqf
    exact hqf.1.2
  rcases hpq.2 verified claims verified' claims' hpc hqc hsame with hle | hlt
  · exact absurd (lt_of_lt_of_le hlive hle) (not_lt.mpr (le_trans hexpired hlater))
  · exact absurd hlt (not_lt.mpr hexpired)

end Once

/-! ## A longer attestation -/

/-- A proof without an expiry of its own, made at 1000. -/
def walletPlatform : WalletPlatform :=
  let P := tablePlatform [("pop",
    { header := Dict.ofEntries [("typ", .str "oauth-client-attestation-pop+jwt"),
        ("alg", .str "ES256")]
      payload := Dict.ofEntries [("iss", .str "https://wallet.example"),
        ("aud", .str "https://as.example"), ("jti", .str "1"), ("iat", .num 1000)]
      key := "wallet-key" })]
  { P with jwtVerifyFor := fun jwt key alg _ _ tolerance now => P.jwtVerify jwt key alg tolerance now }

def walletAttestation (exp : Rat) : VerifiedWalletAttestation where
  subject := "https://wallet.example"
  exp := exp
  confirmationKey := tableKey "wallet-key"
  chainExpiresAt := 2000

/-- The proof at a time, with an attestation that expires at another. -/
def presentProof (now exp : Rat) : WalletCall where
  popJwt := "pop"
  attestation := .ok (walletAttestation exp)
  options := { audience := "https://as.example", clockSkewSeconds := 0 }
  clock := fun _ => now

def popClaims : ProofClaims where
  iss := "https://wallet.example"
  jti := "1"
  iat := 1000
  exp := none
  challenge := none

theorem proof_acceptedOnce : ProofAcceptedOnce walletPlatform
    ((authenticateWallet walletPlatform).runAll .empty
      [presentProof 1050 1100, presentProof 1090 1250]) := by
  refine acceptedOnce_of_limitsInOrder ⟨by decide +kernel, by decide +kernel⟩ ?_ _
  refine List.pairwise_pair.mpr ?_
  intro verified claims _ _ hcheck _ _
  have hchecked : (checkWallet walletPlatform (presentProof 1050 1100)).toOption =
      some (walletAttestation 1100, popClaims) := by decide +kernel
  rw [hcheck] at hchecked
  obtain ⟨rfl, rfl⟩ := Prod.mk.inj (Option.some.inj hchecked)
  exact .inr (by decide +kernel)

/-- The record of the first presentation ends with its attestation, at 1100; the second one, at
1150, has a longer attestation. -/
theorem proof_accepted_twice : ∃ calls, SharedWalletRun calls ∧
    ¬ ProofAcceptedOnce walletPlatform ((authenticateWallet walletPlatform).runAll .empty calls) := by
  refine ⟨[presentProof 1050 1100, presentProof 1150 1250],
    ⟨by decide +kernel, by decide +kernel⟩, fun honce => ?_⟩
  rw [ReplayProtected.runAll_pair] at honce
  have hfirst : ((authenticateWallet walletPlatform).run .empty (presentProof 1050 1100)).1 =
      .ok (walletAttestation 1100) := toOption_eq_some.mp (by decide +kernel)
  have hsecond : ((authenticateWallet walletPlatform).run
      ((authenticateWallet walletPlatform).run .empty (presentProof 1050 1100)).2
      (presentProof 1150 1250)).1 = .ok (walletAttestation 1250) :=
    toOption_eq_some.mp (by decide +kernel)
  have hproof : walletProof walletPlatform (presentProof 1050 1100) =
      .ok (walletAttestation 1100, popClaims) := toOption_eq_some.mp (by decide +kernel)
  have hproof' : walletProof walletPlatform (presentProof 1150 1250) =
      .ok (walletAttestation 1250, popClaims) := toOption_eq_some.mp (by decide +kernel)
  rw [hfirst, hsecond] at honce
  exact List.pairwise_pair.mp honce _ _ rfl rfl _ _ _ _ hproof hproof' ⟨rfl, rfl, rfl⟩

end OidFed
