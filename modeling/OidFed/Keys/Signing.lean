import OidFed.Jose
import OidFed.Keys.Rollover

/-!
# Signing (`jose/sign.ts`)

* `signEntityStatement`: the header, and what the signer makes of it and the payload.
* `SignsWith`: a signer that signs with the private key of a public one, as `JwkSigner` does.
* `verifyEntityStatement_signed`: what it has signed verifies under every key set that has the
  public key under a `kid` of its own, for as long as the times of the payload allow.
* `rollover_verifies_iff`: what an authority has signed verifies under the key set that it hands out
  at any later time exactly when that set still has the key, whatever keys are published, switched
  and revoked in between.
-/

namespace OidFed

open Js MemoryFederationKeyProvider ManagedFederationKeyEntry

/-- A platform with the signers of the application. -/
structure SigningPlatform extends Platform where
  /-- `signer.signJwt` of the JSON text of a payload, under a protected header. -/
  signJwt : JwtSigner → Payload → Payload → Except String String

/-- `{ alg, typ, kid, ...extraHeaders }`. -/
def protectedHeader (alg typ kid : String) (extraHeaders : Payload) : Payload :=
  Dict.ofEntries ([("alg", .str alg), ("typ", .str typ), ("kid", .str kid)] ++ extraHeaders.members)

/-- Sign the payload of an Entity Statement, or of another token of the federation. -/
def signEntityStatement (S : SigningPlatform) (payload : Payload) (signer : JwtSigner)
    (typ : String := JwtTyp.entityStatement) (extraHeaders : Payload := .empty)
    (alg : Option String := none) : Except String String := do
  validateSigner signer
  let alg := alg.getD signer.alg
  throwIf (!supportedAlgorithms.contains alg)
    ("Unsupported signing algorithm: \x22" ++ alg ++ "\x22. Supported: " ++
      ", ".intercalate supportedAlgorithms)
  throwIf (alg != signer.alg) ("Signing algorithm mismatch: signer uses \x22" ++ signer.alg ++
    "\x22, requested \x22" ++ alg ++ "\x22")
  S.signJwt signer payload (protectedHeader alg typ signer.kid extraHeaders)

/-- The times of a payload allow its use. -/
structure Timely (payload : Payload) (clockSkew now : Rat) : Prop where
  exp : ∀ v, payload.get? "exp" = some v → ∃ exp, v = .num exp ∧ now - clockSkew < exp
  nbf : ∀ v, payload.get? "nbf" = some v → ∃ nbf, v = .num nbf ∧ nbf ≤ now + clockSkew
  iat : ∀ v, payload.get? "iat" = some v → ∃ iat, v = .num iat

/-- What the signer signs decodes to what it has been given, and verifies under the public key. -/
structure SignsWith (S : SigningPlatform) (signer : JwtSigner) (publicJwk : Payload) : Prop where
  decodes : ∀ payload header jwt, S.signJwt signer payload header = .ok jwt →
    S.decodeProtectedHeader jwt = .ok header ∧ S.decodeJwt jwt = .ok payload
  verifies : ∀ payload header jwt clockSkew now, S.signJwt signer payload header = .ok jwt →
    header.get? "alg" = some (.str signer.alg) → Timely payload clockSkew now →
    S.jwtVerify jwt (.obj publicJwk.members) signer.alg clockSkew now = .ok payload

/-- The keys of a set, as JSON objects. -/
def publishedJwks (jwks : List Payload) : JWKSet := jwks.map fun k => .obj k.members

section Signed

variable {S : SigningPlatform} {payload : Payload} {signer : JwtSigner} {typ jwt : String}
  {extraHeaders : Payload}

theorem protectedHeader_get? {alg kid name : String} {v : Json}
    (hextra : ∀ n ∈ ["alg", "typ", "kid"], extraHeaders.get? n = none)
    (h : [("alg", Json.str alg), ("typ", .str typ), ("kid", .str kid)].lookup name = some v) :
    (protectedHeader alg typ kid extraHeaders).get? name = some v := by
  have hmem : (name, v) ∈ [("alg", Json.str alg), ("typ", .str typ), ("kid", .str kid)] :=
    (lookup_eq_some_iff_mem (by simp) name v).mp h
  have hname : name ∈ ["alg", "typ", "kid"] := by
    simp only [List.mem_cons, List.not_mem_nil, or_false, Prod.mk.injEq] at hmem ⊢
    rcases hmem with ⟨rfl, -⟩ | ⟨rfl, -⟩ | ⟨rfl, -⟩ <;> simp
  have hnodup : (([("alg", Json.str alg), ("typ", .str typ), ("kid", .str kid)] ++
      extraHeaders.members).map Prod.fst).Nodup := by
    rw [List.map_append, List.nodup_append]
    refine ⟨by simp, extraHeaders.nodup, ?_⟩
    rintro a ha b hb rfl
    have hnone := hextra a (by simpa using ha)
    rw [Dict.get?_eq_none_iff] at hnone
    exact hnone hb
  rw [protectedHeader, Dict.get?_ofEntries hnodup, List.lookup_append, h]
  rfl

/-- What a successful signature has checked. -/
theorem signEntityStatement_eq_ok (h : signEntityStatement S payload signer typ extraHeaders = .ok jwt) :
    validateSigner signer = .ok () ∧
      S.signJwt signer payload (protectedHeader signer.alg typ signer.kid extraHeaders) = .ok jwt := by
  obtain ⟨⟨⟩, hsigner, h⟩ := bind_eq_ok.mp h
  obtain ⟨_, -, h⟩ := bind_eq_ok.mp h
  obtain ⟨_, -, h⟩ := bind_eq_ok.mp h
  exact ⟨hsigner, h⟩

/-- A key set selects the one key that has the `kid` of the signer. -/
theorem selectVerificationKey_published {jwks : List Payload} {publicJwk : Payload}
    (hkey : AcceptedKey signer publicJwk) (hmem : publicJwk ∈ jwks)
    (hnodup : (jwks.map fun k => k.get? "kid").Nodup) :
    selectVerificationKey (some signer.kid) (some signer.alg) (publishedJwks jwks) =
      some (.obj publicJwk.members) := by
  have huse : usableForSignature (.obj publicJwk.members) = true := by
    have husage := hkey.usage
    rw [validateVerificationUsage, throwIf_eq_ok, Bool.or_eq_false_iff] at husage
    cases hget : publicJwk.get? "use" with
    | none =>
      have : (Json.obj publicJwk.members).get? "use" = none := hget
      simp [usableForSignature, this, Json.truthy?]
    | some v =>
      have hv : (Json.obj publicJwk.members).get? "use" = some v := hget
      rw [hget] at husage
      simpa [usableForSignature, hv] using Or.inr husage.1
  have hkid : (Json.obj publicJwk.members).get? "kid" = some (.str signer.kid) := hkey.kid
  have hfind : (publishedJwks jwks).find? (fun k =>
      k.get? "kid" == (some signer.kid).map .str && usableForSignature k) =
      some (.obj publicJwk.members) := by
    cases hf : (publishedJwks jwks).find? (fun k =>
        k.get? "kid" == (some signer.kid).map .str && usableForSignature k) with
    | none =>
      have hno := List.find?_eq_none.mp hf (.obj publicJwk.members) (List.mem_map_of_mem hmem)
      simp [hkid, huse] at hno
    | some k =>
      obtain ⟨publicJwk', hmem', rfl⟩ := List.mem_map.mp (List.mem_of_find?_eq_some hf)
      have hk := List.find?_some hf
      simp only [Option.map_some, Bool.and_eq_true, beq_iff_eq] at hk
      -- no two keys of a set have one `kid`
      have hsame : publicJwk' = publicJwk :=
        List.inj_on_of_nodup_map hnodup hmem' hmem (hk.1.trans hkey.kid.symm)
      rw [hsame]
  have halg := hkey.alg
  rw [selectVerificationKey,
    if_pos (by simp [Json.truthy?, Json.truthy, validateSigner_kid hkey.validSigner]), hfind]
  simp only
  rw [if_neg]
  rw [algMismatch, Bool.and_eq_false_iff] at halg
  have hget : (Json.obj publicJwk.members).get? "alg" = publicJwk.get? "alg" := rfl
  rw [hget]
  rcases halg with hfalse | hsame
  · simp [hfalse]
  · rw [bne_eq_false_iff_eq] at hsame
    simp [hsame]

/-- What a signer has signed verifies under a key set that has its public key. -/
theorem verifyEntityStatement_signed {jwks : List Payload} {publicJwk : Payload}
    {clockSkew now : Rat} (hsigns : SignsWith S signer publicJwk)
    (hkey : AcceptedKey signer publicJwk) (hmem : publicJwk ∈ jwks)
    (hnodup : (jwks.map fun k => k.get? "kid").Nodup)
    (hextra : ∀ n ∈ ["alg", "typ", "kid"], extraHeaders.get? n = none)
    (h : signEntityStatement S payload signer typ extraHeaders = .ok jwt)
    (htimely : Timely payload clockSkew now) :
    verifyEntityStatement S.toPlatform jwt (publishedJwks jwks) clockSkew now typ =
      .ok ⟨protectedHeader signer.alg typ signer.kid extraHeaders, payload⟩ := by
  obtain ⟨hsigner, hsign⟩ := signEntityStatement_eq_ok h
  let header := protectedHeader signer.alg typ signer.kid extraHeaders
  have hheader : ∀ {name v}, [("alg", Json.str signer.alg), ("typ", .str typ),
      ("kid", .str signer.kid)].lookup name = some v → header.get? name = some v :=
    fun hname => protectedHeader_get? hextra hname
  have halg : header.get? "alg" = some (.str signer.alg) := hheader rfl
  have htyp : header.get? "typ" = some (.str typ) := hheader rfl
  have hkid : header.get? "kid" = some (.str signer.kid) := hheader rfl
  have hsupported : isValidAlgorithm (header.get? "alg") = true := by
    obtain ⟨_, -, hs⟩ := bind_eq_ok.mp hsigner
    rw [throwIf_eq_ok, Bool.not_eq_false'] at hs
    exact isValidAlgorithm_eq_true.mpr ⟨signer.alg, by simpa using hs, halg⟩
  have halg? : header.string? "alg" = some signer.alg := Payload.string?_eq_some.mpr halg
  have hkid? : header.string? "kid" = some signer.kid := Payload.string?_eq_some.mpr hkid
  unfold verifyEntityStatement
  rw [(hsigns.decodes payload header jwt hsign).1]
  simp only [htyp, hsupported, hkid?, halg?, validateSigner_kid hsigner, bne_self_eq_false,
    Bool.not_true, Bool.false_eq_true, if_false, Option.getD_some]
  rw [selectVerificationKey_published hkey hmem hnodup]
  simp only
  rw [hsigns.verifies payload header jwt clockSkew now hsign halg htimely]

/-- A key set without the `kid` verifies nothing that the signer has signed. -/
theorem verifyEntityStatement_unpublished {jwks : List Payload} {publicJwk : Payload}
    {clockSkew now : Rat} (hsigns : SignsWith S signer publicJwk)
    (hextra : ∀ n ∈ ["alg", "typ", "kid"], extraHeaders.get? n = none)
    (h : signEntityStatement S payload signer typ extraHeaders = .ok jwt)
    (hnone : ∀ k ∈ jwks, k.get? "kid" ≠ some (.str signer.kid)) (es : ParsedEntityStatement) :
    verifyEntityStatement S.toPlatform jwt (publishedJwks jwks) clockSkew now typ ≠ .ok es := by
  obtain ⟨hsigner, hsign⟩ := signEntityStatement_eq_ok h
  intro hverify
  obtain ⟨hdecoded, -, kid, alg, key, hkid, -, hne, -, hselect, -⟩ := verifyEntityStatement_eq_ok hverify
  obtain ⟨hmem, hkeyKid⟩ := selectVerificationKey_mem hne hselect
  obtain ⟨publicJwk', hmem', rfl⟩ := List.mem_map.mp hmem
  have hheader : es.header.get? "kid" = some (.str signer.kid) := by
    rw [← Except.ok.inj ((hsigns.decodes payload _ jwt hsign).1.symm.trans hdecoded)]
    exact protectedHeader_get? hextra rfl
  rw [hheader] at hkid
  rw [← hkid] at hkeyKid
  exact hnone publicJwk' hmem' hkeyKid

end Signed

/-! ## Rollover -/

section Rollover

variable {initial : List FederationSigningKey} {policy : RevocationPolicy} {s s' : KeyRun}

/-- A step keeps the signer and the public key of an entry. -/
theorem EntryStep.same_key {mayRevoke : String → Prop} {now : Rat}
    {e e' : ManagedFederationKeyEntry} (h : EntryStep mayRevoke now e e') :
    e'.signer = e.signer ∧ e'.publicJwk = e.publicJwk := by
  cases h with
  | same => exact ⟨rfl, rfl⟩
  | activated order hstate => exact ⟨rfl, rfl⟩
  | retired removal hstate hremoval => exact ⟨rfl, rfl⟩
  | revoked reason hreason => exact ⟨rfl, rfl⟩

theorem same_key_later {kid : String} {e : ManagedFederationKeyEntry} (hs : Sound s.provider)
    (he : s.provider.keys.get? kid = some e) (h : (keyLifecycle initial policy).Later s s') :
    ∃ e', s'.provider.keys.get? kid = some e' ∧ e'.signer = e.signer ∧
      e'.publicJwk = e.publicJwk := by
  refine (entry_later (b := s.now)
    (Q := fun e' => e'.signer = e.signer ∧ e'.publicJwk = e.publicJwk)
    (fun _ _ _ _ _ _ hq hstep => ?_) hs le_rfl he ⟨rfl, rfl⟩ h).2.2
  exact ⟨hstep.same_key.1.trans hq.1, hstep.same_key.2.trans hq.2⟩

/-- The key is neither revoked nor past its removal. -/
def MemoryFederationKeyProvider.Keeps (p : MemoryFederationKeyProvider) (kid : String) (now : Rat) :
    Prop :=
  ∃ e, p.keys.get? kid = some e ∧ e.state ≠ .revoked ∧
    (e.state = .retiring → ∀ removal, e.scheduledRemovalAt = some removal → now < removal)

theorem isPublished_iff {e : ManagedFederationKeyEntry} {now : Rat} :
    e.isPublished now = true ↔ e.state ≠ .revoked ∧
      (e.state = .retiring → ∀ removal, e.scheduledRemovalAt = some removal → now < removal) := by
  unfold isPublished
  cases hstate : e.state with
  | published => simp
  | active => simp
  | retiring => cases hremoval : e.scheduledRemovalAt <;> simp
  | revoked => simp

/-- What the signer of a key set signs verifies under its public key. -/
def SignsAsPublished (S : SigningPlatform) (keySet : FederationKeySet) : Prop :=
  ∀ publicJwk ∈ keySet.jwks, publicJwk.get? "kid" = some (.str keySet.signer.kid) →
    SignsWith S keySet.signer publicJwk

section Later

variable {S : SigningPlatform} {signedAt readAt clockSkew now : Rat} {keySet keySet' : FederationKeySet}
  {payload extraHeaders : Payload} {typ jwt : String}

/-- The entry of the signer of an earlier key set. -/
theorem signer_entry (hs : (keyLifecycle initial policy).Reach s)
    (hkeySet : s.provider.getFederationKeySet signedAt = .ok keySet)
    (hsigns : SignsAsPublished S keySet) (hlater : (keyLifecycle initial policy).Later s s') :
    ∃ e, s'.provider.keys.get? keySet.signer.kid = some e ∧
      AcceptedKey keySet.signer e.publicJwk ∧ SignsWith S keySet.signer e.publicJwk ∧
      ∀ readAt, s'.provider.Keeps keySet.signer.kid readAt ↔ e.isPublished readAt = true := by
  have hsound := keyLifecycle_sound hs
  obtain ⟨e, -, he, hactive, rfl⟩ := hsound.signer hkeySet
  have hmem : e.publicJwk ∈ s.provider.publishedKeys signedAt :=
    mem_publishedKeys.mpr ⟨_, e, he, by simp [isPublished, hactive], rfl⟩
  obtain ⟨e', he', -, hjwk⟩ := same_key_later hsound he hlater
  refine ⟨e', he', ?_, ?_, fun readAt => ⟨?_, fun hpub => ?_⟩⟩
  · rw [hjwk]
    exact hsound.accepted he
  · rw [hjwk]
    exact hsigns _ hmem (hsound.accepted he).kid
  · rintro ⟨e'', he'', hkept⟩
    obtain rfl := Option.some.inj (he'.symm.trans he'')
    exact isPublished_iff.mpr hkept
  · exact ⟨e', he', isPublished_iff.mp hpub⟩

theorem verifies_of_keeps (hs : (keyLifecycle initial policy).Reach s)
    (hkeySet : s.provider.getFederationKeySet signedAt = .ok keySet)
    (hsigns : SignsAsPublished S keySet)
    (hextra : ∀ n ∈ ["alg", "typ", "kid"], extraHeaders.get? n = none)
    (hjwt : signEntityStatement S payload keySet.signer typ extraHeaders = .ok jwt)
    (hlater : (keyLifecycle initial policy).Later s s')
    (hkeySet' : s'.provider.getFederationKeySet readAt = .ok keySet')
    (htimely : Timely payload clockSkew now)
    (hkeeps : s'.provider.Keeps keySet.signer.kid readAt) :
    verifyEntityStatement S.toPlatform jwt (publishedJwks keySet'.jwks) clockSkew now typ =
      .ok ⟨protectedHeader keySet.signer.alg typ keySet.signer.kid extraHeaders, payload⟩ := by
  have hsound' := keyLifecycle_sound (hs.later hlater)
  obtain ⟨e, he, haccepted, hwith, hpublished⟩ := signer_entry hs hkeySet hsigns hlater
  obtain ⟨selected, -, rfl⟩ := currentKeySet_eq_ok hkeySet'
  refine verifyEntityStatement_signed hwith haccepted ?_ (hsound'.publishedKids readAt) hextra hjwt
    htimely
  exact mem_publishedKeys.mpr ⟨_, e, he, (hpublished readAt).mp hkeeps, rfl⟩

theorem not_verifies_of_gone (hs : (keyLifecycle initial policy).Reach s)
    (hkeySet : s.provider.getFederationKeySet signedAt = .ok keySet)
    (hsigns : SignsAsPublished S keySet)
    (hextra : ∀ n ∈ ["alg", "typ", "kid"], extraHeaders.get? n = none)
    (hjwt : signEntityStatement S payload keySet.signer typ extraHeaders = .ok jwt)
    (hlater : (keyLifecycle initial policy).Later s s')
    (hkeySet' : s'.provider.getFederationKeySet readAt = .ok keySet')
    (hgone : ¬ s'.provider.Keeps keySet.signer.kid readAt) (es : ParsedEntityStatement) :
    verifyEntityStatement S.toPlatform jwt (publishedJwks keySet'.jwks) clockSkew now typ ≠
      .ok es := by
  have hsound' := keyLifecycle_sound (hs.later hlater)
  obtain ⟨e, he, -, hwith, hpublished⟩ := signer_entry hs hkeySet hsigns hlater
  obtain ⟨selected, -, rfl⟩ := currentKeySet_eq_ok hkeySet'
  refine verifyEntityStatement_unpublished hwith hextra hjwt (fun k hk hkid => hgone ?_) es
  obtain ⟨kid', e', he', hpub, rfl⟩ := mem_publishedKeys.mp hk
  rw [(hsound'.accepted he').kid, hsound'.kid he'] at hkid
  obtain rfl : kid' = keySet.signer.kid := by simpa using hkid
  obtain rfl := Option.some.inj (he.symm.trans he')
  exact (hpublished readAt).mpr hpub

/-- What the signer of a key set has signed verifies under a key set that is handed out later
exactly when the provider still keeps the key; else nothing of it verifies. -/
theorem rollover_verifies_iff (hs : (keyLifecycle initial policy).Reach s)
    (hkeySet : s.provider.getFederationKeySet signedAt = .ok keySet)
    (hsigns : SignsAsPublished S keySet)
    (hextra : ∀ n ∈ ["alg", "typ", "kid"], extraHeaders.get? n = none)
    (hjwt : signEntityStatement S payload keySet.signer typ extraHeaders = .ok jwt)
    (hlater : (keyLifecycle initial policy).Later s s')
    (hkeySet' : s'.provider.getFederationKeySet readAt = .ok keySet')
    (htimely : Timely payload clockSkew now) :
    (verifyEntityStatement S.toPlatform jwt (publishedJwks keySet'.jwks) clockSkew now typ =
        .ok ⟨protectedHeader keySet.signer.alg typ keySet.signer.kid extraHeaders, payload⟩ ↔
      s'.provider.Keeps keySet.signer.kid readAt) ∧
    (¬ s'.provider.Keeps keySet.signer.kid readAt → ∀ es,
      verifyEntityStatement S.toPlatform jwt (publishedJwks keySet'.jwks) clockSkew now typ ≠
        .ok es) := by
  have hnone : ¬ s'.provider.Keeps keySet.signer.kid readAt → ∀ es,
      verifyEntityStatement S.toPlatform jwt (publishedJwks keySet'.jwks) clockSkew now typ ≠
        .ok es := fun hgone es =>
    not_verifies_of_gone hs hkeySet hsigns hextra hjwt hlater hkeySet' hgone es
  refine ⟨⟨fun hverify => ?_, fun hkept => ?_⟩, hnone⟩
  · by_contra hgone
    exact hnone hgone _ hverify
  · exact verifies_of_keeps hs hkeySet hsigns hextra hjwt hlater hkeySet' htimely hkept

end Later

end Rollover

/-! ## Signers over a table -/

/-- The platform of a table, whose signers sign what the table has under their `kid`. -/
def signingTable (table : List (String × SignedJwt)) : SigningPlatform where
  toPlatform := tablePlatform table
  signJwt signer payload header :=
    match table.find? fun entry => decide (entry.2.header = header) &&
        decide (entry.2.payload = payload) && entry.2.key == signer.kid with
    | some entry => .ok entry.1
    | none => .error "No entry of the table"

theorem signingTable_signsWith {table : List (String × SignedJwt)}
    (hnodup : (table.map Prod.fst).Nodup) {signer : JwtSigner} {publicJwk : Payload}
    (hkey : publicJwk.get? "x" = some (.str signer.kid)) :
    SignsWith (signingTable table) signer publicJwk := by
  have hentry : ∀ payload header jwt, (signingTable table).signJwt signer payload header = .ok jwt →
      ∃ entry, table.lookup jwt = some entry ∧ entry.header = header ∧ entry.payload = payload ∧
        entry.key = signer.kid := by
    intro payload header jwt h
    dsimp only [signingTable] at h
    split at h
    · rename_i entry hfind
      obtain rfl := Except.ok.inj h
      have hcond := List.find?_some hfind
      simp only [Bool.and_eq_true, decide_eq_true_eq, beq_iff_eq] at hcond
      exact ⟨entry.2, (lookup_eq_some_iff_mem hnodup _ _).mpr (List.mem_of_find?_eq_some hfind),
        hcond.1.1, hcond.1.2, hcond.2⟩
    · cases h
  constructor
  · intro payload header jwt h
    obtain ⟨entry, hlookup, rfl, rfl, -⟩ := hentry payload header jwt h
    simp [signingTable, tablePlatform, hlookup]
  · intro payload header jwt clockSkew now h halg htimely
    obtain ⟨entry, hlookup, rfl, rfl, hsigner⟩ := hentry payload header jwt h
    have hx : (Json.obj publicJwk.members).get? "x" = some (.str entry.key) := by
      rw [hsigner]
      exact hkey
    have hexp : ((entry.payload.number? "exp").any (· ≤ now - clockSkew)) = false := by
      rw [Payload.number?]
      cases hv : entry.payload.get? "exp" with
      | none => rfl
      | some v =>
        obtain ⟨exp, rfl, hlt⟩ := htimely.exp v hv
        simpa [Json.number?] using hlt
    simp [signingTable, tablePlatform, hlookup, hx, hexp]

/-! ## An example -/

/-- A signing key of the table. -/
def tableSigningKey (name : String) : FederationSigningKey where
  signer := { kid := name, alg := "ES256" }
  publicJwk := Dict.ofEntries [("kty", .str "EC"), ("kid", .str name), ("x", .str name)]

def createdWith (name : String) : MemoryFederationKeyProvider :=
  (create [tableSigningKey name] 0).toOption.getD {}

theorem createdWith_reached (name : String) (h : create [tableSigningKey name] 0 =
    .ok (createdWith name)) :
    (keyLifecycle [tableSigningKey name]).Reach (⟨createdWith name, 0⟩ : KeyRun) :=
  .init h

/-- A provider with the key `a`, which publishes `b` and switches to it at 2000, with an overlap of
500. -/
def rolledOver : MemoryFederationKeyProvider :=
  (((createdWith "a").publishKey (tableSigningKey "b") 1000).1.switchActiveKey "b" ⟨some 500⟩
    2000 2000).1

theorem rolledOver_later : (keyLifecycle [tableSigningKey "a"]).Later
    (⟨createdWith "a", 0⟩ : KeyRun) (⟨rolledOver, 2000⟩ : KeyRun) :=
  .step (.step .refl (KeyStep.publishKey (tableSigningKey "b") 1000 (by norm_num)))
    (KeyStep.switchActiveKey "b" ⟨some 500⟩ 2000 2000 (by norm_num) le_rfl
      (by norm_num [SwitchActiveFederationKeyOptions.overlap]))

/-- A statement that is signed with the key `a`. -/
def statementTable : List (String × SignedJwt) :=
  [("statement", {
    header := protectedHeader "ES256" JwtTyp.entityStatement "a" .empty
    payload := Dict.ofEntries [("exp", .num 5000)]
    key := "a" })]

theorem rolledOver_verifies :
    (verifyEntityStatement (tablePlatform statementTable) "statement"
        (publishedJwks (rolledOver.publishedKeys 2400)) 60 3 =
      .ok ⟨protectedHeader "ES256" JwtTyp.entityStatement "a" .empty,
        Dict.ofEntries [("exp", .num 5000)]⟩ ↔ rolledOver.Keeps "a" 2400) ∧
    (¬ rolledOver.Keeps "a" 2400 → ∀ es, verifyEntityStatement (tablePlatform statementTable)
      "statement" (publishedJwks (rolledOver.publishedKeys 2400)) 60 3 ≠ .ok es) := by
  have hsigns : ∀ publicJwk ∈ (createdWith "a").publishedKeys 0,
      publicJwk.get? "kid" = some (.str "a") →
        SignsWith (signingTable statementTable) ⟨"a", "ES256"⟩ publicJwk := by
    intro publicJwk hmem _
    have hkeys : (createdWith "a").publishedKeys 0 = [(tableSigningKey "a").publicJwk] := rfl
    rw [hkeys, List.mem_singleton] at hmem
    subst hmem
    exact signingTable_signsWith (by simp [statementTable]) rfl
  have htimely : Timely (Dict.ofEntries [("exp", Json.num 5000)]) 60 3 := by
    refine ⟨fun v hv => ⟨5000, (Option.some.inj hv).symm, by norm_num⟩, fun v hv => ?_,
      fun v hv => ?_⟩ <;> cases hv
  have hjwt : signEntityStatement (signingTable statementTable)
      (Dict.ofEntries [("exp", .num 5000)]) ⟨"a", "ES256"⟩ JwtTyp.entityStatement .empty =
        .ok "statement" := by
    decide +kernel
  have hkeySet : (createdWith "a").getFederationKeySet 0 =
      .ok ⟨⟨"a", "ES256"⟩, (createdWith "a").publishedKeys 0⟩ := rfl
  have hkeySet' : rolledOver.getFederationKeySet 2400 =
      .ok ⟨⟨"b", "ES256"⟩, rolledOver.publishedKeys 2400⟩ := by
    decide +kernel
  exact rollover_verifies_iff (createdWith_reached "a" rfl) hkeySet hsigns (fun _ _ => rfl) hjwt
    rolledOver_later hkeySet' htimely

end OidFed
