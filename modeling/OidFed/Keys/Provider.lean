import OidFed.Schema

/-!
# Federation keys in memory (`core/src/federation-keys.ts`, `jose/signer.ts`)

* `validateSigner`, `validateFederationPublicJwk`, `validateFederationKeySet`: the checks of a
  signer, of a key that is added, and of a key set that is handed out.
* `MemoryFederationKeyProvider`: the entries by `kid`, and the number of activations so far.
* `create`, `currentKeySet`, `publishKey`, `switchActiveKey`, `revokeKey`: its operations. An
  operation returns the provider that it leaves behind, also when it throws. What a read of the
  clock shows is an argument.
* `jwkSetSchema_jwkSetOf`: what the schema says of a list of keys.
* `signingEntry_eq_argmax`: the signer is an active entry with the greatest activation order.
-/

namespace OidFed

open Js

/-! ## Checks -/

structure JwtSigner where
  kid : String
  alg : String
  deriving DecidableEq

structure FederationKeySet where
  signer : JwtSigner
  jwks : List Payload
  deriving DecidableEq

structure FederationSigningKey where
  signer : JwtSigner
  publicJwk : Payload
  deriving DecidableEq

def defaultKeyRetireAfterMs : Rat := 7 * 24 * 60 * 60 * 1000

def validateSigner (signer : JwtSigner) : Except String Unit := do
  throwIf (signer.kid == "") "JwtSigner kid MUST NOT be empty"
  throwIf (!supportedAlgorithms.contains signer.alg)
    ("Unsupported signing algorithm: \x22" ++ signer.alg ++ "\x22. Supported: " ++
      ", ".intercalate supportedAlgorithms)

/-- `{ keys }`. -/
def jwkSetOf (keys : List Payload) : Json :=
  .obj [("keys", .arr (keys.map fun k => .obj k.members))]

def validateVerificationUsage (jwk : Payload) : Except String Unit :=
  throwIf ((jwk.get? "use").any (· != .str "sig") ||
      (jwk.get? "key_ops").any fun ops => !(ops.items?.getD []).contains (.str "verify"))
    "Federation public signing keys must permit signature verification"

/-- `jwk.alg && jwk.alg !== signer.alg`. -/
def algMismatch (jwk : Payload) (signer : JwtSigner) : Bool :=
  Json.truthy? (jwk.get? "alg") && jwk.get? "alg" != some (.str signer.alg)

/-- The key that is kept: a copy of the one supplied, with all its members. -/
def validateFederationPublicJwk (publicJwk : Payload) (signer : JwtSigner) :
    Except String Payload := do
  throwIf (!jwkSetSchema (jwkSetOf [publicJwk]))
    "Federation public JWK MUST contain only asymmetric public key material"
  validateVerificationUsage publicJwk
  throwIf (publicJwk.get? "kid" != some (.str signer.kid))
    "Federation public JWK kid MUST match signer kid"
  throwIf (algMismatch publicJwk signer) "Federation public JWK alg MUST match signer alg"
  return publicJwk

/-- One round of the loop of `validateFederationKeySet` over the published keys. -/
def countSignerKey (signer : JwtSigner) (signerKeyCount : Nat) (key : Payload) :
    Except String Nat :=
  if key.get? "kid" = some (.str signer.kid) then do
    validateVerificationUsage key
    throwIf (algMismatch key signer)
      (s!"Federation signer alg '{signer.alg}' does not match published key alg '" ++
        (key.string? "alg").getD "" ++ "'")
    return signerKeyCount + 1
  else return signerKeyCount

def validateFederationKeySet (keySet : FederationKeySet) : Except String Unit := do
  validateSigner keySet.signer
  throwIf (!jwkSetSchema (jwkSetOf keySet.jwks))
    "Federation JWKS MUST be a public JWK Set with unique non-empty kids"
  let signerKeyCount ← keySet.jwks.foldlM (countSignerKey keySet.signer) 0
  throwIf (signerKeyCount != 1)
    "Federation JWKS MUST publish exactly one public key for the active signer kid"

/-! ### What the checks accept -/

/-- The `kid` is a non-empty string. -/
def hasKid (jwk : Payload) : Bool :=
  match jwk.get? "kid" with
  | some (.str s) => s != ""
  | _ => false

theorem jwkSetSchema_jwkSetOf {keys : List Payload} :
    jwkSetSchema (jwkSetOf keys) = true ↔
      keys ≠ [] ∧ (∀ k ∈ keys, jwkSchema (.obj k.members) = true ∧ hasKid k = true) ∧
        (keys.map fun k => k.get? "kid").Nodup := by
  have hkeys : jwksOf (jwkSetOf keys) = keys.map fun k => Json.obj k.members := rfl
  have hobject : Schema.looseObject
      [{ name := "keys", schema := Schema.nonEmptyArray jwkSchema }] (jwkSetOf keys) =
        Schema.nonEmptyArray jwkSchema (.arr (keys.map fun k => Json.obj k.members)) := by
    simp [Schema.looseObject, jwkSetOf]
  have hkids : (keys.map fun k => Json.obj k.members).map (fun k => k.get? "kid") =
      keys.map fun k => k.get? "kid" := by
    rw [List.map_map]
    rfl
  unfold jwkSetSchema
  rw [hobject, hkeys, hkids]
  simp only [Schema.nonEmptyArray, List.all_map, Bool.and_eq_true, decide_eq_true_eq,
    List.all_eq_true, Function.comp, List.isEmpty_map, Bool.not_eq_true', List.isEmpty_eq_false_iff]
  constructor
  · rintro ⟨⟨⟨hne, hjwk⟩, hkid⟩, hnodup⟩
    exact ⟨hne, fun k hk => ⟨hjwk k hk, hkid k hk⟩, hnodup⟩
  · rintro ⟨hne, hall, hnodup⟩
    exact ⟨⟨⟨hne, fun k hk => (hall k hk).1⟩, fun k hk => (hall k hk).2⟩, hnodup⟩

/-- A public key that may be added for a signer. -/
structure AcceptedKey (signer : JwtSigner) (publicJwk : Payload) : Prop where
  validSigner : validateSigner signer = .ok ()
  jwk : jwkSchema (.obj publicJwk.members) = true
  usage : validateVerificationUsage publicJwk = .ok ()
  kid : publicJwk.get? "kid" = some (.str signer.kid)
  alg : algMismatch publicJwk signer = false

theorem validateSigner_kid {signer : JwtSigner} (h : validateSigner signer = .ok ()) :
    signer.kid ≠ "" := by
  obtain ⟨_, hkid, -⟩ := bind_eq_ok.mp h
  simpa using hkid

theorem AcceptedKey.hasKid {signer : JwtSigner} {jwk : Payload} (h : AcceptedKey signer jwk) :
    hasKid jwk = true := by
  simp [OidFed.hasKid, h.kid, validateSigner_kid h.validSigner]

theorem validateFederationPublicJwk_eq_ok {signer : JwtSigner} {publicJwk jwk : Payload}
    (hs : validateSigner signer = .ok ())
    (h : validateFederationPublicJwk publicJwk signer = .ok jwk) :
    jwk = publicJwk ∧ AcceptedKey signer publicJwk := by
  obtain ⟨_, hset, h⟩ := bind_eq_ok.mp h
  obtain ⟨u, husage, h⟩ := bind_eq_ok.mp h
  obtain ⟨_, hkid, h⟩ := bind_eq_ok.mp h
  obtain ⟨_, halg, h⟩ := bind_eq_ok.mp h
  obtain ⟨-, hall, -⟩ := jwkSetSchema_jwkSetOf.mp (by simpa using hset)
  refine ⟨(Except.ok.inj h).symm, hs, (hall publicJwk (by simp)).1, husage, ?_, ?_⟩
  · simpa using hkid
  · simpa using halg

/-- The loop over keys that are accepted where they have the signer's `kid`. -/
theorem foldlM_countSignerKey {signer : JwtSigner} {jwks : List Payload}
    (h : ∀ k ∈ jwks, k.get? "kid" = some (.str signer.kid) → AcceptedKey signer k) (n : Nat) :
    jwks.foldlM (countSignerKey signer) n =
      .ok (n + jwks.countP fun k => decide (k.get? "kid" = some (.str signer.kid))) := by
  induction jwks generalizing n with
  | nil => rfl
  | cons key rest ih =>
    have hrest := ih fun k hk => h k (List.mem_cons_of_mem _ hk)
    rw [List.foldlM_cons, countSignerKey]
    by_cases hkid : key.get? "kid" = some (.str signer.kid)
    · have hkey := h key List.mem_cons_self hkid
      rw [if_pos hkid, hkey.usage, hkey.alg, List.countP_cons_of_pos (by simpa using hkid)]
      refine (hrest (n + 1)).trans ?_
      rw [Nat.add_assoc, Nat.add_comm 1]
    · rw [if_neg hkid, List.countP_cons_of_neg (by simpa using hkid)]
      exact hrest n

/-- A key set of accepted keys with distinct `kid`s, one of them the signer's, is valid. -/
theorem validateFederationKeySet_eq_ok {keySet : FederationKeySet} {key : Payload}
    (hmem : key ∈ keySet.jwks) (hkey : AcceptedKey keySet.signer key)
    (hall : ∀ k ∈ keySet.jwks, ∃ signer, AcceptedKey signer k)
    (hnodup : (keySet.jwks.map fun k => k.get? "kid").Nodup) :
    validateFederationKeySet keySet = .ok () := by
  have hunique : ∀ k ∈ keySet.jwks, k.get? "kid" = some (.str keySet.signer.kid) → k = key :=
    fun k hk hkid => List.inj_on_of_nodup_map hnodup hk hmem (hkid.trans hkey.kid.symm)
  have hset : jwkSetSchema (jwkSetOf keySet.jwks) = true := by
    refine jwkSetSchema_jwkSetOf.mpr ⟨List.ne_nil_of_mem hmem, fun k hk => ?_, hnodup⟩
    obtain ⟨signer, hk⟩ := hall k hk
    exact ⟨hk.jwk, hk.hasKid⟩
  have hcount : (keySet.jwks.countP fun k =>
      decide (k.get? "kid" = some (.str keySet.signer.kid))) = 1 := by
    have heq : (keySet.jwks.countP fun k =>
        decide (k.get? "kid" = some (.str keySet.signer.kid))) = keySet.jwks.count key := by
      rw [List.count]
      refine List.countP_congr fun k hk => ?_
      simp only [decide_eq_true_eq, beq_iff_eq]
      exact ⟨hunique k hk, fun he => he ▸ hkey.kid⟩
    rw [heq]
    exact List.count_eq_one_of_mem (List.Nodup.of_map _ hnodup) hmem
  have hloop : keySet.jwks.foldlM (countSignerKey keySet.signer) 0 = .ok 1 := by
    rw [foldlM_countSignerKey fun k hk hkid => hunique k hk hkid ▸ hkey, hcount]
  unfold validateFederationKeySet
  rw [hkey.validSigner, hset, hloop]
  rfl

/-! ## Entries -/

inductive FederationKeyState where
  | published
  | active
  | retiring
  | revoked
  deriving DecidableEq

def FederationKeyState.name : FederationKeyState → String
  | published => "published"
  | active => "active"
  | retiring => "retiring"
  | revoked => "revoked"

/-- Times are in milliseconds. -/
structure ManagedFederationKeyEntry where
  signer : JwtSigner
  publicJwk : Payload
  state : FederationKeyState
  createdAt : Option Rat := none
  activatedAt : Option Rat := none
  activationOrder : Option Nat := none
  expiresAt : Option Rat := none
  scheduledRemovalAt : Option Rat := none
  revokedAt : Option Rat := none
  revocationReason : Option String := none
  deriving DecidableEq

namespace ManagedFederationKeyEntry

/-- Whether the published JWK Set has the key at a time. -/
def isPublished (now : Rat) (entry : ManagedFederationKeyEntry) : Bool :=
  match entry.state with
  | .active => true
  | .published => true
  | .retiring =>
    match entry.scheduledRemovalAt with
    | none => true
    | some removal => decide (now < removal)
  | .revoked => false

def order (entry : ManagedFederationKeyEntry) : Nat := entry.activationOrder.getD 0

/-! The records that the operations write. -/

def added (key : FederationSigningKey) (now : Rat) : ManagedFederationKeyEntry :=
  { signer := key.signer, publicJwk := key.publicJwk, state := .published, createdAt := some now }

def activated (entry : ManagedFederationKeyEntry) (now : Rat) (order : Nat) :
    ManagedFederationKeyEntry :=
  { entry with state := .active, activatedAt := some now, activationOrder := some order }

def retired (entry : ManagedFederationKeyEntry) (removal : Rat) : ManagedFederationKeyEntry :=
  { entry with state := .retiring, scheduledRemovalAt := some removal }

def revoked (entry : ManagedFederationKeyEntry) (now : Rat) (reason : String) :
    ManagedFederationKeyEntry :=
  { entry with state := .revoked, revokedAt := some now, revocationReason := some reason }

/-- The entry that signs, among those seen so far and the next. -/
def selectSigner (selected : Option ManagedFederationKeyEntry) (entry : ManagedFederationKeyEntry) :
    Option ManagedFederationKeyEntry :=
  if entry.state = .active then
    match selected with
    | none => some entry
    | some best => if best.order < entry.order then some entry else some best
  else selected

end ManagedFederationKeyEntry

open ManagedFederationKeyEntry

structure SwitchActiveFederationKeyOptions where
  retirePreviousAfterMs : Option Rat := none

/-- How long the previous key stays published after a switch. -/
def SwitchActiveFederationKeyOptions.overlap (options : SwitchActiveFederationKeyOptions) : Rat :=
  options.retirePreviousAfterMs.getD defaultKeyRetireAfterMs

/-! ## The provider -/

structure MemoryFederationKeyProvider where
  keys : Dict String ManagedFederationKeyEntry := .empty
  activationOrder : Nat := 0
  deriving DecidableEq

namespace MemoryFederationKeyProvider

def validateNewKey (p : MemoryFederationKeyProvider) (key : FederationSigningKey) :
    Except String FederationSigningKey := do
  validateSigner key.signer
  throwIf (p.keys.get? key.signer.kid).isSome s!"Federation key '{key.signer.kid}' already exists"
  let publicJwk ← validateFederationPublicJwk key.publicJwk key.signer
  return { signer := key.signer, publicJwk }

def getEntry (p : MemoryFederationKeyProvider) (kid : String) :
    Except String ManagedFederationKeyEntry :=
  match p.keys.get? kid with
  | none => .error s!"Federation key '{kid}' not found"
  | some entry => .ok entry

/-- `this.keys.set(kid, entry)`. -/
def setEntry (p : MemoryFederationKeyProvider) (kid : String) (entry : ManagedFederationKeyEntry) :
    MemoryFederationKeyProvider :=
  { p with keys := p.keys.set kid entry }

/-- `this.activationOrder++`. -/
def nextActivation (p : MemoryFederationKeyProvider) : MemoryFederationKeyProvider :=
  { p with activationOrder := p.activationOrder + 1 }

/-- One initial key of the constructor. -/
def addInitial (now : Rat) (p : MemoryFederationKeyProvider) (key : FederationSigningKey) :
    Except String MemoryFederationKeyProvider := do
  let key ← p.validateNewKey key
  return p.nextActivation.setEntry key.signer.kid ((added key now).activated now p.activationOrder)

/-- The constructor. -/
def create (initial : List FederationSigningKey) (now : Rat) :
    Except String MemoryFederationKeyProvider :=
  if initial = [] then
    .error "MemoryFederationKeyProvider requires at least one initial federation key"
  else initial.foldlM (addInitial now) {}

def entries (p : MemoryFederationKeyProvider) : List ManagedFederationKeyEntry :=
  p.keys.members.map Prod.snd

/-- What the loop of `currentKeySet` selects. -/
def signingEntry (p : MemoryFederationKeyProvider) : Option ManagedFederationKeyEntry :=
  p.entries.foldl selectSigner none

/-- What the loop of `currentKeySet` collects. -/
def publishedKeys (p : MemoryFederationKeyProvider) (now : Rat) : List Payload :=
  (p.entries.filter (isPublished now)).map publicJwk

def currentKeySet (p : MemoryFederationKeyProvider) (now : Rat) : Except String FederationKeySet :=
  match p.signingEntry with
  | none => .error "No active federation signing key available"
  | some selected => do
    let jwks := p.publishedKeys now
    validateFederationKeySet { signer := selected.signer, jwks }
    return { signer := selected.signer, jwks }

def getFederationKeySet (p : MemoryFederationKeyProvider) (now : Rat) :
    Except String FederationKeySet :=
  p.currentKeySet now

def publishKey (p : MemoryFederationKeyProvider) (key : FederationSigningKey) (now : Rat) :
    MemoryFederationKeyProvider × Except String Unit :=
  match p.validateNewKey key with
  | .error e => (p, .error e)
  | .ok key => (p.setEntry key.signer.kid (added key now), .ok ())

/-- Switch the signer; the clock is read for the current key set and for the switch. -/
def switchActiveKey (p : MemoryFederationKeyProvider) (kid : String)
    (options : SwitchActiveFederationKeyOptions) (setNow now : Rat) :
    MemoryFederationKeyProvider × Except String Unit :=
  match p.getEntry kid with
  | .error e => (p, .error e)
  | .ok entry =>
    if entry.state ≠ .published then
      (p, .error s!"Federation key '{kid}' is in state '{entry.state.name}', expected 'published'")
    else
      match p.currentKeySet setNow with
      | .error e => (p, .error e)
      | .ok current =>
        let previousKid := current.signer.kid
        let switched := p.nextActivation.setEntry kid (entry.activated now p.activationOrder)
        if previousKid = kid then (switched, .ok ())
        else
          match switched.getEntry previousKid with
          | .error e => (switched, .error e)
          | .ok previous =>
            if previous.state = .active then
              (switched.setEntry previousKid (previous.retired (now + options.overlap)), .ok ())
            else (switched, .ok ())

def revokeKey (p : MemoryFederationKeyProvider) (kid reason : String) (now : Rat) :
    MemoryFederationKeyProvider × Except String Unit :=
  match p.getEntry kid with
  | .error e => (p, .error e)
  | .ok entry => (p.setEntry kid (entry.revoked now reason), .ok ())

/-! ### What is selected and collected -/

variable {p : MemoryFederationKeyProvider}

theorem mem_entries {e : ManagedFederationKeyEntry} :
    e ∈ p.entries ↔ ∃ kid, p.keys.get? kid = some e := by
  simp [entries, Dict.get?_eq_some_iff]

/-- The loop keeps the first of the active entries with the greatest order. -/
theorem signingEntry_eq_argmax :
    p.signingEntry = (p.entries.filter fun e => e.state = .active).argmax order := by
  rw [signingEntry, List.argmax, List.foldl_filter]
  congr 1
  funext selected e
  unfold selectSigner
  by_cases h : e.state = .active
  · cases selected <;> simp [h, List.argAux]
  · simp [h]

theorem signingEntry_eq_none :
    p.signingEntry = none ↔ ∀ kid e, p.keys.get? kid = some e → e.state ≠ .active := by
  rw [signingEntry_eq_argmax, List.argmax_eq_none, List.filter_eq_nil_iff]
  simp only [mem_entries, decide_eq_true_eq]
  exact ⟨fun h kid e he => h e ⟨kid, he⟩, fun h e ⟨kid, he⟩ => h kid e he⟩

theorem signingEntry_eq_some {selected : ManagedFederationKeyEntry}
    (h : p.signingEntry = some selected) :
    (∃ kid, p.keys.get? kid = some selected) ∧ selected.state = .active ∧
      ∀ kid e, p.keys.get? kid = some e → e.state = .active → e.order ≤ selected.order := by
  rw [signingEntry_eq_argmax] at h
  obtain ⟨hmem, hactive⟩ := List.mem_filter.mp (List.argmax_mem h)
  refine ⟨mem_entries.mp hmem, by simpa using hactive, fun kid e he hactive => ?_⟩
  exact List.le_of_mem_argmax
    (List.mem_filter.mpr ⟨mem_entries.mpr ⟨kid, he⟩, by simpa using hactive⟩) h

theorem mem_publishedKeys {now : Rat} {jwk : Payload} :
    jwk ∈ p.publishedKeys now ↔
      ∃ kid e, p.keys.get? kid = some e ∧ e.isPublished now = true ∧ e.publicJwk = jwk := by
  simp only [publishedKeys, List.mem_map, List.mem_filter, mem_entries]
  constructor
  · rintro ⟨e, ⟨⟨kid, he⟩, hpub⟩, rfl⟩
    exact ⟨kid, e, he, hpub, rfl⟩
  · rintro ⟨kid, e, he, hpub, rfl⟩
    exact ⟨e, ⟨⟨kid, he⟩, hpub⟩, rfl⟩

/-- A key set that is handed out is what the loop has selected and collected. -/
theorem currentKeySet_eq_ok {now : Rat} {keySet : FederationKeySet}
    (h : p.currentKeySet now = .ok keySet) :
    ∃ selected, p.signingEntry = some selected ∧
      keySet = { signer := selected.signer, jwks := p.publishedKeys now } := by
  unfold currentKeySet at h
  cases hs : p.signingEntry with
  | none => rw [hs] at h; cases h
  | some selected =>
    rw [hs] at h
    obtain ⟨_, -, h⟩ := bind_eq_ok.mp h
    exact ⟨selected, rfl, (Except.ok.inj h).symm⟩

theorem validateNewKey_eq_ok {key key' : FederationSigningKey}
    (h : p.validateNewKey key = .ok key') :
    key' = key ∧ p.keys.get? key.signer.kid = none ∧ AcceptedKey key.signer key.publicJwk := by
  obtain ⟨⟨⟩, hsigner, h⟩ := bind_eq_ok.mp h
  obtain ⟨_, hfresh, h⟩ := bind_eq_ok.mp h
  obtain ⟨jwk, hjwk, h⟩ := bind_eq_ok.mp h
  obtain ⟨rfl, haccepted⟩ := validateFederationPublicJwk_eq_ok hsigner hjwk
  exact ⟨(Except.ok.inj h).symm, by simpa using hfresh, haccepted⟩

theorem getEntry_eq_ok {kid : String} {e : ManagedFederationKeyEntry} :
    p.getEntry kid = .ok e ↔ p.keys.get? kid = some e := by
  unfold getEntry
  cases p.keys.get? kid <;> simp

@[simp] theorem get?_setEntry (kid kid' : String) (e : ManagedFederationKeyEntry) :
    (p.setEntry kid e).keys.get? kid' = if kid' = kid then some e else p.keys.get? kid' :=
  Dict.get?_set _ _ _ _

@[simp] theorem activationOrder_setEntry (kid : String) (e : ManagedFederationKeyEntry) :
    (p.setEntry kid e).activationOrder = p.activationOrder := rfl

@[simp] theorem keys_nextActivation : p.nextActivation.keys = p.keys := rfl

@[simp] theorem activationOrder_nextActivation :
    p.nextActivation.activationOrder = p.activationOrder + 1 := rfl

end MemoryFederationKeyProvider

end OidFed
