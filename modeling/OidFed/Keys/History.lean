import OidFed.Jose
import OidFed.Keys.Rollover

/-!
# Historical keys (`federation-keys.ts`, `federation-api/index.ts`)

`mapHistoricalEntry` writes the life of a key into a copy of its public JWK, in seconds;
`selectHistoricalVerificationKey` finds in a history the key that was valid at a second.

* `select_eq_ok_iff`: what the selector returns of a provider's own history.
* `signed_history`: it returns the key that was the signer during the whole of a second, in every
  later history, unless the public JWK itself has a `revoked` member that speaks against the second.
* `revocation_kept`: a revoked key is not returned for a second from its revocation on, and for no
  second at all if the reason is one of security, in every run whose later revocations keep to
  `keepsRevocation`: the entry has room for one revocation only, and the last one is kept.
-/

namespace OidFed

open Js ManagedFederationKeyEntry MemoryFederationKeyProvider

/-- `Math.floor(ms / 1000)`. -/
def seconds (ms : Rat) : Rat := (⌊ms / 1000⌋ : Int)

theorem le_seconds {t : Int} {ms : Rat} (h : 1000 * (t : Rat) ≤ ms) : (t : Rat) ≤ seconds ms := by
  have hfloor : t ≤ ⌊ms / 1000⌋ := Int.le_floor.mpr (by linarith)
  unfold seconds
  exact_mod_cast hfloor

theorem seconds_le {t : Int} {ms : Rat} (h : ms ≤ 1000 * (t : Rat)) : seconds ms ≤ (t : Rat) := by
  have hfloor : ((⌊ms / 1000⌋ : Int) : Rat) ≤ ms / 1000 := Int.floor_le _
  unfold seconds
  linarith

/-! ## The history -/

/-- The second from which a key is no longer valid. -/
def historicalExp (entry : ManagedFederationKeyEntry) (nowSeconds : Rat) : Rat :=
  match entry.expiresAt, entry.scheduledRemovalAt, entry.revokedAt with
  | some t, _, _ => seconds t
  | none, some t, _ => seconds t
  | none, none, some t => seconds t
  | none, none, none => nowSeconds

/-- `entry.revocationReason ? { reason } : {}`. -/
def reasonMember : Option String → List (String × Json)
  | none => []
  | some reason => if reason = "" then [] else [("reason", .str reason)]

def mapHistoricalEntry (entry : ManagedFederationKeyEntry) (nowSeconds : Rat) : Payload :=
  let historical := entry.publicJwk.set "exp" (.num (historicalExp entry nowSeconds))
  let historical :=
    match entry.createdAt with
    | none => historical
    | some t => historical.set "iat" (.num (seconds t))
  let historical :=
    match entry.activatedAt with
    | none => historical
    | some t => historical.set "nbf" (.num (seconds t))
  if entry.state = .revoked then
    historical.set "revoked" (.obj
      (("revoked_at", .num ((entry.revokedAt.map seconds).getD nowSeconds)) ::
        reasonMember entry.revocationReason))
  else historical

def MemoryFederationKeyProvider.getHistoricalFederationKeys (p : MemoryFederationKeyProvider)
    (now : Rat) : List Payload :=
  p.entries.map (mapHistoricalEntry · (seconds now))

section Historical

variable (e : ManagedFederationKeyEntry) (nowSeconds : Rat)

/-- The members that the mapping does not write. -/
theorem mapHistoricalEntry_get? {name : String}
    (h : name ∉ ["exp", "iat", "nbf", "revoked"]) :
    (mapHistoricalEntry e nowSeconds).get? name = e.publicJwk.get? name := by
  simp only [List.mem_cons, List.not_mem_nil, or_false, not_or] at h
  obtain ⟨hexp, hiat, hnbf, hrevoked⟩ := h
  unfold mapHistoricalEntry
  cases e.createdAt <;> cases e.activatedAt <;> by_cases hs : e.state = .revoked <;>
    simp [hs, Dict.get?_set, hexp, hiat, hnbf, hrevoked]

theorem mapHistoricalEntry_exp :
    (mapHistoricalEntry e nowSeconds).get? "exp" = some (.num (historicalExp e nowSeconds)) := by
  unfold mapHistoricalEntry
  cases e.createdAt <;> cases e.activatedAt <;> by_cases hs : e.state = .revoked <;>
    simp [hs, Dict.get?_set]

theorem mapHistoricalEntry_nbf {activatedAt : Rat} (h : e.activatedAt = some activatedAt) :
    (mapHistoricalEntry e nowSeconds).get? "nbf" = some (.num (seconds activatedAt)) := by
  unfold mapHistoricalEntry
  rw [h]
  cases e.createdAt <;> by_cases hs : e.state = .revoked <;> simp [hs, Dict.get?_set]

theorem mapHistoricalEntry_revoked :
    (mapHistoricalEntry e nowSeconds).get? "revoked" =
      if e.state = .revoked then
        some (.obj (("revoked_at", .num ((e.revokedAt.map seconds).getD nowSeconds)) ::
          reasonMember e.revocationReason))
      else e.publicJwk.get? "revoked" := by
  unfold mapHistoricalEntry
  cases e.createdAt <;> cases e.activatedAt <;> by_cases hs : e.state = .revoked <;>
    simp [hs, Dict.get?_set]

end Historical

/-! ## The selector -/

def securityRevocationReasons : List String := ["compromised", "keyCompromise", "key_compromise"]

section Select

variable (P : Platform)

/-- `Number(v)`, `none` for `NaN`. -/
def numberOf : Json → Option Rat
  | .num q => some q
  | v => P.toNumber v

/-- The `revoked` member of a key speaks against a second. -/
def revokedFor (validAt : Rat) (revoked : Option Json) : Bool :=
  (revoked.bind (·.get? "reason")).any (fun reason =>
      securityRevocationReasons.any fun r => reason == .str r) ||
    (revoked.bind (·.get? "revoked_at")).any fun revokedAt =>
      (numberOf P revokedAt).any fun q => decide (q ≤ validAt)

/-- What a revocation speaks against, as the provider writes it. -/
theorem revokedFor_iff {validAt revokedAt : Rat} {reason : Option String} :
    revokedFor P validAt (some (.obj (("revoked_at", .num revokedAt) :: reasonMember reason))) =
        true ↔
      (∃ r, reason = some r ∧ r ∈ securityRevocationReasons) ∨ revokedAt ≤ validAt := by
  cases reason with
  | none => simp [revokedFor, reasonMember, numberOf, List.lookup]
  | some r =>
    by_cases hempty : r = ""
    · subst hempty
      simp [revokedFor, reasonMember, numberOf, List.lookup, securityRevocationReasons]
    · simp [revokedFor, reasonMember, numberOf, List.lookup, hempty]

/-- The loop of `selectHistoricalVerificationKey` returns the key. -/
def usableAt (validAt : Rat) (key : Payload) : Bool :=
  !revokedFor P validAt (key.get? "revoked") &&
    !(key.get? "nbf").any (fun nbf => (numberOf P nbf).any fun q => decide (validAt < q)) &&
    !(key.get? "exp").any fun exp => (numberOf P exp).any fun q => decide (q ≤ validAt)

def selectHistoricalVerificationKey (keys : List Payload) (kid : String) (validAt : Rat) :
    Except FederationError Payload :=
  let matchingKeys := keys.filter fun key => key.get? "kid" == some (.str kid)
  if matchingKeys = [] then signatureError s!"No historical key found for kid '{kid}'"
  else
    match matchingKeys.find? (usableAt P validAt) with
    | some key => .ok key
    | none =>
      signatureError (s!"Historical key '{kid}' is not valid at " ++ P.numberText validAt)

variable {P}

theorem select_eq_ok {keys : List Payload} {kid : String} {validAt : Rat} {key : Payload}
    (h : selectHistoricalVerificationKey P keys kid validAt = .ok key) :
    key ∈ keys ∧ key.get? "kid" = some (.str kid) ∧ usableAt P validAt key = true := by
  unfold selectHistoricalVerificationKey at h
  simp only at h
  split at h
  · cases h
  split at h
  · rename_i key' hfind
    obtain rfl := Except.ok.inj h
    obtain ⟨hmem, hkid⟩ := List.mem_filter.mp (List.mem_of_find?_eq_some hfind)
    exact ⟨hmem, by simpa using hkid, List.find?_some hfind⟩
  · cases h

theorem select_isOk {keys : List Payload} {kid : String} {validAt : Rat} {key : Payload}
    (hmem : key ∈ keys) (hkid : key.get? "kid" = some (.str kid))
    (husable : usableAt P validAt key = true) :
    ∃ key', selectHistoricalVerificationKey P keys kid validAt = .ok key' := by
  have hmatch : key ∈ keys.filter fun key => key.get? "kid" == some (.str kid) :=
    List.mem_filter.mpr ⟨hmem, by simpa using hkid⟩
  obtain ⟨key', hfind⟩ := Option.isSome_iff_exists.mp
    (List.find?_isSome.mpr ⟨key, hmatch, husable⟩)
  refine ⟨key', ?_⟩
  unfold selectHistoricalVerificationKey
  simp only
  rw [if_neg (List.ne_nil_of_mem hmatch), hfind]

variable {p : MemoryFederationKeyProvider}

/-- In the history of a provider, a `kid` has the entry of its own key. -/
theorem mem_history (hp : Sound p) {now : Rat} {key : Payload} {kid : String} :
    key ∈ p.getHistoricalFederationKeys now ∧ key.get? "kid" = some (.str kid) ↔
      ∃ e, p.keys.get? kid = some e ∧ key = mapHistoricalEntry e (seconds now) := by
  have hkid : ∀ {kid' e}, p.keys.get? kid' = some e →
      (mapHistoricalEntry e (seconds now)).get? "kid" = some (.str kid') := by
    intro kid' e he
    rw [mapHistoricalEntry_get? e (seconds now) (by decide), (hp.accepted he).kid, hp.kid he]
  constructor
  · rintro ⟨hmem, hk⟩
    obtain ⟨e, he, rfl⟩ := List.mem_map.mp hmem
    obtain ⟨kid', he⟩ := mem_entries.mp he
    obtain rfl : kid' = kid := by simpa [hkid he] using hk
    exact ⟨e, he, rfl⟩
  · rintro ⟨e, he, rfl⟩
    exact ⟨List.mem_map.mpr ⟨e, mem_entries.mpr ⟨kid, he⟩, rfl⟩, hkid he⟩

theorem select_eq_ok_iff (hp : Sound p) {now validAt : Rat} {kid : String} {key : Payload} :
    selectHistoricalVerificationKey P (p.getHistoricalFederationKeys now) kid validAt = .ok key ↔
      ∃ e, p.keys.get? kid = some e ∧ key = mapHistoricalEntry e (seconds now) ∧
        usableAt P validAt key = true := by
  constructor
  · intro h
    obtain ⟨hmem, hkid, husable⟩ := select_eq_ok h
    obtain ⟨e, he, hkey⟩ := (mem_history hp).mp ⟨hmem, hkid⟩
    exact ⟨e, he, hkey, husable⟩
  · rintro ⟨e, he, rfl, husable⟩
    obtain ⟨hmem, hkid⟩ := (mem_history hp).mpr ⟨e, he, rfl⟩
    obtain ⟨key', hkey'⟩ := select_isOk hmem hkid husable
    obtain ⟨hmem', hkid', -⟩ := select_eq_ok hkey'
    obtain ⟨e', he', rfl⟩ := (mem_history hp).mp ⟨hmem', hkid'⟩
    obtain rfl := Option.some.inj (he.symm.trans he')
    exact hkey'

end Select

/-! ## Signers -/

section Signers

variable {initial : List FederationSigningKey} {policy : RevocationPolicy} {s s' : KeyRun}
  {kid : String}

/-- The key signs. -/
def KeyRun.Signs (s : KeyRun) (kid : String) : Prop :=
  ∃ now keySet, s.provider.getFederationKeySet now = .ok keySet ∧ keySet.signer.kid = kid

/-- The key signs in every state of a run. -/
inductive SignsUntil (policy : RevocationPolicy) (kid : String) (s : KeyRun) : KeyRun → Prop
  | refl (h : s.Signs kid) : SignsUntil policy kid s s
  | step {s' s'' : KeyRun} (h : SignsUntil policy kid s s') (hstep : KeyStep policy s' s'')
      (hsigns : s''.Signs kid) : SignsUntil policy kid s s''

/-- The key was the signer during the whole of second `t`, and a step after it leads to `s`. -/
def SignedDuring (initial : List FederationSigningKey) (kid : String) (t : Int) (s : KeyRun) :
    Prop :=
  ∃ s₀ s₁ : KeyRun, (keyLifecycle initial).Reach s₀ ∧ s₀.now ≤ 1000 * t ∧
    SignsUntil anyRevocation kid s₀ s₁ ∧ KeyStep anyRevocation s₁ s ∧ 1000 * (t + 1) ≤ s.now

/-- Keys are activated at times that the clock has shown. -/
def ActivatedInPast (s : KeyRun) : Prop :=
  ∀ kid e t, s.provider.keys.get? kid = some e → e.activatedAt = some t → t ≤ s.now

theorem addInitial_activated {p p' : MemoryFederationKeyProvider} {now : Rat}
    {key : FederationSigningKey} (hp : ∀ kid e t, p.keys.get? kid = some e →
      e.activatedAt = some t → t ≤ now) (h : addInitial now p key = .ok p') :
    ∀ kid e t, p'.keys.get? kid = some e → e.activatedAt = some t → t ≤ now := by
  obtain ⟨key', -, hp'⟩ := bind_eq_ok.mp h
  obtain rfl := Except.ok.inj hp'
  intro kid e t he ht
  rw [get?_setEntry] at he
  split at he
  · obtain rfl := Option.some.inj he
    exact (Option.some.inj ht).ge
  · exact hp kid e t he ht

theorem create_activated {p : MemoryFederationKeyProvider} {now : Rat}
    (h : create initial now = .ok p) : ActivatedInPast ⟨p, now⟩ := by
  have hfold : ∀ (l : List FederationSigningKey) (q : MemoryFederationKeyProvider),
      (∀ kid e t, q.keys.get? kid = some e → e.activatedAt = some t → t ≤ now) →
      l.foldlM (addInitial now) q = .ok p → ActivatedInPast ⟨p, now⟩ := by
    intro l
    induction l with
    | nil => exact fun q hq h => Except.ok.inj h ▸ hq
    | cons key rest ih =>
      intro q hq h
      obtain ⟨q', hadd, hrest⟩ := bind_eq_ok.mp h
      exact ih q' (addInitial_activated hq hadd) hrest
  unfold MemoryFederationKeyProvider.create at h
  split at h
  · cases h
  · exact hfold initial {} (fun kid e t he => by simp at he) h

theorem ActivatedInPast.step (hs : Sound s.provider) (hpast : ActivatedInPast s)
    (h : KeyStep policy s s') : ActivatedInPast s' := by
  intro kid e' t he' ht
  cases he : s.provider.keys.get? kid with
  | none =>
    obtain ⟨key, rfl⟩ := (h.transition hs).fresh he he'
    cases ht
  | some e =>
    obtain ⟨e'', he'', hentry⟩ := h.entry hs he
    obtain rfl := Option.some.inj (he'.symm.trans he'')
    have hnow := h.now_le
    cases hentry with
    | same => exact (hpast kid _ t he ht).trans hnow
    | activated order hstate => exact (Option.some.inj ht).ge
    | retired removal hstate hremoval => exact (hpast kid e t he ht).trans hnow
    | revoked reason hreason => exact (hpast kid e t he ht).trans hnow

theorem keyLifecycle_activatedInPast (h : (keyLifecycle initial policy).Reach s) :
    ActivatedInPast s :=
  (System.Reach.invariant (S := keyLifecycle initial policy)
    (I := fun s : KeyRun => Sound s.provider ∧ ActivatedInPast s)
    (fun _ h => ⟨Sound.create h, create_activated h⟩)
    (fun _ _ h hstep => ⟨h.1.transition (hstep.transition h.1), h.2.step h.1 hstep⟩) h).2

theorem KeyRun.Signs.entry (hs : Sound s.provider) (h : s.Signs kid) :
    ∃ e, s.provider.keys.get? kid = some e ∧ e.state = .active := by
  obtain ⟨now, keySet, hget, rfl⟩ := h
  obtain ⟨e, -, hentry, hactive, rfl⟩ := hs.signer hget
  exact ⟨e, hentry, hactive⟩

/-- An entry that stays active stays as it is. -/
theorem SignsUntil.entry (hs : Sound s.provider) (h : SignsUntil policy kid s s') :
    Sound s'.provider ∧ ∃ e, s.provider.keys.get? kid = some e ∧ e.state = .active ∧
      s'.provider.keys.get? kid = some e := by
  induction h with
  | refl hsigns =>
    obtain ⟨e, he, hactive⟩ := hsigns.entry hs
    exact ⟨hs, e, he, hactive, he⟩
  | step _ hstep hsigns ih =>
    obtain ⟨hsound, e, he, hactive, he'⟩ := ih
    have hsound' := hsound.transition (hstep.transition hsound)
    obtain ⟨e₁, he₁, hactive₁⟩ := hsigns.entry hsound'
    obtain ⟨e₂, he₂, hentry⟩ := hstep.entry hsound he'
    obtain rfl := Option.some.inj (he₁.symm.trans he₂)
    refine ⟨hsound', e, he, hactive, ?_⟩
    cases hentry with
    | same => exact he₁
    | activated order hstate => rw [hactive] at hstate; cases hstate
    | retired removal hstate hremoval => cases hactive₁
    | revoked reason hreason => cases hactive₁

/-- What is recorded of a key that has signed until a time, from then on. -/
structure SignedUntil (e : ManagedFederationKeyEntry) (b : Rat) (e' : ManagedFederationKeyEntry) :
    Prop where
  publicJwk : e'.publicJwk = e.publicJwk
  activatedAt : e'.activatedAt = e.activatedAt
  expiresAt : e'.expiresAt = none
  removal : ∀ t, e'.scheduledRemovalAt = some t → b ≤ t
  revokedAt : ∀ t, e'.revokedAt = some t → b ≤ t
  isRevoked : e'.state = .revoked → e'.revokedAt.isSome = true
  notPublished : e'.state ≠ .published

theorem SignedUntil.step {mayRevoke : String → Prop} {e e₁ e₂ : ManagedFederationKeyEntry}
    {b now : Rat} (h : SignedUntil e b e₁) (hb : b ≤ now) (hstep : EntryStep mayRevoke now e₁ e₂) :
    SignedUntil e b e₂ := by
  cases hstep with
  | same => exact h
  | activated order hstate => exact absurd hstate h.notPublished
  | retired removal hstate hremoval =>
    exact { h with
      removal := fun t ht => Option.some.inj ht ▸ hb.trans hremoval
      isRevoked := nofun
      notPublished := nofun }
  | revoked reason hreason =>
    exact { h with
      revokedAt := fun t ht => Option.some.inj ht ▸ hb
      isRevoked := fun _ => rfl
      notPublished := nofun }

/-- The recorded times leave the second before `b` usable. -/
theorem SignedUntil.usableAt {P : Platform} {e e' : ManagedFederationKeyEntry} {t : Int}
    {nowSeconds activatedAt : Rat} (h : SignedUntil e (1000 * (t + 1)) e')
    (hactivated : e.activatedAt = some activatedAt) (hpast : activatedAt ≤ 1000 * t)
    (hnow : t < nowSeconds)
    (hreason : e'.state = .revoked →
      ∀ reason, e'.revocationReason = some reason → reason ∉ securityRevocationReasons) :
    OidFed.usableAt P t (mapHistoricalEntry e' nowSeconds) = true ↔
      (e'.state = .revoked ∨ revokedFor P t (e.publicJwk.get? "revoked") = false) := by
  have hlater : ∀ x : Rat, 1000 * ((t : Rat) + 1) ≤ x → (t : Rat) < seconds x := by
    intro x hx
    have : ((t + 1 : Int) : Rat) ≤ seconds x := le_seconds (by push_cast; exact hx)
    push_cast at this
    linarith
  have hnbf : seconds activatedAt ≤ t := seconds_le hpast
  have hexp : (t : Rat) < historicalExp e' nowSeconds := by
    unfold historicalExp
    rw [h.expiresAt]
    cases hremoval : e'.scheduledRemovalAt with
    | some x => exact hlater x (h.removal x hremoval)
    | none =>
      cases hrevoked : e'.revokedAt with
      | some x => exact hlater x (h.revokedAt x hrevoked)
      | none => exact hnow
  have hbounds : OidFed.usableAt P t (mapHistoricalEntry e' nowSeconds) =
      !revokedFor P t ((mapHistoricalEntry e' nowSeconds).get? "revoked") := by
    unfold OidFed.usableAt
    rw [mapHistoricalEntry_nbf e' nowSeconds (h.activatedAt.trans hactivated),
      mapHistoricalEntry_exp]
    simp [numberOf, not_lt.mpr hnbf, not_le.mpr hexp]
  rw [hbounds, mapHistoricalEntry_revoked, h.publicJwk, Bool.not_eq_true']
  by_cases hstate : e'.state = .revoked
  · rw [if_pos hstate]
    obtain ⟨x, hx⟩ := Option.isSome_iff_exists.mp (h.isRevoked hstate)
    have hrevokedAt : (t : Rat) < seconds x := hlater x (h.revokedAt x hx)
    have hclear : revokedFor P t (some (.obj
        (("revoked_at", .num ((e'.revokedAt.map seconds).getD nowSeconds)) ::
          reasonMember e'.revocationReason))) = false := by
      rw [← Bool.not_eq_true, revokedFor_iff, hx]
      rintro (⟨r, hr, hsecurity⟩ | hle)
      · exact hreason hstate r hr hsecurity
      · exact absurd hle (not_le.mpr hrevokedAt)
    simp [hclear, hstate]
  · rw [if_neg hstate]
    simp [hstate]

/-- The selector returns the key that was the signer during a whole second, in every later history,
if the key has not been revoked for a reason of security. Of a key that has not been revoked, the
`revoked` member that its own public JWK may have is part of the history. -/
theorem signed_history (P : Platform) {t : Int} (hsigned : SignedDuring initial kid t s)
    (hlater : (keyLifecycle initial).Later s s') {now : Rat} (hnow : s'.now ≤ now)
    {e : ManagedFederationKeyEntry} (he : s'.provider.keys.get? kid = some e)
    (hreason : e.state = .revoked →
      ∀ reason, e.revocationReason = some reason → reason ∉ securityRevocationReasons) :
    selectHistoricalVerificationKey P (s'.provider.getHistoricalFederationKeys now) kid t =
        .ok (mapHistoricalEntry e (seconds now)) ↔
      (e.state = .revoked ∨ revokedFor P t (e.publicJwk.get? "revoked") = false) := by
  obtain ⟨s₀, s₁, hreach, hstart, hsigns, hstep, hend⟩ := hsigned
  obtain ⟨hsound₁, e₀, he₀, hactive, he₁⟩ := hsigns.entry (keyLifecycle_sound hreach)
  obtain ⟨hactivated, -, hremoval, hrevoked⟩ := (hsound₁.recorded he₁).active hactive
  obtain ⟨activatedAt, hat⟩ := Option.isSome_iff_exists.mp hactivated
  have hpast : activatedAt ≤ 1000 * t :=
    (keyLifecycle_activatedInPast hreach kid e₀ activatedAt he₀ hat).trans hstart
  have hfirst : SignedUntil e₀ (1000 * (t + 1)) e₀ :=
    { publicJwk := rfl
      activatedAt := rfl
      expiresAt := (hsound₁.recorded he₁).expiresAt
      removal := fun x hx => by rw [hremoval] at hx; cases hx
      revokedAt := fun x hx => by rw [hrevoked] at hx; cases hx
      isRevoked := fun h => by rw [hactive] at h; cases h
      notPublished := fun h => by rw [hactive] at h; cases h }
  have hsound : Sound s.provider := hsound₁.transition (hstep.transition hsound₁)
  obtain ⟨e₂, he₂, hentry⟩ := hstep.entry hsound₁ he₁
  obtain ⟨hsound', hend', e₃, he₃, huntil⟩ := entry_later
    (Q := SignedUntil e₀ (1000 * (t + 1))) (b := 1000 * (t + 1))
    (fun _ _ _ _ hb _ hq hstep => hq.step hb hstep) hsound hend he₂ (hfirst.step hend hentry) hlater
  obtain rfl := Option.some.inj (he.symm.trans he₃)
  have hnow' : (t : Rat) < seconds now := by
    have : ((t + 1 : Int) : Rat) ≤ seconds now := le_seconds (by push_cast; linarith)
    push_cast at this
    linarith
  rw [select_eq_ok_iff hsound', huntil.publicJwk, ← huntil.usableAt hat hpast hnow' hreason]
  constructor
  · rintro ⟨e', -, -, husable⟩
    exact husable
  · exact fun husable => ⟨e, he, rfl, husable⟩

end Signers

/-! ## Revocations -/

section Revocations

variable {initial : List FederationSigningKey} {s s' : KeyRun} {kid reason : String} {now : Rat}

/-- The entry of a revoked key is written again only for a reason of security, or in the second
that it records and not over such a reason. -/
def keepsRevocation : RevocationPolicy := fun p kid reason now =>
  ∀ e, p.keys.get? kid = some e → e.state = .revoked → reason ∈ securityRevocationReasons ∨
    (∀ recorded, e.revocationReason = some recorded → recorded ∉ securityRevocationReasons) ∧
      e.revokedAt.map seconds = some (seconds now)

/-- A revocation at a time, as it stands in an entry. -/
structure Records (reason : String) (now : Rat) (e : ManagedFederationKeyEntry) : Prop where
  revoked : e.state = .revoked
  asStrong : (∃ r, e.revocationReason = some r ∧ r ∈ securityRevocationReasons) ∨
    reason ∉ securityRevocationReasons ∧ e.revokedAt.map seconds = some (seconds now)

theorem Records.revoked_now (e : ManagedFederationKeyEntry) (reason : String) (now : Rat) :
    Records reason now (e.revoked now reason) where
  revoked := rfl
  asStrong := by
    by_cases h : reason ∈ securityRevocationReasons
    · exact .inl ⟨reason, rfl, h⟩
    · exact .inr ⟨h, rfl⟩

theorem Records.step {p : MemoryFederationKeyProvider} {t : Rat}
    {e e' : ManagedFederationKeyEntry} (h : Records reason now e) (he : p.keys.get? kid = some e)
    (hstep : EntryStep (keepsRevocation p kid · t) t e e') : Records reason now e' := by
  cases hstep with
  | same => exact h
  | activated order hstate => rw [h.revoked] at hstate; cases hstate
  | retired removal hstate hremoval => rw [h.revoked] at hstate; cases hstate
  | revoked reason' hpolicy =>
    refine ⟨rfl, ?_⟩
    rcases hpolicy e he h.revoked with hsecurity | ⟨hrecorded, hsecond⟩
    · exact .inl ⟨reason', rfl, hsecurity⟩
    · rcases h.asStrong with ⟨r, hr, hsecurity⟩ | ⟨hreason, hat⟩
      · exact absurd hsecurity (hrecorded r hr)
      · refine .inr ⟨hreason, ?_⟩
        change some (seconds t) = some (seconds now)
        rw [← hsecond, hat]

/-- A recorded revocation keeps the selector from returning the key. -/
theorem Records.not_usable {P : Platform} {e : ManagedFederationKeyEntry}
    {nowSeconds validAt : Rat} (h : Records reason now e)
    (hvalidAt : seconds now ≤ validAt ∨ reason ∈ securityRevocationReasons) :
    usableAt P validAt (mapHistoricalEntry e nowSeconds) = false := by
  have hrevoked : revokedFor P validAt
      ((mapHistoricalEntry e nowSeconds).get? "revoked") = true := by
    rw [mapHistoricalEntry_revoked, if_pos h.revoked, revokedFor_iff]
    rcases h.asStrong with hsecurity | ⟨hreason, hat⟩
    · exact .inl hsecurity
    · rw [hat]
      exact .inr (hvalidAt.resolve_right hreason)
  simp [usableAt, hrevoked]

/-- A revoked key is not returned for a second from its revocation on, nor for any second if the
reason is one of security, whatever the operations after it, if they keep to `keepsRevocation`. -/
theorem revocation_kept (P : Platform) (hs : (keyLifecycle initial).Reach s) (hnow : s.now ≤ now)
    (hrevoke : (s.provider.revokeKey kid reason now).2 = .ok ())
    (hlater : (keyLifecycle initial keepsRevocation).Later
      (⟨(s.provider.revokeKey kid reason now).1, now⟩ : KeyRun) s') (read : Rat) {validAt : Rat}
    (hvalidAt : seconds now ≤ validAt ∨ reason ∈ securityRevocationReasons) (key : Payload) :
    selectHistoricalVerificationKey P (s'.provider.getHistoricalFederationKeys read) kid validAt ≠
      .ok key := by
  have hsound : Sound (s.provider.revokeKey kid reason now).1 :=
    keyLifecycle_sound (hs.step (KeyStep.revokeKey kid reason now hnow trivial))
  obtain ⟨e, he⟩ : ∃ e, s.provider.keys.get? kid = some e := by
    cases he : s.provider.keys.get? kid with
    | none =>
      rw [revokeKey, getEntry, he] at hrevoke
      cases hrevoke
    | some e => exact ⟨e, rfl⟩
  have hget : (s.provider.revokeKey kid reason now).1.keys.get? kid =
      some (e.revoked now reason) := by
    rw [revokeKey, getEntry_eq_ok.mpr he]
    exact (get?_setEntry _ _ _).trans (if_pos rfl)
  obtain ⟨hsound', -, e', he', hrecords⟩ := entry_later (Q := Records reason now) (b := now)
    (fun _ _ _ _ _ he hq hstep => hq.step he hstep) hsound le_rfl hget
    (Records.revoked_now e reason now) hlater
  rw [ne_eq, select_eq_ok_iff hsound']
  rintro ⟨e'', he'', rfl, husable⟩
  obtain rfl := Option.some.inj (he'.symm.trans he'')
  rw [hrecords.not_usable hvalidAt] at husable
  cases husable

end Revocations

/-! ## Examples -/

/-- A provider whose one key has a `revoked` member in its public JWK. -/
def exampleMarkedKey : FederationSigningKey where
  signer := ⟨"a", "ES256"⟩
  publicJwk := Dict.ofEntries [("kty", .str "EC"), ("kid", .str "a"),
    ("revoked", .obj [("revoked_at", .num 0)])]

def exampleCreated (key : FederationSigningKey) : MemoryFederationKeyProvider :=
  (create [key] 0).toOption.getD {}

/-- The only key signs during second 0. -/
theorem exampleCreated_signed {key : FederationSigningKey}
    (h : create [key] 0 = .ok (exampleCreated key)) (keySet : FederationKeySet)
    (hset : (exampleCreated key).getFederationKeySet 0 = .ok keySet) :
    SignedDuring [key] keySet.signer.kid 0 ⟨exampleCreated key, 1000⟩ :=
  ⟨⟨exampleCreated key, 0⟩, ⟨exampleCreated key, 0⟩, .init h, by norm_num,
    .refl ⟨0, keySet, hset, rfl⟩, KeyStep.read 1000 (by norm_num), by norm_num⟩

theorem exampleSigningKey_signed :
    SignedDuring [exampleSigningKey "a"] "a" 0 ⟨exampleCreated (exampleSigningKey "a"), 1000⟩ :=
  exampleCreated_signed rfl
    ⟨⟨"a", "ES256"⟩, (exampleCreated (exampleSigningKey "a")).publishedKeys 0⟩ rfl

theorem exampleSigningKey_history :
    ∃ e, (exampleCreated (exampleSigningKey "a")).keys.get? "a" = some e ∧
      (selectHistoricalVerificationKey (tablePlatform [])
          ((exampleCreated (exampleSigningKey "a")).getHistoricalFederationKeys 1000) "a" (0 : Int) =
            .ok (mapHistoricalEntry e (seconds 1000)) ↔
        (e.state = .revoked ∨
          revokedFor (tablePlatform []) (0 : Int) (e.publicJwk.get? "revoked") = false)) :=
  ⟨_, rfl, signed_history (tablePlatform []) exampleSigningKey_signed .refl le_rfl rfl nofun⟩

/-- A key that was never revoked is not returned, because of its own `revoked` member. -/
theorem exampleMarkedKey_not_selected :
    SignedDuring [exampleMarkedKey] "a" 0 ⟨exampleCreated exampleMarkedKey, 1000⟩ ∧
      (0 : Rat) < seconds 5000 ∧
      (∃ e, (exampleCreated exampleMarkedKey).keys.get? "a" = some e ∧ e.state = .active) ∧
      ∃ error, selectHistoricalVerificationKey (tablePlatform [])
        ((exampleCreated exampleMarkedKey).getHistoricalFederationKeys 5000) "a" 0 = .error error :=
  ⟨exampleCreated_signed rfl
      ⟨⟨"a", "ES256"⟩, (exampleCreated exampleMarkedKey).publishedKeys 0⟩ rfl,
    by decide +kernel, ⟨_, rfl, rfl⟩, _, rfl⟩

/-- A provider whose only key is revoked as compromised at 5000. -/
def exampleCompromised : MemoryFederationKeyProvider :=
  ((exampleCreated (exampleSigningKey "a")).revokeKey "a" "compromised" 5000).1

theorem exampleCreated_reached :
    (keyLifecycle [exampleSigningKey "a"]).Reach
      (⟨exampleCreated (exampleSigningKey "a"), 0⟩ : KeyRun) :=
  .init (show create [exampleSigningKey "a"] 0 = _ from rfl)

theorem exampleCompromised_kept :
    selectHistoricalVerificationKey (tablePlatform [])
      (exampleCompromised.getHistoricalFederationKeys 5000) "a" 1 ≠
        .ok (exampleSigningKey "a").publicJwk :=
  revocation_kept (tablePlatform []) exampleCreated_reached (by norm_num) rfl .refl 5000
    (.inr (by decide)) (exampleSigningKey "a").publicJwk

/-- Revoked again for another reason, the compromised key is returned for the second 6, after its
first revocation. -/
theorem compromised_returns :
    (keyLifecycle [exampleSigningKey "a"]).Reach
        (⟨exampleCreated (exampleSigningKey "a"), 0⟩ : KeyRun) ∧
      ((exampleCreated (exampleSigningKey "a")).revokeKey "a" "compromised" 5000).2 = .ok () ∧
      (keyLifecycle [exampleSigningKey "a"]).Later (⟨exampleCompromised, 5000⟩ : KeyRun)
        (⟨(exampleCompromised.revokeKey "a" "superseded" 9000).1, 9000⟩ : KeyRun) ∧
      seconds 5000 ≤ 6 ∧
      ∃ key, selectHistoricalVerificationKey (tablePlatform [])
        ((exampleCompromised.revokeKey "a" "superseded" 9000).1.getHistoricalFederationKeys 9000)
        "a" 6 = .ok key := by
  have hreached : (keyLifecycle [exampleSigningKey "a"]).Reach
      (⟨exampleCompromised, 5000⟩ : KeyRun) :=
    exampleCreated_reached.step (KeyStep.revokeKey "a" "compromised" 5000 (by norm_num) trivial)
  have hlater : (keyLifecycle [exampleSigningKey "a"]).Later (⟨exampleCompromised, 5000⟩ : KeyRun)
      (⟨(exampleCompromised.revokeKey "a" "superseded" 9000).1, 9000⟩ : KeyRun) :=
    .step .refl (KeyStep.revokeKey "a" "superseded" 9000 (by norm_num) trivial)
  exact ⟨exampleCreated_reached, rfl, hlater, by decide +kernel, _,
    (select_eq_ok_iff (keyLifecycle_sound (hreached.later hlater))).mpr
      ⟨_, rfl, rfl, by decide +kernel⟩⟩

end OidFed
