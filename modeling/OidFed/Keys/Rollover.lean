import OidFed.Keys.Lifecycle

/-!
# Signing, publication and rollover

`Publishes`: a key set has a public key under a `kid`. Along every run of a provider:

* `provider_lifecycle`: a revoked key stays revoked and out of every key set; the signer is the
  active key with the greatest order and is published once; after a switch the previous signer is
  published for the overlap and not after it; an operation that throws changes nothing.
* `switchActiveKey_succeeds_iff`: a switch to a published key succeeds, and the key signs from then
  on, exactly when some key is active. The switch reads the current key set first, which throws
  once every active key has been revoked.
-/

namespace OidFed

open Js ManagedFederationKeyEntry MemoryFederationKeyProvider

/-- The key set has a public key under the `kid`. -/
def FederationKeySet.Publishes (keySet : FederationKeySet) (kid : String) : Prop :=
  ∃ jwk ∈ keySet.jwks, jwk.get? "kid" = some (.str kid)

def MemoryFederationKeyProvider.IsRevoked (p : MemoryFederationKeyProvider) (kid : String) : Prop :=
  ∃ e, p.keys.get? kid = some e ∧ e.state = .revoked

section Provider

variable {p : MemoryFederationKeyProvider} {now : Rat} {keySet : FederationKeySet} {kid : String}

theorem MemoryFederationKeyProvider.Sound.publishes_iff (hp : Sound p)
    (h : p.getFederationKeySet now = .ok keySet) :
    keySet.Publishes kid ↔ ∃ e, p.keys.get? kid = some e ∧ e.isPublished now = true := by
  obtain ⟨selected, -, rfl⟩ := currentKeySet_eq_ok h
  constructor
  · rintro ⟨jwk, hjwk, hkid⟩
    obtain ⟨kid', e, he, hpub, rfl⟩ := mem_publishedKeys.mp hjwk
    rw [(hp.accepted he).kid, hp.kid he] at hkid
    obtain rfl : kid' = kid := by simpa using hkid
    exact ⟨e, he, hpub⟩
  · rintro ⟨e, he, hpub⟩
    refine ⟨e.publicJwk, mem_publishedKeys.mpr ⟨kid, e, he, hpub, rfl⟩, ?_⟩
    rw [(hp.accepted he).kid, hp.kid he]

theorem isRevoked_not_published (hp : Sound p) (hrevoked : p.IsRevoked kid)
    (h : p.getFederationKeySet now = .ok keySet) :
    keySet.signer.kid ≠ kid ∧ ¬ keySet.Publishes kid := by
  obtain ⟨e, he, hstate⟩ := hrevoked
  refine ⟨?_, ?_⟩
  · rintro rfl
    obtain ⟨selected, -, hget, hactive, rfl⟩ := hp.signer h
    obtain rfl : e = selected := Option.some.inj (he.symm.trans hget)
    rw [hstate] at hactive
    cases hactive
  · rw [hp.publishes_iff h]
    rintro ⟨e', he', hpub⟩
    obtain rfl : e = e' := Option.some.inj (he.symm.trans he')
    simp [isPublished, hstate] at hpub

/-- The signer that is handed out, and its public key. -/
theorem getFederationKeySet_signer (hp : Sound p) (h : p.getFederationKeySet now = .ok keySet) :
    ∃ e, p.keys.get? keySet.signer.kid = some e ∧ e.signer = keySet.signer ∧ e.state = .active ∧
      (∀ kid' e', p.keys.get? kid' = some e' → e'.state = .active → kid' ≠ keySet.signer.kid →
        e'.order < e.order) ∧
      keySet.jwks.count e.publicJwk = 1 ∧
      ∀ jwk ∈ keySet.jwks, jwk.get? "kid" = some (.str keySet.signer.kid) → jwk = e.publicJwk := by
  obtain ⟨e, hsel, hget, hactive, rfl⟩ := hp.signer h
  have hmem : e.publicJwk ∈ p.publishedKeys now :=
    mem_publishedKeys.mpr ⟨_, e, hget, by simp [isPublished, hactive], rfl⟩
  have hnodup := hp.publishedKids now
  refine ⟨e, hget, rfl, hactive, ?_, ?_, ?_⟩
  · intro kid' e' he' hactive' hne
    have hle := (signingEntry_eq_some hsel).2.2 kid' e' he' hactive'
    have hdistinct : e'.order ≠ e.order := fun ho =>
      hne (hp.distinct he' hget hactive' hactive ho)
    omega
  · exact List.count_eq_one_of_mem (List.Nodup.of_map _ hnodup) hmem
  · intro jwk hjwk hkid
    exact List.inj_on_of_nodup_map hnodup hjwk hmem (hkid.trans (hp.accepted hget).kid.symm)

theorem publishKey_error {key : FederationSigningKey} {e : String}
    (h : (p.publishKey key now).2 = .error e) : (p.publishKey key now).1 = p := by
  unfold publishKey at h ⊢
  cases hkey : p.validateNewKey key with
  | error e => rfl
  | ok key' => rw [hkey] at h; cases h

theorem revokeKey_error {kid reason e : String} (h : (p.revokeKey kid reason now).2 = .error e) :
    (p.revokeKey kid reason now).1 = p := by
  unfold revokeKey at h ⊢
  cases hentry : p.getEntry kid with
  | error e => rfl
  | ok entry => rw [hentry] at h; cases h

theorem switchActiveKey_error (hp : Sound p) {options : SwitchActiveFederationKeyOptions}
    {setNow : Rat} {e : String} (h : (p.switchActiveKey kid options setNow now).2 = .error e) :
    (p.switchActiveKey kid options setNow now).1 = p := by
  rcases switchActiveKey_cases hp kid options setNow now with
    ⟨e', he⟩ | ⟨entry, current, previous, -, -, -, -, -, he⟩
  · rw [he]
  · rw [he] at h
    cases h

/-- After a switch the previous signer is retiring, until the overlap is over. -/
theorem switchActiveKey_retires (hp : Sound p) {options : SwitchActiveFederationKeyOptions}
    {setNow : Rat} (hcurrent : p.currentKeySet setNow = .ok keySet)
    (h : (p.switchActiveKey kid options setNow now).2 = .ok ()) :
    ∃ previous, p.keys.get? keySet.signer.kid = some previous ∧
      (p.switchActiveKey kid options setNow now).1.keys.get? keySet.signer.kid =
        some (previous.retired (now + options.overlap)) := by
  rcases switchActiveKey_cases hp kid options setNow now with
    ⟨e', he⟩ | ⟨entry, current, previous, -, -, hset, hprevious, -, he⟩
  · rw [he] at h
    cases h
  · obtain rfl := Except.ok.inj (hcurrent.symm.trans hset)
    exact ⟨previous, hprevious, by rw [he, get?_setEntry, if_pos rfl]⟩

end Provider

/-! ## Runs -/

section Runs

variable {initial : List FederationSigningKey} {policy : RevocationPolicy} {s s' : KeyRun}

/-- What every step keeps of an entry holds of it later. -/
theorem entry_later {Q : ManagedFederationKeyEntry → Prop} {b : Rat} {kid : String}
    {e : ManagedFederationKeyEntry}
    (hkeep : ∀ p now e e', b ≤ now → p.keys.get? kid = some e → Q e →
      EntryStep (policy p kid · now) now e e' → Q e')
    (hs : Sound s.provider) (hb : b ≤ s.now)
    (he : s.provider.keys.get? kid = some e) (hq : Q e)
    (h : (keyLifecycle initial policy).Later s s') :
    Sound s'.provider ∧ b ≤ s'.now ∧ ∃ e', s'.provider.keys.get? kid = some e' ∧ Q e' := by
  refine System.Later.keeps (S := keyLifecycle initial policy)
    (I := fun s : KeyRun => Sound s.provider ∧ b ≤ s.now ∧
      ∃ e', s.provider.keys.get? kid = some e' ∧ Q e') ?_ ⟨hs, hb, e, he, hq⟩ h
  rintro s₁ s₂ ⟨hsound, hb₁, e₁, he₁, hq₁⟩ hstep
  have hnow := hb₁.trans (KeyStep.now_le hstep)
  obtain ⟨e₂, he₂, hentry⟩ := KeyStep.entry hstep hsound he₁
  exact ⟨hsound.transition (KeyStep.transition hstep hsound), hnow, e₂, he₂,
    hkeep _ _ _ _ hnow he₁ hq₁ hentry⟩

theorem EntryStep.revoked_stays {mayRevoke : String → Prop} {now : Rat}
    {e e' : ManagedFederationKeyEntry} (h : EntryStep mayRevoke now e e') (he : e.state = .revoked) : e'.state = .revoked := by
  cases h with
  | same => exact he
  | activated order hstate => rw [hstate] at he; cases he
  | retired removal hstate hremoval => rw [hstate] at he; cases he
  | revoked reason hreason => rfl

theorem isRevoked_later {kid : String} (hs : Sound s.provider)
    (hrevoked : s.provider.IsRevoked kid) (h : (keyLifecycle initial policy).Later s s') :
    s'.provider.IsRevoked kid := by
  obtain ⟨e, he, hstate⟩ := hrevoked
  exact (entry_later (Q := fun e => e.state = .revoked) (b := s.now)
    (fun _ _ _ _ _ _ hq hstep => hstep.revoked_stays hq) hs le_rfl he hstate h).2.2

/-- A retiring key keeps the time of its removal, unless it is revoked. -/
theorem retired_later {kid : String} {e : ManagedFederationKeyEntry} {removal : Rat}
    (hs : Sound s.provider)
    (he : s.provider.keys.get? kid = some (e.retired removal))
    (h : (keyLifecycle initial policy).Later s s') :
    ∃ e', s'.provider.keys.get? kid = some e' ∧ (e'.state = .revoked ∨ e' = e.retired removal) := by
  refine (entry_later (b := s.now) (Q := fun e' => e'.state = .revoked ∨ e' = e.retired removal)
    ?_ hs le_rfl he (.inr rfl) h).2.2
  rintro p now e₁ e₂ - - (hrevoked | rfl) hstep
  · exact .inl (hstep.revoked_stays hrevoked)
  · cases hstep with
    | same => exact .inr rfl
    | activated order hstate => cases hstate
    | retired removal hstate hremoval => cases hstate
    | revoked reason hreason => exact .inl rfl

/-- How long a previous signer stays published. -/
theorem previous_published {kid : String} {e : ManagedFederationKeyEntry} {removal now : Rat}
    {keySet : FederationKeySet} (hs : (keyLifecycle initial policy).Reach s)
    (he : s.provider.keys.get? kid = some (e.retired removal))
    (h : (keyLifecycle initial policy).Later s s')
    (hget : s'.provider.getFederationKeySet now = .ok keySet) :
    (now < removal → ¬ s'.provider.IsRevoked kid → e.publicJwk ∈ keySet.jwks) ∧
      (removal ≤ now → ¬ keySet.Publishes kid) := by
  have hsound := keyLifecycle_sound (hs.later h)
  obtain ⟨e', he', hlater⟩ := retired_later (keyLifecycle_sound hs) he h
  refine ⟨fun hnow hrevoked => ?_, fun hnow => ?_⟩
  · obtain rfl := hlater.resolve_left fun hr => hrevoked ⟨e', he', hr⟩
    obtain ⟨selected, -, rfl⟩ := currentKeySet_eq_ok hget
    exact mem_publishedKeys.mpr ⟨kid, _, he', by simpa [isPublished, retired] using hnow, rfl⟩
  · rcases hlater with hr | rfl
    · exact (isRevoked_not_published hsound ⟨e', he', hr⟩ hget).2
    · rw [hsound.publishes_iff hget]
      rintro ⟨e'', he'', hpub⟩
      obtain rfl := Option.some.inj (he'.symm.trans he'')
      simp [isPublished, retired] at hpub
      exact absurd hpub (not_lt.mpr hnow)

/-- The guarantees of a provider in every state that its operations reach. -/
theorem provider_lifecycle (hs : (keyLifecycle initial).Reach s) :
    (∀ kid, s.provider.IsRevoked kid → ∀ s', (keyLifecycle initial).Later s s' →
      s'.provider.IsRevoked kid ∧ ∀ now keySet, s'.provider.getFederationKeySet now = .ok keySet →
        keySet.signer.kid ≠ kid ∧ ¬ keySet.Publishes kid) ∧
    (∀ now keySet, s.provider.getFederationKeySet now = .ok keySet →
      ∃ e, s.provider.keys.get? keySet.signer.kid = some e ∧ e.signer = keySet.signer ∧
        e.state = .active ∧
        (∀ kid' e', s.provider.keys.get? kid' = some e' → e'.state = .active →
          kid' ≠ keySet.signer.kid → e'.order < e.order) ∧
        keySet.jwks.count e.publicJwk = 1 ∧
        ∀ jwk ∈ keySet.jwks, jwk.get? "kid" = some (.str keySet.signer.kid) →
          jwk = e.publicJwk) ∧
    (∀ kid options setNow t current, s.now ≤ setNow → setNow ≤ t →
      0 ≤ SwitchActiveFederationKeyOptions.overlap options →
      s.provider.getFederationKeySet setNow = .ok current →
      (s.provider.switchActiveKey kid options setNow t).2 = .ok () →
      ∃ previous, s.provider.keys.get? current.signer.kid = some previous ∧
        ∀ s', (keyLifecycle initial).Later
            ⟨(s.provider.switchActiveKey kid options setNow t).1, t⟩ s' →
          ∀ now keySet, s'.now ≤ now → s'.provider.getFederationKeySet now = .ok keySet →
            (now < t + options.overlap → ¬ s'.provider.IsRevoked current.signer.kid →
              previous.publicJwk ∈ keySet.jwks) ∧
            (t + options.overlap ≤ now → ¬ keySet.Publishes current.signer.kid)) ∧
    (∀ key now e, (s.provider.publishKey key now).2 = .error e →
      (s.provider.publishKey key now).1 = s.provider) ∧
    (∀ kid options setNow now e, (s.provider.switchActiveKey kid options setNow now).2 = .error e →
      (s.provider.switchActiveKey kid options setNow now).1 = s.provider) ∧
    ∀ kid reason now e, (s.provider.revokeKey kid reason now).2 = .error e →
      (s.provider.revokeKey kid reason now).1 = s.provider := by
  have hsound := keyLifecycle_sound hs
  refine ⟨fun kid hrevoked s' h => ?_, fun now keySet h => getFederationKeySet_signer hsound h,
    ?_, fun key now e h => publishKey_error h,
    fun kid options setNow now e h => switchActiveKey_error hsound h,
    fun kid reason now e h => revokeKey_error h⟩
  · have hlater := isRevoked_later hsound hrevoked h
    exact ⟨hlater, fun now keySet hget =>
      isRevoked_not_published (keyLifecycle_sound (hs.later h)) hlater hget⟩
  · intro kid options setNow t current hset ht hoverlap hcurrent hswitch
    obtain ⟨previous, hprevious, hretired⟩ := switchActiveKey_retires hsound hcurrent hswitch
    have hs' : (keyLifecycle initial).Reach
        ⟨(s.provider.switchActiveKey kid options setNow t).1, t⟩ :=
      hs.step (KeyStep.switchActiveKey kid options setNow t hset ht hoverlap)
    exact ⟨previous, hprevious, fun s' h now keySet _ hget =>
      previous_published hs' hretired h hget⟩

/-! ## Switching -/

/-- A switch succeeds, and its key signs from then on. -/
def Switches (p : MemoryFederationKeyProvider) (kid : String) (signer : JwtSigner)
    (options : SwitchActiveFederationKeyOptions) (setNow now : Rat) : Prop :=
  (p.switchActiveKey kid options setNow now).2 = .ok () ∧
    ∀ read, ∃ jwks, (p.switchActiveKey kid options setNow now).1.getFederationKeySet read =
      .ok { signer, jwks }

/-- Some key is active. -/
def HasActive (p : MemoryFederationKeyProvider) : Prop :=
  ∃ kid e, p.keys.get? kid = some e ∧ e.state = .active

theorem hasActive_iff {p : MemoryFederationKeyProvider} :
    HasActive p ↔ ∃ e, p.signingEntry = some e := by
  rw [← Option.isSome_iff_exists, Option.isSome_iff_ne_none, ne_eq, signingEntry_eq_none]
  simp [HasActive]

/-- The next activation outranks all before it. -/
theorem signingEntry_switched {p : MemoryFederationKeyProvider} (hp : Sound p) {kid kid' : String}
    {entry previous : ManagedFederationKeyEntry} {now removal : Rat} (hne : kid ≠ kid') :
    ((p.nextActivation.setEntry kid (entry.activated now p.activationOrder)).setEntry kid'
      (previous.retired removal)).signingEntry = some (entry.activated now p.activationOrder) := by
  set q := (p.nextActivation.setEntry kid (entry.activated now p.activationOrder)).setEntry kid'
    (previous.retired removal)
  have hget : q.keys.get? kid = some (entry.activated now p.activationOrder) := by
    rw [get?_setEntry, if_neg hne, get?_setEntry, if_pos rfl]
  obtain ⟨selected, hsel⟩ : ∃ e, q.signingEntry = some e := hasActive_iff.mp ⟨kid, _, hget, rfl⟩
  obtain ⟨⟨k, hk⟩, hactive, hmax⟩ := signingEntry_eq_some hsel
  have horder : p.activationOrder ≤ selected.order := hmax kid _ hget rfl
  rw [hsel]
  by_cases hkid : k = kid
  · rw [hkid] at hk
    exact hk.symm.trans hget
  · exfalso
    rw [get?_setEntry, get?_setEntry, if_neg hkid] at hk
    split at hk
    · obtain rfl := Option.some.inj hk
      cases hactive
    · have := ((hp.recorded hk).active hactive).2.1
      omega

/-- A switch to a published key, in every state that a run reaches. -/
theorem switches_iff {p : MemoryFederationKeyProvider} (hp : Sound p) {kid : String}
    {entry : ManagedFederationKeyEntry} (hget : p.keys.get? kid = some entry)
    (hstate : entry.state = .published) (options : SwitchActiveFederationKeyOptions)
    (setNow now : Rat) :
    Switches p kid entry.signer options setNow now ↔ HasActive p := by
  rw [hasActive_iff]
  constructor
  · rintro ⟨hok, -⟩
    rcases switchActiveKey_cases hp kid options setNow now with
      ⟨e, he⟩ | ⟨_, current, _, -, -, hcurrent, -⟩
    · rw [he] at hok
      cases hok
    · obtain ⟨selected, hsel, -⟩ := currentKeySet_eq_ok hcurrent
      exact ⟨selected, hsel⟩
  · rintro ⟨selected, hsel⟩
    have hcurrent := hp.currentKeySet hsel setNow
    obtain ⟨previous, hprevious, hactive, he⟩ :=
      switchActiveKey_eq hp hget hstate hcurrent options now
    have hne : kid ≠ selected.signer.kid := by
      intro hkid
      subst hkid
      rw [Option.some.inj (hget.symm.trans hprevious), hactive] at hstate
      cases hstate
    have hsound : Sound ((p.nextActivation.setEntry kid
        (entry.activated now p.activationOrder)).setEntry selected.signer.kid
          (previous.retired (now + options.overlap))) :=
      hp.switched hget hstate hprevious
    unfold Switches
    rw [he]
    exact ⟨rfl, fun read => ⟨_, hsound.currentKeySet (signingEntry_switched hp hne) read⟩⟩

theorem create_hasActive {p : MemoryFederationKeyProvider} {now : Rat}
    (h : create initial now = .ok p) : HasActive p := by
  have hfold : ∀ (l : List FederationSigningKey) (q : MemoryFederationKeyProvider),
      l.foldlM (addInitial now) q = .ok p → l = [] ∨ HasActive p := by
    intro l
    induction l with
    | nil => exact fun _ _ => .inl rfl
    | cons key rest ih =>
      intro q h
      obtain ⟨q', hadd, hrest⟩ := bind_eq_ok.mp h
      rcases ih q' hrest with rfl | hactive
      · obtain ⟨key', -, hq'⟩ := bind_eq_ok.mp hadd
        obtain rfl := Except.ok.inj hrest
        obtain rfl := Except.ok.inj hq'
        exact .inr ⟨key'.signer.kid, _, by rw [get?_setEntry, if_pos rfl], rfl⟩
      · exact .inr hactive
  unfold MemoryFederationKeyProvider.create at h
  split at h
  · cases h
  · rename_i hne
    exact (hfold initial {} h).resolve_left hne

/-- Only keys besides which another is active are revoked. -/
def leavesActive : RevocationPolicy := fun p kid _ _ =>
  ∃ kid' e, kid' ≠ kid ∧ p.keys.get? kid' = some e ∧ e.state = .active

theorem HasActive.step (hs : Sound s.provider) (hactive : HasActive s.provider)
    (h : KeyStep leavesActive s s') : HasActive s'.provider := by
  have hkeep : ∀ kid e, s.provider.keys.get? kid = some e → e.state = .active →
      ∀ kid' e', kid ≠ kid' → HasActive (s.provider.setEntry kid' e') := by
    intro kid e he hstate kid' e' hne
    exact ⟨kid, e, by rw [get?_setEntry, if_neg hne, he], hstate⟩
  cases h with
  | read now hnow => exact hactive
  | publishKey key now hnow =>
    change HasActive (s.provider.publishKey key now).1
    unfold publishKey
    cases hkey : s.provider.validateNewKey key with
    | error e => exact hactive
    | ok key' =>
      obtain ⟨rfl, hfresh, -⟩ := validateNewKey_eq_ok hkey
      obtain ⟨kid, e, he, hstate⟩ := hactive
      refine hkeep kid e he hstate _ _ ?_
      rintro rfl
      rw [hfresh] at he
      cases he
  | switchActiveKey kid options setNow now hset hnow hoverlap =>
    change HasActive (s.provider.switchActiveKey kid options setNow now).1
    rcases switchActiveKey_cases hs kid options setNow now with
      ⟨e, he⟩ | ⟨entry, current, previous, hget, hstate, hcurrent, hprevious, hprev, he⟩
    · rw [he]
      exact hactive
    · rw [he, hasActive_iff]
      refine ⟨_, signingEntry_switched hs ?_⟩
      rintro rfl
      rw [Option.some.inj (hget.symm.trans hprevious), hprev] at hstate
      cases hstate
  | revokeKey kid reason now hnow hpolicy =>
    change HasActive (s.provider.revokeKey kid reason now).1
    unfold revokeKey
    cases hentry : s.provider.getEntry kid with
    | error e => exact hactive
    | ok entry =>
      obtain ⟨kid', e, hne, he, hstate⟩ := hpolicy
      exact hkeep kid' e he hstate kid _ hne

/-- A switch to a published key succeeds exactly when some key is active, which is so in every
state of a run that never revokes the only active key. -/
theorem switchActiveKey_selects (initial : List FederationSigningKey) :
    (∀ s : KeyRun, (keyLifecycle initial).Reach s → ∀ kid entry,
      s.provider.keys.get? kid = some entry → entry.state = .published →
      ∀ options setNow now,
        Switches s.provider kid entry.signer options setNow now ↔ HasActive s.provider) ∧
    ∀ s : KeyRun, (keyLifecycle initial leavesActive).Reach s → ∀ kid entry,
      s.provider.keys.get? kid = some entry → entry.state = .published →
      ∀ options setNow now, Switches s.provider kid entry.signer options setNow now := by
  refine ⟨fun s hs kid entry hget hstate options setNow now =>
    switches_iff (keyLifecycle_sound hs) hget hstate options setNow now, ?_⟩
  intro s hs kid entry hget hstate options setNow now
  have hactive : HasActive s.provider := by
    have hinv := System.Reach.invariant (S := keyLifecycle initial leavesActive)
      (I := fun s : KeyRun => Sound s.provider ∧ HasActive s.provider)
      (fun _ h => ⟨Sound.create h, create_hasActive h⟩)
      (fun _ _ h hstep => ⟨h.1.transition (hstep.transition h.1), h.2.step h.1 hstep⟩) hs
    exact hinv.2
  exact (switches_iff (keyLifecycle_sound hs) hget hstate options setNow now).mpr hactive

end Runs

/-! ## An example -/

def exampleSigningKey (kid : String) : FederationSigningKey where
  signer := { kid, alg := "ES256" }
  publicJwk := Dict.ofEntries [("kty", .str "EC"), ("kid", .str kid)]

/-- A provider with the key `a`, which publishes `b`. -/
def exampleProvider : MemoryFederationKeyProvider :=
  let created := (create [exampleSigningKey "a"] 0).toOption.getD {}
  (created.publishKey (exampleSigningKey "b") 1000).1

theorem exampleProvider_reached :
    (keyLifecycle [exampleSigningKey "a"]).Reach (⟨exampleProvider, 1000⟩ : KeyRun) := by
  have hcreate : create [exampleSigningKey "a"] 0 =
      .ok ((create [exampleSigningKey "a"] 0).toOption.getD {}) := by rfl
  have hinit : (keyLifecycle [exampleSigningKey "a"]).Reach
      (⟨(create [exampleSigningKey "a"] 0).toOption.getD {}, 0⟩ : KeyRun) := .init hcreate
  exact hinit.step (KeyStep.publishKey (exampleSigningKey "b") 1000 (by norm_num))

/-- The signer before a switch at 2000 with an overlap of 500 is published until 2500. -/
theorem exampleProvider_overlap :
    ∃ previous, exampleProvider.keys.get? "a" = some previous ∧
      ∀ s' : KeyRun, (keyLifecycle [exampleSigningKey "a"]).Later
          (⟨(exampleProvider.switchActiveKey "b" ⟨some 500⟩ 2000 2000).1, 2000⟩ : KeyRun) s' →
        ∀ now keySet, s'.now ≤ now → s'.provider.getFederationKeySet now = .ok keySet →
          (now < 2000 + 500 → ¬ s'.provider.IsRevoked "a" → previous.publicJwk ∈ keySet.jwks) ∧
          (2000 + 500 ≤ now → ¬ keySet.Publishes "a") :=
  (provider_lifecycle exampleProvider_reached).2.2.1 "b" ⟨some 500⟩ 2000 2000
    { signer := ⟨"a", "ES256"⟩, jwks := exampleProvider.publishedKeys 2000 }
    (by norm_num) le_rfl (by norm_num [SwitchActiveFederationKeyOptions.overlap]) rfl rfl

/-- Once the only active key is revoked, the switch to the published key throws. -/
theorem revoked_switch_throws :
    ∃ s : KeyRun, (keyLifecycle [exampleSigningKey "a"]).Reach s ∧
      ∃ entry, s.provider.keys.get? "b" = some entry ∧ entry.state = .published ∧
        ∀ options setNow now, (s.provider.switchActiveKey "b" options setNow now).2 =
          .error "No active federation signing key available" :=
  ⟨⟨(exampleProvider.revokeKey "a" "compromised" 2000).1, 2000⟩,
    exampleProvider_reached.step
      (KeyStep.revokeKey "a" "compromised" 2000 (by norm_num) trivial),
    _, rfl, rfl, fun _ _ _ => rfl⟩

end OidFed
