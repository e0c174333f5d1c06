import OidFed.Keys.Provider
import OidFed.Lib.System

/-!
# The life of a federation key

* `Sound`: what holds of every provider that the operations make. Then the current key set is
  valid whenever a key is active (`Sound.currentKeySet_isOk`).
* `Transition`: all that an operation can do. `publishKey_transition`, `switchActiveKey_cases`,
  `revokeKey_transition`: each operation does one of these, or nothing.
* `keyLifecycle`: a provider among the operations of an application, under a clock that does not go
  back. `EntryStep`: what a step does to one entry.
-/

namespace OidFed

open Js ManagedFederationKeyEntry

namespace MemoryFederationKeyProvider

/-- What an entry records in each state, after so many activations. -/
structure Recorded (activations : Nat) (e : ManagedFederationKeyEntry) : Prop where
  expiresAt : e.expiresAt = none
  published : e.state = .published → e.scheduledRemovalAt = none ∧ e.revokedAt = none
  active : e.state = .active → e.activatedAt.isSome = true ∧ e.order < activations ∧
    e.scheduledRemovalAt = none ∧ e.revokedAt = none
  revoked : e.state = .revoked → e.revokedAt.isSome = true

structure Sound (p : MemoryFederationKeyProvider) : Prop where
  kid : ∀ {kid e}, p.keys.get? kid = some e → e.signer.kid = kid
  accepted : ∀ {kid e}, p.keys.get? kid = some e → AcceptedKey e.signer e.publicJwk
  recorded : ∀ {kid e}, p.keys.get? kid = some e → Recorded p.activationOrder e
  /-- Activations are numbered apart. -/
  distinct : ∀ {kid kid' e e'}, p.keys.get? kid = some e → p.keys.get? kid' = some e' →
    e.state = .active → e'.state = .active → e.order = e'.order → kid = kid'

/-- All that an operation at a time can do, if it may revoke these keys for these reasons. -/
inductive Transition (mayRevoke : String → String → Prop) (p : MemoryFederationKeyProvider)
    (now : Rat) : MemoryFederationKeyProvider → Prop
  | unchanged : Transition mayRevoke p now p
  | published (key : FederationSigningKey) (hfresh : p.keys.get? key.signer.kid = none)
      (haccepted : AcceptedKey key.signer key.publicJwk) :
      Transition mayRevoke p now (p.setEntry key.signer.kid (added key now))
  | switched (kid previousKid : String) (entry previous : ManagedFederationKeyEntry)
      (removal : Rat) (hentry : p.keys.get? kid = some entry) (hstate : entry.state = .published)
      (hprevious : p.keys.get? previousKid = some previous) (hactive : previous.state = .active)
      (hremoval : now ≤ removal) :
      Transition mayRevoke p now ((p.nextActivation.setEntry kid
        (entry.activated now p.activationOrder)).setEntry previousKid (previous.retired removal))
  | revoked (kid : String) (entry : ManagedFederationKeyEntry) (reason : String)
      (hentry : p.keys.get? kid = some entry) (hreason : mayRevoke kid reason) :
      Transition mayRevoke p now (p.setEntry kid (entry.revoked now reason))

variable {mayRevoke : String → String → Prop} {p p' : MemoryFederationKeyProvider} {now : Rat}

theorem publishKey_transition (key : FederationSigningKey) :
    Transition mayRevoke p now (p.publishKey key now).1 := by
  unfold publishKey
  cases h : p.validateNewKey key with
  | error e => exact .unchanged
  | ok key' =>
    obtain ⟨rfl, hfresh, haccepted⟩ := validateNewKey_eq_ok h
    exact .published key' hfresh haccepted

theorem revokeKey_transition {kid reason : String} (h : mayRevoke kid reason) :
    Transition mayRevoke p now (p.revokeKey kid reason now).1 := by
  unfold revokeKey
  cases hentry : p.getEntry kid with
  | error e => exact .unchanged
  | ok entry => exact .revoked kid entry reason (getEntry_eq_ok.mp hentry) h

/-- A switch to a published key, when there is a signer to retire. -/
theorem switchActiveKey_eq (hp : Sound p) {kid : String} {entry : ManagedFederationKeyEntry}
    (hget : p.keys.get? kid = some entry) (hstate : entry.state = .published) {setNow : Rat}
    {current : FederationKeySet} (hcurrent : p.currentKeySet setNow = .ok current)
    (options : SwitchActiveFederationKeyOptions) (now : Rat) :
    ∃ previous, p.keys.get? current.signer.kid = some previous ∧ previous.state = .active ∧
      p.switchActiveKey kid options setNow now =
        ((p.nextActivation.setEntry kid (entry.activated now p.activationOrder)).setEntry
          current.signer.kid (previous.retired (now + options.overlap)), .ok ()) := by
  have hentry : p.getEntry kid = .ok entry := getEntry_eq_ok.mpr hget
  obtain ⟨selected, hselected, rfl⟩ := currentKeySet_eq_ok hcurrent
  obtain ⟨⟨kid', hselget⟩, hactive, -⟩ := signingEntry_eq_some hselected
  obtain rfl := hp.kid hselget
  have hne : selected.signer.kid ≠ kid := by
    intro he
    rw [he, hget] at hselget
    obtain rfl := Option.some.inj hselget
    rw [hstate] at hactive
    cases hactive
  have hprevious : (p.nextActivation.setEntry kid
      (entry.activated now p.activationOrder)).getEntry selected.signer.kid = .ok selected := by
    rw [getEntry_eq_ok, get?_setEntry, if_neg hne]
    exact hselget
  refine ⟨selected, hselget, hactive, ?_⟩
  unfold switchActiveKey
  simp only [hentry, hstate, ne_eq, not_true_eq_false, if_false, hcurrent, if_neg hne, hprevious,
    hactive, if_true]

/-- A switch throws and does nothing, or it retires the signer of the current key set. -/
theorem switchActiveKey_cases (hp : Sound p) (kid : String)
    (options : SwitchActiveFederationKeyOptions) (setNow now : Rat) :
    (∃ e, p.switchActiveKey kid options setNow now = (p, .error e)) ∨
      ∃ entry current previous, p.keys.get? kid = some entry ∧ entry.state = .published ∧
        p.currentKeySet setNow = .ok current ∧
        p.keys.get? current.signer.kid = some previous ∧ previous.state = .active ∧
        p.switchActiveKey kid options setNow now =
          ((p.nextActivation.setEntry kid (entry.activated now p.activationOrder)).setEntry
            current.signer.kid (previous.retired (now + options.overlap)), .ok ()) := by
  cases hentry : p.getEntry kid with
  | error e => exact .inl ⟨e, by unfold switchActiveKey; rw [hentry]⟩
  | ok entry =>
    by_cases hstate : entry.state = .published
    swap
    · exact .inl ⟨_, by unfold switchActiveKey; rw [hentry]; exact if_pos hstate⟩
    cases hcurrent : p.currentKeySet setNow with
    | error e =>
      refine .inl ⟨e, ?_⟩
      unfold switchActiveKey
      simp only [hentry, hcurrent]
      exact if_neg (not_not.mpr hstate)
    | ok current =>
      have hget := getEntry_eq_ok.mp hentry
      obtain ⟨previous, hprevious, hactive, he⟩ :=
        switchActiveKey_eq hp hget hstate hcurrent options now
      exact .inr ⟨entry, current, previous, hget, hstate, rfl, hprevious, hactive, he⟩

theorem switchActiveKey_transition (hp : Sound p) (kid : String)
    {options : SwitchActiveFederationKeyOptions} (h : 0 ≤ options.overlap) (setNow : Rat) :
    Transition mayRevoke p now (p.switchActiveKey kid options setNow now).1 := by
  rcases switchActiveKey_cases hp kid options setNow now with
    ⟨e, he⟩ | ⟨entry, current, previous, hget, hstate, -, hprevious, hactive, he⟩
  · rw [he]
    exact .unchanged
  · rw [he]
    exact .switched kid _ entry previous _ hget hstate hprevious hactive (by linarith)

/-! ## Sound providers -/

theorem Sound.empty : Sound {} where
  kid h := by simp at h
  accepted h := by simp at h
  recorded h := by simp at h
  distinct h := by simp at h

theorem Recorded.mono {n m : Nat} {e : ManagedFederationKeyEntry} (h : Recorded n e) (hn : n ≤ m) :
    Recorded m e where
  expiresAt := h.expiresAt
  published := h.published
  active ha := by
    obtain ⟨hactivated, horder, hrest⟩ := h.active ha
    exact ⟨hactivated, Nat.lt_of_lt_of_le horder hn, hrest⟩
  revoked := h.revoked

/-- The entry of one key is written, and the others stay. -/
theorem Sound.setEntry {kid : String} {e : ManagedFederationKeyEntry} (hp : Sound p)
    (hkid : e.signer.kid = kid) (haccepted : AcceptedKey e.signer e.publicJwk)
    (hrecorded : Recorded p.activationOrder e)
    (hdistinct : e.state = .active → ∀ kid' e', p.keys.get? kid' = some e' →
      e'.state = .active → kid' ≠ kid → e'.order ≠ e.order) : Sound (p.setEntry kid e) where
  kid h := by
    rw [get?_setEntry] at h
    split at h
    · rename_i hk
      obtain rfl := Option.some.inj h
      rw [hkid, hk]
    · exact hp.kid h
  accepted h := by
    rw [get?_setEntry] at h
    split at h
    · obtain rfl := Option.some.inj h
      exact haccepted
    · exact hp.accepted h
  recorded h := by
    rw [get?_setEntry] at h
    split at h
    · obtain rfl := Option.some.inj h
      exact hrecorded
    · exact hp.recorded h
  distinct {k₁ k₂ e₁ e₂} h₁ h₂ ha₁ ha₂ ho := by
    rw [get?_setEntry] at h₁ h₂
    by_cases hk₁ : k₁ = kid <;> by_cases hk₂ : k₂ = kid
    · rw [hk₁, hk₂]
    · rw [if_pos hk₁] at h₁
      rw [if_neg hk₂] at h₂
      obtain rfl := Option.some.inj h₁
      exact absurd ho.symm (hdistinct ha₁ k₂ e₂ h₂ ha₂ hk₂)
    · rw [if_neg hk₁] at h₁
      rw [if_pos hk₂] at h₂
      obtain rfl := Option.some.inj h₂
      exact absurd ho (hdistinct ha₂ k₁ e₁ h₁ ha₁ hk₁)
    · rw [if_neg hk₁] at h₁
      rw [if_neg hk₂] at h₂
      exact hp.distinct h₁ h₂ ha₁ ha₂ ho

theorem Sound.nextActivation (hp : Sound p) : Sound p.nextActivation where
  kid h := hp.kid h
  accepted h := hp.accepted h
  recorded h := (hp.recorded h).mono (Nat.le_succ _)
  distinct h := hp.distinct h

/-- A key is activated under the next number. -/
theorem Sound.activate {kid : String} {e : ManagedFederationKeyEntry} (hp : Sound p)
    (hkid : e.signer.kid = kid) (haccepted : AcceptedKey e.signer e.publicJwk)
    (hexpires : e.expiresAt = none) (hremoval : e.scheduledRemovalAt = none)
    (hrevoked : e.revokedAt = none) :
    Sound (p.nextActivation.setEntry kid (e.activated now p.activationOrder)) := by
  refine hp.nextActivation.setEntry hkid haccepted
    ⟨hexpires, nofun, fun _ => ⟨rfl, Nat.lt_succ_self _, hremoval, hrevoked⟩,
      nofun⟩ ?_
  intro _ kid' e' he' hactive' _
  exact ((hp.recorded he').active hactive').2.1.ne

/-- A published key is activated, and another retired. -/
theorem Sound.switched {kid previousKid : String} {entry previous : ManagedFederationKeyEntry}
    {removal : Rat} (hp : Sound p) (hentry : p.keys.get? kid = some entry)
    (hstate : entry.state = .published) (hprevious : p.keys.get? previousKid = some previous) :
    Sound ((p.nextActivation.setEntry kid (entry.activated now p.activationOrder)).setEntry
      previousKid (previous.retired removal)) := by
  obtain ⟨hremoval, hrevoked⟩ := (hp.recorded hentry).published hstate
  have hkid : previous.signer.kid = previousKid := hp.kid hprevious
  have haccepted : AcceptedKey previous.signer previous.publicJwk := hp.accepted hprevious
  have hactivated : Sound (p.nextActivation.setEntry kid
      (entry.activated now p.activationOrder)) :=
    hp.activate (hp.kid hentry) (hp.accepted hentry) (hp.recorded hentry).expiresAt hremoval
      hrevoked
  exact hactivated.setEntry hkid haccepted
    ⟨(hp.recorded hprevious).expiresAt, nofun, nofun, nofun⟩ nofun

theorem Sound.transition (hp : Sound p) (h : Transition mayRevoke p now p') : Sound p' := by
  cases h with
  | unchanged => exact hp
  | published key hfresh haccepted =>
    exact hp.setEntry rfl haccepted
      ⟨rfl, fun _ => ⟨rfl, rfl⟩, nofun, nofun⟩ (nofun)
  | switched kid previousKid entry previous removal hentry hstate hprevious _ _ =>
    exact hp.switched hentry hstate hprevious
  | revoked kid entry reason hentry _ =>
    have hkid : entry.signer.kid = kid := hp.kid hentry
    have haccepted : AcceptedKey entry.signer entry.publicJwk := hp.accepted hentry
    exact hp.setEntry hkid haccepted
      ⟨(hp.recorded hentry).expiresAt, nofun, nofun, fun _ => rfl⟩
      (nofun)

theorem Sound.addInitial {key : FederationSigningKey} (hp : Sound p)
    (h : addInitial now p key = .ok p') : Sound p' := by
  obtain ⟨key', hkey, hp'⟩ := bind_eq_ok.mp h
  obtain ⟨rfl, -, haccepted⟩ := validateNewKey_eq_ok hkey
  obtain rfl := Except.ok.inj hp'
  exact hp.activate rfl haccepted rfl rfl rfl

theorem Sound.create {initial : List FederationSigningKey} (h : create initial now = .ok p) :
    Sound p := by
  have hfold : ∀ (l : List FederationSigningKey) (q : MemoryFederationKeyProvider), Sound q →
      l.foldlM (MemoryFederationKeyProvider.addInitial now) q = .ok p → Sound p := by
    intro l
    induction l with
    | nil => exact fun q hq h => Except.ok.inj h ▸ hq
    | cons key rest ih =>
      intro q hq h
      obtain ⟨q', hadd, hrest⟩ := bind_eq_ok.mp h
      exact ih q' (hq.addInitial hadd) hrest
  unfold MemoryFederationKeyProvider.create at h
  split at h
  · cases h
  · exact hfold initial {} .empty h

/-! ## The current key set -/

theorem Sound.publishedKids (hp : Sound p) (now : Rat) :
    ((p.publishedKeys now).map fun k => k.get? "kid").Nodup := by
  have hmap : ((p.publishedKeys now).map fun k => k.get? "kid") =
      (p.keys.members.filter fun m => m.2.isPublished now).map fun m => some (.str m.1) := by
    rw [publishedKeys, entries, List.filter_map, List.map_map, List.map_map]
    refine List.map_congr_left fun m hm => ?_
    have hget := Dict.get?_of_mem (List.mem_of_mem_filter hm)
    have hjwk := (hp.accepted hget).kid
    rw [hp.kid hget] at hjwk
    exact hjwk
  have hkeys : ((p.keys.members.filter fun m => m.2.isPublished now).map Prod.fst).Nodup :=
    p.keys.nodup.sublist (List.filter_sublist.map _)
  have hnodup := hkeys.map (f := fun kid => some (Json.str kid)) fun a b h => by simpa using h
  rw [List.map_map] at hnodup
  rw [hmap]
  exact hnodup

/-- The current key set can be handed out whenever a key is active. -/
theorem Sound.currentKeySet (hp : Sound p) {selected : ManagedFederationKeyEntry}
    (h : p.signingEntry = some selected) (now : Rat) :
    p.currentKeySet now = .ok { signer := selected.signer, jwks := p.publishedKeys now } := by
  obtain ⟨⟨kid, hget⟩, hactive, -⟩ := signingEntry_eq_some h
  have hmem : selected.publicJwk ∈ p.publishedKeys now :=
    mem_publishedKeys.mpr ⟨kid, selected, hget, by simp [isPublished, hactive], rfl⟩
  have hvalid : validateFederationKeySet
      { signer := selected.signer, jwks := p.publishedKeys now } = .ok () := by
    refine validateFederationKeySet_eq_ok hmem (hp.accepted hget) (fun k hk => ?_)
      (hp.publishedKids now)
    obtain ⟨kid', e, he, -, rfl⟩ := mem_publishedKeys.mp hk
    exact ⟨e.signer, hp.accepted he⟩
  unfold MemoryFederationKeyProvider.currentKeySet
  rw [h]
  simp only [hvalid]
  rfl

theorem Sound.signer (hp : Sound p) {keySet : FederationKeySet}
    (h : p.currentKeySet now = .ok keySet) :
    ∃ e, p.signingEntry = some e ∧ p.keys.get? e.signer.kid = some e ∧ e.state = .active ∧
      keySet = { signer := e.signer, jwks := p.publishedKeys now } := by
  obtain ⟨e, hsel, rfl⟩ := currentKeySet_eq_ok h
  obtain ⟨⟨kid, hget⟩, hactive, -⟩ := signingEntry_eq_some hsel
  have hkid : e.signer.kid = kid := hp.kid hget
  exact ⟨e, hsel, hkid ▸ hget, hactive, rfl⟩

end MemoryFederationKeyProvider

open MemoryFederationKeyProvider

/-! ## Runs -/

/-- A provider, and what the clock has shown last. -/
structure KeyRun where
  provider : MemoryFederationKeyProvider
  now : Rat

/-- Which keys an application revokes, by their `kid`, the reason and the time. -/
abbrev RevocationPolicy := MemoryFederationKeyProvider → String → String → Rat → Prop

def anyRevocation : RevocationPolicy := fun _ _ _ _ => True

/-- The operations of an application, which also reads in between. An operation that throws before
it reads the clock steps at the time shown last. -/
inductive KeyStep (policy : RevocationPolicy) (s : KeyRun) : KeyRun → Prop
  | read (now : Rat) (hnow : s.now ≤ now) : KeyStep policy s ⟨s.provider, now⟩
  | publishKey (key : FederationSigningKey) (now : Rat) (hnow : s.now ≤ now) :
      KeyStep policy s ⟨(s.provider.publishKey key now).1, now⟩
  | switchActiveKey (kid : String) (options : SwitchActiveFederationKeyOptions) (setNow now : Rat)
      (hset : s.now ≤ setNow) (hnow : setNow ≤ now) (hoverlap : 0 ≤ options.overlap) :
      KeyStep policy s ⟨(s.provider.switchActiveKey kid options setNow now).1, now⟩
  | revokeKey (kid reason : String) (now : Rat) (hnow : s.now ≤ now)
      (hpolicy : policy s.provider kid reason now) :
      KeyStep policy s ⟨(s.provider.revokeKey kid reason now).1, now⟩

/-- The life of a provider with its initial keys. -/
def keyLifecycle (initial : List FederationSigningKey) (policy : RevocationPolicy := anyRevocation) :
    System where
  St := KeyRun
  init s := create initial s.now = .ok s.provider
  step := KeyStep policy

variable {policy : RevocationPolicy} {s s' : KeyRun}

theorem KeyStep.now_le (h : KeyStep policy s s') : s.now ≤ s'.now := by
  cases h with
  | read now hnow => exact hnow
  | publishKey key now hnow => exact hnow
  | switchActiveKey kid options setNow now hset hnow hoverlap => exact hset.trans hnow
  | revokeKey kid reason now hnow hpolicy => exact hnow

theorem KeyStep.transition (h : KeyStep policy s s') (hs : Sound s.provider) :
    Transition (policy s.provider · · s'.now) s.provider s'.now s'.provider := by
  cases h with
  | read now hnow => exact .unchanged
  | publishKey key now hnow => exact publishKey_transition key
  | switchActiveKey kid options setNow now hset hnow hoverlap =>
    exact switchActiveKey_transition hs kid hoverlap setNow
  | revokeKey kid reason now hnow hpolicy => exact revokeKey_transition hpolicy

theorem keyLifecycle_sound {initial : List FederationSigningKey}
    (h : (keyLifecycle initial policy).Reach s) : Sound s.provider :=
  System.Reach.invariant (S := keyLifecycle initial policy) (I := fun s => Sound s.provider)
    (fun _ hs => Sound.create hs) (fun _ _ hs hstep => hs.transition (hstep.transition hs)) h

/-- What a step at a time does to one entry, if it may revoke the key for these reasons. -/
inductive EntryStep (mayRevoke : String → Prop) (now : Rat) (e : ManagedFederationKeyEntry) :
    ManagedFederationKeyEntry → Prop
  | same : EntryStep mayRevoke now e e
  | activated (order : Nat) (hstate : e.state = .published) :
      EntryStep mayRevoke now e (e.activated now order)
  | retired (removal : Rat) (hstate : e.state = .active) (hremoval : now ≤ removal) :
      EntryStep mayRevoke now e (e.retired removal)
  | revoked (reason : String) (hreason : mayRevoke reason) :
      EntryStep mayRevoke now e (e.revoked now reason)

namespace MemoryFederationKeyProvider

variable {mayRevoke : String → String → Prop} {p p' : MemoryFederationKeyProvider} {now : Rat}
  {kid : String}

theorem Transition.entry {e : ManagedFederationKeyEntry} (h : Transition mayRevoke p now p')
    (he : p.keys.get? kid = some e) :
    ∃ e', p'.keys.get? kid = some e' ∧ EntryStep (mayRevoke kid) now e e' := by
  cases h with
  | unchanged => exact ⟨e, he, .same⟩
  | published key hfresh haccepted =>
    have hne : kid ≠ key.signer.kid := by
      rintro rfl
      rw [hfresh] at he
      cases he
    exact ⟨e, by rw [get?_setEntry, if_neg hne, he], .same⟩
  | switched kid' previousKid entry previous removal hentry hstate hprevious hactive hremoval =>
    rw [get?_setEntry, get?_setEntry, keys_nextActivation]
    by_cases hp : kid = previousKid
    · subst hp
      obtain rfl : previous = e := Option.some.inj (hprevious.symm.trans he)
      exact ⟨_, if_pos rfl, .retired removal hactive hremoval⟩
    rw [if_neg hp]
    by_cases hk : kid = kid'
    · subst hk
      obtain rfl : entry = e := Option.some.inj (hentry.symm.trans he)
      exact ⟨_, if_pos rfl, .activated _ hstate⟩
    · exact ⟨e, by rw [if_neg hk, he], .same⟩
  | revoked kid' entry reason hentry hreason =>
    rw [get?_setEntry]
    by_cases hk : kid = kid'
    · subst hk
      obtain rfl : entry = e := Option.some.inj (hentry.symm.trans he)
      exact ⟨_, if_pos rfl, .revoked reason hreason⟩
    · exact ⟨e, by rw [if_neg hk, he], .same⟩

/-- A new entry is one that has been published. -/
theorem Transition.fresh {e' : ManagedFederationKeyEntry} (h : Transition mayRevoke p now p')
    (hp : p.keys.get? kid = none) (he : p'.keys.get? kid = some e') : ∃ key, e' = added key now := by
  cases h with
  | unchanged =>
    rw [hp] at he
    cases he
  | published key hfresh haccepted =>
    rw [get?_setEntry, hp] at he
    split at he
    · exact ⟨key, (Option.some.inj he).symm⟩
    · cases he
  | switched kid' previousKid entry previous removal hentry hstate hprevious hactive hremoval =>
    rw [get?_setEntry, get?_setEntry, keys_nextActivation] at he
    split at he
    · rename_i hk
      rw [hk, hprevious] at hp
      cases hp
    split at he
    · rename_i hk
      rw [hk, hentry] at hp
      cases hp
    · rw [hp] at he
      cases he
  | revoked kid' entry reason hentry hreason =>
    rw [get?_setEntry] at he
    split at he
    · rename_i hk
      rw [hk, hentry] at hp
      cases hp
    · rw [hp] at he
      cases he

end MemoryFederationKeyProvider

theorem KeyStep.entry {kid : String} {e : ManagedFederationKeyEntry} (h : KeyStep policy s s')
    (hs : Sound s.provider) (he : s.provider.keys.get? kid = some e) :
    ∃ e', s'.provider.keys.get? kid = some e' ∧
      EntryStep (policy s.provider kid · s'.now) s'.now e e' :=
  (h.transition hs).entry he

end OidFed
