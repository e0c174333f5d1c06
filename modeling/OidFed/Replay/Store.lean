import OidFed.Js.Json
import OidFed.Lib.Expiring

/-!
# The in-memory replay store (`memory-replay-store.ts`, `replay-store.ts`)

* `MemoryReplayStore.useJti` drops what has expired, then grants a claim unless its key is there.
* `ReplayProtected`: a verifier that asks the store once, cut at that point: what it does before,
  and how it answers after. Between the two it reads no other shared state.
* `ReplayProtected.granted_again`: over any presentations that share a store, in the order in
  which they reach it, a key is granted again only after the expiry of its earlier claim.
-/

namespace OidFed

open Js

/-- What is asked of a replay store. The values come out of JWTs and may be of any type. -/
structure JtiReplayClaim where
  issuer : Json
  audience : Json
  jti : Json
  expiresAt : Json

inductive ReplayError where
  /-- A claim with an empty part, or an expiry that is not a finite number. -/
  | typeError (message : String)
  | capacity (maxEntries : Nat)

def ReplayError.message : ReplayError → String
  | typeError m => m
  | capacity maxEntries =>
    "Replay store capacity of " ++ maxEntries.repr ++ " unexpired entries has been reached"

/-- The entries are keyed by the text of the claim's issuer, audience and identifier; two such
texts are equal when the values are. -/
structure MemoryReplayStore where
  entries : Dict (List Json) Rat
  maxEntries : Nat := 10000
  positive : 0 < maxEntries := by decide

namespace MemoryReplayStore

def empty : MemoryReplayStore := { entries := .empty }

def removeExpired (store : MemoryReplayStore) (now : Rat) : MemoryReplayStore :=
  { store with
    entries := ⟨store.entries.members.filter fun e => !decide (e.2 ≤ now),
      store.entries.nodup.sublist (List.filter_sublist.map _)⟩ }

def validateClaim (claim : JtiReplayClaim) : Except ReplayError Rat :=
  if !claim.issuer.truthy || !claim.audience.truthy || !claim.jti.truthy then
    .error (.typeError "issuer, audience, and jti must be non-empty strings")
  else
    match claim.expiresAt.number? with
    | none => .error (.typeError "expiresAt must be a finite NumericDate")
    | some expiresAt => .ok expiresAt

def keyOf (claim : JtiReplayClaim) : List Json := [claim.issuer, claim.audience, claim.jti]

/-- Claim an identifier at a reading of the store's clock: `true` for a claim that is new. -/
def useJti (store : MemoryReplayStore) (claim : JtiReplayClaim) (now : Rat) :
    Except ReplayError Bool × MemoryReplayStore :=
  match validateClaim claim with
  | .error e => (.error e, store)
  | .ok expiresAt =>
    let store := store.removeExpired now
    if (store.entries.get? (keyOf claim)).isSome then (.ok false, store)
    else if store.maxEntries ≤ store.entries.members.length then
      (.error (.capacity store.maxEntries), store)
    else (.ok true, { store with entries := store.entries.set (keyOf claim) expiresAt })

/-- A claim, as the use of a register of expiring records. -/
def useOf (store : MemoryReplayStore) (claim : JtiReplayClaim) (now : Rat) :
    Expiring.Use (List Json) Rat where
  key := keyOf claim
  expiry := (claim.expiresAt.number?).getD 0
  now := now
  granted := match (store.useJti claim now).1 with
    | .ok granted => granted
    | .error _ => false

theorem mem_removeExpired {store : MemoryReplayStore} {now : Rat} {e : List Json × Rat} :
    e ∈ (store.removeExpired now).entries.members ↔ e ∈ store.entries.members ∧ now < e.2 := by
  simp [removeExpired, List.mem_filter]

theorem validateClaim_eq_ok {claim : JtiReplayClaim} {expiresAt : Rat}
    (h : validateClaim claim = .ok expiresAt) : claim.expiresAt.number? = some expiresAt := by
  unfold validateClaim at h
  split at h
  · simp at h
  · cases hn : claim.expiresAt.number? with
    | none => rw [hn] at h; simp at h
    | some q => rw [hn] at h; exact congrArg some (Except.ok.inj h)

/-- The store is a register of expiring records. -/
theorem useJti_step (store : MemoryReplayStore) (claim : JtiReplayClaim) (now : Rat) :
    Expiring.UseStep store.entries.members (store.useOf claim now)
      (store.useJti claim now).2.entries.members := by
  unfold useOf useJti
  cases hv : validateClaim claim with
  | error e => exact ⟨fun e he _ => he, by simp, by simp⟩
  | ok expiresAt =>
    have hexp := validateClaim_eq_ok hv
    have hlive : ∀ e ∈ store.entries.members, now < e.2 →
        e ∈ (store.removeExpired now).entries.members :=
      fun e he hnow => mem_removeExpired.mpr ⟨he, hnow⟩
    simp only
    by_cases hkey : ((store.removeExpired now).entries.get? (keyOf claim)).isSome
    · rw [if_pos hkey]
      exact ⟨hlive, by simp, by simp⟩
    · rw [if_neg hkey]
      by_cases hfull :
          (store.removeExpired now).maxEntries ≤ (store.removeExpired now).entries.members.length
      · rw [if_pos hfull]
        exact ⟨hlive, by simp, by simp⟩
      · rw [if_neg hfull]
        have hfresh : ∀ e ∈ (store.removeExpired now).entries.members, e.1 ≠ keyOf claim := by
          intro e he heq
          have := Dict.get?_of_mem he
          rw [heq] at this
          simp [this] at hkey
        refine ⟨?_, ?_, ?_⟩
        · intro e he hnow
          have hmem := hlive e he hnow
          refine (Dict.get?_eq_some_iff _ _ _).mp ?_
          rw [Dict.get?_set_ne _ _ (hfresh e hmem)]
          exact Dict.get?_of_mem hmem
        · intro _ e he hnow
          exact hfresh e (hlive e he hnow)
        · intro _
          refine (Dict.get?_eq_some_iff _ _ _).mp ?_
          simp [hexp]

end MemoryReplayStore

/-! ## Verifiers that share a store -/

/-- A verifier, cut where it asks the store. -/
structure ReplayProtected (Call Result : Type) where
  /-- The result of a call that ends before, or the claim and the reading of the store's clock. -/
  before : Call → Except Result (JtiReplayClaim × Rat)
  /-- The result after the store's answer. -/
  after : Call → Except ReplayError Bool → Result

namespace ReplayProtected

variable {Call Result : Type} (V : ReplayProtected Call Result)

def run (store : MemoryReplayStore) (call : Call) : Result × MemoryReplayStore :=
  match V.before call with
  | .error result => (result, store)
  | .ok (claim, now) =>
    let (answer, store) := store.useJti claim now
    (V.after call answer, store)

/-- The results of calls that share a store, in the order in which they reach it. -/
def runAll : MemoryReplayStore → List Call → List (Call × Result)
  | _, [] => []
  | store, call :: calls =>
    let (result, store) := V.run store call
    (call, result) :: runAll store calls

theorem runAll_pair (store : MemoryReplayStore) (c d : Call) : V.runAll store [c, d] =
    [(c, (V.run store c).1), (d, (V.run (V.run store c).2 d).1)] := rfl

/-- The store's clock does not go back from one call to a later one. -/
def StoreClockNondecreasing (calls : List Call) : Prop :=
  calls.Pairwise fun c d => ∀ a ∈ (V.before c).toOption, ∀ b ∈ (V.before d).toOption, a.2 ≤ b.2

/-- How each call uses the store. -/
def uses : MemoryReplayStore → List Call → List (Option (Expiring.Use (List Json) Rat))
  | _, [] => []
  | store, call :: calls =>
    ((V.before call).toOption.map fun p => store.useOf p.1 p.2) :: uses (V.run store call).2 calls

theorem run_uses (store : MemoryReplayStore) (calls : List Call) :
    ∃ r, Expiring.Run store.entries.members (V.uses store calls) r := by
  induction calls generalizing store with
  | nil => exact ⟨_, .nil _⟩
  | cons call calls ih =>
    obtain ⟨r, hr⟩ := ih (V.run store call).2
    unfold uses
    cases hb : V.before call with
    | error result =>
      rw [show (V.run store call).2 = store by simp [run, hb]] at hr ⊢
      exact ⟨r, .skip hr⟩
    | ok p =>
      refine ⟨r, .use ?_ hr⟩
      have hstore : (V.run store call).2 = (store.useJti p.1 p.2).2 := by simp [run, hb]
      rw [hstore]
      exact MemoryReplayStore.useJti_step store p.1 p.2

/-- What is known of a call, its result and its use of the store. -/
structure Matches (call : Call) (result : Result) (use : Option (Expiring.Use (List Json) Rat)) :
    Prop where
  ended : ∀ r, V.before call = .error r → result = r
  asked : ∀ claim now, V.before call = .ok (claim, now) → ∃ u answer, use = some u ∧
    result = V.after call answer ∧ u.key = MemoryReplayStore.keyOf claim ∧ u.now = now ∧
    u.expiry = (claim.expiresAt.number?).getD 0 ∧ (answer = .ok true → u.granted = true)

theorem runAll_matches (store : MemoryReplayStore) (calls : List Call) :
    List.Forall₂ (fun p u => V.Matches p.1 p.2 u) (V.runAll store calls) (V.uses store calls) := by
  induction calls generalizing store with
  | nil => exact .nil
  | cons call calls ih =>
    refine .cons ?_ (ih _)
    constructor
    · intro r hr
      simp [hr]
    · intro claim now hb
      refine ⟨store.useOf claim now, (store.useJti claim now).1, by simp [hb, Except.toOption],
        by simp [hb], rfl, rfl, rfl, ?_⟩
      intro h
      simp [MemoryReplayStore.useOf, h]

theorem runAll_calls (store : MemoryReplayStore) (calls : List Call) :
    (V.runAll store calls).map Prod.fst = calls := by
  induction calls generalizing store with
  | nil => rfl
  | cons call calls ih => simp [runAll, ih]

/-- A result is that of a call that ended before the store, or that of some answer. -/
theorem result_cases {store : MemoryReplayStore} {calls : List Call} {p : Call × Result}
    (hp : p ∈ V.runAll store calls) : V.before p.1 = .error p.2 ∨
      ∃ claim now answer, V.before p.1 = .ok (claim, now) ∧ p.2 = V.after p.1 answer := by
  obtain ⟨i, hi, rfl⟩ := List.getElem_of_mem hp
  obtain ⟨hlen, hmatch⟩ := List.forall₂_iff_get.mp (V.runAll_matches store calls)
  have hm := hmatch i hi (by omega)
  simp only [List.get_eq_getElem] at hm
  cases hb : V.before ((V.runAll store calls)[i]).1 with
  | error r => exact .inl (by rw [hm.ended r hb])
  | ok c =>
    obtain ⟨u, answer, -, hr, -⟩ := hm.asked c.1 c.2 hb
    exact .inr ⟨c.1, c.2, answer, rfl, hr⟩

/-- The result tells that the store granted the claim. -/
def Granted (p : Call × Result) : Prop :=
  ∀ answer, p.2 = V.after p.1 answer → answer = .ok true

/-- A claim that the store has granted expires at a number. -/
theorem granted_expiry {store : MemoryReplayStore} {calls : List Call} {p : Call × Result}
    (hp : p ∈ V.runAll store calls) (hgranted : V.Granted p) {claim : JtiReplayClaim} {now : Rat}
    (hbefore : V.before p.1 = .ok (claim, now)) : ∃ exp, claim.expiresAt.number? = some exp := by
  obtain ⟨st, hst⟩ : ∃ st : MemoryReplayStore, p.2 = (V.run st p.1).1 := by
    clear hgranted hbefore
    induction calls generalizing store with
    | nil => cases hp
    | cons call calls ih =>
      rcases List.mem_cons.mp hp with rfl | hp
      · exact ⟨store, rfl⟩
      · exact ih hp
  have hanswer : p.2 = V.after p.1 (st.useJti claim now).1 := by simp [hst, run, hbefore]
  have hok := hgranted _ hanswer
  unfold MemoryReplayStore.useJti at hok
  cases hvalid : MemoryReplayStore.validateClaim claim with
  | error e =>
    rw [hvalid] at hok
    cases hok
  | ok exp => exact ⟨exp, MemoryReplayStore.validateClaim_eq_ok hvalid⟩

theorem uses_nondecreasing {store : MemoryReplayStore} {calls : List Call}
    (h : V.StoreClockNondecreasing calls) : Expiring.Nondecreasing (V.uses store calls) := by
  induction calls generalizing store with
  | nil => exact List.Pairwise.nil
  | cons call calls ih =>
    obtain ⟨hhead, htail⟩ := List.pairwise_cons.mp h
    refine List.pairwise_cons.mpr ⟨?_, ih htail⟩
    intro v hv a ha b hb
    obtain ⟨p, hp, rfl⟩ := Option.map_eq_some_iff.mp ha
    obtain ⟨d, hd, st, rfl⟩ : ∃ d ∈ calls, ∃ st : MemoryReplayStore,
        v = (V.before d).toOption.map fun p => st.useOf p.1 p.2 := by
      clear ih hhead htail h ha
      generalize (V.run store call).2 = store' at hv
      induction calls generalizing store' with
      | nil => simp [uses] at hv
      | cons e es ih =>
        rcases List.mem_cons.mp hv with rfl | hv
        · exact ⟨e, List.mem_cons_self, store', rfl⟩
        · obtain ⟨d, hd, st, hst⟩ := ih _ hv
          exact ⟨d, List.mem_cons_of_mem _ hd, st, hst⟩
    obtain ⟨q, hq, rfl⟩ := Option.map_eq_some_iff.mp hb
    exact hhead d hd p hp q hq

/-- A key is granted again only after its earlier claim has expired by the store's clock. -/
theorem granted_again (store : MemoryReplayStore) {calls : List Call}
    (h : V.StoreClockNondecreasing calls) :
    (V.runAll store calls).Pairwise fun p q => V.Granted p → V.Granted q →
      ∀ a s b t, V.before p.1 = .ok (a, s) → V.before q.1 = .ok (b, t) →
        MemoryReplayStore.keyOf a = MemoryReplayStore.keyOf b →
          (a.expiresAt.number?).getD 0 ≤ t := by
  obtain ⟨r, hrun⟩ := V.run_uses store calls
  have hagain := hrun.granted_again (V.uses_nondecreasing h)
  obtain ⟨hlen, hmatch⟩ := List.forall₂_iff_get.mp (V.runAll_matches store calls)
  rw [List.pairwise_iff_getElem] at hagain ⊢
  intro i j hi hj hij hp hq a s b t ha hb hkey
  obtain ⟨u, x, hu, hx, hukey, -, huexp, hgu⟩ :=
    (hmatch i hi (by omega)).asked a s ha
  obtain ⟨v, y, hv, hy, hvkey, hvnow, -, hgv⟩ :=
    (hmatch j hj (by omega)).asked b t hb
  have := hagain i j (by omega) (by omega) hij u hu v hv (hgu (hp x hx)) (hgv (hq y hy))
    (by rw [hukey, hvkey, hkey])
  rwa [huexp, hvnow] at this

end ReplayProtected

end OidFed
