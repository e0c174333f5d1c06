import OidFed.Cache.Memory
import OidFed.Jose
import OidFed.Schema

/-!
# Fetches with a cache (`core/src/cache/index.ts`, `core/src/trust-chain/fetch.ts`)

`fetchEntityConfiguration` and `fetchSubordinateStatement` look for a body in the cache, and fetch
and store one otherwise. The key of a statement is the digest of its issuer and subject with a colon
between them. Both are URLs, which may contain colons.

* `CacheProvider`: a cache, and what is relied on: it returns what has been set under a key.
  `memoryCacheProvider` is the one in memory.
* `separated_eq_iff`: when two pairs have the same text.
* `Confusable`: among some identifiers, one continues another after a colon, and what it continues
  with can stand before a third one.
* `cachedFetches`: fetches of entities among some identifiers, at any time, with one cache.
* `cachedFetches_iff`: each body returned has been fetched for the same entity, in every run, exactly
  when the identifiers are not confusable.
-/

namespace OidFed

open Js

/-! ## Keys -/

namespace CachePrefix

def entityConfiguration : String := "ec:"

def entityStatement : String := "es:"

def trustChain : String := "chain:"

end CachePrefix

section Keys

-- `digest`: the first 32 digits of the SHA-256 of a text
variable (digest : String → String)

def ecCacheKey (entityId : String) : String := CachePrefix.entityConfiguration ++ digest entityId

def esCacheKey (issuer subject : String) : String :=
  CachePrefix.entityStatement ++ digest (issuer ++ ":" ++ subject)

def chainCacheKey (entityId trustAnchorId : String) : String :=
  CachePrefix.trustChain ++ digest (entityId ++ ":" ++ trustAnchorId)

end Keys

/-- Of four identifiers, the first and the second have the same text with a colon between them as
the third and the fourth, but in other parts. -/
def Confusable (V : String → Prop) : Prop :=
  ∃ i s t, V i ∧ V s ∧ V (i ++ ":" ++ t) ∧ V (t ++ ":" ++ s)

/-- Two texts with a separator are equal when their parts are, or when one first part continues
the other after the separator. -/
theorem separated_eq_iff {α : Type} {sep : α} {a b c d : List α} :
    a ++ sep :: b = c ++ sep :: d ↔
      a = c ∧ b = d ∨ (∃ t, c = a ++ sep :: t ∧ b = t ++ sep :: d) ∨
        ∃ t, a = c ++ sep :: t ∧ d = t ++ sep :: b := by
  constructor
  · intro h
    rcases List.append_eq_append_iff.mp h with ⟨t, rfl, ht⟩ | ⟨t, rfl, ht⟩
    · cases t with
      | nil =>
        rw [List.nil_append] at ht
        exact .inl ⟨(List.append_nil a).symm, (List.cons.inj ht).2⟩
      | cons x t =>
        obtain ⟨rfl, rfl⟩ := List.cons.inj ht
        exact .inr (.inl ⟨t, rfl, rfl⟩)
    · cases t with
      | nil =>
        rw [List.nil_append] at ht
        exact .inl ⟨List.append_nil c, (List.cons.inj ht).2.symm⟩
      | cons x t =>
        obtain ⟨rfl, rfl⟩ := List.cons.inj ht
        exact .inr (.inr ⟨t, rfl, rfl⟩)
  · rintro (⟨rfl, rfl⟩ | ⟨t, rfl, rfl⟩ | ⟨t, rfl, rfl⟩)
    · rfl
    · simp
    · simp

theorem joined_eq_iff {i s i' s' : String} : i ++ ":" ++ s = i' ++ ":" ++ s' ↔
    i = i' ∧ s = s' ∨ (∃ t, i' = i ++ ":" ++ t ∧ s = t ++ ":" ++ s') ∨
      ∃ t, i = i' ++ ":" ++ t ∧ s' = t ++ ":" ++ s := by
  have hlist : ∀ a b : String, (a ++ ":" ++ b).toList = a.toList ++ ':' :: b.toList := by
    intro a b
    simp
  have hex : ∀ a b c d : String, (∃ t : List Char, a.toList = b.toList ++ ':' :: t ∧
      c.toList = t ++ ':' :: d.toList) ↔ ∃ t, a = b ++ ":" ++ t ∧ c = t ++ ":" ++ d := by
    intro a b c d
    constructor
    · rintro ⟨t, ha, hc⟩
      refine ⟨String.ofList t, String.toList_injective ?_, String.toList_injective ?_⟩
      · rw [hlist, ha, String.toList_ofList]
      · rw [hlist, hc, String.toList_ofList]
    · rintro ⟨t, rfl, rfl⟩
      exact ⟨t.toList, hlist b t, hlist t d⟩
  rw [← String.toList_inj, hlist, hlist, separated_eq_iff, hex, hex, String.toList_inj,
    String.toList_inj]

/-- Pairs of identifiers that are not confusable have different texts. -/
theorem joined_injective {V : String → Prop} (hV : ¬ Confusable V) {i s i' s' : String} (hi : V i)
    (hs : V s) (hi' : V i') (hs' : V s') (h : i ++ ":" ++ s = i' ++ ":" ++ s') :
    i = i' ∧ s = s' := by
  rcases joined_eq_iff.mp h with heq | ⟨t, rfl, rfl⟩ | ⟨t, rfl, rfl⟩
  · exact heq
  · exact absurd ⟨i, s', t, hi, hs', hi', hs⟩ hV
  · exact absurd ⟨i', s, t, hi', hs, hi, hs'⟩ hV

theorem ne_continued (i t : String) : i ++ ":" ++ t ≠ i := by
  intro h
  have hlength := congrArg (fun s => s.toList.length) h
  simp at hlength

/-! ## Caches -/

/-- A cache of texts, and what is relied on. -/
structure CacheProvider where
  St : Type
  empty : St
  get : (now : Rat) → (key : String) → St → Option String × St
  set : (now : Rat) → (key value : String) → (ttlSeconds : Rat) → St → St
  /-- A value that is stored under a key. -/
  Stored : St → String → String → Prop
  not_stored_empty : ∀ key value, ¬ Stored empty key value
  stored_of_get : ∀ now key s value, (get now key s).1 = some value → Stored s key value
  stored_after_get : ∀ now key s k value, Stored (get now key s).2 k value → Stored s k value
  stored_after_set : ∀ now key value ttlSeconds s k v,
    Stored (set now key value ttlSeconds s) k v → k = key ∧ v = value ∨ Stored s k v
  get_set : ∀ now key value ttlSeconds s, 0 < ttlSeconds →
    (get now key (set now key value ttlSeconds s)).1 = some value

/-- The cache in memory. -/
def memoryCacheProvider (maxEntries : ℕ+) : CacheProvider where
  St := MemoryCache String
  empty := {}
  get now key cache := cache.get now key
  set now key value ttlSeconds cache := cache.set maxEntries now key value ttlSeconds
  Stored cache key value := ∃ expiresAt, cache.store.get? key = some { value, expiresAt }
  not_stored_empty := nofun
  stored_of_get now key cache value h := by
    obtain ⟨t, ht, -⟩ := get_eq_some.mp h
    exact ⟨t, ht⟩
  stored_after_get now key cache k value h := by
    obtain ⟨t, ht⟩ := h
    rcases get_cases cache now key with ⟨-, hget⟩ | ⟨entry, -, -, hget⟩ |
      ⟨entry, hentry, -, hget⟩
    · rw [hget] at ht
      exact ⟨t, ht⟩
    · rw [hget, Dict.get?_erase] at ht
      split at ht
      · cases ht
      · exact ⟨t, ht⟩
    · rw [hget, Dict.get?_set, Dict.get?_erase] at ht
      split at ht
      · rename_i hk
        exact ⟨t, by rw [hk, hentry, Option.some.inj ht]⟩
      · exact ⟨t, ht⟩
  stored_after_set now key value ttlSeconds cache k v h := by
    obtain ⟨t, ht⟩ := h
    rw [MemoryCache.set, Dict.get?_set, get?_without] at ht
    split at ht
    · rename_i hk
      exact .inl ⟨hk, (congrArg CacheEntry.value (Option.some.inj ht)).symm⟩
    · split at ht
      · cases ht
      · exact .inr ⟨t, ht⟩
  get_set now key value ttlSeconds cache hpos := by
    rw [get_eq_some]
    exact ⟨now + ttlSeconds, by simp [MemoryCache.set], by linarith⟩

/-! ## Fetches -/

/-- What a fetch is about. -/
inductive FetchTarget where
  | entityConfiguration (entityId : String)
  | subordinateStatement (issuer subject : String)
  deriving DecidableEq

def FetchTarget.cacheKey (digest : String → String) : FetchTarget → String
  | entityConfiguration entityId => ecCacheKey digest entityId
  | subordinateStatement issuer subject => esCacheKey digest issuer subject

def FetchTarget.Among (V : String → Prop) : FetchTarget → Prop
  | entityConfiguration entityId => V entityId
  | subordinateStatement issuer subject => V issuer ∧ V subject

/-- A call of one of the two functions. -/
inductive CachedFetchCall where
  | entityConfiguration (entityId : String)
  | subordinateStatement (fetchEndpoint subject : String) (issuer : Option String)

/-- What a call is about, where `origin` is `new URL(s).origin`; `none` where that throws. -/
def CachedFetchCall.target (origin : String → Option String) : CachedFetchCall → Option FetchTarget
  | entityConfiguration entityId => some (.entityConfiguration entityId)
  | subordinateStatement fetchEndpoint subject issuer =>
    (origin fetchEndpoint).map fun o => .subordinateStatement (issuer.getD o) subject

def defaultCacheTtlSeconds : Rat := 3600

/-- A cache and the fetches that use it: those that wait for a response, and the bodies that have
been fetched and returned. -/
structure FetchState (C : CacheProvider) where
  cache : C.St := C.empty
  pending : List FetchTarget := []
  fetched : List (FetchTarget × String) := []
  returned : List (FetchTarget × String) := []

namespace FetchState

variable {C : CacheProvider} (digest : String → String)

/-- A call up to its request: it returns what is in the cache. -/
def start (S : FetchState C) (target : FetchTarget) (now : Rat) : FetchState C :=
  let (cached, cache) := C.get now (target.cacheKey digest) S.cache
  match cached with
  | some body => { S with cache, returned := S.returned ++ [(target, body)] }
  | none => { S with cache, pending := S.pending ++ [target] }

/-- A request has failed, or its body is stored and returned. -/
def respond (S : FetchState C) (target : FetchTarget) (now : Rat)
    (cacheMaxTtlSeconds : Option Rat) : Option String → FetchState C
  | none => { S with pending := S.pending.erase target }
  | some body =>
    { cache := C.set now (target.cacheKey digest) body
        (cacheMaxTtlSeconds.getD defaultCacheTtlSeconds) S.cache
      pending := S.pending.erase target
      fetched := S.fetched ++ [(target, body)]
      returned := S.returned ++ [(target, body)] }

end FetchState

/-- Steps of fetches about entities among some identifiers. Entries may be taken out of the cache at
any time. -/
inductive FetchStep (C : CacheProvider) (digest : String → String) (origin : String → Option String)
    (V : String → Prop) (S : FetchState C) : FetchState C → Prop
  | start (call : CachedFetchCall) {target : FetchTarget} (now : Rat) :
      call.target origin = some target → target.Among V →
      FetchStep C digest origin V S (S.start digest target now)
  | respond {target : FetchTarget} (now : Rat) (cacheMaxTtlSeconds : Option Rat)
      (body : Option String) : target ∈ S.pending →
      FetchStep C digest origin V S (S.respond digest target now cacheMaxTtlSeconds body)
  | evict (cache : C.St) : (∀ key value, C.Stored cache key value → C.Stored S.cache key value) →
      FetchStep C digest origin V S { S with cache }

def cachedFetches (C : CacheProvider) (digest : String → String) (origin : String → Option String)
    (V : String → Prop) : System where
  St := FetchState C
  init S := S = {}
  step := FetchStep C digest origin V

/-- What is stored has been fetched about an entity with its key, and what is returned has been
fetched about its own. -/
structure OwnBodies {C : CacheProvider} (digest : String → String) (V : String → Prop)
    (S : FetchState C) : Prop where
  stored : ∀ key body, C.Stored S.cache key body →
    ∃ target : FetchTarget, target.Among V ∧ target.cacheKey digest = key ∧ (target, body) ∈ S.fetched
  pending : ∀ target ∈ S.pending, target.Among V
  returned : ∀ r ∈ S.returned, r ∈ S.fetched

section Runs

variable {C : CacheProvider} {digest : String → String} {origin : String → Option String}
  {V : String → Prop} {S S' : FetchState C}

/-- Configurations and statements have different keys. -/
theorem ecCacheKey_ne_esCacheKey (entityId issuer subject : String) :
    ecCacheKey digest entityId ≠ esCacheKey digest issuer subject := by
  intro h
  have hlist := congrArg String.toList h
  simp [ecCacheKey, esCacheKey, CachePrefix.entityConfiguration, CachePrefix.entityStatement]
    at hlist

theorem prefix_injective {p a b : String} (h : p ++ a = p ++ b) : a = b := by
  have hlist : p.toList ++ a.toList = p.toList ++ b.toList := by
    rw [← String.toList_append, h, String.toList_append]
  exact String.toList_injective (List.append_cancel_left hlist)

/-- Among identifiers that are not confusable, a key tells what it is about. -/
theorem cacheKey_injective (hdigest : Function.Injective digest) (hV : ¬ Confusable V)
    {a b : FetchTarget} (ha : a.Among V) (hb : b.Among V)
    (h : a.cacheKey digest = b.cacheKey digest) : a = b := by
  cases a with
  | entityConfiguration e =>
    cases b with
    | entityConfiguration e' => rw [hdigest (prefix_injective h)]
    | subordinateStatement i s => exact absurd h (ecCacheKey_ne_esCacheKey e i s)
  | subordinateStatement i s =>
    cases b with
    | entityConfiguration e => exact absurd h.symm (ecCacheKey_ne_esCacheKey e i s)
    | subordinateStatement i' s' =>
      obtain ⟨rfl, rfl⟩ :=
        joined_injective hV ha.1 ha.2 hb.1 hb.2 (hdigest (prefix_injective h))
      rfl

theorem OwnBodies.step (hdigest : Function.Injective digest) (hV : ¬ Confusable V)
    (h : OwnBodies digest V S) (hstep : FetchStep C digest origin V S S') :
    OwnBodies digest V S' := by
  cases hstep with
  | @start call target now _ hamong =>
    unfold FetchState.start
    simp only
    split
    · -- a hit: the key is that of nothing else
      rename_i body hget
      obtain ⟨target', hamong', hkey, hfetched⟩ :=
        h.stored _ body (C.stored_of_get now _ S.cache body hget)
      obtain rfl := cacheKey_injective hdigest hV hamong' hamong hkey
      refine ⟨fun k v hv => h.stored k v (C.stored_after_get _ _ _ _ _ hv), h.pending,
        fun r hr => ?_⟩
      rcases List.mem_append.mp hr with hr | hr
      · exact h.returned r hr
      · rw [List.mem_singleton.mp hr]
        exact hfetched
    · refine ⟨fun k v hv => h.stored k v (C.stored_after_get _ _ _ _ _ hv), fun t ht => ?_,
        h.returned⟩
      rcases List.mem_append.mp ht with ht | ht
      · exact h.pending t ht
      · rw [List.mem_singleton.mp ht]
        exact hamong
  | @respond target now cacheMaxTtlSeconds body hpending =>
    have hamong := h.pending target hpending
    cases body with
    | none => exact ⟨h.stored, fun t ht => h.pending t (List.mem_of_mem_erase ht), h.returned⟩
    | some body =>
      refine ⟨fun k v hv => ?_, fun t ht => h.pending t (List.mem_of_mem_erase ht),
        fun r hr => ?_⟩
      · rcases C.stored_after_set _ _ _ _ _ _ _ hv with ⟨rfl, rfl⟩ | hv
        · exact ⟨target, hamong, rfl, List.mem_append_right _ (List.mem_singleton_self _)⟩
        · obtain ⟨target', hamong', hkey, hfetched⟩ := h.stored k v hv
          exact ⟨target', hamong', hkey, List.mem_append_left _ hfetched⟩
      · rcases List.mem_append.mp hr with hr | hr
        · exact List.mem_append_left _ (h.returned r hr)
        · exact List.mem_append_right _ hr
  | evict cache hsub => exact ⟨fun k v hv => h.stored k v (hsub k v hv), h.pending, h.returned⟩

theorem ownBodies_of_reach (hdigest : Function.Injective digest) (hV : ¬ Confusable V)
    (h : (cachedFetches C digest origin V).Reach S) : OwnBodies digest V S :=
  System.Reach.invariant (S := cachedFetches C digest origin V) (I := OwnBodies digest V)
    (fun _ hinit => hinit ▸ ⟨fun k v hv => absurd hv (C.not_stored_empty k v), nofun, nofun⟩)
    (fun _ _ hI hstep => hI.step hdigest hV hstep) h

/-- Confusable identifiers: a statement that has been fetched is returned for another issuer and
subject. -/
theorem reach_confused {endpoint : String} (hendpoint : (origin endpoint).isSome)
    {i s t : String} (hi : V i) (hs : V s) (hit : V (i ++ ":" ++ t)) (hts : V (t ++ ":" ++ s))
    (body : String) : ∃ S, (cachedFetches C digest origin V).Reach S ∧
      S.fetched = [(.subordinateStatement (i ++ ":" ++ t) s, body)] ∧
        (.subordinateStatement i (t ++ ":" ++ s), body) ∈ S.returned := by
  obtain ⟨o, ho⟩ := Option.isSome_iff_exists.mp hendpoint
  have htarget : ∀ issuer subject : String,
      (CachedFetchCall.subordinateStatement endpoint subject (some issuer)).target origin =
        some (.subordinateStatement issuer subject) := by
    intro issuer subject
    rw [CachedFetchCall.target, ho]
    rfl
  have hinit : (cachedFetches C digest origin V).Reach ({} : FetchState C) := .init rfl
  -- the first call misses, and its body is stored
  have hfirst := hinit.step (.start _ 0 (htarget (i ++ ":" ++ t) s) ⟨hit, hs⟩)
  have hmiss : (C.get 0 ((FetchTarget.subordinateStatement (i ++ ":" ++ t) s).cacheKey digest)
      C.empty).1 = none := by
    cases hget : (C.get 0 ((FetchTarget.subordinateStatement (i ++ ":" ++ t) s).cacheKey digest)
        C.empty).1 with
    | none => rfl
    | some v => exact absurd (C.stored_of_get _ _ _ _ hget) (C.not_stored_empty _ _)
  simp only [FetchState.start, hmiss] at hfirst
  have hsecond := hfirst.step (.respond 0 none (some body) (List.mem_singleton_self _))
  have hthird := hsecond.step (.start _ 0 (htarget i (t ++ ":" ++ s)) ⟨hi, hts⟩)
  -- the second one has the same key
  have hkey : (FetchTarget.subordinateStatement i (t ++ ":" ++ s)).cacheKey digest =
      (FetchTarget.subordinateStatement (i ++ ":" ++ t) s).cacheKey digest := by
    have htext : i ++ ":" ++ (t ++ ":" ++ s) = i ++ ":" ++ t ++ ":" ++ s := by
      simp only [String.append_assoc]
    simp only [FetchTarget.cacheKey, esCacheKey, htext]
  have hhit := C.get_set 0 ((FetchTarget.subordinateStatement (i ++ ":" ++ t) s).cacheKey digest)
    body defaultCacheTtlSeconds (C.get 0 ((FetchTarget.subordinateStatement (i ++ ":" ++ t) s).cacheKey
      digest) C.empty).2 (by decide +kernel)
  simp only [FetchState.start, FetchState.respond, hkey, Option.getD_none, hhit] at hthird
  exact ⟨_, hthird, rfl, List.mem_append_right _ (List.mem_singleton_self _)⟩

/-- With a digest that is injective, the keys of statements and of chains tell which identifiers
they are about, and every run returns a body only for the entity that it has been fetched for,
exactly when the identifiers are not confusable. -/
theorem cachedFetches_iff (C : CacheProvider) (V : String → Prop)
    (hdigest : Function.Injective digest) {endpoint : String}
    (hendpoint : (origin endpoint).isSome) :
    ((∀ i s i' s', V i → V s → V i' → V s' →
        esCacheKey digest i s = esCacheKey digest i' s' → i = i' ∧ s = s') ↔ ¬ Confusable V) ∧
      ((∀ i s i' s', V i → V s → V i' → V s' →
        chainCacheKey digest i s = chainCacheKey digest i' s' → i = i' ∧ s = s') ↔
          ¬ Confusable V) ∧
      Function.Injective (ecCacheKey digest) ∧
      ((∀ S, (cachedFetches C digest origin V).Reach S → ∀ r ∈ S.returned, r ∈ S.fetched) ↔
        ¬ Confusable V) := by
  -- both kinds of keys are injective exactly when the joined texts are
  have hkeys : ∀ p : String, (∀ i s i' s', V i → V s → V i' → V s' →
      p ++ digest (i ++ ":" ++ s) = p ++ digest (i' ++ ":" ++ s') → i = i' ∧ s = s') ↔
        ¬ Confusable V := by
    intro p
    constructor
    · rintro hall ⟨i, s, t, hi, hs, hit, hts⟩
      have htext : i ++ ":" ++ t ++ ":" ++ s = i ++ ":" ++ (t ++ ":" ++ s) := by
        simp only [String.append_assoc]
      exact ne_continued i t (hall _ _ _ _ hit hs hi hts (by rw [htext])).1
    · intro hV i s i' s' hi hs hi' hs' h
      exact joined_injective hV hi hs hi' hs' (hdigest (prefix_injective h))
  refine ⟨hkeys _, hkeys _, fun e e' h => hdigest (prefix_injective h), ?_⟩
  constructor
  · rintro hall ⟨i, s, t, hi, hs, hit, hts⟩
    obtain ⟨S, hreach, hfetched, hreturned⟩ := reach_confused hendpoint hi hs hit hts ""
    have hmem := hall S hreach _ hreturned
    rw [hfetched, List.mem_singleton, Prod.mk.injEq, FetchTarget.subordinateStatement.injEq] at hmem
    exact ne_continued i t hmem.1.1.symm
  · intro hV S hreach
    exact (ownBodies_of_reach hdigest hV hreach).returned

end Runs

/-! ## Identifiers -/

/-- The origin of a URL without credentials and port. -/
def exampleOrigin (s : String) : Option String :=
  ((tablePlatform []).parseUrl s).map fun u => u.protocol ++ "//" ++ u.hostname

/-- The valid Entity Identifiers are confusable, and a fetch returns a statement about another
subject, by another issuer. -/
theorem valid_confusable :
    (∀ e ∈ ["https://a.example/x:https://b.example/", "https://c.example", "https://a.example/x",
        "https://b.example/:https://c.example"], isValidEntityId (tablePlatform []) e = true) ∧
      esCacheKey id "https://a.example/x:https://b.example/" "https://c.example" =
        esCacheKey id "https://a.example/x" "https://b.example/:https://c.example" ∧
      ∃ S, (cachedFetches (memoryCacheProvider 1000) id exampleOrigin fun e =>
          isValidEntityId (tablePlatform []) e = true).Reach S ∧
        (.subordinateStatement "https://a.example/x" "https://b.example/:https://c.example",
          "body") ∈ S.returned ∧
        S.fetched = [(.subordinateStatement "https://a.example/x:https://b.example/"
          "https://c.example", "body")] := by
  refine ⟨by decide +kernel, by decide +kernel, ?_⟩
  have hendpoint : (exampleOrigin "https://a.example/fetch").isSome := by decide +kernel
  have hconfused : ∃ S, (cachedFetches (memoryCacheProvider 1000) id exampleOrigin fun e =>
      isValidEntityId (tablePlatform []) e = true).Reach S ∧
      S.fetched = [(.subordinateStatement ("https://a.example/x" ++ ":" ++ "https://b.example/")
        "https://c.example", "body")] ∧
      (.subordinateStatement "https://a.example/x" ("https://b.example/" ++ ":" ++
        "https://c.example"), "body") ∈ S.returned :=
    reach_confused hendpoint (by decide +kernel) (by decide +kernel) (by decide +kernel)
      (by decide +kernel) "body"
  obtain ⟨S, hreach, hfetched, hreturned⟩ := hconfused
  exact ⟨S, hreach, hreturned, hfetched⟩

/-- Two identifiers of one length are not confusable. -/
theorem twoIdentifiers_fetches :
    ¬ Confusable (fun e => e = "https://ta.example" ∨ e = "https://rp.example") ∧
      ∀ S, (cachedFetches (memoryCacheProvider 1000) id exampleOrigin
        fun e => e = "https://ta.example" ∨ e = "https://rp.example").Reach S →
          ∀ r ∈ S.returned, r ∈ S.fetched := by
  have hlength : ∀ e, (e = "https://ta.example" ∨ e = "https://rp.example") → e.length = 18 := by
    rintro e (rfl | rfl) <;> decide
  have hconfusable : ¬ Confusable (fun e => e = "https://ta.example" ∨ e = "https://rp.example") := by
    rintro ⟨i, s, t, hi, -, hit, -⟩
    have hlong := hlength _ hit
    have hshort := hlength _ hi
    simp only [String.length_append] at hlong
    have hcolon : ":".length = 1 := rfl
    omega
  have hendpoint : (exampleOrigin "https://ta.example/fetch").isSome := by decide +kernel
  exact ⟨hconfusable, (cachedFetches_iff (memoryCacheProvider 1000) _ Function.injective_id
    hendpoint).2.2.2.mpr hconfusable⟩

end OidFed
