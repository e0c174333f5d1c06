import OidFed.Js.Dict
import OidFed.Lib.System

/-!
# The in-memory cache (`core/src/cache/index.ts`)

`MemoryCache` keeps values under keys until they expire, at most `maxEntries` of them. A `get` that
hits moves its key to the end of the map; a `set` that needs room drops the key at the front.

* `CacheHistory`: a cache with what can be said of it from its calls: the last value written under
  each key that has not been deleted, cleared or evicted since, and the call that used a key last.
* `Faithful`: the cache holds what was written, and nothing else. Every call keeps it.
* `ByLastUse`: the map has its keys in the order of their last use. A `set` of a key that is there
  leaves the key where it is, so it keeps the order only if the key is the one used last.
-/

namespace OidFed

open Js

structure CacheEntry (V : Type) where
  value : V
  expiresAt : Rat
  deriving DecidableEq

structure MemoryCache (V : Type) where
  store : Dict String (CacheEntry V) := .empty

namespace MemoryCache

variable {V : Type}

def size (cache : MemoryCache V) : Nat := cache.store.keys.length

def get (now : Rat) (key : String) (cache : MemoryCache V) : Option V × MemoryCache V :=
  match cache.store.get? key with
  | none => (none, cache)
  | some entry =>
    if entry.expiresAt ≤ now then (none, { store := cache.store.erase key })
    else (some entry.value, { store := (cache.store.erase key).set key entry })

/-- The key that a `set` drops to make room. -/
def evicted (maxEntries : ℕ+) (key : String) (cache : MemoryCache V) : Option String :=
  if (maxEntries : Nat) ≤ cache.size ∧ key ∉ cache.store.keys then cache.store.keys.head? else none

/-- The cache without an evicted key. -/
def without (cache : MemoryCache V) : Option String → MemoryCache V
  | none => cache
  | some key => { store := cache.store.erase key }

def set (maxEntries : ℕ+) (now : Rat) (key : String) (value : V) (ttlSeconds : Rat)
    (cache : MemoryCache V) : MemoryCache V where
  store := (cache.without (cache.evicted maxEntries key)).store.set key
    { value, expiresAt := now + ttlSeconds }

def delete (key : String) (cache : MemoryCache V) : MemoryCache V where
  store := cache.store.erase key

def clear : MemoryCache V := {}

end MemoryCache

/-! ## Calls and what is known from them -/

inductive CacheCall (V : Type) where
  | get (key : String)
  | set (key : String) (value : V) (ttlSeconds : Rat)
  | delete (key : String)
  | clear

/-- A cache, the last reading of its clock, and what its calls have been. -/
structure CacheHistory (V : Type) where
  cache : MemoryCache V := {}
  now : Rat
  /-- The value of the last `set` of a key and its expiry, if the key has not been deleted, cleared
  or evicted since. -/
  written : String → Option (V × Rat) := fun _ => none
  /-- The number of the last `get` that hit a key, or `set` of it. -/
  lastUse : String → Nat := fun _ => 0
  calls : Nat := 0

namespace CacheHistory

variable {V : Type}

/-- One call, at a reading of the clock. -/
def call (maxEntries : ℕ+) (H : CacheHistory V) (now : Rat) : CacheCall V → CacheHistory V
  | .get key =>
    { H with
      cache := (H.cache.get now key).2
      now
      lastUse :=
        if (H.cache.get now key).1.isSome then Function.update H.lastUse key (H.calls + 1)
        else H.lastUse
      calls := H.calls + 1 }
  | .set key value ttlSeconds =>
    { cache := H.cache.set maxEntries now key value ttlSeconds
      now
      written := fun k =>
        if k = key then some (value, now + ttlSeconds)
        else if H.cache.evicted maxEntries key = some k then none
        else H.written k
      lastUse := Function.update H.lastUse key (H.calls + 1)
      calls := H.calls + 1 }
  | .delete key =>
    { H with
      cache := H.cache.delete key
      now
      written := Function.update H.written key none
      calls := H.calls + 1 }
  | .clear => { H with cache := .clear, now, written := fun _ => none, calls := H.calls + 1 }

/-- No key that is there has been used after this one. -/
def UsedLast (H : CacheHistory V) (key : String) : Prop :=
  ∀ k ∈ H.cache.store.keys, H.lastUse k ≤ H.lastUse key

/-- A call does not write to a key that is there, unless it is the one used last. -/
def Refreshes (H : CacheHistory V) : CacheCall V → Prop
  | .set key _ _ => key ∈ H.cache.store.keys → H.UsedLast key
  | _ => True

end CacheHistory

/-- A new cache and its calls, of a kind, by a clock that does not go back. -/
def memoryCache (V : Type) (maxEntries : ℕ+) (allowed : CacheHistory V → CacheCall V → Prop) :
    System where
  St := CacheHistory V
  init H := ∃ now, H = { now }
  step H H' := ∃ now call, H.now ≤ now ∧ allowed H call ∧ H' = H.call maxEntries now call

/-- The cache holds what was written, as long as it has not expired, and nothing else. -/
structure Faithful {V : Type} (maxEntries : ℕ+) (H : CacheHistory V) : Prop where
  size : H.cache.size ≤ maxEntries
  stored : ∀ key entry, H.cache.store.get? key = some entry →
    H.written key = some (entry.value, entry.expiresAt)
  kept : ∀ key value expiresAt, H.written key = some (value, expiresAt) → H.now < expiresAt →
    H.cache.store.get? key = some { value, expiresAt }

/-- The map has its keys in the order of their last use. -/
structure ByLastUse {V : Type} (H : CacheHistory V) : Prop where
  sorted : H.cache.store.keys.Pairwise fun k k' => H.lastUse k < H.lastUse k'
  bounded : ∀ k, H.lastUse k ≤ H.calls

section Steps

variable {V : Type} {maxEntries : ℕ+} {H : CacheHistory V}

open MemoryCache

theorem keys_without (cache : MemoryCache V) (e : Option String) :
    (cache.without e).store.keys = e.elim cache.store.keys cache.store.keys.erase := by
  cases e with
  | none => rfl
  | some key => exact Dict.keys_erase cache.store key

theorem get?_without (cache : MemoryCache V) (e : Option String) (k : String) :
    (cache.without e).store.get? k = if e = some k then none else cache.store.get? k := by
  cases e with
  | none => simp [MemoryCache.without]
  | some key =>
    simp only [MemoryCache.without, Dict.get?_erase, Option.some.injEq, eq_comm]

/-- A key that is not there gets room: a full cache drops its first key. -/
theorem length_without {cache : MemoryCache V} {key : String} (hsize : cache.size ≤ maxEntries)
    (hkey : key ∉ cache.store.keys) :
    (cache.without (cache.evicted maxEntries key)).store.keys.length < maxEntries := by
  have hpos := maxEntries.pos
  unfold MemoryCache.size at hsize
  rw [keys_without]
  unfold MemoryCache.evicted MemoryCache.size
  split
  · rename_i hfull
    cases hkeys : cache.store.keys with
    | nil => exact hpos
    | cons k rest =>
      rw [hkeys] at hsize
      simp only [List.head?_cons, Option.elim_some, List.erase_cons_head]
      simp only [List.length_cons] at hsize
      omega
  · rename_i hroom
    simp only [Option.elim_none]
    have hlt : ¬ (maxEntries : Nat) ≤ cache.store.keys.length := fun hle => hroom ⟨hle, hkey⟩
    omega

theorem size_set {cache : MemoryCache V} {key : String} {value : V} {now ttlSeconds : Rat}
    (hsize : cache.size ≤ maxEntries) :
    (cache.set maxEntries now key value ttlSeconds).size ≤ maxEntries := by
  unfold MemoryCache.size MemoryCache.set
  by_cases hkey : key ∈ cache.store.keys
  · -- nothing is evicted, and the key keeps its place
    have hnone : cache.evicted maxEntries key = none := by
      unfold MemoryCache.evicted
      rw [if_neg fun h => h.2 hkey]
    rw [hnone, MemoryCache.without, Dict.keys_set, if_pos hkey]
    exact hsize
  · exact Dict.length_set_le (length_without hsize hkey) key _

/-- What a `get` does: a miss, an entry that has expired, or a hit. -/
theorem get_cases (cache : MemoryCache V) (now : Rat) (key : String) :
    cache.store.get? key = none ∧ cache.get now key = (none, cache) ∨
      (∃ entry, cache.store.get? key = some entry ∧ entry.expiresAt ≤ now ∧
        cache.get now key = (none, { store := cache.store.erase key })) ∨
      ∃ entry, cache.store.get? key = some entry ∧ now < entry.expiresAt ∧
        cache.get now key =
          (some entry.value, { store := (cache.store.erase key).set key entry }) := by
  unfold MemoryCache.get
  cases hentry : cache.store.get? key with
  | none => exact .inl ⟨rfl, rfl⟩
  | some entry =>
    by_cases hexpired : entry.expiresAt ≤ now
    · exact .inr (.inl ⟨entry, rfl, hexpired, by simp only [if_pos hexpired]⟩)
    · exact .inr (.inr ⟨entry, rfl, not_le.mp hexpired, by simp only [if_neg hexpired]⟩)

theorem get_eq_some {cache : MemoryCache V} {now : Rat} {key : String} {value : V} :
    (cache.get now key).1 = some value ↔
      ∃ expiresAt, cache.store.get? key = some { value, expiresAt } ∧ now < expiresAt := by
  rcases get_cases cache now key with ⟨hentry, hget⟩ | ⟨entry, hentry, hexpired, hget⟩ |
    ⟨entry, hentry, hlive, hget⟩
  · simp [hget, hentry]
  · rw [hget, hentry]
    constructor
    · intro h
      cases h
    · rintro ⟨t, heq, hlt⟩
      obtain rfl := Option.some.inj heq
      exact absurd hlt (not_lt.mpr hexpired)
  · rw [hget, hentry]
    constructor
    · rintro h
      obtain rfl := Option.some.inj h
      exact ⟨entry.expiresAt, rfl, hlive⟩
    · rintro ⟨t, heq, -⟩
      obtain rfl := Option.some.inj heq
      rfl

/-! ## What the cache holds -/

theorem faithful_init (now : Rat) : Faithful maxEntries ({ now } : CacheHistory V) where
  size := Nat.zero_le _
  stored := nofun
  kept := nofun

theorem Faithful.get (h : Faithful maxEntries H) {now : Rat} (hnow : H.now ≤ now) (key : String) :
    Faithful maxEntries (H.call maxEntries now (.get key)) := by
  simp only [CacheHistory.call]
  rcases get_cases H.cache now key with ⟨hentry, hget⟩ | ⟨entry, hentry, hexpired, hget⟩ |
    ⟨entry, hentry, hlive, hget⟩
  · rw [hget]
    exact ⟨h.size, h.stored, fun k value t hwritten hlt =>
      h.kept k value t hwritten (hnow.trans_lt hlt)⟩
  · rw [hget]
    refine ⟨?_, fun k e he => ?_, fun k value t hwritten hlt => ?_⟩
    · unfold MemoryCache.size
      rw [Dict.keys_erase]
      exact (List.length_erase_le).trans h.size
    · rw [Dict.get?_erase] at he
      split at he
      · cases he
      · exact h.stored k e he
    · -- what is dropped had expired
      have hkept := h.kept k value t hwritten (hnow.trans_lt hlt)
      rw [Dict.get?_erase]
      split
      · rename_i hk
        rw [hk, hentry] at hkept
        obtain rfl := Option.some.inj hkept
        exact absurd hlt (not_lt.mpr hexpired)
      · exact hkept
  · rw [hget]
    -- a hit moves its key, and changes no entry
    have hsame : ∀ k, ((H.cache.store.erase key).set key entry).get? k = H.cache.store.get? k := by
      intro k
      rw [Dict.get?_set, Dict.get?_erase]
      by_cases hk : k = key
      · rw [if_pos hk, hk, hentry]
      · rw [if_neg hk, if_neg hk]
    refine ⟨?_, fun k e he => h.stored k e ((hsame k).symm.trans he),
      fun k value t hwritten hlt => (hsame k).trans
        (h.kept k value t hwritten (hnow.trans_lt hlt))⟩
    have hmem : key ∈ H.cache.store.keys := (Dict.mem_keys_iff _ _).mpr ⟨entry, hentry⟩
    have hpos := List.length_pos_of_mem hmem
    have hsize := h.size
    unfold MemoryCache.size at hsize ⊢
    rw [Dict.keys_set, Dict.keys_erase]
    split
    · exact (List.length_erase_le).trans hsize
    · rw [List.length_append, List.length_erase_of_mem hmem, List.length_singleton]
      omega

theorem Faithful.set (h : Faithful maxEntries H) {now : Rat} (hnow : H.now ≤ now) (key : String)
    (value : V) (ttlSeconds : Rat) :
    Faithful maxEntries (H.call maxEntries now (.set key value ttlSeconds)) := by
  refine ⟨size_set h.size, fun k e he => ?_, fun k v t hwritten hlt => ?_⟩
  · simp only [CacheHistory.call, MemoryCache.set, Dict.get?_set, get?_without] at he ⊢
    by_cases hk : k = key
    · rw [if_pos hk] at he ⊢
      obtain rfl := Option.some.inj he
      rfl
    · rw [if_neg hk] at he ⊢
      by_cases hevicted : H.cache.evicted maxEntries key = some k
      · rw [if_pos hevicted] at he
        cases he
      · rw [if_neg hevicted] at he ⊢
        exact h.stored k e he
  · simp only [CacheHistory.call, MemoryCache.set, Dict.get?_set, get?_without] at hwritten hlt ⊢
    by_cases hk : k = key
    · rw [if_pos hk] at hwritten ⊢
      obtain ⟨rfl, rfl⟩ := Prod.mk.injEq _ _ _ _ ▸ Option.some.inj hwritten
      rfl
    · rw [if_neg hk] at hwritten ⊢
      by_cases hevicted : H.cache.evicted maxEntries key = some k
      · rw [if_pos hevicted] at hwritten
        cases hwritten
      · rw [if_neg hevicted] at hwritten ⊢
        exact h.kept k v t hwritten (hnow.trans_lt hlt)

theorem Faithful.delete (h : Faithful maxEntries H) {now : Rat} (hnow : H.now ≤ now)
    (key : String) : Faithful maxEntries (H.call maxEntries now (.delete key)) := by
  refine ⟨?_, fun k e he => ?_, fun k v t hwritten hlt => ?_⟩
  · simp only [CacheHistory.call, MemoryCache.size, MemoryCache.delete, Dict.keys_erase]
    exact (List.length_erase_le).trans h.size
  · simp only [CacheHistory.call, MemoryCache.delete, Dict.get?_erase, Function.update_apply] at he ⊢
    split at he
    · cases he
    · rename_i hk
      rw [if_neg hk]
      exact h.stored k e he
  · simp only [CacheHistory.call, MemoryCache.delete, Dict.get?_erase,
      Function.update_apply] at hwritten hlt ⊢
    split at hwritten
    · cases hwritten
    · rename_i hk
      rw [if_neg hk]
      exact h.kept k v t hwritten (hnow.trans_lt hlt)

/-- Every call keeps what the cache holds. -/
theorem Faithful.call (h : Faithful maxEntries H) {now : Rat} (hnow : H.now ≤ now)
    (call : CacheCall V) : Faithful maxEntries (H.call maxEntries now call) := by
  cases call with
  | get key => exact h.get hnow key
  | set key value ttlSeconds => exact h.set hnow key value ttlSeconds
  | delete key => exact h.delete hnow key
  | clear => exact ⟨Nat.zero_le _, nofun, nofun⟩

/-! ## The order of the keys -/

theorem byLastUse_init (now : Rat) : ByLastUse ({ now } : CacheHistory V) :=
  ⟨.nil, fun _ => Nat.zero_le _⟩

/-- A key used now goes behind the others. -/
theorem sorted_append {keys : List String} {lastUse : String → Nat} {calls : Nat} {key : String}
    (hsorted : keys.Pairwise fun k k' => lastUse k < lastUse k')
    (hbounded : ∀ k, lastUse k ≤ calls) (hkey : key ∉ keys) :
    (keys ++ [key]).Pairwise fun k k' =>
      Function.update lastUse key (calls + 1) k < Function.update lastUse key (calls + 1) k' := by
  have hne : ∀ k ∈ keys, Function.update lastUse key (calls + 1) k = lastUse k := by
    intro k hk
    have : k ≠ key := fun heq => hkey (heq ▸ hk)
    rw [Function.update_of_ne this]
  refine List.pairwise_append.mpr ⟨?_, List.pairwise_singleton _ _, fun k hk k' hk' => ?_⟩
  · refine hsorted.imp_of_mem fun {k k'} hk hk' hlt => ?_
    rw [hne k hk, hne k' hk']
    exact hlt
  · obtain rfl := List.mem_singleton.mp hk'
    rw [hne k hk, Function.update_self]
    exact Nat.lt_succ_of_le (hbounded k)

/-- The key used last may stay where it is: it is the last one. -/
theorem sorted_update {keys : List String} {lastUse : String → Nat} {calls : Nat} {key : String}
    (hsorted : keys.Pairwise fun k k' => lastUse k < lastUse k')
    (hbounded : ∀ k, lastUse k ≤ calls) (hlast : ∀ k ∈ keys, lastUse k ≤ lastUse key) :
    keys.Pairwise fun k k' =>
      Function.update lastUse key (calls + 1) k < Function.update lastUse key (calls + 1) k' := by
  refine hsorted.imp_of_mem fun {k k'} hk hk' hlt => ?_
  have hne : k ≠ key := by
    rintro rfl
    exact absurd hlt (not_lt.mpr (hlast k' hk'))
  rw [Function.update_of_ne hne]
  by_cases hk' : k' = key
  · rw [hk', Function.update_self]
    exact Nat.lt_succ_of_le (hbounded k)
  · rw [Function.update_of_ne hk']
    exact hlt

theorem update_le {lastUse : String → Nat} {calls : Nat} (hbounded : ∀ k, lastUse k ≤ calls)
    (key k : String) : Function.update lastUse key (calls + 1) k ≤ calls + 1 := by
  by_cases hk : k = key
  · rw [hk, Function.update_self]
  · rw [Function.update_of_ne hk]
    exact (hbounded k).trans (Nat.le_succ _)

/-- A call that does not write to an older key keeps the order. -/
theorem ByLastUse.call (h : ByLastUse H) (now : Rat) {call : CacheCall V}
    (hcall : H.Refreshes call) : ByLastUse (H.call maxEntries now call) := by
  have hbounded : ∀ k, H.lastUse k ≤ H.calls + 1 := fun k => (h.bounded k).trans (Nat.le_succ _)
  cases call with
  | get key =>
    simp only [CacheHistory.call]
    rcases get_cases H.cache now key with ⟨-, hget⟩ | ⟨entry, -, -, hget⟩ |
      ⟨entry, -, -, hget⟩
    · rw [hget]
      exact ⟨h.sorted, hbounded⟩
    · rw [hget]
      refine ⟨?_, hbounded⟩
      simp only [Dict.keys_erase]
      exact h.sorted.sublist List.erase_sublist
    · rw [hget]
      refine ⟨?_, update_le h.bounded key⟩
      -- the key moves to the end, with this call as its last use
      have hgone : key ∉ H.cache.store.keys.erase key := H.cache.store.nodup.not_mem_erase
      simp only [Dict.keys_set, Dict.keys_erase, if_neg hgone, Option.isSome_some, if_true]
      exact sorted_append (h.sorted.sublist List.erase_sublist) h.bounded hgone
  | set key value ttlSeconds =>
    refine ⟨?_, update_le h.bounded key⟩
    have hsorted : (H.cache.without (H.cache.evicted maxEntries key)).store.keys.Pairwise
        fun k k' => H.lastUse k < H.lastUse k' := by
      rw [keys_without]
      cases H.cache.evicted maxEntries key with
      | none => exact h.sorted
      | some k => exact h.sorted.sublist List.erase_sublist
    simp only [CacheHistory.call, MemoryCache.set, Dict.keys_set]
    split
    · rename_i hkey
      -- a key that is there keeps its place, so it has to be the last one already
      have hsub : (H.cache.without (H.cache.evicted maxEntries key)).store.keys ⊆
          H.cache.store.keys := by
        rw [keys_without]
        cases H.cache.evicted maxEntries key with
        | none => exact List.Subset.refl _
        | some k => exact List.erase_subset
      exact sorted_update hsorted h.bounded fun k hk => hcall (hsub hkey) k (hsub hk)
    · rename_i hkey
      exact sorted_append hsorted h.bounded hkey
  | delete key =>
    refine ⟨?_, hbounded⟩
    simp only [CacheHistory.call, MemoryCache.delete, Dict.keys_erase]
    exact h.sorted.sublist List.erase_sublist
  | clear => exact ⟨.nil, hbounded⟩

/-- In an ordered map the key that is dropped is the one whose last use is the oldest. -/
theorem ByLastUse.evicted (h : ByLastUse H) {key k : String}
    (hk : H.cache.evicted maxEntries key = some k) :
    ∀ k' ∈ H.cache.store.keys, k' ≠ k → H.lastUse k < H.lastUse k' := by
  unfold MemoryCache.evicted at hk
  split at hk
  · have hsorted := h.sorted
    cases hkeys : H.cache.store.keys with
    | nil => simp [hkeys] at hk
    | cons first rest =>
      rw [hkeys] at hk hsorted
      obtain rfl := Option.some.inj hk
      intro k' hk' hne
      exact (List.pairwise_cons.mp hsorted).1 k' ((List.mem_cons.mp hk').resolve_left hne)
  · cases hk

end Steps

/-! ## Runs -/

section Runs

variable {V : Type} {maxEntries : ℕ+} {H : CacheHistory V}

theorem faithful_of_reach {allowed : CacheHistory V → CacheCall V → Prop}
    (h : (memoryCache V maxEntries allowed).Reach H) : Faithful maxEntries H :=
  System.Reach.invariant (S := memoryCache V maxEntries allowed) (I := Faithful maxEntries)
    (fun _ ⟨now, hinit⟩ => hinit ▸ faithful_init now)
    (fun _ _ hI ⟨_, call, hnow, _, hstep⟩ => hstep ▸ hI.call hnow call) h

theorem byLastUse_of_reach (h : (memoryCache V maxEntries CacheHistory.Refreshes).Reach H) :
    ByLastUse H :=
  System.Reach.invariant (S := memoryCache V maxEntries CacheHistory.Refreshes) (I := ByLastUse)
    (fun _ ⟨now, hinit⟩ => hinit ▸ byLastUse_init now)
    (fun _ _ hI ⟨now, _, _, hcall, hstep⟩ => hstep ▸ hI.call now hcall) h

/-- A `get` answers with the value that was written, until it expires. -/
theorem Faithful.answers (h : Faithful maxEntries H) {now : Rat} (hnow : H.now ≤ now)
    (key : String) (value : V) : (H.cache.get now key).1 = some value ↔
      ∃ expiresAt, H.written key = some (value, expiresAt) ∧ now < expiresAt := by
  rw [get_eq_some]
  constructor
  · rintro ⟨t, hget, hlt⟩
    exact ⟨t, h.stored key _ hget, hlt⟩
  · rintro ⟨t, hwritten, hlt⟩
    exact ⟨t, h.kept key value t hwritten (hnow.trans_lt hlt), hlt⟩

/-- While no call writes to a key that is there, other than the one used last: there are at most
`maxEntries` entries, a `get` answers with the value last written unless the key has been deleted,
cleared, evicted or has expired, and a `set` evicts the key whose last use is the oldest. -/
theorem memoryCache_leastRecentlyUsed
    (h : (memoryCache V maxEntries CacheHistory.Refreshes).Reach H) :
    H.cache.size ≤ maxEntries ∧
      (∀ now, H.now ≤ now → ∀ key value, (H.cache.get now key).1 = some value ↔
        ∃ expiresAt, H.written key = some (value, expiresAt) ∧ now < expiresAt) ∧
      ∀ key k, H.cache.evicted maxEntries key = some k →
        ∀ k' ∈ H.cache.store.keys, k' ≠ k → H.lastUse k < H.lastUse k' :=
  have hfaithful := faithful_of_reach h
  ⟨hfaithful.size, fun _ hnow => hfaithful.answers hnow, fun _ _ =>
    (byLastUse_of_reach h).evicted⟩

end Runs

/-- A cache for two entries, written to in the order `a`, `b`, `a`. -/
def rewrittenCache : CacheHistory Nat :=
  ((((({ now := 0 } : CacheHistory Nat).call 2 0 (.set "a" 1 60)).call 2 0 (.set "b" 2 60))).call 2 0
    (.set "a" 3 60))

/-- `a` has been used after `b`, and is evicted. -/
theorem rewritten_evicted :
    (memoryCache Nat 2 fun _ _ => True).Reach rewrittenCache ∧
      rewrittenCache.cache.evicted 2 "c" = some "a" ∧ "b" ∈ rewrittenCache.cache.store.keys ∧
      rewrittenCache.lastUse "b" < rewrittenCache.lastUse "a" := by
  have hinit : (memoryCache Nat 2 fun _ _ => True).Reach ({ now := 0 } : CacheHistory Nat) :=
    .init ⟨0, rfl⟩
  have hfirst := hinit.step ⟨0, .set "a" 1 60, le_refl _, trivial, rfl⟩
  have hsecond := hfirst.step ⟨0, .set "b" 2 60, le_refl _, trivial, rfl⟩
  exact ⟨hsecond.step ⟨0, .set "a" 3 60, le_refl _, trivial, rfl⟩, by decide +kernel⟩

/-- Two entries of two, of which the first is read again. -/
def reusedCache : CacheHistory Nat :=
  ((((({ now := 0 } : CacheHistory Nat).call 2 0 (.set "a" 1 60)).call 2 0 (.set "b" 2 60))).call 2 0
    (.get "a"))

theorem reused_leastRecentlyUsed :
    reusedCache.cache.evicted 2 "c" = some "b" ∧
      ∀ k' ∈ reusedCache.cache.store.keys, k' ≠ "b" →
        reusedCache.lastUse "b" < reusedCache.lastUse k' := by
  have hinit : (memoryCache Nat 2 CacheHistory.Refreshes).Reach ({ now := 0 } : CacheHistory Nat) :=
    .init ⟨0, rfl⟩
  have hfirst := hinit.step ⟨0, .set "a" 1 60, le_refl _, fun h => absurd h (by decide), rfl⟩
  have hsecond := hfirst.step ⟨0, .set "b" 2 60, le_refl _, fun h => absurd h (by decide), rfl⟩
  have hthird := hsecond.step ⟨0, .get "a", le_refl _, trivial, rfl⟩
  have hevicted : reusedCache.cache.evicted 2 "c" = some "b" := by decide +kernel
  exact ⟨hevicted, (memoryCache_leastRecentlyUsed hthird).2.2 "c" "b" hevicted⟩

end OidFed
