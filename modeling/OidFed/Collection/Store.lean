import OidFed.Js.Json

/-!
# Snapshots and cursors (`core/src/entity-collection/store.ts`)

`MemoryEntityCollectionStore` keeps snapshots under their identifiers, the current one of every
Trust Anchor, and cursors. Every operation drops what has expired first; values are copied into and
out of the store.

* `Within`: the store holds only snapshots and cursors of some kind. Every operation keeps that, if
  what it puts in is of the kind.
-/

namespace OidFed

open Js

/-- An entry of a snapshot. The entity is an object as its schema has it. -/
structure CollectionEntry where
  entity : Json
  expiresAt : Rat
  chainExpiresAt : Option Rat := none
  verifiedMarks : List (String × Rat) := []
  deriving DecidableEq

structure EntityCollectionSnapshot where
  id : String
  trustAnchor : String
  lastUpdated : Rat
  entries : List CollectionEntry
  deriving DecidableEq

structure EntityCollectionCursor where
  snapshotId : String
  trustAnchor : String
  context : String
  index : Nat
  expiresAt : Rat
  deriving DecidableEq

/-- A snapshot, and until when it is retained once it is not current any more. -/
structure StoredSnapshot where
  value : EntityCollectionSnapshot
  retainUntil : Option Rat := none
  deriving DecidableEq

structure CollectionStoreOptions where
  retentionSeconds : ℕ+ := 900
  maxSnapshots : ℕ+ := 100
  maxCursors : ℕ+ := 10000

structure CollectionStore where
  snapshots : Dict String StoredSnapshot := .empty
  current : Dict String String := .empty
  cursors : Dict String EntityCollectionCursor := .empty
  deriving DecidableEq

namespace CollectionStore

/-- The identifier of the current snapshot of an anchor. -/
def currentId (store : CollectionStore) (anchor : String) : String :=
  (store.current.get? anchor).getD ""

def prune (now : Rat) (store : CollectionStore) : CollectionStore where
  snapshots := store.snapshots.filter fun id snapshot =>
    store.current.get? snapshot.value.trustAnchor == some id ||
      snapshot.retainUntil.all fun t => decide (now < t)
  current := store.current
  cursors := store.cursors.filter fun _ cursor => decide (now < cursor.expiresAt)

/-- The snapshot that is dropped to make room for another one of an anchor. -/
def evicted (options : CollectionStoreOptions) (store : CollectionStore) (anchor : String) :
    Except String (Option String) :=
  if (options.maxSnapshots : Nat) ≤ store.snapshots.keys.length then
    match store.snapshots.members.find? fun e =>
        store.current.get? e.2.value.trustAnchor != some e.1 with
    | some candidate => .ok (some candidate.1)
    | none =>
      match store.current.get? anchor with
      | none => .error "Collection snapshot capacity exhausted"
      | some id => .ok (some id)
  else .ok none

/-- The snapshots without an evicted one. -/
def withoutEvicted (snapshots : Dict String StoredSnapshot) : Option String →
    Dict String StoredSnapshot
  | none => snapshots
  | some id => snapshots.erase id

/-- The snapshots, of which one is retained until a time only. -/
def retainUntil (snapshots : Dict String StoredSnapshot) (id : String) (t : Rat) :
    Dict String StoredSnapshot :=
  match snapshots.get? id with
  | none => snapshots
  | some s => snapshots.set id { s with retainUntil := some t }

/-- The clock is read once for pruning and once for the retention of what is superseded. -/
def publish (options : CollectionStoreOptions) (now later : Rat)
    (snapshot : EntityCollectionSnapshot) (store : CollectionStore) :
    Except String Unit × CollectionStore :=
  let store := store.prune now
  if (store.snapshots.get? snapshot.id).isSome then
    (.error "Snapshot identifiers must be unique", store)
  else
    match store.evicted options snapshot.trustAnchor with
    | .error e => (.error e, store)
    | .ok evicted =>
      let snapshots := withoutEvicted store.snapshots evicted
      let snapshots := retainUntil snapshots (store.currentId snapshot.trustAnchor)
        (later + (options.retentionSeconds : Nat))
      (.ok (), { store with
        snapshots := snapshots.set snapshot.id { value := snapshot }
        current := store.current.set snapshot.trustAnchor snapshot.id })

def getSnapshot (now : Rat) (id : String) (store : CollectionStore) :
    Option EntityCollectionSnapshot × CollectionStore :=
  let store := store.prune now
  ((store.snapshots.get? id).map (·.value), store)

def getCurrent (now : Rat) (anchor : String) (store : CollectionStore) :
    Option EntityCollectionSnapshot × CollectionStore :=
  store.getSnapshot now (store.currentId anchor)

def putCursor (options : CollectionStoreOptions) (now : Rat) (id : String)
    (cursor : EntityCollectionCursor) (store : CollectionStore) : CollectionStore :=
  let store := store.prune now
  let cursors :=
    if (options.maxCursors : Nat) ≤ store.cursors.keys.length then
      store.cursors.erase ((store.cursors.keys.head?).getD "")
    else store.cursors
  { store with cursors := cursors.set id cursor }

def getCursor (now : Rat) (id : String) (store : CollectionStore) :
    Option EntityCollectionCursor × CollectionStore :=
  let store := store.prune now
  (store.cursors.get? id, store)

/-! ## What the store holds -/

/-- Every snapshot and every cursor is of a kind, by its identifier. -/
structure Within (values : String → EntityCollectionSnapshot → Prop)
    (cursors : String → EntityCollectionCursor → Prop) (store : CollectionStore) : Prop where
  values : ∀ id s, store.snapshots.get? id = some s → values id s.value
  cursors : ∀ id c, store.cursors.get? id = some c → cursors id c

variable {values : String → EntityCollectionSnapshot → Prop}
  {cursors : String → EntityCollectionCursor → Prop} {store : CollectionStore}

theorem Within.mono {values' : String → EntityCollectionSnapshot → Prop}
    {cursors' : String → EntityCollectionCursor → Prop} (h : store.Within values cursors)
    (hv : ∀ id v, values id v → values' id v) (hc : ∀ id c, cursors id c → cursors' id c) :
    store.Within values' cursors' :=
  ⟨fun id s hs => hv id _ (h.values id s hs), fun id c hget => hc id c (h.cursors id c hget)⟩

theorem Within.prune (h : store.Within values cursors) (now : Rat) :
    (store.prune now).Within values cursors where
  values id s hs := h.values id s (Dict.get?_filter_eq_some.mp hs).1
  cursors id c hc := h.cursors id c (Dict.get?_filter_eq_some.mp hc).1

theorem Within.publish (h : store.Within values cursors) (options : CollectionStoreOptions)
    (now later : Rat) {snapshot : EntityCollectionSnapshot}
    (hvalue : values snapshot.id snapshot) :
    (store.publish options now later snapshot).2.Within values cursors := by
  have hpruned := h.prune now
  have hwithout : ∀ (e : Option String) id s,
      (withoutEvicted (store.prune now).snapshots e).get? id = some s → values id s.value := by
    intro e id s hs
    cases e with
    | none => exact hpruned.values id s hs
    | some id' =>
      rw [withoutEvicted, Dict.get?_erase] at hs
      split at hs
      · simp at hs
      · exact hpruned.values id s hs
  have hretained : ∀ (e : Option String) (previous : String) (t : Rat) id s,
      (retainUntil (withoutEvicted (store.prune now).snapshots e) previous t).get? id = some s →
        values id s.value := by
    intro e previous t id s hs
    unfold retainUntil at hs
    split at hs
    · exact hwithout e id s hs
    · rename_i old hold
      rw [Dict.get?_set] at hs
      split at hs
      · rename_i hid
        rw [← Option.some.inj hs, hid]
        exact hwithout e previous old hold
      · exact hwithout e id s hs
  unfold CollectionStore.publish
  simp only
  split
  · exact hpruned
  · split
    · exact hpruned
    · refine ⟨fun id s hs => ?_, hpruned.cursors⟩
      rw [Dict.get?_set] at hs
      split at hs
      · rename_i hid
        rw [← Option.some.inj hs, hid]
        exact hvalue
      · exact hretained _ _ _ id s hs

theorem Within.putCursor (h : store.Within values cursors) (options : CollectionStoreOptions)
    (now : Rat) {id : String} {cursor : EntityCollectionCursor} (hcursor : cursors id cursor) :
    (store.putCursor options now id cursor).Within values cursors := by
  have hpruned := h.prune now
  refine ⟨hpruned.values, fun id' c hc => ?_⟩
  simp only [CollectionStore.putCursor] at hc
  rw [Dict.get?_set] at hc
  split at hc
  · rename_i hid
    rw [← Option.some.inj hc, hid]
    exact hcursor
  · split at hc
    · rw [Dict.get?_erase] at hc
      split at hc
      · simp at hc
      · exact hpruned.cursors id' c hc
    · exact hpruned.cursors id' c hc

theorem Within.getSnapshot (h : store.Within values cursors) {now : Rat} {id : String}
    {snapshot : EntityCollectionSnapshot} (hs : (store.getSnapshot now id).1 = some snapshot) :
    values id snapshot := by
  obtain ⟨s, hget, rfl⟩ := Option.map_eq_some_iff.mp hs
  exact (h.prune now).values id s hget

theorem Within.getCursor (h : store.Within values cursors) {now : Rat} {id : String}
    {cursor : EntityCollectionCursor} (hc : (store.getCursor now id).1 = some cursor) :
    cursors id cursor :=
  (h.prune now).cursors id cursor hc

end CollectionStore

end OidFed
